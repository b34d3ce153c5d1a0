/-
Spans of time and what they cover.  A set of points that ends where a new span
begins can be measured by adding the length of that span.
-/
import Mathlib

open MeasureTheory

structure TimeSpan where
  start : ℚ
  stop : ℚ

namespace TimeSpan

def length (span : TimeSpan) : ℚ := span.stop - span.start

def points (span : TimeSpan) : Set ℝ := Set.Icc span.start span.stop

def total (spans : List TimeSpan) : ℚ := (spans.map length).sum

/-- The points of at least one of the spans. -/
def covered (spans : List TimeSpan) : Set ℝ := ⋃ span ∈ spans, span.points

/-- How long at least one of the spans lasts. -/
noncomputable def measure (spans : List TimeSpan) : ℝ :=
  volume.real (covered spans)

@[simp] theorem total_nil : total [] = 0 := rfl

variable {spans : List TimeSpan} {span : TimeSpan} {low high : ℚ}

@[simp] theorem total_cons :
    total (span :: spans) = span.length + total spans := rfl

@[simp] theorem covered_nil : covered [] = ∅ := by
  simp [covered]

@[simp] theorem covered_cons :
    covered (span :: spans) = span.points ∪ covered spans := by
  ext x
  simp [covered]

@[simp] theorem covered_append {first second : List TimeSpan} :
    covered (first ++ second) = covered first ∪ covered second := by
  induction first with
  | nil => simp
  | cons span first ih => rw [List.cons_append, covered_cons, ih, covered_cons,
      Set.union_assoc]

theorem covered_subset {spans : List TimeSpan} {low high : ℚ}
    (h : ∀ span ∈ spans, low ≤ span.start ∧ span.stop ≤ high) :
    covered spans ⊆ Set.Icc (low : ℝ) high := by
  refine Set.iUnion₂_subset fun span hmem => Set.Icc_subset_Icc ?_ ?_
  · exact_mod_cast (h span hmem).1
  · exact_mod_cast (h span hmem).2

theorem measure_nonneg : 0 ≤ measure spans :=
  measureReal_nonneg

theorem real_Icc {a b : ℚ} (h : a ≤ b) :
    volume.real (Set.Icc (a : ℝ) b) = b - a :=
  Real.volume_real_Icc_of_le (by exact_mod_cast h)

/-- What is covered is no longer than a period that holds every span. -/
theorem measure_le (hle : low ≤ high)
    (h : ∀ span ∈ spans, low ≤ span.start ∧ span.stop ≤ high) :
    measure spans ≤ high - low := by
  rw [← real_Icc hle]
  refine measureReal_mono (covered_subset h) ?_
  simp

/-- Overlaps count once in the measure and several times in the total. -/
theorem measure_le_total (h : ∀ span ∈ spans, span.start ≤ span.stop) :
    measure spans ≤ total spans := by
  induction spans with
  | nil => simp [measure]
  | cons span spans ih =>
    have hspan : volume.real span.points = span.length := by
      rw [points, real_Icc (h span List.mem_cons_self), length]
      push_cast
      ring
    have hrest := ih fun other hmem => h other (List.mem_cons_of_mem _ hmem)
    calc measure (span :: spans)
        ≤ volume.real span.points + measure spans := by
          rw [measure, covered_cons]
          exact measureReal_union_le _ _
      _ ≤ total (span :: spans) := by
          rw [hspan, total_cons]
          push_cast
          linarith

end TimeSpan

/-- A set of points is this long and has ended at that time. -/
structure Fills (points : Set ℝ) (length time : ℚ) : Prop where
  measurable : MeasurableSet points
  finite : volume points ≠ ⊤
  long : volume.real points = length
  ended : ∀ x ∈ points, x ≤ time

namespace Fills

variable {points : Set ℝ} {length a b : ℚ}

theorem empty : Fills ∅ 0 a where
  measurable := MeasurableSet.empty
  finite := by simp
  long := by simp
  ended _ h := h.elim

theorem later (h : Fills points length a) (hle : a ≤ b) :
    Fills points length b where
  measurable := h.measurable
  finite := h.finite
  long := h.long
  ended x hx := (h.ended x hx).trans (by exact_mod_cast hle)

/-- It goes on where it ended, or later. -/
theorem extend (h : Fills points length a) (hle : a ≤ b) :
    Fills (points ∪ Set.Icc (a : ℝ) b) (length + (b - a)) b where
  measurable := h.measurable.union measurableSet_Icc
  finite := by
    have hIcc : volume (Set.Icc (a : ℝ) b) ≠ ⊤ := by simp
    exact measure_union_ne_top h.finite hIcc
  long := by
    have hshared : volume.real (points ∩ Set.Icc (a : ℝ) b) = 0 := by
      have hsub : points ∩ Set.Icc (a : ℝ) b ⊆ {(a : ℝ)} :=
        fun x hx => le_antisymm (h.ended x hx.1) hx.2.1
      have hnull : volume (points ∩ Set.Icc (a : ℝ) b) = 0 :=
        measure_mono_null hsub (by simp)
      rw [measureReal_def, hnull]
      rfl
    have hsum := measureReal_union_add_inter (μ := volume) (s := points)
      (t := Set.Icc (a : ℝ) b) measurableSet_Icc h.finite (by simp)
    rw [hshared, add_zero, h.long, TimeSpan.real_Icc hle] at hsum
    rw [hsum]
    push_cast
    ring
  ended x hx := by
    rcases hx with hx | hx
    · exact (h.ended x hx).trans (by exact_mod_cast hle)
    · exact hx.2

end Fills
