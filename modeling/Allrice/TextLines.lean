/-
Cutting a sequence at a separator: the complete lines, each with its separator,
and what is left.  A text that arrives in parts has the lines that its parts
complete.
-/
import Mathlib

namespace TextLines

variable {α : Type} [DecidableEq α]

/-- The complete lines and the rest. -/
def splitLines (sep : α) : List α → List (List α) × List α
  | [] => ([], [])
  | unit :: text =>
    let (lines, rest) := splitLines sep text
    if unit = sep then ([unit] :: lines, rest)
    else
      match lines with
      | [] => ([], unit :: rest)
      | line :: more => ((unit :: line) :: more, rest)

def linesOf (sep : α) (text : List α) : List (List α) :=
  (splitLines sep text).1

def restOf (sep : α) (text : List α) : List α :=
  (splitLines sep text).2

variable {sep : α}

@[simp] theorem linesOf_nil : linesOf sep [] = [] := rfl

@[simp] theorem restOf_nil : restOf sep [] = [] := rfl

theorem linesOf_cons_sep (text : List α) :
    linesOf sep (sep :: text) = [sep] :: linesOf sep text := by
  simp [linesOf, splitLines]

theorem restOf_cons_sep (text : List α) :
    restOf sep (sep :: text) = restOf sep text := by
  simp [restOf, splitLines]

variable {text line : List α} {unit : α}

theorem linesOf_cons_of_ne (h : unit ≠ sep) (text : List α) :
    linesOf sep (unit :: text) =
      match linesOf sep text with
      | [] => []
      | line :: more => (unit :: line) :: more := by
  simp only [linesOf, splitLines, if_neg h]
  split <;> rfl

theorem restOf_cons_of_ne (h : unit ≠ sep) (text : List α) :
    restOf sep (unit :: text) =
      match linesOf sep text with
      | [] => unit :: restOf sep text
      | _ :: _ => restOf sep text := by
  simp only [linesOf, restOf, splitLines, if_neg h]
  split <;> rfl

/-- A text and its continuation. -/
theorem linesOf_append (sep : α) (text more : List α) :
    linesOf sep (text ++ more) =
      linesOf sep text ++ linesOf sep (restOf sep text ++ more) := by
  induction text with
  | nil => rfl
  | cons unit text ih =>
    rw [List.cons_append]
    by_cases hunit : unit = sep
    · subst hunit
      rw [linesOf_cons_sep, linesOf_cons_sep, restOf_cons_sep, ih]
      rfl
    · rw [linesOf_cons_of_ne hunit, linesOf_cons_of_ne hunit,
        restOf_cons_of_ne hunit, ih]
      cases htext : linesOf sep text with
      | nil =>
        simp only [List.nil_append, List.cons_append]
        rw [linesOf_cons_of_ne hunit]
      | cons line others => rfl

theorem restOf_append (sep : α) (text more : List α) :
    restOf sep (text ++ more) = restOf sep (restOf sep text ++ more) := by
  induction text with
  | nil => rfl
  | cons unit text ih =>
    rw [List.cons_append]
    by_cases hunit : unit = sep
    · subst hunit
      rw [restOf_cons_sep, restOf_cons_sep, ih]
    · rw [restOf_cons_of_ne hunit, restOf_cons_of_ne hunit,
        linesOf_append, ih]
      cases htext : linesOf sep text with
      | nil =>
        simp only [List.nil_append, List.cons_append]
        rw [restOf_cons_of_ne hunit]
      | cons line others => rfl

theorem splitLines_of_not_mem (h : sep ∉ text) :
    linesOf sep text = [] ∧ restOf sep text = text := by
  induction text with
  | nil => exact ⟨rfl, rfl⟩
  | cons unit text ih =>
    have hunit : unit ≠ sep := by
      intro heq
      apply h
      simp [heq]
    have htext : sep ∉ text := by
      intro hmem
      apply h
      simp [hmem]
    obtain ⟨hlines, hrest⟩ := ih htext
    rw [linesOf_cons_of_ne hunit, restOf_cons_of_ne hunit, hlines, hrest]
    exact ⟨rfl, rfl⟩

/-- The first line of a text. -/
theorem splitLines_line (h : sep ∉ line) (text : List α) :
    linesOf sep (line ++ sep :: text) =
        (line ++ [sep]) :: linesOf sep text ∧
      restOf sep (line ++ sep :: text) = restOf sep text := by
  induction line with
  | nil => exact ⟨linesOf_cons_sep text, restOf_cons_sep text⟩
  | cons unit line ih =>
    have hunit : unit ≠ sep := by
      intro heq
      apply h
      simp [heq]
    have hline : sep ∉ line := by
      intro hmem
      apply h
      simp [hmem]
    obtain ⟨hlines, hrest⟩ := ih hline
    rw [List.cons_append, linesOf_cons_of_ne hunit,
      restOf_cons_of_ne hunit, hlines, hrest]
    exact ⟨rfl, rfl⟩

theorem not_mem_of_linesOf_nil (h : linesOf sep text = []) : sep ∉ text := by
  intro hmem
  obtain ⟨line, more, rfl, hline⟩ := List.eq_append_cons_of_mem hmem
  rw [(splitLines_line hline more).1] at h
  cases h

/-- The rest after one unit more. -/
theorem restOf_snoc (sep : α) (text : List α) (unit : α) :
    sep ∉ restOf sep text ∧
      restOf sep (text ++ [unit]) =
        if unit = sep then [] else restOf sep text ++ [unit] := by
  have hnot : sep ∉ restOf sep text := by
    induction text using List.reverseRecOn with
    | nil => simp
    | append_singleton text last ih =>
      rw [restOf_append]
      by_cases hlast : last = sep
      · subst hlast
        rw [(splitLines_line ih []).2]
        simp
      · have hmem : sep ∉ restOf sep text ++ [last] := by
          simp only [List.mem_append, List.mem_singleton, not_or]
          exact ⟨ih, Ne.symm hlast⟩
        rw [(splitLines_of_not_mem hmem).2]
        exact hmem
  refine ⟨hnot, ?_⟩
  rw [restOf_append]
  by_cases hunit : unit = sep
  · subst hunit
    rw [(splitLines_line hnot []).2, if_pos rfl]
    rfl
  · have hmem : sep ∉ restOf sep text ++ [unit] := by
      simp only [List.mem_append, List.mem_singleton, not_or]
      exact ⟨hnot, Ne.symm hunit⟩
    rw [(splitLines_of_not_mem hmem).2, if_neg hunit]

theorem sep_not_mem_restOf (sep : α) (text : List α) : sep ∉ restOf sep text := by
  cases text with
  | nil => simp
  | cons unit text => exact (restOf_snoc sep (unit :: text) unit).1

/-- A text consists of complete lines and the rest. -/
theorem exists_complete (sep : α) (text : List α) :
    ∃ before, text = before ++ restOf sep text ∧ restOf sep before = [] := by
  induction text using List.reverseRecOn with
  | nil => exact ⟨[], rfl, rfl⟩
  | append_singleton text unit ih =>
    obtain ⟨before, heq, hbefore⟩ := ih
    have hsnoc := (restOf_snoc sep text unit).2
    by_cases hunit : unit = sep
    · rw [if_pos hunit] at hsnoc
      exact ⟨text ++ [unit], by rw [hsnoc, List.append_nil], hsnoc⟩
    · rw [if_neg hunit] at hsnoc
      refine ⟨before, ?_, hbefore⟩
      rw [hsnoc, ← List.append_assoc, ← heq]

/-- Complete lines end in the separator. -/
theorem ends_of_complete (h : restOf sep text = []) :
    text = [] ∨ ∃ before, text = before ++ [sep] := by
  induction text using List.reverseRecOn with
  | nil => exact .inl rfl
  | append_singleton text unit ih =>
    apply Or.inr
    rw [(restOf_snoc sep text unit).2] at h
    by_cases hunit : unit = sep
    · exact ⟨text, by rw [hunit]⟩
    · rw [if_neg hunit] at h
      simp at h

/-- The start of a line, and a text that completes it. -/
theorem splitLines_prefix {front back : List α} (h : sep ∉ front)
    {more : List (List α)} (hlines : linesOf sep back = line :: more) :
    linesOf sep (front ++ back) = (front ++ line) :: more ∧
      restOf sep (front ++ back) = restOf sep back := by
  induction front with
  | nil => exact ⟨hlines, rfl⟩
  | cons unit front ih =>
    have hunit : unit ≠ sep := by
      intro heq
      apply h
      simp [heq]
    have hfront : sep ∉ front := by
      intro hmem
      apply h
      simp [hmem]
    obtain ⟨hone, htwo⟩ := ih hfront
    rw [List.cons_append, linesOf_cons_of_ne hunit,
      restOf_cons_of_ne hunit, hone, htwo]
    exact ⟨rfl, rfl⟩

/-- What follows complete lines is cut on its own. -/
theorem splitLines_after {before : List α} (h : restOf sep before = [])
    (text : List α) :
    linesOf sep (before ++ text) = linesOf sep before ++ linesOf sep text ∧
      restOf sep (before ++ text) = restOf sep text := by
  rw [linesOf_append, restOf_append, h]
  exact ⟨rfl, rfl⟩

/-- Line by line: a text without a separator, or a line before another text. -/
@[elab_as_elim]
theorem line_induction (sep : α) {motive : List α → Prop}
    (rest : ∀ text, sep ∉ text → motive text)
    (line : ∀ part more, sep ∉ part → motive more →
      motive (part ++ sep :: more)) (text : List α) : motive text := by
  by_cases h : sep ∈ text
  · obtain ⟨part, more, heq, hpart⟩ := List.eq_append_cons_of_mem h
    rw [heq]
    exact line part more hpart (line_induction sep rest line more)
  · exact rest text h
termination_by text.length
decreasing_by
  rw [heq, List.length_append, List.length_cons]
  omega

end TextLines
