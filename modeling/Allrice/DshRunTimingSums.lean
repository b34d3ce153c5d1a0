/-
The report of a run adds up: what is kept while checks overlap gives the sum of
their spans and the measure of the time that they cover.
-/
import Allrice.DshRunTiming

namespace Allrice.DshRunTiming

open TimeSpan

variable {x now next : ℚ} {ι : Type}

theorem bounded_of_nonneg (h : 0 ≤ x) : bounded x = min maxSafeInteger x := by
  rw [bounded, max_eq_right h]

theorem bounded_nonneg (x : ℚ) : 0 ≤ bounded x :=
  le_min (by norm_num [maxSafeInteger]) (le_max_left 0 x)

theorem bounded_le (x : ℚ) : bounded x ≤ maxSafeInteger :=
  min_le_left _ _

theorem bounded_eq (h : 0 ≤ x) (hle : x ≤ maxSafeInteger) : bounded x = x := by
  rw [bounded_of_nonneg h, min_eq_right hle]

/-- Bounding the parts first changes nothing. -/
theorem bounded_sum (items : List ι) (x : ι → ℚ)
    (h : ∀ item ∈ items, 0 ≤ x item) :
    bounded (items.map fun item => bounded (x item)).sum =
      bounded (items.map x).sum := by
  induction items with
  | nil => rfl
  | cons item items ih =>
    have hitem := h item List.mem_cons_self
    have hitems := fun other hmem => h other (List.mem_cons_of_mem item hmem)
    have hsum : 0 ≤ (items.map x).sum := by
      refine List.sum_nonneg fun y hy => ?_
      obtain ⟨other, hmem, rfl⟩ := List.mem_map.1 hy
      exact hitems other hmem
    have hbounds : 0 ≤ (items.map fun item => bounded (x item)).sum := by
      refine List.sum_nonneg fun y hy => ?_
      obtain ⟨other, -, rfl⟩ := List.mem_map.1 hy
      exact bounded_nonneg _
    have hih := ih hitems
    rw [bounded_of_nonneg hbounds, bounded_of_nonneg hsum] at hih
    simp only [List.map_cons, List.sum_cons]
    rw [bounded_of_nonneg (add_nonneg (bounded_nonneg _) hbounds),
      bounded_of_nonneg (add_nonneg hitem hsum), bounded_of_nonneg hitem]
    have hpositive : 0 ≤ maxSafeInteger := by norm_num [maxSafeInteger]
    generalize maxSafeInteger = limit at hih hpositive ⊢
    generalize (items.map fun item => bounded (x item)).sum = low at *
    generalize (items.map x).sum = high at *
    rcases le_total limit (x item) with hbig | hsmall
    · rw [min_eq_left hbig, min_eq_left (by linarith),
        min_eq_left (by linarith)]
    rw [min_eq_right hsmall]
    rcases le_total limit low with hlow | hlow
    · rw [min_eq_left hlow] at hih
      have hhigh : limit ≤ high := by
        rw [hih]
        exact min_le_right _ _
      rw [min_eq_left (by linarith), min_eq_left (by linarith)]
    · rw [min_eq_right hlow] at hih
      rcases le_total limit high with hhigh | hhigh
      · rw [min_eq_left hhigh] at hih
        rw [hih, min_eq_left (by linarith), min_eq_left (by linarith)]
      · rw [min_eq_right hhigh] at hih
        rw [hih]

theorem foldl_add (items : List ι) (x : ι → ℚ) (first : ℚ) :
    items.foldl (fun sum item => sum + x item) first =
      first + (items.map x).sum := by
  induction items generalizing first with
  | nil => simp
  | cons item items ih =>
    rw [List.foldl_cons, ih, List.map_cons, List.sum_cons, add_assoc]

namespace Observed

def isPending (o : Observed) : Bool := o.ended.isNone

def hasFailed (o : Observed) : Bool := o.ended.any Prod.snd

/-- The span of a check, up to now while it has not ended. -/
def spanAt (now : ℚ) (o : Observed) : TimeSpan :=
  ⟨o.start, (o.ended.map Prod.fst).getD now⟩

/-- Only of a phase. -/
def inPhase (phase : Phase) (x : Observed → ℚ) (o : Observed) : ℚ :=
  if o.phase = phase then x o else 0

def doneMs (o : Observed) : ℚ :=
  match o.ended with
  | some ended => ended.1 - o.start
  | none => 0

def pendingStart (o : Observed) : ℚ :=
  match o.ended with
  | some _ => 0
  | none => o.start

end Observed

def spansAt (now : ℚ) (obs : List Observed) : List TimeSpan :=
  obs.map (Observed.spanAt now)

/-- The checks of a phase that have a property. -/
def countIn (phase : Phase) (p : Observed → Bool) (obs : List Observed) : Nat :=
  obs.countP fun o => o.phase = phase ∧ p o

def sumIn (phase : Phase) (x : Observed → ℚ) (obs : List Observed) : ℚ :=
  (obs.map (Observed.inPhase phase x)).sum

@[simp] theorem countIn_append (phase : Phase) (p : Observed → Bool)
    (first second : List Observed) :
    countIn phase p (first ++ second) =
      countIn phase p first + countIn phase p second :=
  List.countP_append

@[simp] theorem countIn_cons (phase : Phase) (p : Observed → Bool)
    (o : Observed) (obs : List Observed) :
    countIn phase p (o :: obs) =
      countIn phase p obs + if o.phase = phase ∧ p o then 1 else 0 := by
  simp [countIn, List.countP_cons]

@[simp] theorem countIn_nil (phase : Phase) (p : Observed → Bool) :
    countIn phase p [] = 0 := rfl

@[simp] theorem sumIn_append (phase : Phase) (x : Observed → ℚ)
    (first second : List Observed) :
    sumIn phase x (first ++ second) =
      sumIn phase x first + sumIn phase x second := by
  simp [sumIn]

@[simp] theorem sumIn_cons (phase : Phase) (x : Observed → ℚ)
    (o : Observed) (obs : List Observed) :
    sumIn phase x (o :: obs) =
      (if o.phase = phase then x o else 0) + sumIn phase x obs := rfl

@[simp] theorem sumIn_nil (phase : Phase) (x : Observed → ℚ) :
    sumIn phase x [] = 0 := rfl

/-- Every check has one phase. -/
theorem sum_sumIn (x : Observed → ℚ) (obs : List Observed) :
    (contentPhases.map fun phase => sumIn phase x obs).sum =
      (obs.map x).sum := by
  induction obs with
  | nil => simp
  | cons o obs ih =>
    have hone : (contentPhases.map fun phase =>
        if o.phase = phase then x o else 0).sum = x o := by
      cases o.phase <;> simp [contentPhases]
    simp only [sumIn_cons, List.sum_map_add, hone, ih, List.map_cons,
      List.sum_cons]

theorem sum_countIn (p : Observed → Bool) (obs : List Observed) :
    (contentPhases.map fun phase => (countIn phase p obs : ℚ)).sum =
      obs.countP p := by
  induction obs with
  | nil => simp
  | cons o obs ih =>
    have hone : (contentPhases.map fun phase =>
        ((if o.phase = phase ∧ p o then 1 else 0 : ℕ) : ℚ)).sum =
          (if p o then 1 else 0 : ℕ) := by
      cases o.phase <;> cases p o <;> simp [contentPhases]
    simp only [countIn_cons, Nat.cast_add, List.sum_map_add, hone, ih,
      List.countP_cons]

/-- The parts that are kept of a phase give the total of its spans. -/
theorem sumIn_length (phase : Phase) (now : ℚ) (obs : List Observed) :
    sumIn phase (fun o => (o.spanAt now).length) obs =
      sumIn phase Observed.doneMs obs +
        countIn phase Observed.isPending obs * now -
          sumIn phase Observed.pendingStart obs := by
  induction obs with
  | nil => simp
  | cons o obs ih =>
    simp only [sumIn_cons, countIn_cons, ih]
    by_cases hphase : o.phase = phase
    · cases hended : o.ended with
      | none | some ended =>
        simp [hphase, hended, Observed.isPending, Observed.doneMs,
          Observed.pendingStart, Observed.spanAt, length]
        ring
    · simp [hphase]

/-- What is counted is what the calls have observed. -/
structure Tally (obs : List Observed) (checks : Phase → ContentPhaseState)
    (activeChecks : Nat) : Prop where
  calls : ∀ phase, (checks phase).calls = countIn phase (fun _ => true) obs
  failed : ∀ phase, (checks phase).failed = countIn phase Observed.hasFailed obs
  pending : ∀ phase,
    (checks phase).pending = countIn phase Observed.isPending obs
  durationMs : ∀ phase,
    (checks phase).durationMs = sumIn phase Observed.doneMs obs
  pendingStarts : ∀ phase,
    (checks phase).pendingStarts = sumIn phase Observed.pendingStart obs
  active : activeChecks = obs.countP Observed.isPending

namespace Tally

variable {obs before later : List Observed}
  {checks : Phase → ContentPhaseState} {activeChecks : Nat}

theorem begins (h : Tally obs checks activeChecks) (phase : Phase) (start : ℚ) :
    Tally (obs ++ [⟨phase, start, none⟩])
      (Function.update checks phase
        { checks phase with
          calls := (checks phase).calls + 1
          pending := (checks phase).pending + 1
          pendingStarts := (checks phase).pendingStarts + start })
      (activeChecks + 1) := by
  constructor
  · intro asked
    rcases eq_or_ne asked phase with rfl | hne
    · simp [h.calls]
    · simp [hne, hne.symm, h.calls]
  · intro asked
    rcases eq_or_ne asked phase with rfl | hne
    · simp [h.failed, Observed.hasFailed]
    · simp [hne, hne.symm, h.failed]
  · intro asked
    rcases eq_or_ne asked phase with rfl | hne
    · simp [h.pending, Observed.isPending]
    · simp [hne, hne.symm, h.pending]
  · intro asked
    rcases eq_or_ne asked phase with rfl | hne
    · simp [h.durationMs, Observed.doneMs]
    · simp [hne, hne.symm, h.durationMs]
  · intro asked
    rcases eq_or_ne asked phase with rfl | hne
    · simp [h.pendingStarts, Observed.pendingStart]
    · simp [hne, hne.symm, h.pendingStarts]
  · simp [h.active, List.countP_append, Observed.isPending]

theorem ends {o : Observed}
    (h : Tally (before ++ o :: later) checks activeChecks)
    (hpending : o.ended = none) (stop : ℚ) (failed : Bool) :
    Tally (before ++ { o with ended := some (stop, failed) } :: later)
      (Function.update checks o.phase
        { checks o.phase with
          durationMs := (checks o.phase).durationMs + (stop - o.start)
          pending := (checks o.phase).pending - 1
          pendingStarts := (checks o.phase).pendingStarts - o.start
          failed :=
            if failed then (checks o.phase).failed + 1
            else (checks o.phase).failed })
      (activeChecks - 1) := by
  constructor
  · intro asked
    rcases eq_or_ne asked o.phase with rfl | hne
    · simp [h.calls]
    · simp [hne, hne.symm, h.calls]
  · intro asked
    rcases eq_or_ne asked o.phase with rfl | hne
    · cases failed <;> simp [h.failed, Observed.hasFailed, hpending, add_assoc]
    · simp [hne, hne.symm, h.failed]
  · intro asked
    rcases eq_or_ne asked o.phase with rfl | hne
    · simp [h.pending, Observed.isPending, hpending, ← add_assoc]
    · simp [hne, hne.symm, h.pending]
  · intro asked
    rcases eq_or_ne asked o.phase with rfl | hne
    · simp [h.durationMs, Observed.doneMs, hpending]
      ring
    · simp [hne, hne.symm, h.durationMs]
  · intro asked
    rcases eq_or_ne asked o.phase with rfl | hne
    · simp [h.pendingStarts, Observed.pendingStart, hpending]
      ring
    · simp [hne, hne.symm, h.pendingStarts]
  · simp [h.active, List.countP_append, Observed.isPending, hpending,
      ← add_assoc]

end Tally

/-- Every span lies between the start of the run and now. -/
structure OnTime (obs : List Observed) (now : ℚ) : Prop where
  nonneg : 0 ≤ now
  limit : now ≤ maxSafeInteger
  started : ∀ o ∈ obs, 0 ≤ o.start ∧ o.start ≤ now
  ended : ∀ o ∈ obs, ∀ ended, o.ended = some ended →
    o.start ≤ ended.1 ∧ ended.1 ≤ now

/-- The time that is covered, apart from the busy period that has not ended, has
been measured. -/
structure Busy (obs : List Observed) (activeChecks : Nat)
    (unionStart checkUnionMs now : ℚ) : Prop where
  fills : ∃ busy : Set ℝ,
    covered (spansAt now obs) =
      busy ∪ (if 0 < activeChecks then Set.Icc (unionStart : ℝ) now else ∅) ∧
    Fills busy checkUnionMs (if 0 < activeChecks then unionStart else now)
  started : 0 < activeChecks → unionStart ≤ now

theorem Observed.points_later {o : Observed} (hstart : o.start ≤ now)
    (hle : now ≤ next) :
    (o.spanAt next).points = (o.spanAt now).points ∪
      if o.isPending then Set.Icc (now : ℝ) next else ∅ := by
  cases hended : o.ended with
  | none =>
    simp only [Observed.spanAt, Observed.isPending, hended, Option.map_none,
      Option.getD_none, Option.isNone_none, ↓reduceIte, points]
    refine (Set.Icc_union_Icc_eq_Icc ?_ ?_).symm
    · exact_mod_cast hstart
    · exact_mod_cast hle
  | some ended =>
    simp [Observed.spanAt, Observed.isPending, hended, points]

theorem covered_later {obs : List Observed} (hstart : ∀ o ∈ obs, o.start ≤ now)
    (hle : now ≤ next) :
    covered (spansAt next obs) = covered (spansAt now obs) ∪
      if 0 < obs.countP Observed.isPending then Set.Icc (now : ℝ) next
      else ∅ := by
  induction obs with
  | nil => simp [spansAt]
  | cons o obs ih =>
    have hfirst := Observed.points_later (hstart o List.mem_cons_self) hle
    have hrest := ih fun asked hmem =>
      hstart asked (List.mem_cons_of_mem o hmem)
    simp only [spansAt, List.map_cons, covered_cons] at hrest ⊢
    rw [hfirst, hrest, List.countP_cons]
    by_cases hpending : o.isPending = true
    · by_cases hmany : 0 < obs.countP Observed.isPending
      · simp [hpending, hmany]
        grind
      · simp [hpending, hmany]
        grind
    · simp [hpending, Set.union_assoc]

namespace OnTime

variable {obs before rest : List Observed} {now next : ℚ}

theorem later (h : OnTime obs now) (hle : now ≤ next)
    (hlimit : next ≤ maxSafeInteger) : OnTime obs next where
  nonneg := h.nonneg.trans hle
  limit := hlimit
  started o hmem := ⟨(h.started o hmem).1, (h.started o hmem).2.trans hle⟩
  ended o hmem ended hended :=
    ⟨(h.ended o hmem ended hended).1, (h.ended o hmem ended hended).2.trans hle⟩

theorem begins (h : OnTime obs now) (phase : Phase) :
    OnTime (obs ++ [⟨phase, now, none⟩]) now where
  nonneg := h.nonneg
  limit := h.limit
  started o hmem := by
    rcases List.mem_append.1 hmem with hold | hnew
    · exact h.started o hold
    · rw [List.mem_singleton] at hnew
      rw [hnew]
      exact ⟨h.nonneg, le_rfl⟩
  ended o hmem ended hended := by
    rcases List.mem_append.1 hmem with hold | hnew
    · exact h.ended o hold ended hended
    · rw [List.mem_singleton] at hnew
      rw [hnew] at hended
      cases hended

theorem ends {o : Observed} (h : OnTime (before ++ o :: rest) now)
    (failed : Bool) :
    OnTime (before ++ { o with ended := some (now, failed) } :: rest) now where
  nonneg := h.nonneg
  limit := h.limit
  started asked hmem := by
    rcases List.mem_append.1 hmem with hbefore | hrest
    · exact h.started asked (List.mem_append_left _ hbefore)
    rcases List.mem_cons.1 hrest with hself | hrest
    · rw [hself]
      exact h.started o (List.mem_append_right _ List.mem_cons_self)
    · exact h.started asked
        (List.mem_append_right _ (List.mem_cons_of_mem o hrest))
  ended asked hmem ended hended := by
    rcases List.mem_append.1 hmem with hbefore | hrest
    · exact h.ended asked (List.mem_append_left _ hbefore) ended hended
    rcases List.mem_cons.1 hrest with hself | hrest
    · rw [hself] at hended ⊢
      cases hended
      have hstarted :=
        h.started o (List.mem_append_right _ List.mem_cons_self)
      exact ⟨hstarted.2, le_rfl⟩
    · exact h.ended asked
        (List.mem_append_right _ (List.mem_cons_of_mem o hrest)) ended hended

/-- The spans that a report speaks of lie in the run. -/
theorem spans (h : OnTime obs now) : ∀ span ∈ spansAt now obs,
    0 ≤ span.start ∧ span.start ≤ span.stop ∧ span.stop ≤ now := by
  intro span hmem
  obtain ⟨o, ho, rfl⟩ := List.mem_map.1 hmem
  obtain ⟨hfirst, hstart⟩ := h.started o ho
  cases hended : o.ended with
  | none => simp [Observed.spanAt, hended, hfirst, hstart]
  | some ended =>
    obtain ⟨hstop, hnow⟩ := h.ended o ho ended hended
    simp [Observed.spanAt, hended, hfirst, hstop, hnow]

end OnTime

namespace Busy

variable {obs before rest : List Observed} {activeChecks : Nat}
  {unionStart checkUnionMs now next : ℚ}

theorem later (h : Busy obs activeChecks unionStart checkUnionMs now)
    (hactive : activeChecks = obs.countP Observed.isPending)
    (htime : OnTime obs now) (hle : now ≤ next) :
    Busy obs activeChecks unionStart checkUnionMs next := by
  obtain ⟨⟨busy, hcovered, hfills⟩, hstarted⟩ := h
  have hlater := covered_later (fun o ho => (htime.started o ho).2) hle
  rw [← hactive] at hlater
  constructor
  · refine ⟨busy, ?_, ?_⟩
    · rw [hlater, hcovered]
      by_cases hbusy : 0 < activeChecks
      · rw [if_pos hbusy, if_pos hbusy, if_pos hbusy, Set.union_assoc,
          Set.Icc_union_Icc_eq_Icc]
        · exact_mod_cast hstarted hbusy
        · exact_mod_cast hle
      · simp [hbusy]
    · by_cases hbusy : 0 < activeChecks
      · simpa [hbusy] using hfills
      · simp only [hbusy, ↓reduceIte] at hfills ⊢
        exact hfills.later hle
  · exact fun hbusy => (hstarted hbusy).trans hle

theorem begins (h : Busy obs activeChecks unionStart checkUnionMs now)
    (phase : Phase) :
    Busy (obs ++ [⟨phase, now, none⟩]) (activeChecks + 1)
      (if activeChecks = 0 then now else unionStart) checkUnionMs now := by
  obtain ⟨⟨busy, hcovered, hfills⟩, hstarted⟩ := h
  have hnew : covered (spansAt now [⟨phase, now, none⟩]) =
      Set.Icc (now : ℝ) now := by
    simp [spansAt, Observed.spanAt, points]
  have hsplit : covered (spansAt now (obs ++ [⟨phase, now, none⟩])) =
      covered (spansAt now obs) ∪ Set.Icc (now : ℝ) now := by
    rw [← hnew, ← covered_append]
    simp [spansAt]
  constructor
  · refine ⟨busy, ?_, ?_⟩
    · rw [hsplit, hcovered]
      by_cases hidle : activeChecks = 0
      · simp [hidle]
      · have hbusy : 0 < activeChecks := Nat.pos_of_ne_zero hidle
        rw [if_pos hbusy, if_pos (Nat.succ_pos _), if_neg hidle,
          Set.union_assoc, Set.Icc_union_Icc_eq_Icc]
        · exact_mod_cast hstarted hbusy
        · exact le_rfl
    · by_cases hidle : activeChecks = 0
      · simpa [hidle] using hfills
      · simpa [hidle, Nat.pos_of_ne_zero hidle] using hfills
  · intro _
    split
    · exact le_rfl
    · rename_i hidle
      exact hstarted (Nat.pos_of_ne_zero hidle)

theorem ends {o : Observed}
    (h : Busy (before ++ o :: rest) activeChecks unionStart checkUnionMs now)
    (hpending : o.ended = none) (hbusy : 0 < activeChecks) (failed : Bool) :
    Busy (before ++ { o with ended := some (now, failed) } :: rest)
      (activeChecks - 1) unionStart
      (if activeChecks - 1 = 0 then checkUnionMs + (now - unionStart)
        else checkUnionMs) now := by
  obtain ⟨⟨busy, hcovered, hfills⟩, hstarted⟩ := h
  have hsame : spansAt now
      (before ++ { o with ended := some (now, failed) } :: rest) =
        spansAt now (before ++ o :: rest) := by
    simp [spansAt, Observed.spanAt, hpending]
  rw [if_pos hbusy] at hcovered hfills
  constructor
  · by_cases hlast : activeChecks - 1 = 0
    · refine ⟨busy ∪ Set.Icc (unionStart : ℝ) now, ?_, ?_⟩
      · rw [hsame, hcovered, hlast]
        simp
      · rw [hlast]
        exact hfills.extend (hstarted hbusy)
    · refine ⟨busy, ?_, ?_⟩
      · rw [hsame, hcovered, if_pos (Nat.pos_of_ne_zero hlast)]
      · rw [if_neg hlast, if_pos (Nat.pos_of_ne_zero hlast)]
        exact hfills
  · exact fun _ => hstarted hbusy

/-- What has been measured, with the period that goes on, is the measure. -/
theorem measure (h : Busy obs activeChecks unionStart checkUnionMs now) :
    ((checkUnionMs +
      if 0 < activeChecks then now - unionStart else 0 : ℚ) : ℝ) =
        TimeSpan.measure (spansAt now obs) := by
  obtain ⟨⟨busy, hcovered, hfills⟩, hstarted⟩ := h
  rw [TimeSpan.measure, hcovered]
  by_cases hbusy : 0 < activeChecks
  · rw [if_pos hbusy] at hfills
    rw [if_pos hbusy, if_pos hbusy]
    exact (hfills.extend (hstarted hbusy)).long.symm
  · rw [if_neg hbusy, if_neg hbusy, Set.union_empty, hfills.long, add_zero]

end Busy

end Allrice.DshRunTiming
