/-
The last entry of an append-only log that a reader picks out, with its
position.  Whoever derives a status from a log by its last match has to know
which later entries can change it.
-/
import Mathlib

universe u v

variable {α : Type u} {β : Type v} {pick : α → Option β} {log more : List α}

/-- What `pick` finds in the last entry that it accepts, and where. -/
def lastEntry (pick : α → Option β) (log : List α) : Option (β × Nat) :=
  (log.zipIdx.filterMap fun entry =>
    (pick entry.1).map fun found => (found, entry.2)).getLast?

@[simp] theorem lastEntry_nil : lastEntry pick [] = none := rfl

@[simp] theorem lastEntry_concat (entry : α) :
    lastEntry pick (log ++ [entry]) =
      match pick entry with
      | some found => some (found, log.length)
      | none => lastEntry pick log := by
  unfold lastEntry
  rw [List.zipIdx_append, List.filterMap_append]
  cases h : pick entry <;> simp [h]

/-- Entries that are not picked change nothing. -/
theorem lastEntry_append_of_none (h : ∀ entry ∈ more, pick entry = none) :
    lastEntry pick (log ++ more) = lastEntry pick log := by
  induction more using List.reverseRecOn with
  | nil => rw [List.append_nil]
  | append_singleton more entry ih =>
    rw [← List.append_assoc, lastEntry_concat,
      h entry (by simp)]
    apply ih
    intro earlier hearlier
    exact h earlier (by simp [hearlier])

theorem lastEntry_eq_none_iff :
    lastEntry pick log = none ↔ ∀ entry ∈ log, pick entry = none := by
  induction log using List.reverseRecOn with
  | nil => simp
  | append_singleton log entry ih =>
    rw [lastEntry_concat]
    cases h : pick entry with
    | some found => simp [h]
    | none =>
      simp only [ih, List.mem_append, List.mem_singleton]
      grind

variable {found : β} {i : Nat}

/-- What is found stands in the log, and nothing after it is picked. -/
theorem lastEntry_eq_some_iff :
    lastEntry pick log = some (found, i) ↔
      (∃ entry, log[i]? = some entry ∧ pick entry = some found) ∧
        ∀ entry ∈ log.drop (i + 1), pick entry = none := by
  induction log using List.reverseRecOn with
  | nil => simp
  | append_singleton log entry ih =>
    rw [lastEntry_concat]
    rcases Nat.lt_trichotomy i log.length with hi | rfl | hi
    · rw [List.getElem?_append_left hi, List.drop_append_of_le_length hi]
      cases h : pick entry with
      | some other =>
        simp only [Option.some.injEq, Prod.mk.injEq]
        constructor
        · rintro ⟨-, rfl⟩
          omega
        · rintro ⟨-, hnone⟩
          have := hnone entry (by simp)
          simp [h] at this
      | none =>
        simp only [ih, List.mem_append, List.mem_singleton]
        grind
    · rw [List.getElem?_concat_length, List.drop_of_length_le (by simp)]
      cases h : pick entry with
      | some other => simp [h]
      | none =>
        simp only [ih, Option.some.injEq, exists_eq_left', h]
        simp
    · have hout : (log ++ [entry])[i]? = none := by
        rw [List.getElem?_eq_none_iff]
        simpa using hi
      cases h : pick entry with
      | some other =>
        simp only [hout, Option.some.injEq, Prod.mk.injEq]
        constructor
        · rintro ⟨-, rfl⟩
          omega
        · rintro ⟨⟨_, ⟨⟩, _⟩, _⟩
      | none =>
        simp only [ih, hout]
        rw [List.getElem?_eq_none hi.le]
        simp

theorem lastEntry_mem (h : lastEntry pick log = some (found, i)) :
    ∃ entry ∈ log, pick entry = some found := by
  obtain ⟨entry, hentry, hpick⟩ := (lastEntry_eq_some_iff.1 h).1
  exact ⟨entry, List.mem_of_getElem? hentry, hpick⟩

theorem lastEntry_lt (h : lastEntry pick log = some (found, i)) :
    i < log.length := by
  obtain ⟨entry, hentry, -⟩ := (lastEntry_eq_some_iff.1 h).1
  exact (List.getElem?_eq_some_iff.1 hentry).1

/-- An entry that alone is picked is the last one. -/
theorem lastEntry_of_mem {entry : α} (hentry : entry ∈ log)
    (hpick : pick entry = some found) :
    ∃ last i, lastEntry pick log = some (last, i) := by
  cases h : lastEntry pick log with
  | none =>
    rw [lastEntry_eq_none_iff] at h
    simp [h entry hentry] at hpick
  | some last => exact ⟨last.1, last.2, rfl⟩

/-- Where no key comes twice, entries with one key are one entry. -/
theorem eq_of_nodup_filterMap {key : α → Option β} {first second : α} {x : β}
    (h : (log.filterMap key).Nodup) (hfirst : first ∈ log)
    (hsecond : second ∈ log) (hkey : key first = some x)
    (hkey' : key second = some x) : first = second := by
  induction log with
  | nil => cases hfirst
  | cons entry log ih =>
    have hmem : ∀ other ∈ log, key other = some x → x ∈ log.filterMap key :=
      fun other hother hx => List.mem_filterMap.2 ⟨other, hother, hx⟩
    cases hentry : key entry with
    | none =>
      rw [List.filterMap_cons_none hentry] at h
      grind
    | some y =>
      rw [List.filterMap_cons_some hentry, List.nodup_cons] at h
      grind
