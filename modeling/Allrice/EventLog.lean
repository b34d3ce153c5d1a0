/-
Append-only logs.  A projection is the state that the entries of a log replay
to, an entry may have a property together with the entries before it, and a log
may number its entries.  All are kept by appending at the end, which is all that
a log ever sees.
-/
import Mathlib

universe u v w

/-- Replaying a log from its start gives the state. -/
def Replays {ε : Type u} {σ : Type u} {α : Type v} (step : σ → α → Except ε σ)
    (start : σ) (log : List α) (state : σ) : Prop :=
  log.foldlM step start = .ok state

namespace Replays

variable {ε σ : Type u} {α : Type v} {step : σ → α → Except ε σ}
  {start state next : σ} {log : List α} {entry : α}

theorem nil : Replays step start [] start := rfl

/-- An accepted entry extends the log and the state together. -/
theorem snoc (h : Replays step start log state)
    (hstep : step state entry = .ok next) :
    Replays step start (log ++ [entry]) next := by
  unfold Replays at h ⊢
  rw [List.foldlM_append, h]
  simp only [List.foldlM_cons, List.foldlM_nil, bind_pure]
  exact hstep

end Replays

/-- Every entry of a log has a property together with the entries before it. -/
def EachEntry {α : Type u} (P : List α → α → Prop) (log : List α) : Prop :=
  ∀ before entry after, log = before ++ entry :: after → P before entry

namespace EachEntry

variable {α : Type u} {P : List α → α → Prop} {log : List α} {entry : α}

theorem nil : EachEntry P [] := by
  intro before entry after hnil
  exact absurd hnil.symm (List.append_ne_nil_of_right_ne_nil before (by simp))

/-- A log grows by an entry that has the property. -/
theorem concat (h : EachEntry P log) (hentry : P log entry) :
    EachEntry P (log ++ [entry]) := by
  intro before other after hsplit
  rcases List.eq_nil_or_concat after with rfl | ⟨rest, last, rfl⟩
  · obtain ⟨rfl, hsame⟩ := List.append_inj' hsplit rfl
    rw [← List.singleton_inj.1 hsame]
    exact hentry
  · rw [List.concat_eq_append, ← List.cons_append, ← List.append_assoc] at hsplit
    obtain ⟨hsame, -⟩ := List.append_inj' hsplit rfl
    exact h before other rest hsame

theorem of_forall (h : ∀ entry ∈ log, ∀ before, P before entry) :
    EachEntry P log := by
  rintro before entry after rfl
  exact h entry (by simp) before

end EachEntry

/-- Every wanted entry of a log has the trigger somewhere before it. -/
def Precedes {α : Type u} (trigger : α) (wanted : α → Bool) : List α → Prop :=
  EachEntry fun before entry => wanted entry = true → trigger ∈ before

/-- The entries of a log carry their positions as their numbers. -/
def Numbered {α : Type u} (number : α → Nat) (log : List α) : Prop :=
  log.map number = List.range log.length

namespace Numbered

variable {α : Type u} {number : α → Nat} {log start : List α} {entry : α}

theorem nil : Numbered number ([] : List α) := rfl

theorem snoc (h : Numbered number log) (hentry : number entry = log.length) :
    Numbered number (log ++ [entry]) := by
  unfold Numbered at h ⊢
  simp [List.range_succ, h, hentry]

/-- The entry at a position carries it as its number. -/
theorem number_eq {i : Nat} (h : Numbered number log)
    (hentry : log[i]? = some entry) : number entry = i := by
  have hposition := congrArg (·[i]?) h
  obtain ⟨hi, rfl⟩ := List.getElem?_eq_some_iff.1 hentry
  simpa [hi] using hposition

/-- An entry stands at the position that its number names. -/
theorem getElem? (h : Numbered number log) (hentry : entry ∈ log) :
    log[number entry]? = some entry := by
  obtain ⟨i, hi⟩ := List.mem_iff_getElem?.1 hentry
  rw [h.number_eq hi, hi]

/-- Two entries with one number are one entry. -/
theorem eq_of_number {other : α} (h : Numbered number log)
    (hentry : entry ∈ log) (hother : other ∈ log)
    (hnumber : number entry = number other) : entry = other := by
  have hfirst := h.getElem? hentry
  rw [hnumber, h.getElem? hother] at hfirst
  exact (Option.some.inj hfirst).symm

theorem of_prefix (h : Numbered number log) (hstart : start <+: log) :
    Numbered number start := by
  obtain ⟨rest, rfl⟩ := hstart
  have htake := congrArg (List.take start.length) h
  simpa [Numbered, List.take_range] using htake

/-- A prefix grows by the entry of the log that has the next number. -/
theorem extend (h : Numbered number log) (hstart : start <+: log)
    (hentry : entry ∈ log) (hnext : number entry = start.length) :
    start ++ [entry] <+: log := by
  have hfound := h.getElem? hentry
  obtain ⟨rest, rfl⟩ := hstart
  rw [hnext, List.getElem?_append_right (Nat.le_refl _), Nat.sub_self]
    at hfound
  cases rest with
  | nil => simp at hfound
  | cons head tail =>
    simp only [List.getElem?_cons_zero, Option.some.injEq] at hfound
    subst hfound
    exact ⟨tail, by simp⟩

/-- A prefix that holds every entry is the whole log. -/
theorem eq_of_all (h : Numbered number log) (hstart : start <+: log)
    (hall : ∀ entry ∈ log, entry ∈ start) : start = log := by
  have hprefix := h.of_prefix hstart
  obtain ⟨rest, rfl⟩ := hstart
  cases rest with
  | nil => simp
  | cons head tail =>
    -- the first entry past the prefix would stand at two positions
    have hmem : head ∈ start ++ head :: tail := by simp
    have hnumber : number head = start.length := by
      apply h.number_eq
      simp
    have hfound := hprefix.getElem? (hall head hmem)
    rw [hnumber] at hfound
    simp at hfound

end Numbered

/-- Tickets with increasing numbers, of which one may be open: `next` is the
number of the next ticket, `past` are those that ended. -/
structure Tickets (current : Option Nat) (next : Nat) (past : List Nat) :
    Prop where
  used : ∀ ticket ∈ past, ticket < next
  live : ∀ ticket, current = some ticket → ticket < next ∧ ticket ∉ past
  once : past.Nodup
  all : ∀ ticket < next, current = some ticket ∨ ticket ∈ past

namespace Tickets

variable {current : Option Nat} {next ticket : Nat} {past : List Nat}

theorem initial : Tickets none 0 [] where
  used := by simp
  live := by simp
  once := List.nodup_nil
  all := by simp

/-- A ticket is issued while none is open. -/
theorem issue (h : Tickets none next past) :
    Tickets (some next) (next + 1) past where
  used := fun ticket hticket => Nat.lt_succ_of_lt (h.used ticket hticket)
  live := by
    rintro _ ⟨⟩
    exact ⟨Nat.lt_succ_self next,
      fun hpast => Nat.lt_irrefl next (h.used next hpast)⟩
  once := h.once
  all := by
    intro ticket hticket
    rcases Nat.lt_succ_iff_lt_or_eq.1 hticket with hlt | rfl
    · rcases h.all ticket hlt with hnone | hpast
      · cases hnone
      · exact .inr hpast
    · exact .inl rfl

/-- The open ticket ends. -/
theorem close (h : Tickets (some ticket) next past) :
    Tickets none next (past ++ [ticket]) where
  used := by
    intro other hother
    rcases List.mem_append.1 hother with hother | hother
    · exact h.used other hother
    · rw [List.mem_singleton.1 hother]
      exact (h.live ticket rfl).1
  live := by simp
  once := List.nodup_append'.2 ⟨h.once, List.nodup_singleton ticket,
    List.disjoint_singleton.2 (h.live ticket rfl).2⟩
  all := by
    intro other hother
    refine .inr ?_
    rcases h.all other hother with hopen | hpast
    · rw [Option.some.inj hopen]
      exact List.mem_append_right _ (List.mem_singleton_self other)
    · exact List.mem_append_left _ hpast

/-- The order of the past does not matter. -/
theorem perm {other : List Nat} (h : Tickets current next past)
    (hperm : past.Perm other) : Tickets current next other where
  used := fun ticket hticket => h.used ticket (hperm.mem_iff.2 hticket)
  live := by
    intro ticket hopen
    obtain ⟨hlt, hpast⟩ := h.live ticket hopen
    exact ⟨hlt, fun hother => hpast (hperm.mem_iff.2 hother)⟩
  once := hperm.nodup_iff.1 h.once
  all := by
    intro ticket hticket
    rcases h.all ticket hticket with hopen | hpast
    · exact .inl hopen
    · exact .inr (hperm.mem_iff.1 hpast)

end Tickets
