/-
Runs of a deterministic machine.  Everything the surroundings decide (the order
of calls, clock readings, crashes, lost messages) is part of the action that a
step receives, so a statement about all runs is a statement about all lists of
actions.
-/
import Mathlib

universe u v w

/-- One step consumes an action and gives the next state and an answer. -/
structure Machine (σ : Type u) (α : Type v) (β : Type w) where
  step : σ → α → σ × β

namespace Machine

variable {σ : Type u} {α : Type v} {β : Type w} (m : Machine σ α β)

/-- The state after a list of actions. -/
def after : σ → List α → σ
  | s, [] => s
  | s, action :: rest => after (m.step s action).1 rest

/-- The actions of a run together with the answers they received. -/
def events : σ → List α → List (α × β)
  | _, [] => []
  | s, action :: rest =>
    (action, (m.step s action).2) :: events (m.step s action).1 rest

@[simp] theorem after_nil (s : σ) : m.after s [] = s := rfl

@[simp] theorem after_cons (s : σ) (action : α) (rest : List α) :
    m.after s (action :: rest) = m.after (m.step s action).1 rest := rfl

@[simp] theorem events_nil (s : σ) : m.events s [] = [] := rfl

@[simp] theorem events_cons (s : σ) (action : α) (rest : List α) :
    m.events s (action :: rest) =
      (action, (m.step s action).2) :: m.events (m.step s action).1 rest :=
  rfl

theorem after_append (s : σ) (first second : List α) :
    m.after s (first ++ second) = m.after (m.after s first) second := by
  induction first generalizing s with
  | nil => rfl
  | cons action rest ih => simpa using ih (m.step s action).1

theorem events_append (s : σ) (first second : List α) :
    m.events s (first ++ second) =
      m.events s first ++ m.events (m.after s first) second := by
  induction first generalizing s with
  | nil => rfl
  | cons action rest ih => simp [ih (m.step s action).1]

variable {m} {s : σ}

/-- A property that every step keeps holds after every run. -/
theorem after_invariant (Inv : σ → Prop)
    (hstep : ∀ s action, Inv s → Inv (m.step s action).1) (hs : Inv s)
    (actions : List α) : Inv (m.after s actions) := by
  induction actions generalizing s with
  | nil => exact hs
  | cons action rest ih => exact ih (hstep s action hs)

/-- A reflexive and transitive relation that every step stays inside relates
the two ends of every run; the step may use an invariant. -/
theorem after_rel (Inv : σ → Prop) (R : σ → σ → Prop) (hrefl : ∀ s, R s s)
    (htrans : ∀ {a b c}, R a b → R b c → R a c)
    (hinv : ∀ s action, Inv s → Inv (m.step s action).1)
    (hstep : ∀ s action, Inv s → R s (m.step s action).1) (hs : Inv s)
    (actions : List α) : R s (m.after s actions) := by
  induction actions generalizing s with
  | nil => exact hrefl s
  | cons action rest ih =>
    exact htrans (hstep s action hs) (ih (hinv s action hs))

/-- An event that every step taken from a closed state avoids never happens in
a run from such a state. -/
theorem events_avoid {Inv : σ → Prop} (closed : σ → Prop) (event : α × β → Prop)
    (hinv : ∀ s action, Inv s → Inv (m.step s action).1)
    (hclosed : ∀ s action, Inv s → closed s → closed (m.step s action).1)
    (havoid : ∀ s action, Inv s → closed s →
      ¬event (action, (m.step s action).2)) (hs : Inv s) (hc : closed s)
    (actions : List α) : ∀ e ∈ m.events s actions, ¬event e := by
  induction actions generalizing s with
  | nil => simp
  | cons action rest ih =>
    intro e he
    simp only [events_cons, List.mem_cons] at he
    rcases he with rfl | he
    · exact havoid s action hs hc
    · exact ih (hinv s action hs) (hclosed s action hs hc) e he

/-- An event that closes the state it happens in happens at most once. -/
theorem events_countP_le_one (Inv closed : σ → Prop) {event : α × β → Bool}
    (hinv : ∀ s action, Inv s → Inv (m.step s action).1)
    (hclosed : ∀ s action, Inv s → closed s → closed (m.step s action).1)
    (havoid : ∀ s action, Inv s → closed s →
      event (action, (m.step s action).2) = false)
    (hcloses : ∀ s action, Inv s →
      event (action, (m.step s action).2) = true → closed (m.step s action).1)
    (hs : Inv s) (actions : List α) :
    (m.events s actions).countP event ≤ 1 := by
  induction actions generalizing s with
  | nil => simp
  | cons action rest ih =>
    have hnext := hinv s action hs
    cases hevent : event (action, (m.step s action).2) with
    | false => simpa [hevent] using ih hnext
    | true =>
      have hnone : (m.events (m.step s action).1 rest).countP event = 0 := by
        rw [List.countP_eq_zero]
        refine events_avoid closed (fun e => event e = true) hinv hclosed
          ?_ hnext (hcloses s action hs hevent) rest
        intro t next ht hct
        simp [havoid t next ht hct]
      simp [hevent, hnone]

/-- Every step of a run meets a condition on its state and its action. -/
def AllSteps (m : Machine σ α β) (meets : σ → α → Prop) :
    σ → List α → Prop
  | _, [] => True
  | s, action :: rest => meets s action ∧ m.AllSteps meets (m.step s action).1 rest

namespace AllSteps

variable {meets : σ → α → Prop} {s : σ}

theorem append {first second : List α}
    (h : m.AllSteps meets s (first ++ second)) :
    m.AllSteps meets s first ∧ m.AllSteps meets (m.after s first) second := by
  induction first generalizing s with
  | nil => exact ⟨trivial, h⟩
  | cons action rest ih =>
    obtain ⟨hrest, hsecond⟩ := ih h.2
    exact ⟨⟨h.1, hrest⟩, hsecond⟩

/-- What every step that meets the condition keeps, such a run keeps. -/
theorem after_invariant {I : σ → Prop}
    (hstep : ∀ s action, I s → meets s action → I (m.step s action).1)
    (hs : I s) {actions : List α} (h : m.AllSteps meets s actions) :
    I (m.after s actions) := by
  induction actions generalizing s with
  | nil => exact hs
  | cons action rest ih => exact ih (hstep s action hs h.1) h.2

/-- What holds after a step exactly when it held before and the step meets the
condition, holds after a run exactly when it held before and all steps do. -/
theorem iff_after (Inv P : σ → Prop)
    (hinv : ∀ s action, Inv s → Inv (m.step s action).1)
    (hstep : ∀ s action, Inv s →
      (P (m.step s action).1 ↔ P s ∧ meets s action)) (hs : Inv s)
    (actions : List α) :
    P (m.after s actions) ↔ P s ∧ m.AllSteps meets s actions := by
  induction actions generalizing s with
  | nil => exact (and_iff_left trivial).symm
  | cons action rest ih =>
    rw [after_cons, ih (hinv s action hs), hstep s action hs, and_assoc]
    exact Iff.rfl

instance decidable [∀ s action, Decidable (meets s action)] :
    ∀ s actions, Decidable (m.AllSteps meets s actions)
  | _, [] => isTrue trivial
  | s, action :: rest =>
    have := decidable (m.step s action).1 rest
    inferInstanceAs (Decidable (meets s action ∧ _))

end AllSteps

/-- The states of an endless run. -/
def along (m : Machine σ α β) (s : σ) (actions : ℕ → α) : ℕ → σ
  | 0 => s
  | n + 1 => (m.step (m.along s actions n) (actions n)).1

/-- What every step that meets the condition keeps, an endless run of such steps
keeps. -/
theorem along_invariant {meets : σ → α → Prop} {I : σ → Prop}
    (hstep : ∀ s action, I s → meets s action → I (m.step s action).1)
    (hs : I s) {actions : ℕ → α}
    (h : ∀ n, meets (m.along s actions n) (actions n)) (n : ℕ) :
    I (m.along s actions n) := by
  induction n with
  | zero => exact hs
  | succ n ih => exact hstep _ _ ih (h n)

end Machine
