/-
Transactions over an explicit state.  A transaction either fails, and then its
whole effect is dropped, or returns a value together with the next state.  The
lemmas here turn a successful `do` block into the facts that its steps
establish, so that no later proof has to unfold the monad.
-/
import Mathlib

universe u

/-- A computation that may fail and whose effect on the state is kept only
when it succeeds. -/
abbrev Tx (ε σ α : Type u) := StateT σ (Except ε) α

section

variable {ε : Type u} {α β : Type} {x : Except ε α} {f : α → Except ε β}

theorem Except.bind_eq_ok {b : β} :
    (x >>= f) = .ok b ↔ ∃ a, x = .ok a ∧ f a = .ok b := by
  cases x with
  | error e =>
    constructor
    · nofun
    · rintro ⟨a, h, -⟩
      cases h
  | ok a =>
    constructor
    · intro h
      exact ⟨a, rfl, h⟩
    · rintro ⟨a', h, hf⟩
      cases h
      exact hf

theorem Except.bind_eq_error {e : ε} :
    (x >>= f) = .error e ↔ x = .error e ∨ ∃ a, x = .ok a ∧ f a = .error e := by
  cases x with
  | error e' =>
    constructor
    · intro h
      cases h
      exact .inl rfl
    · rintro (h | ⟨a, h, -⟩)
      · cases h
        rfl
      · cases h
  | ok a =>
    constructor
    · intro h
      exact .inr ⟨a, rfl, h⟩
    · rintro (h | ⟨a', h, hf⟩)
      · cases h
      · cases h
        exact hf

end

namespace Tx

variable {ε σ α β : Type u}

/-- Refuse to continue when a condition holds. -/
def rejectIf (refused : Prop) [Decidable refused] (error : ε) :
    Tx ε σ PUnit :=
  if refused then throw error else pure ⟨⟩

/-- Run a step only when a condition holds. -/
def whenever (wanted : Prop) [Decidable wanted] (step : Tx ε σ PUnit) :
    Tx ε σ PUnit :=
  if wanted then step else pure ⟨⟩

/-- Continue with the value that a lookup found. -/
def expect (found : Option α) (error : ε) : Tx ε σ α :=
  match found with
  | none => throw error
  | some value => pure value

/-- Continue with the value of a pure computation that may fail. -/
def lift (computed : Except ε α) : Tx ε σ α :=
  match computed with
  | .error error => throw error
  | .ok value => pure value

variable {s t : σ} {r : β × σ} {error : ε} {rest : α → Tx ε σ β}
  {action : Tx ε σ α} {f : σ → σ} {refused : Prop} {found : Option α}
  {computed : Except ε α}

theorem bind_eq_ok :
    (action >>= rest) s = .ok r ↔
      ∃ a next, action s = .ok (a, next) ∧ rest a next = .ok r := by
  simp only [bind, StateT.bind, Except.bind]
  cases h : action s with
  | error error => simp
  | ok pair =>
    obtain ⟨a, next⟩ := pair
    simp

theorem pure_eq_ok {a : α} {r : α × σ} :
    (pure a : Tx ε σ α) s = .ok r ↔ r = (a, s) := by
  simp [pure, StateT.pure, Except.pure, eq_comm]

theorem throw_eq_ok {r : α × σ} :
    (throw error : Tx ε σ α) s = .ok r ↔ False := by
  simp [throw, throwThe, MonadExceptOf.throw, StateT.lift, bind, Except.bind]

theorem get_eq_ok {r : σ × σ} : (get : Tx ε σ σ) s = .ok r ↔ r = (s, s) := by
  simp [get, getThe, MonadStateOf.get, StateT.get, pure, Except.pure,
    eq_comm]

theorem set_eq_ok {r : PUnit × σ} :
    (set t : Tx ε σ PUnit) s = .ok r ↔ r = (⟨⟩, t) := by
  simp [set, MonadStateOf.set, StateT.set, pure, Except.pure, eq_comm]

theorem modify_eq_ok {r : PUnit × σ} :
    (modify f : Tx ε σ PUnit) s = .ok r ↔ r = (⟨⟩, f s) := by
  simp [modify, modifyGet, MonadStateOf.modifyGet, StateT.modifyGet, pure,
    Except.pure, eq_comm]

theorem rejectIf_eq_ok [Decidable refused] {r : PUnit × σ} :
    rejectIf refused error s = .ok r ↔ ¬refused ∧ r = (⟨⟩, s) := by
  unfold rejectIf
  split
  · simp_all [throw_eq_ok]
  · simp_all [pure_eq_ok]

theorem whenever_eq_ok {wanted : Prop} [Decidable wanted] {step : Tx ε σ PUnit}
    {r : PUnit × σ} :
    whenever wanted step s = .ok r ↔
      (wanted ∧ step s = .ok r) ∨ (¬wanted ∧ r = (⟨⟩, s)) := by
  unfold whenever
  split <;> simp_all [pure_eq_ok]

theorem expect_eq_ok {r : α × σ} :
    expect found error s = .ok r ↔ ∃ a, found = some a ∧ r = (a, s) := by
  cases found with
  | none => simp [expect, throw_eq_ok]
  | some a => simp [expect, pure_eq_ok]

theorem lift_eq_ok {r : α × σ} :
    lift computed s = .ok r ↔ ∃ a, computed = .ok a ∧ r = (a, s) := by
  cases computed with
  | error error => simp [lift, throw_eq_ok]
  | ok a => simp [lift, pure_eq_ok]

theorem exists_punit {p : PUnit.{u + 1} → Prop} : (∃ x, p x) ↔ p ⟨⟩ :=
  ⟨fun ⟨_, h⟩ => h, fun h => ⟨_, h⟩⟩

theorem get_bind_eq_ok {rest : σ → Tx ε σ β} :
    (get >>= rest) s = .ok r ↔ rest s s = .ok r := by
  simp [bind_eq_ok, get_eq_ok]

theorem set_bind_eq_ok {rest : PUnit → Tx ε σ β} :
    (set t >>= rest) s = .ok r ↔ rest ⟨⟩ t = .ok r := by
  simp [bind_eq_ok, set_eq_ok, exists_punit]

theorem modify_bind_eq_ok {rest : PUnit → Tx ε σ β} :
    (modify f >>= rest) s = .ok r ↔ rest ⟨⟩ (f s) = .ok r := by
  simp [bind_eq_ok, modify_eq_ok, exists_punit]

theorem rejectIf_bind_eq_ok [Decidable refused] {rest : PUnit → Tx ε σ β} :
    (rejectIf refused error >>= rest) s = .ok r ↔
      ¬refused ∧ rest ⟨⟩ s = .ok r := by
  simp [bind_eq_ok, rejectIf_eq_ok, and_assoc, exists_punit]

theorem expect_bind_eq_ok :
    (expect found error >>= rest) s = .ok r ↔
      ∃ a, found = some a ∧ rest a s = .ok r := by
  simp [bind_eq_ok, expect_eq_ok]

theorem lift_bind_eq_ok :
    (lift computed >>= rest) s = .ok r ↔
      ∃ a, computed = .ok a ∧ rest a s = .ok r := by
  simp [bind_eq_ok, lift_eq_ok]

theorem ite_eq_ok {c : Prop} [Decidable c] {x y : Tx ε σ α} {r : α × σ} :
    (if c then x else y) s = .ok r ↔
      (c ∧ x s = .ok r) ∨ (¬c ∧ y s = .ok r) := by
  split <;> simp_all

theorem map_eq_ok {f : α → β} {b : β} :
    (f <$> action) s = .ok (b, t) ↔ ∃ a, action s = .ok (a, t) ∧ b = f a := by
  rw [map_eq_pure_bind, bind_eq_ok]
  constructor
  · rintro ⟨a, middle, haction, hpure⟩
    rw [pure_eq_ok, Prod.mk.injEq] at hpure
    obtain ⟨rfl, rfl⟩ := hpure
    exact ⟨a, haction, rfl⟩
  · rintro ⟨a, haction, rfl⟩
    exact ⟨a, t, haction, rfl⟩

/-- The states before and after a successful run are related. -/
def Keeps (R : σ → σ → Prop) (action : Tx ε σ α) : Prop :=
  ∀ s a t, action s = .ok (a, t) → R s t

namespace Keeps

variable {R : σ → σ → Prop} {action : Tx ε σ α}

theorem bind [IsTrans σ R] (haction : Keeps R action)
    (hrest : ∀ a, Keeps R (rest a)) : Keeps R (action >>= rest) := by
  intro s b u h
  obtain ⟨a, t, hfirst, hsecond⟩ := bind_eq_ok.1 h
  exact IsTrans.trans s t u (haction s a t hfirst) (hrest a t b u hsecond)

theorem throw : Keeps R (throw error : Tx ε σ α) := by
  intro s a t h
  exact (throw_eq_ok.1 h).elim

theorem map {f : α → β} (h : Keeps R action) : Keeps R (f <$> action) := by
  intro s b t hrun
  obtain ⟨a, haction, _⟩ := map_eq_ok.1 hrun
  exact h s a t haction

theorem ite {c : Prop} [Decidable c] {x y : Tx ε σ α} (hx : Keeps R x)
    (hy : Keeps R y) : Keeps R (if c then x else y) := by
  by_cases h : c
  · simpa [h] using hx
  · simpa [h] using hy

section Refl

variable [Std.Refl R]

/-- A run that does not change the state. -/
theorem of_same (h : ∀ s a t, action s = .ok (a, t) → t = s) :
    Keeps R action := by
  intro s a t hrun
  rw [h s a t hrun]
  exact Std.Refl.refl s

theorem pure {a : α} : Keeps R (pure a : Tx ε σ α) :=
  of_same fun _ _ _ h => (Prod.mk.inj (pure_eq_ok.1 h)).2

theorem get : Keeps R (get : Tx ε σ σ) :=
  of_same fun _ _ _ h => (Prod.mk.inj (get_eq_ok.1 h)).2

theorem rejectIf [Decidable refused] :
    Keeps R (rejectIf refused error : Tx ε σ PUnit) :=
  of_same fun _ _ _ h => (Prod.mk.inj (rejectIf_eq_ok.1 h).2).2

theorem expect : Keeps R (expect found error : Tx ε σ α) := by
  refine of_same fun s a t h => ?_
  obtain ⟨_, _, hpair⟩ := expect_eq_ok.1 h
  exact (Prod.mk.inj hpair).2

theorem lift : Keeps R (lift computed : Tx ε σ α) := by
  refine of_same fun s a t h => ?_
  obtain ⟨_, _, hpair⟩ := lift_eq_ok.1 h
  exact (Prod.mk.inj hpair).2

theorem whenever {wanted : Prop} [Decidable wanted] {step : Tx ε σ PUnit}
    (hstep : Keeps R step) : Keeps R (whenever wanted step) :=
  ite hstep pure

theorem forM [IsTrans σ R] {body : α → Tx ε σ PUnit}
    (hbody : ∀ a, Keeps R (body a)) (items : List α) :
    Keeps R (items.forM body) := by
  induction items with
  | nil => exact pure
  | cons head tail ih => exact bind (hbody head) fun _ => ih

end Refl

end Keeps

end Tx
