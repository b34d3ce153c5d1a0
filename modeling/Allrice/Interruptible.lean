/-
Programs that may throw, or stop for good, and whose effect on the state stays
in either case.  A triple has two postconditions: one for a returned value and
one for the way a program was cut short, so a single proof covers every point
at which a crash can fall.
-/
import Mathlib

/-- How a program ends without returning: by an exception that a handler may
catch, or by a crash that nothing catches. -/
inductive Halt (ε : Type) where
  | thrown (error : ε)
  | crashed
deriving DecidableEq

/-- A program over a state; the state survives exceptions and crashes. -/
def Program (ε σ α : Type) : Type := σ → Except (Halt ε) α × σ

namespace Program

variable {ε σ α β : Type}

instance : Monad (Program ε σ) where
  pure a := fun s => (.ok a, s)
  bind action rest := fun s =>
    match action s with
    | (.ok a, t) => rest a t
    | (.error halt, t) => (.error halt, t)

/-- Raise an exception. -/
def raise (error : ε) : Program ε σ α := fun s => (.error (.thrown error), s)

/-- `try { … } catch (error) { … }`; a crash is not an exception. -/
def attempt (body : Program ε σ α) (handler : ε → Program ε σ α) :
    Program ε σ α := fun s =>
  match body s with
  | (.error (.thrown error), t) => handler error t
  | ended => ended

/-- Read the state. -/
def read : Program ε σ σ := fun s => (.ok s, s)

/-- Change the state. -/
def update (f : σ → σ) : Program ε σ Unit := fun s => (.ok (), f s)

/-- From a state that satisfies `P` the program either returns a value with `Q`
or is cut short with `E`. -/
def Triple (P : σ → Prop) (action : Program ε σ α) (Q : α → σ → Prop)
    (E : Halt ε → σ → Prop) : Prop :=
  ∀ s, P s →
    match action s with
    | (.ok a, t) => Q a t
    | (.error halt, t) => E halt t

namespace Triple

variable {P P' : σ → Prop} {Q Q' : α → σ → Prop} {R : β → σ → Prop}
  {E E' : Halt ε → σ → Prop}

theorem pure {a : α} (h : ∀ s, P s → Q a s) :
    Triple P (Pure.pure a : Program ε σ α) Q E := h

theorem raise {error : ε} (h : ∀ s, P s → E (.thrown error) s) :
    Triple P (Program.raise error : Program ε σ α) Q E := h

theorem read {Q : σ → σ → Prop} (h : ∀ s, P s → Q s s) :
    Triple P (Program.read : Program ε σ σ) Q E := h

theorem update {f : σ → σ} {Q : Unit → σ → Prop} (h : ∀ s, P s → Q () (f s)) :
    Triple P (Program.update f : Program ε σ Unit) Q E := h

variable {action : Program ε σ α}

theorem bind {rest : α → Program ε σ β} (Q : α → σ → Prop)
    (haction : Triple P action Q E) (hrest : ∀ a, Triple (Q a) (rest a) R E) :
    Triple P (action >>= rest) R E := by
  intro s hs
  have hfirst := haction s hs
  simp only [Bind.bind]
  cases hrun : action s with
  | mk ended t =>
    rw [hrun] at hfirst
    cases ended with
    | ok a => exact hrest a t hfirst
    | error halt => exact hfirst

theorem conseq (h : Triple P action Q E) (hpre : ∀ s, P' s → P s)
    (hpost : ∀ a s, Q a s → Q' a s) (hhalt : ∀ halt s, E halt s → E' halt s) :
    Triple P' action Q' E' := by
  intro s hs
  have hrun := h s (hpre s hs)
  cases haction : action s with
  | mk ended t =>
    rw [haction] at hrun
    cases ended with
    | ok a => exact hpost a t hrun
    | error halt => exact hhalt halt t hrun

theorem pre (h : Triple P action Q E) (hpre : ∀ s, P' s → P s) :
    Triple P' action Q E :=
  h.conseq hpre (fun _ _ => id) (fun _ _ => id)

theorem post (h : Triple P action Q E) (hpost : ∀ a s, Q a s → Q' a s) :
    Triple P action Q' E :=
  h.conseq (fun _ => id) hpost (fun _ _ => id)

/-- The handler starts where the exception left the state. -/
theorem attempt {body : Program ε σ α} {handler : ε → Program ε σ α}
    (E' : Halt ε → σ → Prop) (hbody : Triple P body Q E')
    (hhandler : ∀ error, Triple (E' (.thrown error)) (handler error) Q E)
    (hcrash : ∀ s, E' .crashed s → E .crashed s) :
    Triple P (Program.attempt body handler) Q E := by
  intro s hs
  have hrun := hbody s hs
  simp only [Program.attempt]
  cases hbody' : body s with
  | mk ended t =>
    rw [hbody'] at hrun
    cases ended with
    | ok a => exact hrun
    | error halt =>
      cases halt with
      | thrown error => exact hhandler error t hrun
      | crashed => exact hcrash t hrun

theorem ite {c : Prop} [Decidable c] {x y : Program ε σ α}
    (hx : c → Triple P x Q E) (hy : ¬c → Triple P y Q E) :
    Triple P (if c then x else y) Q E := by
  by_cases h : c
  · simpa [h] using hx h
  · simpa [h] using hy h

/-- Where a program leaves the state, whichever way it ends. -/
theorem either {R : σ → Prop} (h : Triple P action (fun _ => R) (fun _ => R))
    {s : σ} (hs : P s) : R (action s).2 := by
  have hrun := h s hs
  cases haction : action s with
  | mk ended t =>
    rw [haction] at hrun
    cases ended with
    | ok a | error halt => exact hrun

end Triple

end Program
