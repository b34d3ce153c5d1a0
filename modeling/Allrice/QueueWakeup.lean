/-
Early ticks of the queue.  `startQueueWakeups` turns announcements of ready jobs
into wakes: at once, or by one timer for the earliest of the deadlines it keeps.
`createCoalescedTick` runs one queue tick at a time.
-/
import Allrice.Runs

namespace Allrice.QueueWakeup

inductive QueueWakeReason
  | notify | due | listen
deriving DecidableEq

def dueMergeMs : Int := 10
def dueSlackMs : Int := 25
def maxPendingDue : Nat := 64

/-- What an announcement says: a probe, or a job that is ready, with a finite
deadline or without one. -/
inductive Payload
  | probe
  | ready (deadline : Option Int)

/-- `timer` is when the pending timeout may fire.  `noted` belongs to the
statements only: the deadlines that were accepted and that no cut to the
earliest ones displaced. -/
structure State where
  due : List Int
  timer : Option Int
  armedAt : Option Int
  stopped : Bool
  clock : Int
  wakes : List (QueueWakeReason × Int)
  noted : List Int

def State.initial (start : Int) : State :=
  ⟨[], none, none, false, start, [], []⟩

def wake (s : State) (reason : QueueWakeReason) (time : Int) : State :=
  if s.stopped then s else { s with wakes := s.wakes ++ [(reason, time)] }

def armDue (s : State) (time : Int) : State :=
  if s.due.head? = s.armedAt then s
  else
    { s with
      timer := s.due.head?.map fun next =>
        time + max 0 (next - time + dueSlackMs)
      armedAt := s.due.head? }

def fireDue (s : State) (fired later : Int) : State :=
  armDue
    (wake
      { s with
        timer := none
        armedAt := none
        due := s.due.filter (fired < ·) }
      .due fired)
    later

/-- A deadline close enough after a kept one is merged into it. -/
def merges (existing deadline : Int) : Bool :=
  existing ≤ deadline && deadline - existing ≤ dueMergeMs

def inserted (due : List Int) (deadline : Int) : List Int :=
  ((due ++ [deadline]).insertionSort (· ≤ ·)).take maxPendingDue

/-- The cut to the earliest deadlines took what a deadline was kept by. -/
def displaced (due : List Int) (deadline noted : Int) : Bool :=
  (due ++ [deadline]).any (merges · noted) &&
    !(inserted due deadline).any (merges · noted)

def onReady (horizon : Int) (s : State) (payload : Payload)
    (time later : Int) : State :=
  match payload with
  | .probe => s
  | .ready none => wake s .notify time
  | .ready (some deadline) =>
    if deadline - time ≤ 0 then wake s .notify time
    else if deadline - time > horizon then s
    else if s.due.any (merges · deadline) then
      { s with noted := s.noted ++ [deadline] }
    else
      armDue
        { s with
          due := inserted s.due deadline
          noted := (s.noted ++ [deadline]).filter
            (!displaced s.due deadline ·) }
        later

/-- An announcement and a timeout read the clock when they are handled, and once
more where they arm the next timeout. -/
inductive Action
  | announce (payload : Payload) (first second : Int)
  | fire (first second : Int)
  | listen (first : Int)
  | stop

/-- A reading of a clock that never goes back. -/
def State.reads (s : State) (reading : Int) : Int := max s.clock reading

/-- A timeout is pending and its time has come. -/
def Fires (s : State) (reading : Int) : Prop :=
  ∃ requested ∈ s.timer, requested ≤ s.reads reading

instance (s : State) (reading : Int) : Decidable (Fires s reading) :=
  inferInstanceAs (Decidable (∃ requested ∈ s.timer, requested ≤ s.reads reading))

def step (horizon : Int) (s : State) : Action → State
  | .announce payload first second =>
    { onReady horizon s payload (s.reads first)
        (max (s.reads first) second) with
      clock := max (s.reads first) second }
  | .fire first second =>
    if Fires s first then
      { fireDue s (s.reads first) (max (s.reads first) second) with
        clock := max (s.reads first) second }
    else s
  | .listen first =>
    { wake s .listen (s.reads first) with clock := s.reads first }
  | .stop => { s with stopped := true, timer := none }

def wakeups (horizon : Int) : Machine State Action Unit where
  step := fun s action => (step horizon s action, ())

end Allrice.QueueWakeup

namespace Allrice.CoalescedTick

/-- A call of `run`: its promise is open, or settled, or `finally` is done. -/
inductive Phase
  | running | settled | finished
deriving DecidableEq

/-- `task` is the number of the call it holds the promise of. -/
structure Ticks where
  calls : List Phase
  task : Option Nat
  again : Bool

def Ticks.initial : Ticks := ⟨[], none, false⟩

/-- What `canRun` answered, where it was asked. -/
abbrev Asked := Option Bool

def tick (s : Ticks) (canRun : Bool) : Ticks × Asked :=
  if s.task.isSome then (s, none)
  else if !canRun then (s, some false)
  else
    ({ s with
        calls := s.calls ++ [.running]
        task := some s.calls.length }, some true)

def request (s : Ticks) (canRun : Bool) : Ticks × Asked :=
  if s.task.isSome then ({ s with again := true }, none)
  else tick s canRun

/-- The `finally` of a call whose promise is settled. -/
def finish (s : Ticks) (call : Nat) (canRun : Bool) : Ticks × Asked :=
  if s.calls[call]? = some .settled then
    let s := { s with calls := s.calls.set call .finished, task := none }
    if s.again then tick { s with again := false } canRun else (s, none)
  else (s, none)

inductive Action
  | tick (canRun : Bool)
  | request (canRun : Bool)
  | settle (call : Nat)
  | finish (call : Nat) (canRun : Bool)

def step (s : Ticks) : Action → Ticks × Asked
  | .tick canRun => tick s canRun
  | .request canRun => request s canRun
  | .settle call =>
    if s.calls[call]? = some .running then
      ({ s with calls := s.calls.set call .settled }, none)
    else (s, none)
  | .finish call canRun => finish s call canRun

def ticks : Machine Ticks Action Asked where
  step := step

end Allrice.CoalescedTick
