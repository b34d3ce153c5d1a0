/-
The clock of a task: how long it was active and how long it waited, and until
when it may run.  Time is added when the clock is refreshed, and again when it
is projected at a later time; in between nothing moves.
-/
import Allrice.JsString
import Allrice.Runs

namespace Allrice

structure TaskRuntimeSource where
  scope : JsString
  scopeId : JsString
  timeoutMs : Nat
  deriving DecidableEq

/-- Zero is no limit.  An expiry that no date can be made of is `some none`; an
empty one counts as absent. -/
structure TaskRuntimePolicy where
  authorizationExpiresAt : Option (Option Int)
  timeoutMs : Nat
  sources : List TaskRuntimeSource

/-- `9999-01-01T00:00:00.000Z`. -/
def unboundedTaskDeadline : Int := 253370764800000

namespace TaskClock

inductive Phase where
  | queued
  | active
  | waiting
  | terminal
  deriving DecidableEq

/-- `taskClockPhase`'s view of a run: an operation and who waits for it. -/
structure ObservedOperation where
  agentId : JsString
  status : JsString

structure Observation where
  state : JsString
  operations : List ObservedOperation
  runId : JsString
  modelInFlight : Bool
  progressPaused : Bool

def terminalStatuses : List JsString :=
  ["succeeded", "failed", "canceled", "partial"].map JsString.ofString

def blockedStatuses : List JsString :=
  ["waiting_user", "waiting_device", "waiting_resource"].map
    JsString.ofString

def terminalStates : List JsString :=
  ["succeeded", "failed", "canceled"].map JsString.ofString

/-- Explicit blocking only: work that is not known to have ended is active. -/
def taskClockPhase (input : Observation) : Phase :=
  let liveOps := input.operations.filter (·.status ∉ terminalStatuses)
  if input.state ∈ terminalStates then .terminal
  else if input.modelInFlight then .active
  else if liveOps.any (·.status ∉ blockedStatuses) then .active
  else if input.progressPaused then .waiting
  else if input.state = JsString.ofString "queued" ∧ liveOps = [] then .queued
  else if liveOps.any fun op =>
      op.agentId = input.runId && op.status ∈ blockedStatuses then
    .waiting
  else .active

structure TaskClockRow where
  policy : TaskRuntimePolicy
  activeMs : Nat
  waitingMs : Nat
  phase : Phase
  changedAt : Int
  startedAt : Option Int
  completedAt : Option Int

structure Projection where
  activeMs : Nat
  waitingMs : Nat
  remainingMs : Option Nat
  phase : Phase
  wallMs : Nat
  timeoutMs : Nat
  sources : List TaskRuntimeSource
  deadlineAt : Int
  deriving DecidableEq

inductive TaskClockError where
  | invalidTaskAuthorizationExpiry
  deriving DecidableEq

namespace TaskClockRow

variable (row : TaskClockRow)

/-- The active time at some moment. -/
def activeAt (now : Int) : Nat :=
  row.activeMs +
    if row.phase = .active then (now - row.changedAt).toNat else 0

def waitingAt (now : Int) : Nat :=
  row.waitingMs +
    if row.phase = .waiting then (now - row.changedAt).toNat else 0

def remainingAt (now : Int) : Option Nat :=
  if row.policy.timeoutMs = 0 then none
  else some (row.policy.timeoutMs - row.activeAt now)

/-- The deadline that the time budget gives. -/
def budgetDeadline (now : Int) : Int :=
  if row.policy.timeoutMs = 0 ∨
      0 < row.policy.timeoutMs - row.activeAt now ∧
        (row.phase = .waiting ∨ row.phase = .queued) then
    unboundedTaskDeadline
  else now + row.policy.timeoutMs - row.activeAt now

def wallAt (now : Int) : Nat :=
  match row.startedAt with
  | some startedAt => (row.completedAt.getD now - startedAt).toNat
  | none => 0

end TaskClockRow

def projectTaskClock (row : TaskClockRow) (now : Int) :
    Except TaskClockError Projection :=
  match row.policy.authorizationExpiresAt.getD
      (some unboundedTaskDeadline) with
  | none => .error .invalidTaskAuthorizationExpiry
  | some authorizationDeadline =>
    .ok {
      activeMs := row.activeAt now
      waitingMs := row.waitingAt now
      remainingMs := row.remainingAt now
      phase := row.phase
      wallMs := row.wallAt now
      timeoutMs := row.policy.timeoutMs
      sources := row.policy.sources
      deadlineAt := min (row.budgetDeadline now) authorizationDeadline }

/-- The row as a refresh stores it. -/
def TaskClockRow.next (row : TaskClockRow) (phase : Phase) (now : Int) :
    TaskClockRow where
  policy := row.policy
  activeMs := row.activeAt now
  waitingMs := row.waitingAt now
  phase := phase
  changedAt := now
  startedAt :=
    match row.startedAt with
    | some startedAt => some startedAt
    | none => if phase = .active ∨ phase = .waiting then some now else none
  completedAt :=
    match row.completedAt with
    | some completedAt => some completedAt
    | none => if phase = .terminal then some now else none

/-- The row that a new run is given. -/
def TaskClockRow.created (policy : TaskRuntimePolicy) (at_ : Int) :
    TaskClockRow :=
  ⟨policy, 0, 0, .queued, at_, none, none⟩

/-- `allrice_task_clock_events`. -/
structure TaskClockEvent where
  phase : Phase
  occurredAt : Int
  activeMs : Nat
  waitingMs : Nat

structure TaskJob where
  status : JsString
  timeoutAt : Int

/-- The statuses of a job that the deadline still concerns. -/
def openJobStatuses : List JsString :=
  ["queued", "claimed", "running", "retry_wait", "waiting_approval"].map
    JsString.ofString

structure TaskTables where
  clock : TaskClockRow
  events : List TaskClockEvent
  rootDeadlineAt : Int
  jobs : List TaskJob

def TaskTables.setDeadline (tables : TaskTables) (deadlineAt : Int) :
    TaskTables where
  clock := tables.clock
  events := tables.events
  rootDeadlineAt := deadlineAt
  jobs := tables.jobs.map fun job =>
    if job.status ∈ openJobStatuses then { job with timeoutAt := deadlineAt }
    else job

/-- What one transaction sees: the phase at its time. -/
structure Refresh where
  phase : Phase
  now : Int

/-- Observing a run gives its phase. -/
def Refresh.observed (input : Observation) (now : Int) : Refresh :=
  ⟨taskClockPhase input, now⟩

/-- A refresh that throws leaves the tables as they are. -/
def refreshTaskClock (tables : TaskTables) (refresh : Refresh) :
    TaskTables × Except TaskClockError Projection :=
  let row := tables.clock
  let next := row.next refresh.phase refresh.now
  match projectTaskClock row refresh.now with
  | .error error => (tables, .error error)
  | .ok _ =>
    let event : TaskClockEvent :=
      ⟨refresh.phase, refresh.now, next.activeMs, next.waitingMs⟩
    let written := { tables with
      clock := next
      events :=
        if refresh.phase ≠ row.phase then tables.events ++ [event]
        else tables.events }
    match projectTaskClock next refresh.now with
    | .error error => (tables, .error error)
    | .ok projection =>
      (if refresh.phase ≠ .terminal then
        written.setDeadline projection.deadlineAt
      else written, .ok projection)

def machine : Machine TaskTables Refresh (Except TaskClockError Projection) :=
  ⟨refreshTaskClock⟩

end TaskClock

end Allrice
