/-
The runtime operation ledger: admission of roots and operations, dispatch under
a lease, starts, heartbeats, cancellation and settlement.  Each method is one
transaction that locks the root and then the operation, so any interleaving of
callers is a sequence of these functions.
-/
import Allrice.LedgerTables

namespace Allrice

open Tx

/-- `task-clock.ts` projects the active time of a task to a deadline. -/
structure TaskClock where
  deadlineAt : Timestamp
  terminal : Bool

/-- Where a transaction refreshes the task clock. -/
inductive ClockPoint where
  | lock
  | event (operationId : Uuid) (sequence : Nat)

inductive AdmissionDecision where
  | admitted
  | waitingUser
deriving DecidableEq

structure TargetState where
  kind : ExecutionTargetKind
  online : Bool

/-- The fresh identities and times of a stop that is proved by the absence of
a lease. -/
structure NotExecutedProof where
  evidenceId : Uuid
  recordedAt : Timestamp
  receiptId : Uuid
  observationId : UsageMetric → Uuid
  windowId : UsageMetric → Uuid
  settledAt : UsageMetric → Timestamp

/-- What a service table answers to an exchange. -/
structure ServiceAnswer where
  acceptedSequence : Int
  stopRequested : Bool
  hardDeadlineAt : Timestamp
deriving DecidableEq

/-- What the surroundings answer during one transaction: readings of the clock,
random identities, the admission policy and the tables of other modules. -/
structure LedgerEnv where
  now : Nat → Timestamp
  /-- `clock_timestamp()` while a statement looks at a row. -/
  rowTime : Uuid → Timestamp
  occurredAt : Uuid → Nat → Timestamp
  taskClock : ClockPoint → Option TaskClock
  randomUUID : Nat → Uuid
  notExecuted : Uuid → NotExecutedProof
  admission : Nat → Except LedgerError AdmissionDecision
  /-- The Run's row in this scope and whether its state is active. -/
  runActive : Uuid → Option Bool
  target : Uuid → Option TargetState
  browserRegistered : Bool
  createReplayAuthority : Except LedgerError Unit
  persistLease : Except LedgerError Unit
  /-- Services that outlive the deadline of their successful Run. -/
  continuingServices : List Uuid
  projectServiceEstablished : Bool
  currentProjectService : Nat → Except LedgerError Unit
  projectServiceExpiresAt : Option Timestamp
  service : Bool → Except LedgerError ServiceAnswer
  sourceReceipts : Except LedgerError Unit
  assertReceiptEvidence : Except LedgerError Unit
  /-- A ready object of the requester with this checksum, size and type. -/
  objectStored : Uuid → Bool
  cloudServiceEstablished : Bool
  /-- The cloud attempt's own record of a canceled and stopped container. -/
  cloudStopRecorded : Bool
  serviceContainer : Option Nat

/-- Pure functions on data that the ledger compares and never takes apart. -/
structure LedgerHost where
  /-- SHA-256 of a lease token. -/
  hash : Uuid → Nat
  inputDigest : RuntimeBridgePayload → Checksum
  browserDigest : Nat → Checksum
  notExecutedDigest : Checksum
  receiptBytes : ReceiptContent → Nat
  localFileResultMatchesPayload :
    BridgeCapability → Nat → LocalFileResult → Bool
  fileDerivationResultMatches : Nat → FileDerivationResult → Bool
  localProjectResultMatchesPayload :
    LocalCommandArguments → LocalCommandResult → Bool
  /-- The candidate evidence of a result is the one of its command. -/
  candidateMatches : LocalCommandArguments → LocalCommandResult → Bool
  fileOrganizationResultMatches :
    ChangesetArguments → List ChangesetFileResult → Bool

/-- `refreshTaskClock`. -/
def refreshTaskClock (env : LedgerEnv) (point : ClockPoint)
    (rootRunId : Uuid) : LedgerTx (Option Timestamp) :=
  match env.taskClock point with
  | none => return none
  | some clock => do
      whenever (clock.terminal = false)
        (updateRoot rootRunId fun root =>
          { root with deadlineAt := clock.deadlineAt })
      return some clock.deadlineAt

def lockRoot (env : LedgerEnv) (scope : RuntimeScope) (rootRunId : Uuid) :
    LedgerTx RootRow := do
  let db ← get
  let root ← expect (db.roots.find? rootRunId) (.ledger .scopeMismatch)
  rejectIf (root.task.scope ≠ scope) (.ledger .scopeMismatch)
  let clock ← refreshTaskClock env .lock rootRunId
  return { root with deadlineAt := clock.getD root.deadlineAt }

/-- Discovery is not a lock: all mutations lock root before operation. -/
def lockOperation (env : LedgerEnv) (scope : RuntimeScope)
    (operationId : Uuid) : LedgerTx (RootRow × OperationRow) := do
  let db ← get
  let reference ← expect (db.operations.find? operationId)
    (.ledger .scopeMismatch)
  rejectIf (reference.snapshot.binding.task.scope ≠ scope)
    (.ledger .scopeMismatch)
  let root ← lockRoot env scope reference.rootRunId
  let row ← currentOperation operationId
  rejectIf (¬row.snapshot.Valid) .schema
  return (root, row)

def ensureRootAdmits (root : RootRow) (at_ : Timestamp) : LedgerTx Unit := do
  rejectIf (root.cancelRequestId ≠ none) (.ledger .rootCanceled)
  rejectIf (root.deadlineAt ≤ at_) (.ledger .deadlineExceeded)

def assertRun (env : LedgerEnv) (task : RuntimeTaskRef) : LedgerTx Unit := do
  let active ← expect (env.runActive task.runId) (.ledger .scopeMismatch)
  rejectIf (active = false) (.ledger .unavailable)

def assertTarget (env : LedgerEnv) (snapshot : RuntimeOperationSnapshot) :
    LedgerTx Unit := do
  let target ← expect (env.target snapshot.binding.execution.targetId)
    (.ledger .scopeMismatch)
  rejectIf (target.kind ≠ snapshot.binding.execution.targetKind)
    (.ledger .scopeMismatch)
  rejectIf (target.online = false) (.ledger .unavailable)

/-- The parent of a Run must be linked to the same root and scope. -/
def parentLinked (db : LedgerDb) (task : RuntimeTaskRef) : Prop :=
  ∀ parentRunId ∈ task.parentRunId,
    ∃ parent ∈ db.runLinks.find? parentRunId,
      parent.rootRunId = task.rootRunId ∧ parent.task.scope = task.scope

instance LedgerDb.decidableParentLinked
    (db : LedgerDb) (task : RuntimeTaskRef) :
    Decidable (parentLinked db task) :=
  inferInstanceAs (Decidable (∀ _ ∈ _, ∃ _ ∈ _, _ ∧ _))

def linkRun (task : RuntimeTaskRef) : LedgerTx Unit := do
  let db ← get
  match db.runLinks.find? task.runId with
  | some previous =>
    rejectIf (previous.task ≠ task) (.ledger .scopeMismatch)
  | none => do
      rejectIf (¬parentLinked db task) (.ledger .scopeMismatch)
      let runLinks ← expect
        (db.runLinks.insert? ⟨task.runId, task.rootRunId, task⟩) .storage
      set { db with runLinks }

/-- The event and the projection are written together. -/
def appendEvent (env : LedgerEnv) (operationId : Uuid)
    (signal : RuntimeOperationSignal) : LedgerTx Unit := do
  let row ← currentOperation operationId
  let snapshot ← lift
    ((advanceRuntimeOperation row.snapshot signal).mapError .transition)
  insertEvent
    { operationId
      sequence := row.nextSequence
      task := snapshot.binding.task
      attempt := snapshot.binding.attempt
      execution := snapshot.binding.execution
      occurredAt := env.occurredAt operationId row.nextSequence
      signal }
  updateOperation operationId fun row =>
    { row with snapshot, nextSequence := row.nextSequence + 1 }
  let _ ← refreshTaskClock env (.event operationId row.nextSequence)
    snapshot.binding.task.rootRunId
  return ⟨⟩

def verifyLease (host : LedgerHost) (row : OperationRow) (token : Uuid) :
    LedgerTx OperationLease := do
  let lease ← expect row.lease (.ledger .leaseLost)
  rejectIf (host.hash token ≠ lease.tokenHash) (.ledger .leaseLost)
  return lease

/-- Settle a reservation: its amount leaves the reserved total and the settled
amount joins the spent one. -/
def settleReservation (rootRunId : Uuid) (row : ReservationRow)
    (amount : Nat) (observation : RuntimeUsageObservation) :
    LedgerTx Unit := do
  let db ← get
  rejectIf (∃ other ∈ db.reservations.rows, ∃ settled ∈ other.settled,
    settled.2.observationId = observation.observationId) .storage
  set { db with reservations :=
    db.reservations.replace { row with settled := some (amount, observation) } }
  updateBudget rootRunId row.metric fun budget =>
    { budget with
      reserved := budget.reserved - row.amount
      spent := budget.spent + amount }

/-- The operations whose non-execution the missing lease proves. -/
def provesNotExecuted (row : OperationRow) : Bool :=
  (row.snapshot.agentInstanceId.isSome &&
      row.snapshot.binding.action = "cloud.mcp.call" &&
      row.snapshot.binding.execution.targetKind = .cloudMcp) ||
    match row.bridgePayload with
    | some (.process _) | some (.python _) | some (.changeset _)
    | some (.mcpDiscover _) | some (.mcpCall _) => true
    | _ => false

/-- The settled observation of an operation that consumed nothing. -/
def zeroObservation (proof : NotExecutedProof) (row : OperationRow)
    (reservation : ReservationRow) (budget : BudgetRow) :
    RuntimeUsageObservation where
  observationId := proof.observationId reservation.metric
  accountingId := reservation.accountingId
  task := row.snapshot.binding.task
  source := budget.source
  accountingBoundary := .operation row.snapshot.binding.attempt
  aggregation := .selfOnly
  metric := reservation.metric
  unit := budget.unit
  currency := budget.currency
  mode := .cumulative
  quality := .measured
  amount := some 0
  state := .settled
  window :=
    ⟨proof.windowId reservation.metric, proof.settledAt reservation.metric,
      proof.settledAt reservation.metric⟩
  observedAt := proof.settledAt reservation.metric

def releaseReservation (env : LedgerEnv) (row : OperationRow)
    (reservation : ReservationRow) : LedgerTx Unit := do
  let db ← get
  let budget ← expect
    (db.budgets.find? (reservation.rootRunId, reservation.metric)) .storage
  let observation :=
    zeroObservation (env.notExecuted row.id) row reservation budget
  rejectIf (¬observation.Valid) .schema
  settleReservation row.rootRunId reservation 0 observation

/-- The absence of any lease proves that the operation consumed nothing. -/
def releaseReservations (env : LedgerEnv) (row : OperationRow) :
    LedgerTx Unit := do
  let db ← get
  ((reservationsOf db row.id).filter (·.settled = none)).forM
    (releaseReservation env row)

/-- Stop an operation that was never leased. -/
def stopNotExecuted (host : LedgerHost) (env : LedgerEnv) (row : OperationRow) :
    LedgerTx Unit := do
  let proof := env.notExecuted row.id
  let evidence : ReceiptEvidence :=
    { summary := JsString.ofString "取消发生在派发前，动作未执行"
      output := some .notExecuted
      errorCode := none }
  let signal : RuntimeOperationSignal := .stopped
    ⟨proof.evidenceId, proof.recordedAt, host.notExecutedDigest⟩ .none
  appendEvent env row.id signal
  insertReceipt
    { receiptId := proof.receiptId
      operationId := row.id
      payload := .report ⟨row.snapshot.binding.attempt, signal, none, evidence⟩
      disposition := .applied }
  whenever (row.snapshot.agentInstanceId ≠ none) (releaseReservations env row)

def cancelOperationRow (host : LedgerHost) (env : LedgerEnv) (acceptedId : Uuid)
    (operationId : Uuid) : LedgerTx Unit := do
  let row ← currentOperation operationId
  whenever (isTerminalRuntimeOperationStatus row.snapshot.status = false ∧
      row.snapshot.cancelRequestId = none)
    (appendEvent env operationId (.cancelRequested acceptedId))
  let row ← currentOperation operationId
  whenever (row.snapshot.status = .cancelRequested ∧ row.lease = none ∧
      provesNotExecuted row = true)
    (stopNotExecuted host env row)

/-- The operations of a root in the order of their ids. -/
def operationsOfRoot (db : LedgerDb) (rootRunId : Uuid) :
    List OperationRow :=
  (db.operations.rows.filter (·.rootRunId = rootRunId)).insertionSort
    fun a b => a.id ≤ b.id

def cancelOperationRows (host : LedgerHost) (env : LedgerEnv)
    (rows : List OperationRow) (acceptedId : Uuid) : LedgerTx Unit :=
  rows.forM fun row => cancelOperationRow host env acceptedId row.id

/-- Set the cancellation of a root, keeping the first one. -/
def cancelRootRow (requestId : Uuid) (reason : CancelReason) (root : RootRow) :
    RootRow :=
  { root with
    cancelRequestId := some (root.cancelRequestId.getD requestId)
    cancelReason := some (root.cancelReason.getD reason) }

def cancelLocked (host : LedgerHost) (env : LedgerEnv) (root : RootRow)
    (requestId : Uuid) (reason : CancelReason) : LedgerTx Unit := do
  let acceptedId := root.cancelRequestId.getD requestId
  updateRoot root.rootRunId (cancelRootRow acceptedId reason)
  let db ← get
  let continuing := if reason = .deadline then env.continuingServices else []
  cancelOperationRows host env
    ((operationsOfRoot db root.rootRunId).filter (·.id ∉ continuing))
    acceptedId

/-- The answer is the request that the root accepted first. -/
def cancelRoot (host : LedgerHost) (env : LedgerEnv) (scope : RuntimeScope)
    (rootRunId requestId : Uuid) : LedgerTx Uuid := do
  let root ← lockRoot env scope rootRunId
  cancelLocked host env root requestId .userRequest
  return root.cancelRequestId.getD requestId

/-- Cancel the operations of some of a root's agents, or all of them. -/
def cancelRuntimeAgentOperationsTransaction (host : LedgerHost) (env : LedgerEnv)
    (rootRunId requestId : Uuid) (childRunIds : Option (List Uuid)) :
    LedgerTx Unit := do
  let db ← get
  cancelOperationRows host env
    ((operationsOfRoot db rootRunId).filter fun row =>
      match childRunIds with
      | none => true
      | some ids => ids.any fun id => row.snapshot.agentInstanceId = some id)
    requestId

def cancelRuntimeRootTransaction (host : LedgerHost) (env : LedgerEnv)
    (rootRunId requestId : Uuid) (reason : CancelReason) : LedgerTx Unit := do
  let db ← get
  match db.roots.find? rootRunId with
  | none => return ⟨⟩
  | some _ => do
      updateRoot rootRunId (cancelRootRow requestId reason)
      cancelRuntimeAgentOperationsTransaction host env rootRunId requestId none

/-- Payload, Run, policy and target must all still admit the operation. -/
def admitRow (host : LedgerHost) (env : LedgerEnv) (row : OperationRow)
    (n : Nat) : LedgerTx Unit := do
  rejectIf (∃ payload ∈ row.bridgePayload,
    payload.capability ≠ row.snapshot.binding.action ∨
      host.inputDigest payload ≠ row.snapshot.binding.inputDigest)
    (.ledger .scopeMismatch)
  assertRun env row.snapshot.binding.task
  let decision ← lift (env.admission n)
  assertTarget env row.snapshot
  rejectIf (decision = .waitingUser) (.ledger .unavailable)

structure LedgerLease where
  snapshot : RuntimeOperationSnapshot
  leaseToken : Uuid
  leaseExpiresAt : Timestamp
  bridgePayload : Option RuntimeBridgePayload
deriving DecidableEq

/-- Hand out the lease of an earlier dispatch again: no new event, budget, start
or lease extension. -/
def recoverLease (host : LedgerHost) (env : LedgerEnv) (root : RootRow)
    (row : OperationRow) (owner token : Uuid) : LedgerTx LedgerLease := do
  let held ← expect row.lease (.ledger .leaseLost)
  rejectIf (held.owner ≠ owner ∨ held.expiresAt ≤ env.now 0)
    (.ledger .leaseLost)
  let lease ← verifyLease host row token
  admitRow host env row 0
  ensureRootAdmits root (env.now 1)
  rejectIf (lease.expiresAt ≤ env.now 1) (.ledger .leaseLost)
  return ⟨row.snapshot, token, lease.expiresAt, row.bridgePayload⟩

def dispatchable : List RuntimeOperationStatus :=
  [.ready, .waitingUser, .waitingDevice, .waitingDependency]

/-- Every budget dimension must have a durable, unsettled reservation. -/
def reservationMissing (db : LedgerDb) (rootRunId operationId : Uuid) : Bool :=
  (budgetsOf db rootRunId).any fun budget =>
    match db.reservations.find? (operationId, budget.metric) with
    | none => true
    | some reservation => reservation.settled.isSome

/-- Append the dispatch and write the lease. -/
def grantLease (env : LedgerEnv) (operationId : Uuid)
    (lease : OperationLease) : LedgerTx Unit := do
  appendEvent env operationId .dispatched
  updateOperation operationId fun row => { row with lease := some lease }

def issueLease (host : LedgerHost) (env : LedgerEnv) (root : RootRow)
    (row : OperationRow) (owner : Uuid) (duration : Nat) (token : Uuid) :
    LedgerTx LedgerLease := do
  rejectIf (row.snapshot.status ∉ dispatchable ∨ row.lease ≠ none)
    (.ledger .invalidState)
  let db ← get
  rejectIf (reservationMissing db root.rootRunId row.id = true)
    (.ledger .budgetExhausted)
  admitRow host env row 0
  ensureRootAdmits root (env.now 1)
  whenever (row.snapshot.status ≠ .ready) (appendEvent env row.id .ready)
  let expiresAt := min (env.now 1 + duration) root.deadlineAt
  grantLease env row.id ⟨owner, host.hash token, expiresAt⟩
  lift env.persistLease
  admitRow host env row 1
  ensureRootAdmits root (env.now 2)
  rejectIf (expiresAt ≤ env.now 2) (.ledger .leaseLost)
  let row ← currentOperation row.id
  return ⟨row.snapshot, token, expiresAt, row.bridgePayload⟩

def dispatchLocked (host : LedgerHost) (env : LedgerEnv) (root : RootRow)
    (row : OperationRow) (owner : Uuid) (duration : Nat)
    (recoverLeaseToken : Option (RuntimeActionBinding → Uuid)) :
    LedgerTx LedgerLease := do
  ensureRootAdmits root (env.now 0)
  assertRun env root.task
  match recoverLeaseToken with
  | none => issueLease host env root row owner duration (env.randomUUID 0)
  | some recover =>
    let token := recover row.snapshot.binding
    if row.snapshot.status = .dispatched then
      recoverLease host env root row owner token
    else issueLease host env root row owner duration token

def dispatch (host : LedgerHost) (env : LedgerEnv) (scope : RuntimeScope)
    (operationId leaseOwner : Uuid) (leaseMs : Nat) : LedgerTx LedgerLease := do
  rejectIf (leaseMs < 1000 ∨ 300000 < leaseMs) .schema
  let (root, row) ← lockOperation env scope operationId
  dispatchLocked host env root row leaseOwner leaseMs none

structure RuntimeBudgetLimit where
  metric : UsageMetric
  unit : UsageUnit
  currency : Option String
  capacity : Nat
  source : UsageSource
deriving DecidableEq

def RuntimeBudgetLimit.Valid (budget : RuntimeBudgetLimit) : Prop :=
  budget.capacity ≤ maxSafeInteger ∧ metricUnits budget.metric = budget.unit ∧
    (budget.metric = .cost ↔ budget.currency ≠ none)

instance RuntimeBudgetLimit.decidableValid
    (budget : RuntimeBudgetLimit) : Decidable budget.Valid :=
  inferInstanceAs (Decidable (_ ∧ _ ∧ _))

def BudgetRow.limit (row : BudgetRow) : RuntimeBudgetLimit :=
  ⟨row.metric, row.unit, row.currency, row.capacity, row.source⟩

def insertBudget (rootRunId : Uuid) (budget : RuntimeBudgetLimit) :
    LedgerTx Unit := do
  let db ← get
  let budgets ← expect (db.budgets.insert?
    { rootRunId
      metric := budget.metric
      unit := budget.unit
      currency := budget.currency
      capacity := budget.capacity
      reserved := 0
      spent := 0
      source := budget.source }) .storage
  set { db with budgets }

def insertRoot (task : RuntimeTaskRef) (deadlineAt : Timestamp) :
    LedgerTx Unit := do
  let db ← get
  let roots ← expect (db.roots.insert?
    ⟨task.rootRunId, task, deadlineAt, none, none⟩) .storage
  set { db with roots }

/-- Register a root once; a repeated registration must be the same one. -/
def createRoot (env : LedgerEnv) (task : RuntimeTaskRef)
    (deadlineAt : Timestamp) (budgets : List RuntimeBudgetLimit) :
    LedgerTx Unit := do
  rejectIf (¬task.Valid) .schema
  rejectIf (task.runId ≠ task.rootRunId) (.ledger .scopeMismatch)
  rejectIf (¬∀ budget ∈ budgets, budget.Valid) .schema
  rejectIf (budgets = [] ∨ ¬(budgets.map (·.metric)).Nodup)
    (.ledger .invalidUsage)
  assertRun env task
  let db ← get
  match db.roots.find? task.runId with
  | some prior =>
    rejectIf (prior.task ≠ task ∨
      (env.taskClock .lock = none ∧ prior.deadlineAt ≠ deadlineAt) ∨
      ¬((budgetsOf db task.runId).map (·.limit)).Perm budgets)
      (.ledger .idempotencyConflict)
  | none => do
      rejectIf (deadlineAt ≤ env.now 0) (.ledger .deadlineExceeded)
      insertRoot task deadlineAt
      linkRun task
      budgets.forM (insertBudget task.runId)

structure RuntimeBudgetReservation where
  metric : UsageMetric
  accountingId : Uuid
  amount : Nat
deriving DecidableEq

/-- A command for the dedicated browser adapter. -/
structure BrowserCommand where
  content : Nat
  observe : Bool

structure CreateRuntimeOperationInput where
  snapshot : RuntimeOperationSnapshot
  reservations : List RuntimeBudgetReservation
  bridgePayload : Option RuntimeBridgePayload
  localBrowserPayload : Option BrowserCommand
  /-- `JSON.stringify` of the input in bytes. -/
  bytes : Nat

def isLocalBrowser (action : String) : Bool :=
  action = "local.browser.act" || action = "local.browser.observe"

/-- The payload is of the target's kind, for this action and this digest. -/
def payloadMismatch (host : LedgerHost) (input : CreateRuntimeOperationInput) :
    Bool :=
  let binding := input.snapshot.binding
  (decide (binding.execution.targetKind = .riceBridge) !=
      (input.bridgePayload.isSome || input.localBrowserPayload.isSome)) ||
    (match input.localBrowserPayload with
    | none => isLocalBrowser binding.action
    | some browser =>
      !isLocalBrowser binding.action || input.bridgePayload.isSome ||
        host.browserDigest browser.content != binding.inputDigest ||
        browser.observe != (binding.action = "local.browser.observe")) ||
    match input.bridgePayload with
    | none => false
    | some payload =>
      payload.capability != binding.action ||
        host.inputDigest payload != binding.inputDigest

def reservationOf (row : ReservationRow) : RuntimeBudgetReservation :=
  ⟨row.metric, row.accountingId, row.amount⟩

/-- A reservation takes its amount out of the root's budget. -/
def reserve (operationId rootRunId : Uuid)
    (reservation : RuntimeBudgetReservation) : LedgerTx Unit := do
  let db ← get
  rejectIf (∃ other ∈ db.reservations.rows,
    other.accountingId = reservation.accountingId) .storage
  let reservations ← expect (db.reservations.insert?
    { operationId
      rootRunId
      metric := reservation.metric
      accountingId := reservation.accountingId
      amount := reservation.amount
      settled := none }) .storage
  set { db with reservations }
  updateBudget rootRunId reservation.metric fun budget =>
    { budget with reserved := budget.reserved + reservation.amount }

def insertOperation (row : OperationRow) : LedgerTx Unit := do
  let db ← get
  rejectIf (∃ other ∈ db.operations.rows,
    other.snapshot.binding.attempt.attemptId =
        row.snapshot.binding.attempt.attemptId ∨
      (other.snapshot.idempotencyKey = row.snapshot.idempotencyKey ∧
        other.snapshot.binding.task.scope.organizationId =
          row.snapshot.binding.task.scope.organizationId ∧
        other.snapshot.binding.task.scope.workspaceId =
          row.snapshot.binding.task.scope.workspaceId)) .storage
  let operations ← expect (db.operations.insert? row) .storage
  set { db with operations }

/-- The operation that an idempotency key names in a workspace. -/
def findByKey (db : LedgerDb) (root : RootRow) (key : Uuid) :
    Option OperationRow :=
  db.operations.rows.find? fun row =>
    row.snapshot.idempotencyKey = key &&
      row.snapshot.binding.task.scope.organizationId =
        root.task.scope.organizationId &&
      row.snapshot.binding.task.scope.workspaceId =
        root.task.scope.workspaceId

/-- A new action attempt with its reservations. -/
def insertReserved (root : RootRow) (input : CreateRuntimeOperationInput) :
    LedgerTx Unit := do
  let operationId := input.snapshot.binding.attempt.operationId
  insertOperation
    { id := operationId
      rootRunId := root.rootRunId
      snapshot := input.snapshot
      initialSnapshot := input.snapshot
      nextSequence := 0
      bridgePayload := input.bridgePayload
      lease := none }
  input.reservations.forM (reserve operationId root.rootRunId)

/-- The budget that has no reservation or no room for it. -/
def budgetRefusal (reservations : List RuntimeBudgetReservation)
    (budget : BudgetRow) : Option LedgerErrorCode :=
  match reservations.find? (·.metric = budget.metric) with
  | none => some .invalidUsage
  | some reservation =>
    if isObservedExecutionMetric budget.metric = false ∧
        budget.capacity < budget.reserved + budget.spent + reservation.amount
    then some .budgetExhausted
    else none

/-- Compare a repeated request with the stored one and answer what is stored. -/
def replayOperation (env : LedgerEnv) (prior : OperationRow)
    (input : CreateRuntimeOperationInput) :
    LedgerTx RuntimeOperationSnapshot := do
  let db ← get
  rejectIf (prior.initialSnapshot ≠ input.snapshot ∨
    prior.bridgePayload ≠ input.bridgePayload ∨
    ¬input.reservations.Perm ((reservationsOf db prior.id).map reservationOf))
    (.ledger .idempotencyConflict)
  lift env.createReplayAuthority
  rejectIf (¬prior.snapshot.Valid) .schema
  return prior.snapshot

/-- The part of `createOperation` that admits a new operation. -/
def admitOperation (env : LedgerEnv) (root : RootRow)
    (input : CreateRuntimeOperationInput) :
    LedgerTx RuntimeOperationSnapshot := do
  let operationId := input.snapshot.binding.attempt.operationId
  ensureRootAdmits root (env.now 0)
  assertRun env root.task
  assertRun env input.snapshot.binding.task
  let decision ← lift (env.admission 0)
  assertTarget env input.snapshot
  ensureRootAdmits root (env.now 1)
  linkRun input.snapshot.binding.task
  let db ← get
  let budgets := budgetsOf db root.rootRunId
  rejectIf (input.reservations.length ≠ budgets.length ∨
    (input.reservations.map (·.metric)).dedup.length ≠ budgets.length)
    (.ledger .invalidUsage)
  match budgets.findSome? (budgetRefusal input.reservations) with
  | some code => throw (.ledger code)
  | none => do
      insertReserved root input
      appendEvent env operationId
        (if decision = .waitingUser then .waiting .user else .ready)
      let final ← lift (env.admission 1)
      rejectIf (final ≠ decision) (.ledger .unavailable)
      ensureRootAdmits root (env.now 2)
      let row ← currentOperation operationId
      return row.snapshot

def createOperation (host : LedgerHost) (env : LedgerEnv)
    (input : CreateRuntimeOperationInput) :
    LedgerTx RuntimeOperationSnapshot := do
  let snapshot := input.snapshot
  rejectIf (¬snapshot.Valid) .schema
  rejectIf (snapshot.status ≠ .planned ∨ snapshot.processId ≠ none ∨
    snapshot.cancelRequestId ≠ none ∨
    snapshot.binding.attempt.attemptNumber ≠ 1 ∨
    snapshot.binding.attempt.fence ≠ 1) (.ledger .invalidState)
  rejectIf (¬∀ payload ∈ input.bridgePayload, payload.Valid) .schema
  rejectIf (payloadMismatch host input = true) (.ledger .scopeMismatch)
  rejectIf (¬∀ r ∈ input.reservations, r.amount ≤ maxSafeInteger) .schema
  rejectIf (512000 < input.bytes) (.ledger .invalidState)
  rejectIf (input.localBrowserPayload ≠ none ∧ env.browserRegistered = false)
    (.ledger .scopeMismatch)
  let root ← lockRoot env snapshot.binding.task.scope
    snapshot.binding.task.rootRunId
  let db ← get
  match findByKey db root snapshot.idempotencyKey with
  | some prior => replayOperation env prior input
  | none => admitOperation env root input

structure StartInput where
  scope : RuntimeScope
  operationId : Uuid
  leaseToken : Uuid
  receiptId : Uuid
  attempt : RuntimeAttemptRef

structure StartAnswer where
  snapshot : RuntimeOperationSnapshot
  mayExecute : Bool
deriving DecidableEq

/-- The admitted first start of an operation. -/
def admitStart (host : LedgerHost) (env : LedgerEnv) (input : StartInput)
    (root : RootRow) (row : OperationRow) (lease : OperationLease) :
    LedgerTx StartAnswer := do
  rejectIf (input.attempt ≠ row.snapshot.binding.attempt) (.ledger .leaseLost)
  ensureRootAdmits root (env.now 0)
  assertRun env root.task
  rejectIf (lease.expiresAt ≤ env.now 0 ∨ row.snapshot.status ≠ .dispatched)
    (.ledger .leaseLost)
  admitRow host env row 0
  ensureRootAdmits root (env.now 1)
  rejectIf (lease.expiresAt ≤ env.now 1) (.ledger .leaseLost)
  appendEvent env row.id (.started none)
  insertReceipt
    ⟨input.receiptId, row.id, .preflight input.attempt, .applied⟩
  admitRow host env row 1
  ensureRootAdmits root (env.now 2)
  rejectIf (lease.expiresAt ≤ env.now 2) (.ledger .leaseLost)
  let row ← currentOperation row.id
  return ⟨row.snapshot, true⟩

def startOperation (host : LedgerHost) (env : LedgerEnv) (input : StartInput) :
    LedgerTx StartAnswer := do
  rejectIf (¬input.attempt.Valid) .schema
  let (root, row) ← lockOperation env input.scope input.operationId
  let lease ← verifyLease host row input.leaseToken
  let db ← get
  match db.receipts.find? input.receiptId with
  | some prior => do
      rejectIf (prior.operationId ≠ row.id ∨
        prior.payload ≠ .preflight input.attempt) (.ledger .receiptConflict)
      return ⟨row.snapshot, false⟩
  | none => admitStart host env input root row lease

/-- The statement that moves a lease's end. -/
def extendLease (operationId : Uuid) (expiresAt : Timestamp) : LedgerTx Unit :=
  updateOperation operationId fun row =>
    { row with lease := row.lease.map fun lease => { lease with expiresAt } }

structure HeartbeatInput where
  scope : RuntimeScope
  operationId : Uuid
  leaseToken : Uuid
  leaseMs : Nat

def heartbeat (host : LedgerHost) (env : LedgerEnv) (input : HeartbeatInput) :
    LedgerTx Timestamp := do
  rejectIf (input.leaseMs < 1000 ∨ 300000 < input.leaseMs) .schema
  let (root, row) ← lockOperation env input.scope input.operationId
  let lease ← verifyLease host row input.leaseToken
  ensureRootAdmits root (env.now 0)
  assertRun env root.task
  rejectIf (lease.expiresAt ≤ env.now 0 ∨
    row.snapshot.status ∉ [.dispatched, .running]) (.ledger .leaseLost)
  admitRow host env row 0
  ensureRootAdmits root (env.now 1)
  rejectIf (lease.expiresAt ≤ env.now 1) (.ledger .leaseLost)
  let expiresAt := min (env.now 1 + input.leaseMs) root.deadlineAt
  extendLease row.id expiresAt
  admitRow host env row 1
  ensureRootAdmits root (env.now 2)
  rejectIf (expiresAt ≤ env.now 2 ∨ lease.expiresAt ≤ env.now 2)
    (.ledger .leaseLost)
  return expiresAt

/-- The chunks of an operation are stored in order, each one once. -/
def recordLedgerOutput (host : LedgerHost) (env : LedgerEnv)
    (scope : RuntimeScope) (operationId : Uuid)
    (output : RuntimeBridgeOutput) : LedgerTx Unit := do
  rejectIf (¬output.Valid) .schema
  let (_, row) ← lockOperation env scope operationId
  let _ ← verifyLease host row output.leaseToken
  rejectIf (row.snapshot.binding.attempt ≠ output.attempt ∨
    row.snapshot.binding.action ≠ "local.process.execute")
    (.ledger .scopeMismatch)
  let db ← get
  match db.outputs.find? (row.id, output.sequence) with
  | some prior =>
    rejectIf (prior.stream ≠ output.stream ∨
      prior.content ≠ output.content) (.ledger .receiptConflict)
  | none => do
      let stored := outputsOf db row.id
      rejectIf (output.sequence ≠ nextSequence (stored.map (·.sequence)) ∨
        65536 < (stored.map (JsString.byteLength ·.content)).sum +
          JsString.byteLength output.content) (.ledger .receiptConflict)
      let outputs ← expect (db.outputs.insert?
        ⟨row.id, output.sequence, output.stream, output.content⟩) .storage
      set { db with outputs }

end Allrice
