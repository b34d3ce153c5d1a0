/-
The tables of the server's runtime ledger: roots with their budgets, operations
with their leases, the append-only events and receipts, the reservations and
the stored output.  Constraints and triggers of the schema are checks of the
statements that write a table.
-/
import Allrice.RuntimeDispatch
import Allrice.Table
import Allrice.Transaction

namespace Allrice

open Tx

inductive UsageMetric where
  | inputTokens
  | cachedInputTokens
  | outputTokens
  | modelCalls
  | toolCalls
  | wallTime
  | outputBytes
  | cost
deriving DecidableEq

inductive UsageUnit where
  | tokens
  | calls
  | milliseconds
  | bytes
  | currencyMicrounits
deriving DecidableEq

def metricUnits : UsageMetric → UsageUnit
  | .inputTokens | .cachedInputTokens | .outputTokens => .tokens
  | .modelCalls | .toolCalls => .calls
  | .wallTime => .milliseconds
  | .outputBytes => .bytes
  | .cost => .currencyMicrounits

/-- Execution usage that is telemetry, never a spending gate. -/
def isObservedExecutionMetric : UsageMetric → Bool
  | .inputTokens | .cachedInputTokens | .outputTokens | .modelCalls
  | .toolCalls | .cost => true
  | .wallTime | .outputBytes => false

inductive UsageSourceKind where
  | provider
  | harness
  | worker
  | bridge
  | cloudRunner
  | estimator
deriving DecidableEq

structure UsageSource where
  kind : UsageSourceKind
  sourceId : String
deriving DecidableEq

inductive UsageBoundary where
  | rootRun (runId : Uuid)
  | run (runId : Uuid)
  | operation (attempt : RuntimeAttemptRef)
deriving DecidableEq

inductive UsageAggregation where
  | selfOnly
  | includesDescendants
deriving DecidableEq

inductive UsageMode where
  | delta
  | cumulative
deriving DecidableEq

inductive UsageQuality where
  | measured
  | estimated
  | unknown
deriving DecidableEq

inductive UsageState where
  | reserved
  | spent
  | settled
deriving DecidableEq

structure UsageWindow where
  id : Uuid
  startedAt : Timestamp
  endedAt : Timestamp
deriving DecidableEq

/-- A typed observation, not a bill. -/
structure RuntimeUsageObservation where
  observationId : Uuid
  accountingId : Uuid
  task : RuntimeTaskRef
  source : UsageSource
  accountingBoundary : UsageBoundary
  aggregation : UsageAggregation
  metric : UsageMetric
  unit : UsageUnit
  currency : Option String
  mode : UsageMode
  quality : UsageQuality
  amount : Option Nat
  state : UsageState
  window : UsageWindow
  observedAt : Timestamp
deriving DecidableEq

/-- Whether a boundary lies inside the task it is reported for. -/
def UsageBoundary.matchesTask (task : RuntimeTaskRef) : UsageBoundary → Bool
  | .rootRun runId => runId = task.rootRunId
  | .run runId => runId = task.runId
  | .operation _ => true

def UsageBoundary.isOperation : UsageBoundary → Bool
  | .operation _ => true
  | _ => false

def RuntimeUsageObservation.Valid (o : RuntimeUsageObservation) : Prop :=
  o.task.Valid ∧ (∀ amount ∈ o.amount, amount ≤ maxSafeInteger) ∧
    (o.quality = .unknown ↔ o.amount = none) ∧
    metricUnits o.metric = o.unit ∧
    (o.metric = .cost ↔ o.currency ≠ none) ∧
    o.accountingBoundary.matchesTask o.task = true ∧
    ¬(o.accountingBoundary.isOperation = true ∧ o.aggregation ≠ .selfOnly) ∧
    o.window.startedAt ≤ o.window.endedAt ∧ o.window.endedAt ≤ o.observedAt

instance RuntimeUsageObservation.decidableValid
    (o : RuntimeUsageObservation) : Decidable o.Valid :=
  inferInstanceAs (Decidable (_ ∧ _ ∧ _ ∧ _ ∧ _ ∧ _ ∧ _ ∧ _ ∧ _))

inductive CancelReason where
  | userRequest
  | deadline
  | budgetExhausted
deriving DecidableEq

structure RootRow where
  rootRunId : Uuid
  task : RuntimeTaskRef
  deadlineAt : Timestamp
  cancelRequestId : Option Uuid
  cancelReason : Option CancelReason

structure RunLinkRow where
  runId : Uuid
  rootRunId : Uuid
  task : RuntimeTaskRef

structure BudgetRow where
  rootRunId : Uuid
  metric : UsageMetric
  unit : UsageUnit
  currency : Option String
  capacity : Nat
  reserved : Int
  spent : Int
  source : UsageSource
deriving DecidableEq

def BudgetRow.key (row : BudgetRow) : Uuid × UsageMetric :=
  (row.rootRunId, row.metric)

/-- The check constraints of a budget. -/
def BudgetRow.Fits (row : BudgetRow) : Prop :=
  row.capacity ≤ maxSafeInteger ∧ 0 ≤ row.reserved ∧ 0 ≤ row.spent ∧
    row.reserved + row.spent ≤ maxSafeInteger

instance BudgetRow.decidableFits (row : BudgetRow) : Decidable row.Fits :=
  inferInstanceAs (Decidable (_ ∧ _ ∧ _ ∧ _))

/-- The lease columns of an operation, which are set together. -/
structure OperationLease where
  owner : Uuid
  tokenHash : Nat
  expiresAt : Timestamp

structure OperationRow where
  id : Uuid
  rootRunId : Uuid
  snapshot : RuntimeOperationSnapshot
  initialSnapshot : RuntimeOperationSnapshot
  nextSequence : Nat
  bridgePayload : Option RuntimeBridgePayload
  lease : Option OperationLease

/-- One entry of an operation's event log. -/
structure EventRow where
  operationId : Uuid
  sequence : Nat
  task : RuntimeTaskRef
  attempt : RuntimeAttemptRef
  execution : RuntimeExecutionScope
  occurredAt : Timestamp
  signal : RuntimeOperationSignal

def EventRow.key (row : EventRow) : Uuid × Nat :=
  (row.operationId, row.sequence)

/-- What a device reported about an attempt. -/
structure ReceiptContent where
  attempt : RuntimeAttemptRef
  signal : RuntimeOperationSignal
  deviceSequence : Option Nat
  evidence : Option ReceiptEvidence
deriving DecidableEq

/-- A stored receipt: a preflight of `startOperation` or reported facts. -/
inductive ReceiptPayload where
  | preflight (attempt : RuntimeAttemptRef)
  | report (content : ReceiptContent)
deriving DecidableEq

inductive ReceiptDisposition where
  | applied
  | stale
  | conflict

structure ReceiptRow where
  receiptId : Uuid
  operationId : Uuid
  payload : ReceiptPayload
  disposition : ReceiptDisposition

structure ReservationRow where
  operationId : Uuid
  rootRunId : Uuid
  metric : UsageMetric
  accountingId : Uuid
  amount : Nat
  /-- The settled amount with the observation that settled it. -/
  settled : Option (Nat × RuntimeUsageObservation)

def ReservationRow.key (row : ReservationRow) : Uuid × UsageMetric :=
  (row.operationId, row.metric)

/-- One stored chunk of output. -/
structure LedgerOutputRow where
  operationId : Uuid
  sequence : Nat
  stream : OutputStream
  content : JsString

def LedgerOutputRow.key (row : LedgerOutputRow) : Uuid × Nat :=
  (row.operationId, row.sequence)

structure LedgerDb where
  roots : Table Uuid RootRow RootRow.rootRunId
  runLinks : Table Uuid RunLinkRow RunLinkRow.runId
  budgets : Table (Uuid × UsageMetric) BudgetRow BudgetRow.key
  operations : Table Uuid OperationRow OperationRow.id
  events : Table (Uuid × Nat) EventRow EventRow.key
  receipts : Table Uuid ReceiptRow ReceiptRow.receiptId
  reservations : Table (Uuid × UsageMetric) ReservationRow ReservationRow.key
  outputs : Table (Uuid × Nat) LedgerOutputRow LedgerOutputRow.key

def LedgerDb.empty : LedgerDb where
  roots := .empty
  runLinks := .empty
  budgets := .empty
  operations := .empty
  events := .empty
  receipts := .empty
  reservations := .empty
  outputs := .empty

inductive LedgerErrorCode where
  | scopeMismatch
  | unavailable
  | idempotencyConflict
  | budgetExhausted
  | rootCanceled
  | deadlineExceeded
  | leaseLost
  | receiptConflict
  | invalidState
  | invalidUsage
deriving DecidableEq

/-- A `RuntimeLedgerError`, or anything else that ends a transaction. -/
inductive LedgerError where
  | ledger (code : LedgerErrorCode)
  | transition (error : AdvanceError)
  | schema
  | storage
  | execution (code : String)
  | other
deriving DecidableEq

abbrev LedgerTx := Tx LedgerError LedgerDb

def currentOperation (operationId : Uuid) : LedgerTx OperationRow := do
  let db ← get
  expect (db.operations.find? operationId) .storage

/-- The trigger on updates: identity and inputs are immutable, and so are a
lease's owner and token once they are set. -/
def OperationRow.MayBecome (old new : OperationRow) : Prop :=
  new.id = old.id ∧ new.rootRunId = old.rootRunId ∧
    new.initialSnapshot = old.initialSnapshot ∧
    new.bridgePayload = old.bridgePayload ∧
    new.snapshot.binding = old.snapshot.binding ∧
    ∀ lease ∈ old.lease, ∃ next ∈ new.lease,
      next.owner = lease.owner ∧ next.tokenHash = lease.tokenHash

instance OperationRow.decidableMayBecome (old new : OperationRow) :
    Decidable (old.MayBecome new) :=
  inferInstanceAs (Decidable (_ ∧ _ ∧ _ ∧ _ ∧ _ ∧ _))

/-- `UPDATE allrice_runtime_operations … WHERE id = operationId`. -/
def updateOperation (operationId : Uuid)
    (change : OperationRow → OperationRow) : LedgerTx Unit := do
  let old ← currentOperation operationId
  rejectIf (¬old.MayBecome (change old)) .storage
  modify fun db =>
    { db with operations := db.operations.replace (change old) }

def insertEvent (row : EventRow) : LedgerTx Unit := do
  let db ← get
  let events ← expect (db.events.insert? row) .storage
  set { db with events }

def insertReceipt (row : ReceiptRow) : LedgerTx Unit := do
  let db ← get
  let receipts ← expect (db.receipts.insert? row) .storage
  set { db with receipts }

/-- `UPDATE allrice_runtime_roots … WHERE root_run_id = rootRunId`; the columns
that change are not the key. -/
def updateRoot (rootRunId : Uuid) (change : RootRow → RootRow) :
    LedgerTx Unit := do
  let db ← get
  match db.roots.find? rootRunId with
  | none => return ⟨⟩
  | some old => set { db with roots := db.roots.replace (change old) }

/-- `UPDATE allrice_runtime_budgets … WHERE root_run_id, metric`. -/
def updateBudget (rootRunId : Uuid) (metric : UsageMetric)
    (change : BudgetRow → BudgetRow) : LedgerTx Unit := do
  let db ← get
  let old ← expect (db.budgets.find? (rootRunId, metric)) .storage
  rejectIf (¬(change old).Fits) .storage
  set { db with budgets := db.budgets.replace (change old) }

/-- The events of an operation in the order of their sequence numbers. -/
def eventsOf (db : LedgerDb) (operationId : Uuid) : List EventRow :=
  db.events.rows.filter (·.operationId = operationId)

def reservationsOf (db : LedgerDb) (operationId : Uuid) :
    List ReservationRow :=
  db.reservations.rows.filter (·.operationId = operationId)

def budgetsOf (db : LedgerDb) (rootRunId : Uuid) : List BudgetRow :=
  db.budgets.rows.filter (·.rootRunId = rootRunId)

def outputsOf (db : LedgerDb) (operationId : Uuid) : List LedgerOutputRow :=
  db.outputs.rows.filter (·.operationId = operationId)

end Allrice
