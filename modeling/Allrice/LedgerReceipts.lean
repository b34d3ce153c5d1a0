/-
What the ledger accepts from an executor: receipts with the evidence that their
capability requires, the exchanges of background services, the expiry of leases
and the settlement of measured usage.
-/
import Allrice.RuntimeLedger

namespace Allrice

open Tx

/-- Whether a signal reports a successful outcome. -/
def isSuccess : RuntimeOperationSignal → Bool
  | .outcome result => result.status = .succeeded
  | _ => false

/-- The effects that a final signal reports. -/
def reportedEffects : RuntimeOperationSignal → RuntimeEffects
  | .outcome result => result.effects
  | .stopped _ effects => effects.toEffects
  | _ => .none

def isStopped : RuntimeOperationSignal → Bool
  | .stopped _ _ => true
  | _ => false

def isOutcome : RuntimeOperationSignal → Bool
  | .outcome _ => true
  | _ => false

/-- `RuntimeLocalCommandResultSchema.safeParse`. -/
def commandResult? : Option EvidenceOutput → Option LocalCommandResult
  | some (.command result) => some result
  | _ => none

/-- `RuntimeLocalPythonResultSchema.safeParse`. -/
def pythonResult? : Option EvidenceOutput → Option LocalPythonResult
  | some (.python result) => some result
  | _ => none

/-- `RuntimeLocalPdfResultSchema.safeParse`. -/
def pdfResult? : Option EvidenceOutput → Option LocalPdfResult
  | some (.pdf result) => if result.Valid then some result else none
  | _ => none

/-- `ChangesetExecutionResultSchema.safeParse`. -/
def changesetResult? :
    Option EvidenceOutput → Option (List ChangesetFileResult)
  | some (.changeset files) => some files
  | _ => none

def localPdfPreExecutionDenialCodes : List String :=
  ["PDF_RESOURCE_CHANGED", "PDF_RESOURCE_INTEGRITY_FAILED",
    "PDF_GUARDIAN_INTEGRITY_FAILED", "PDF_SOURCE_CHANGED", "PDF_INPUT_LIMIT",
    "PDF_EXECUTION_REVOKED", "PDF_SOURCE_UNAVAILABLE"]

/-- A failure of the fixed reader before a child exists. -/
def isPreExecutionDenial : Option EvidenceOutput → Bool
  | some (.errorCode code) => code ∈ localPdfPreExecutionDenialCodes
  | _ => false

def storedObject (env : LedgerEnv) (object : Option Uuid) : LedgerTx Unit := do
  let objectId ← expect object .other
  rejectIf (env.objectStored objectId = false) (.ledger .invalidState)

/-- A successful `local.file.*` receipt carries the result of its payload. -/
def checkFileEvidence (host : LedgerHost) (env : LedgerEnv)
    (capability : BridgeCapability) (arguments : Nat)
    (signal : RuntimeOperationSignal) (output : Option EvidenceOutput) :
    LedgerTx Unit :=
  if capability.isLocalFile ∧ capability ≠ .fileDerive ∧ isSuccess signal then
    match output with
    | some (.file result) => do
        rejectIf
          (host.localFileResultMatchesPayload capability arguments result =
              false ∨
            reportedEffects signal ≠
              if result.status = .inspected then .none else .applied)
          (.ledger .invalidState)
        whenever (result.status = .uploaded) (storedObject env result.object)
    | _ => throw .schema
  else pure ⟨⟩

def checkDerivationEvidence (host : LedgerHost) (env : LedgerEnv)
    (arguments : Nat) (signal : RuntimeOperationSignal)
    (output : Option EvidenceOutput) : LedgerTx Unit :=
  if isSuccess signal then
    match output with
    | some (.derivation result) => do
        rejectIf
          (host.fileDerivationResultMatches arguments result = false ∨
            reportedEffects signal ≠
              if result.listed then .none else .applied)
          (.ledger .invalidState)
        whenever (result.object ≠ none) (storedObject env result.object)
    | _ => throw .schema
  else rejectIf (reportedEffects signal ≠ .none) (.ledger .invalidState)

/-- A command that ran to its end without a failure. -/
def exitedCleanly (result : LocalCommandResult) : Bool :=
  result.reason = .exited && result.exitCode = 0

/-- A project preparation or a candidate command leaves no effects, needs a
result to succeed, and its result must be the one of its payload. -/
def checkCommandEvidence (signal : RuntimeOperationSignal)
    (output : Option EvidenceOutput) (isMatch : LocalCommandResult → Bool) :
    LedgerTx Unit :=
  rejectIf
    (reportedEffects signal ≠ .none ∨
      (isSuccess signal ∧ commandResult? output = none) ∨
      ∃ result ∈ commandResult? output,
        isMatch result = false ∨
          (isSuccess signal ∧ exitedCleanly result = false))
    (.ledger .invalidState)

def checkProcessEvidence (host : LedgerHost)
    (arguments : LocalCommandArguments) (signal : RuntimeOperationSignal)
    (output : Option EvidenceOutput) : LedgerTx Unit := do
  whenever (arguments.projectPreparation = true)
    (checkCommandEvidence signal output
      (host.localProjectResultMatchesPayload arguments))
  whenever (arguments.candidate = true)
    (checkCommandEvidence signal output fun result =>
      result.imageDigest = arguments.imageDigest &&
        host.candidateMatches arguments result)

def checkPythonEvidence (env : LedgerEnv) (arguments : LocalPythonArguments)
    (signal : RuntimeOperationSignal) (output : Option EvidenceOutput) :
    LedgerTx Unit := do
  let parsed := pythonResult? output
  rejectIf
    ((isSuccess signal ∧ ¬∃ result ∈ parsed,
        result.reason = .exited ∧ result.exitCode = 0) ∨
      (∃ result ∈ parsed,
        localPythonResultMatchesPayload arguments result = false) ∨
      reportedEffects signal ≠ .none)
    (.ledger .invalidState)
  match parsed with
  | none => return ⟨⟩
  | some result =>
    result.artifacts.forM fun file =>
      storedObject env (some file.output.objectId)

/-- The parser of a `local.pdf.read` receipt is known to have stopped. -/
def pdfResultStands (arguments : LocalPdfArguments) (result : LocalPdfResult) :
    Bool :=
  pdfResultMatchesPayload arguments result && result.process.stopped &&
    result.process.reason != .processUnknown

def checkPdfEvidence (arguments : LocalPdfArguments)
    (signal : RuntimeOperationSignal) (output : Option EvidenceOutput) :
    LedgerTx Unit :=
  let parsed := pdfResult? output
  rejectIf
    ((isSuccess signal ∧ ¬∃ result ∈ parsed,
        result.document ≠ none ∧ result.process.stopped = true) ∨
      (∃ result ∈ parsed, pdfResultStands arguments result = false) ∨
      (isOutcome signal ∧ isSuccess signal = false ∧
        ∃ result ∈ parsed, result.document ≠ none) ∨
      (isStopped signal ∧ ¬∃ result ∈ parsed,
        result.document = none ∧ result.process.reason = .canceled) ∨
      (parsed = none ∧ isSuccess signal = false ∧ isOutcome signal ∧
        isPreExecutionDenial output = false) ∨
      reportedEffects signal ≠ .none)
    (.ledger .invalidState)

/-- The evidence that a final receipt of a capability must carry. -/
def checkFinalEvidence (host : LedgerHost) (env : LedgerEnv)
    (payload : RuntimeBridgePayload) (signal : RuntimeOperationSignal)
    (output : Option EvidenceOutput) : LedgerTx Unit :=
  match payload with
  | .command .fileDerive arguments =>
    checkDerivationEvidence host env arguments signal output
  | .command capability arguments =>
    checkFileEvidence host env capability arguments signal output
  | .process arguments => checkProcessEvidence host arguments signal output
  | .python arguments => checkPythonEvidence env arguments signal output
  | .pdf arguments => checkPdfEvidence arguments signal output
  | .changeset _ | .mcpDiscover _ | .mcpCall _ => return ⟨⟩

/-- The signal that the per-file states of an organization call for. -/
def organizationConsistent (files : List ChangesetFileResult) :
    RuntimeOperationSignal → Bool
  | .uncertain _ => files.any fun file =>
    file.status = .unknown || file.status = .prepared
  | .stopped _ effects =>
    effects = .none && !files.any (·.status = .applied) &&
      !(files.any fun file =>
        file.status = .unknown || file.status = .prepared) &&
      files.any (·.status = .canceled)
  | .outcome result =>
    let applied := files.countP (·.status = .applied)
    !(files.any fun file =>
        file.status = .unknown || file.status = .prepared) &&
      result.status = (if applied = files.length then
          RuntimeResultStatus.succeeded
        else if applied = 0 then .failed else .partialResult) &&
      result.effects = (if applied = files.length then RuntimeEffects.applied
        else if applied = 0 then .none else .partialEffects)
  | _ => false

/-- A failed outcome without effects. -/
def isEmptyFailure : RuntimeOperationSignal → Bool
  | .outcome result => result.status = .failed && result.effects = .none
  | _ => false

/-- A rejected start or a crash can lack file evidence; it can never prove
applied effects. -/
def checkOrganizationEvidence (host : LedgerHost)
    (arguments : ChangesetArguments) (signal : RuntimeOperationSignal)
    (output : Option EvidenceOutput) : LedgerTx Unit :=
  match changesetResult? output with
  | none =>
    rejectIf (output ≠ none ∨
      (isUncertainSignal signal = false ∧
        isEmptyFailure signal = false))
      (.ledger .invalidState)
  | some files =>
    rejectIf (organizationConsistent files signal = false ∨
      host.fileOrganizationResultMatches arguments files = false)
      (.ledger .invalidState)

/-- All evidence checks of a receipt for a Bridge payload. -/
def checkPayloadEvidence (host : LedgerHost) (env : LedgerEnv)
    (payload : RuntimeBridgePayload) (signal : RuntimeOperationSignal)
    (output : Option EvidenceOutput) : LedgerTx Unit := do
  whenever (isFinalSignal signal = true)
    (checkFinalEvidence host env payload signal output)
  match payload with
  | .changeset arguments =>
    whenever (arguments.fileOrganization = true ∧
        (isFinalSignal signal = true ∨ isUncertainSignal signal = true))
      (checkOrganizationEvidence host arguments signal output)
  | _ => return ⟨⟩

def checkBridgeEvidence (host : LedgerHost) (env : LedgerEnv)
    (payload : Option RuntimeBridgePayload) (content : ReceiptContent) :
    LedgerTx Unit :=
  match payload with
  | none => return ⟨⟩
  | some payload =>
    checkPayloadEvidence host env payload content.signal
      (content.evidence.bind (·.output))

structure LedgerReceipt where
  scope : RuntimeScope
  operationId : Uuid
  leaseToken : Uuid
  receiptId : Uuid
  content : ReceiptContent

inductive ReceiptAnswer where
  | applied
  | duplicate
  | stale
  | conflict
deriving DecidableEq

def ReceiptDisposition.replayed : ReceiptDisposition → ReceiptAnswer
  | .applied => .duplicate
  | .stale => .stale
  | .conflict => .conflict

/-- A device reports facts, never server scheduling or authorization intents. -/
def isReceiptSignal : RuntimeOperationSignal → Bool
  | .started _ | .transportAck | .uncertain _ | .outcome _ | .stopped _ _ =>
    true
  | _ => false

/-- Preserve a local stop as a targeted cancellation intent; the evidence must
prove the stop of this very attempt. -/
def requestStop (env : LedgerEnv) (operationId requestId : Uuid)
    (proved : Bool) : LedgerTx Unit := do
  rejectIf (proved = false) (.ledger .invalidState)
  appendEvent env operationId (.cancelRequested requestId)

def isLocalStop : LocalCommandReason → Bool
  | .canceled | .leaseLost => true
  | _ => false

def isPythonStop : LocalPythonReason → Bool
  | .canceled | .leaseLost => true
  | _ => false

/-- Whether the evidence proves that the executor stopped this attempt. -/
def stopProved (host : LedgerHost) (env : LedgerEnv)
    (payload : RuntimeBridgePayload) (signal : RuntimeOperationSignal)
    (output : Option EvidenceOutput) : Option Bool :=
  match payload with
  | .process arguments =>
    match commandResult? output with
    | none => some false
    | some result =>
      if arguments.background then
        some (isLocalStop result.reason &&
          some result.containerId = env.serviceContainer &&
          result.imageDigest = arguments.imageDigest)
      else
        some (reportedEffects signal = .none &&
          isLocalStop result.reason &&
          result.imageDigest = arguments.imageDigest &&
          host.localProjectResultMatchesPayload arguments result)
  | .python arguments =>
    match pythonResult? output with
    | none => some false
    | some result =>
      some (reportedEffects signal = .none &&
        isPythonStop result.reason &&
        localPythonResultMatchesPayload arguments result)
  | .pdf arguments =>
    match pdfResult? output with
    | none => some false
    | some result =>
      some (reportedEffects signal = .none && result.process.stopped &&
        result.document = none && result.process.reason = .canceled &&
        pdfResultMatchesPayload arguments result)
  | .command _ _ | .changeset _ | .mcpDiscover _ | .mcpCall _ => none

/-- A stop that no cancellation asked for: some capabilities turn it into a
request first. -/
def requestStops (host : LedgerHost) (env : LedgerEnv) (row : OperationRow)
    (receiptId : Uuid) (content : ReceiptContent) : LedgerTx Unit :=
  if isStopped content.signal ∧ row.snapshot.status = .running then
    match row.bridgePayload with
    | some payload =>
      match stopProved host env payload content.signal
          (content.evidence.bind (·.output)) with
      | some proved => requestStop env row.id receiptId proved
      | none => return ⟨⟩
    | none =>
      if row.snapshot.binding.action = "cloud.process.execute" then
        if env.cloudServiceEstablished then
          appendEvent env row.id (.cancelRequested (env.randomUUID 0))
        else
          requestStop env row.id receiptId
            (reportedEffects content.signal = .none && env.cloudStopRecorded)
      else return ⟨⟩
  else return ⟨⟩

/-- Apply the reported signal, or keep it as a conflict. -/
def applyReceipt (env : LedgerEnv) (operationId : Uuid)
    (signal : RuntimeOperationSignal) : LedgerTx ReceiptDisposition := do
  let row ← currentOperation operationId
  match advanceRuntimeOperation row.snapshot signal with
  | .error _ => return .conflict
  | .ok _ => do
      appendEvent env operationId signal
      return .applied

def judgeReceipt (host : LedgerHost) (env : LedgerEnv) (row : OperationRow)
    (receiptId : Uuid) (content : ReceiptContent) :
    LedgerTx ReceiptDisposition :=
  if content.attempt ≠ row.snapshot.binding.attempt then return .stale
  else do
    lift env.assertReceiptEvidence
    checkBridgeEvidence host env row.bridgePayload content
    requestStops host env row receiptId content
    applyReceipt env row.id content.signal

def ReceiptDisposition.answer : ReceiptDisposition → ReceiptAnswer
  | .applied => .applied
  | .stale => .stale
  | .conflict => .conflict

/-- Expired or revoked leases may still deliver facts, never new execution. -/
def recordReceipt (host : LedgerHost) (env : LedgerEnv)
    (input : LedgerReceipt) : LedgerTx ReceiptAnswer := do
  rejectIf (¬(input.content.attempt.Valid ∧ input.content.signal.Valid)) .schema
  rejectIf (512000 < host.receiptBytes input.content ∨
    isReceiptSignal input.content.signal = false) (.ledger .invalidState)
  let (_, row) ← lockOperation env input.scope input.operationId
  let _ ← verifyLease host row input.leaseToken
  let db ← get
  match db.receipts.find? input.receiptId with
  | some previous => do
      rejectIf (previous.operationId ≠ row.id ∨
        previous.payload ≠ .report input.content) (.ledger .receiptConflict)
      return previous.disposition.replayed
  | none => do
      let disposition ← judgeReceipt host env row input.receiptId input.content
      insertReceipt ⟨input.receiptId, row.id, .report input.content, disposition⟩
      return disposition.answer

/-- Run a check whose failure is an answer; it writes nothing. -/
def succeeds (check : LedgerTx Unit) : LedgerTx Bool := fun db =>
  match check db with
  | .ok _ => .ok (true, db)
  | .error _ => .ok (false, db)

structure ServiceInput where
  scope : RuntimeScope
  operationId : Uuid
  leaseToken : Uuid
  attempt : RuntimeAttemptRef
  deliveryOnly : Bool

/-- The statuses in which a service may still report its process. -/
def reportsProcess : RuntimeOperationStatus → Bool
  | .running | .cancelRequested | .unknown => true
  | _ => false

/-- Whether an executing operation may still be told to go on. -/
def isContinuing (row : OperationRow) (lease : OperationLease)
    (at_ : Timestamp) : Bool :=
  row.snapshot.status = .running && row.snapshot.cancelRequestId = none &&
    at_ < lease.expiresAt

/-- The events of an exchange: the process is reported once, and a requested
stop becomes a cancellation intent. -/
def exchangeEvents (env : LedgerEnv) (operationId : Uuid)
    (reported stopRequested : Bool) : LedgerTx Unit := do
  let row ← currentOperation operationId
  whenever (reported = true ∧ row.snapshot.processId = none ∧
      reportsProcess row.snapshot.status = true)
    (appendEvent env operationId (.started (some row.id)))
  let row ← currentOperation operationId
  whenever (stopRequested = true ∧ row.snapshot.status = .running ∧
      row.snapshot.cancelRequestId = none)
    (appendEvent env operationId (.cancelRequested (env.randomUUID 0)))

/-- `RuntimeLocalCommandSchema.parse` of a stored payload. -/
def processArguments? :
    Option RuntimeBridgePayload → Option LocalCommandArguments
  | some (.process arguments) => some arguments
  | _ => none

/-- An established project service carries its own authority; any other service
needs the Run's. -/
def serviceAuthority (host : LedgerHost) (env : LedgerEnv) (root : RootRow)
    (row : OperationRow) (n : Nat) (at_ : Timestamp) : LedgerTx Unit :=
  if env.projectServiceEstablished then lift (env.currentProjectService n)
  else do
    admitRow host env row n
    ensureRootAdmits root at_

def exchangeLocalService (host : LedgerHost) (env : LedgerEnv)
    (input : ServiceInput) : LedgerTx ServiceAnswer := do
  let (root, row) ← lockOperation env input.scope input.operationId
  let lease ← verifyLease host row input.leaseToken
  rejectIf (input.attempt ≠ row.snapshot.binding.attempt ∨
    row.snapshot.binding.action ≠ "local.process.execute")
    (.ledger .scopeMismatch)
  let command ← expect (processArguments? row.bridgePayload) .schema
  let admitted ← succeeds (do
    whenever (env.projectServiceEstablished = false)
      (ensureRootAdmits root (env.now 0))
    serviceAuthority host env root row 0 (env.now 1))
  let allowed := isContinuing row lease (env.now 0) && admitted
  rejectIf (command.background = false) (.ledger .unavailable)
  let service ← lift (env.service allowed)
  exchangeEvents env row.id (0 ≤ service.acceptedSequence)
    (!input.deliveryOnly && service.stopRequested)
  lift env.sourceReceipts
  if input.deliveryOnly = false ∧ allowed = true ∧
      service.stopRequested = false then do
    rejectIf (lease.expiresAt ≤ env.now 2) (.ledger .leaseLost)
    let expiry := min (min service.hardDeadlineAt (env.now 3 + 120000))
      (env.projectServiceExpiresAt.getD root.deadlineAt)
    extendLease row.id expiry
    serviceAuthority host env root row 1 (env.now 4)
    rejectIf (expiry ≤ env.now 5 ∨ lease.expiresAt ≤ env.now 5)
      (.ledger .leaseLost)
    return service
  else return service

/-- A cloud service belongs to the operation of its Run and its own lease. -/
def exchangeCloudProjectService (host : LedgerHost) (env : LedgerEnv)
    (input : ServiceInput) : LedgerTx ServiceAnswer := do
  let (_, row) ← lockOperation env input.scope input.operationId
  let lease ← verifyLease host row input.leaseToken
  rejectIf (row.snapshot.binding.action ≠ "cloud.process.execute" ∨
    input.attempt ≠ row.snapshot.binding.attempt) (.ledger .scopeMismatch)
  rejectIf (env.cloudServiceEstablished = false) (.ledger .unavailable)
  let admitted ← succeeds (lift (env.currentProjectService 0))
  let allowed := isContinuing row lease (env.now 0) && admitted
  let service ← lift (env.service allowed)
  let stopRequested := !allowed || service.stopRequested
  exchangeEvents env row.id (0 ≤ service.acceptedSequence) stopRequested
  lift env.sourceReceipts
  if stopRequested = false then do
    rejectIf (lease.expiresAt ≤ env.now 1) (.ledger .leaseLost)
    let expiry := min (min (env.now 2 + 15000)
      (env.projectServiceExpiresAt.getD service.hardDeadlineAt))
      service.hardDeadlineAt
    rejectIf (expiry ≤ env.now 3) (.ledger .leaseLost)
    extendLease row.id expiry
    lift (env.currentProjectService 1)
    rejectIf (expiry ≤ env.now 4 ∨ lease.expiresAt ≤ env.now 4)
      (.ledger .leaseLost)
    return service
  else return service

/-- An operation in execution whose lease has run out. -/
def leaseExpired (env : LedgerEnv) (row : OperationRow) : Bool :=
  decide (row.snapshot.status ∈
      [RuntimeOperationStatus.dispatched, .running, .cancelRequested]) &&
    row.lease.any fun lease => lease.expiresAt ≤ env.rowTime row.id

def expireLeases (host : LedgerHost) (env : LedgerEnv) (scope : RuntimeScope)
    (rootRunId : Uuid) : LedgerTx Unit := do
  let root ← lockRoot env scope rootRunId
  whenever (root.deadlineAt ≤ env.now 0)
    (cancelLocked host env root (env.randomUUID 0) .deadline)
  let db ← get
  ((operationsOfRoot db rootRunId).filter (leaseExpired env)).forM fun row =>
    appendEvent env row.id (.uncertain .leaseLost)

structure SettleInput where
  scope : RuntimeScope
  operationId : Uuid
  leaseToken : Uuid
  observation : RuntimeUsageObservation

/-- The observation measures exactly this reservation of this attempt. -/
def observationMatches (observation : RuntimeUsageObservation)
    (row : OperationRow) (reservation : ReservationRow) (budget : BudgetRow) :
    Bool :=
  observation.task = row.snapshot.binding.task &&
    observation.accountingBoundary =
      .operation row.snapshot.binding.attempt &&
    observation.accountingId = reservation.accountingId &&
    observation.source = budget.source && observation.unit = budget.unit &&
    observation.currency = budget.currency &&
    observation.aggregation = .selfOnly && observation.state = .settled &&
    observation.mode = .cumulative && observation.quality = .measured

structure SettleAnswer where
  duplicate : Bool
deriving DecidableEq

/-- The first settlement of a reservation. -/
def settleFirst (host : LedgerHost) (env : LedgerEnv) (root : RootRow)
    (row : OperationRow) (reservation : ReservationRow) (budget : BudgetRow)
    (observation : RuntimeUsageObservation) (amount : Nat) :
    LedgerTx SettleAnswer := do
  rejectIf
    (isTerminalRuntimeOperationStatus row.snapshot.status = false)
    (.ledger .invalidState)
  let reserved := budget.reserved - reservation.amount
  let spent := budget.spent + amount
  rejectIf ((maxSafeInteger : Int) < reserved + spent) (.ledger .invalidUsage)
  settleReservation root.rootRunId reservation amount observation
  whenever (isObservedExecutionMetric observation.metric = false ∧
      (budget.capacity : Int) < reserved + spent)
    (cancelLocked host env root (env.randomUUID 0) .budgetExhausted)
  return ⟨false⟩

def settleUsage (host : LedgerHost) (env : LedgerEnv) (input : SettleInput) :
    LedgerTx SettleAnswer := do
  let observation := input.observation
  rejectIf (¬observation.Valid) .schema
  let (root, row) ← lockOperation env input.scope input.operationId
  let _ ← verifyLease host row input.leaseToken
  let db ← get
  let reservation ← expect
    (db.reservations.find? (row.id, observation.metric)) (.ledger .invalidUsage)
  let budget ← expect
    (db.budgets.find? (root.rootRunId, observation.metric))
    (.ledger .invalidUsage)
  rejectIf (observationMatches observation row reservation budget = false)
    (.ledger .invalidUsage)
  let amount ← expect observation.amount (.ledger .invalidUsage)
  match reservation.settled with
  | some settled => do
      rejectIf (settled.2 ≠ observation) (.ledger .receiptConflict)
      return ⟨true⟩
  | none =>
    settleFirst host env root row reservation budget observation amount

end Allrice
