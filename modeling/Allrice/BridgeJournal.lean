/-
The Bridge's local execution evidence: the tables of the SQLite journal and the
methods that read and write them, one transaction each.  What a transaction
may do to one operation is said once, in `RecordStep`, and every method is
shown to do nothing else.
-/
import Allrice.RuntimeDispatch
import Allrice.Table
import Allrice.Transaction

namespace Allrice

open Tx

inductive EntryState where
  | received
  | executing
  | completed
  | unknown
deriving DecidableEq

structure EntryRow where
  operationId : Uuid
  fingerprint : Checksum
  dispatch : RuntimeBridgeDispatch
  state : EntryState
  startReceiptId : Uuid
deriving DecidableEq

structure OutboxRow where
  receiptId : Uuid
  operationId : Uuid
  body : RuntimeBridgeReceipt
  delivered : Bool

structure ChangesetFileRow where
  operationId : Uuid
  fileIndex : Nat
  result : ChangesetFileResult

def ChangesetFileRow.key (row : ChangesetFileRow) : Uuid × Nat :=
  (row.operationId, row.fileIndex)

structure LocalMcpCallRow where
  operationId : Uuid
  requestId : String
  digest : Checksum

structure OutputRow where
  operationId : Uuid
  sequence : Nat
  body : RuntimeBridgeOutput
  contentBytes : Nat
  delivered : Bool

def OutputRow.key (row : OutputRow) : Uuid × Nat :=
  (row.operationId, row.sequence)

/-- A lifecycle event of a background service; its body is an identity. -/
structure ServiceEventRow where
  operationId : Uuid
  sequence : Nat
  body : Nat
  acknowledged : Bool

def ServiceEventRow.key (row : ServiceEventRow) : Uuid × Nat :=
  (row.operationId, row.sequence)

/-- The durable tables of a journal. -/
structure JournalDisk where
  entries : Table Uuid EntryRow EntryRow.operationId
  outbox : Table Uuid OutboxRow OutboxRow.receiptId
  changesetFiles : Table (Uuid × Nat) ChangesetFileRow ChangesetFileRow.key
  localMcpCalls : Table Uuid LocalMcpCallRow LocalMcpCallRow.operationId
  outputOutbox : Table (Uuid × Nat) OutputRow OutputRow.key
  serviceEvents : Table (Uuid × Nat) ServiceEventRow ServiceEventRow.key

def JournalDisk.empty : JournalDisk :=
  ⟨.empty, .empty, .empty, .empty, .empty, .empty⟩

inductive JournalErrorCode where
  | unavailable
  | unsafePath
  | directoryChanged
  | fileChanged
  | alreadyOpen
  | deviceMismatch
  | payloadMismatch
  | dispatchConflict
  | capacityReached
  | operationMissing
  | executionAlreadyClaimed
  | resultAlreadyFinal
  | resultTooLarge
  | changesetInvalid
  | changesetAlreadyFinal
  | recoveryMismatch
  | networkReconciliationRequired
  | outputInvalid
  | outputConflict
  | outputAlreadyFinal
  | outputLimit
  | mcpInvalidCallIntent
  | mcpUnknown
  | serviceMismatch
  | serviceEventConflict
  | serviceEventSequence
  | serviceAckInvalid
deriving DecidableEq

/-- Why a journal call failed.  Only `policy` failures are
`BridgeJournalError`s; any other failure inside a transaction poisons the
journal. -/
inductive JournalFailure where
  | policy (code : JournalErrorCode)
  | schema
  | constraint
  | storage
deriving DecidableEq

def JournalFailure.poisons : JournalFailure → Bool
  | .policy _ => false
  | .schema | .constraint | .storage => true

structure JournalLimits where
  entries : Nat
  bytes : Nat

/-- What a journal is opened with, and the digests and encoded sizes that it
computes. -/
structure JournalHost where
  deviceId : Uuid
  limits : JournalLimits
  digestPayload : RuntimeBridgePayload → Checksum
  digestDispatch : RuntimeBridgeDispatch → Checksum
  digestEvidence : ReceiptEvidence → Checksum
  dispatchBytes : RuntimeBridgeDispatch → Nat
  receiptBytes : RuntimeBridgeReceipt → Nat

/-- `randomUUID()` twice and the clock, as one receipt consumes them. -/
structure ReceiptInputs where
  receiptId : Uuid
  evidenceId : Uuid
  recordedAt : Timestamp

abbrev JournalTx := Tx JournalFailure JournalDisk

def maximumReceiptBytes : Nat := 500000

def reservePerEntry : Nat := maximumReceiptBytes + 32768 + 512000

def reservePerService : Nat := 1024 * 1024

/-- `this.entry(operationId)`. -/
def entry (operationId : Uuid) : JournalTx EntryRow := do
  let disk ← get
  expect (disk.entries.find? operationId) (.policy .operationMissing)

def setState (row : EntryRow) (state : EntryState) : JournalTx Unit :=
  modify fun disk =>
    { disk with entries := disk.entries.replace { row with state } }

inductive ReceiveAnswer where
  | new
  | duplicate

def isActive (row : EntryRow) : Bool :=
  row.state = .received || row.state = .executing

/-- The bytes that the journal and all reservations would take with one more
operation. -/
def reservedBytes (host : JournalHost) (disk : JournalDisk)
    (databaseBytes : Nat) (dispatch : RuntimeBridgeDispatch) : Nat :=
  let active := disk.entries.rows.filter isActive
  let services := active.countP (·.dispatch.payload.isService)
  databaseBytes + (active.length + 1) * reservePerEntry +
    (services + dispatch.payload.isService.toNat) * reservePerService +
    host.dispatchBytes dispatch

instance RuntimeBridgeDispatch.decidableValid
    (dispatch : RuntimeBridgeDispatch) : Decidable dispatch.Valid :=
  decidable_of_iff
    (dispatch.snapshot.Valid ∧ dispatch.payload.Valid ∧
      dispatch.snapshot.binding.execution.targetKind = .riceBridge ∧
      dispatch.snapshot.binding.execution.deviceId ≠ none ∧
      dispatch.snapshot.binding.execution.scopeDigest =
        dispatch.grantRootFingerprint ∧
      dispatch.snapshot.binding.action = dispatch.payload.capability ∧
      dispatch.snapshot.status = .dispatched ∧
      dispatch.snapshot.processId = none ∧
      dispatch.snapshot.cancelRequestId = none)
    ⟨fun ⟨h₁, h₂, h₃, h₄, h₅, h₆, h₇, h₈, h₉⟩ =>
        ⟨h₁, h₂, h₃, h₄, h₅, h₆, h₇, h₈, h₉⟩,
      fun h => ⟨h.snapshot, h.payload, h.kind, h.device, h.scope, h.action,
        h.status, h.process, h.intent⟩⟩

/-- What `receive` checks before its transaction. -/
def receiveChecks (host : JournalHost) (dispatch : RuntimeBridgeDispatch) :
    Except JournalFailure Unit :=
  if ¬dispatch.Valid then .error .schema
  else if dispatch.snapshot.binding.execution.deviceId ≠ some host.deviceId then
    .error (.policy .deviceMismatch)
  else if dispatch.snapshot.binding.inputDigest ≠
      host.digestPayload dispatch.payload then
    .error (.policy .payloadMismatch)
  else .ok ⟨⟩

/-- Insert a new operation, or recognise the one that is there. -/
def receive (host : JournalHost) (dispatch : RuntimeBridgeDispatch)
    (startReceiptId : Uuid) (databaseBytes : Nat) :
    JournalTx ReceiveAnswer := do
  let disk ← get
  match disk.entries.find? dispatch.operationId with
  | some previous =>
    rejectIf (previous.fingerprint ≠ host.digestDispatch dispatch)
      (.policy .dispatchConflict)
    return .duplicate
  | none =>
    rejectIf (maximumReceiptBytes < host.dispatchBytes dispatch ∨
        host.limits.entries ≤ disk.entries.rows.length ∨
        host.limits.bytes < reservedBytes host disk databaseBytes dispatch)
      (.policy .capacityReached)
    rejectIf (startReceiptId ∈ disk.entries.rows.map (·.startReceiptId))
      .constraint
    let entries ← expect (disk.entries.insert?
      { operationId := dispatch.operationId
        fingerprint := host.digestDispatch dispatch
        dispatch
        state := .received
        startReceiptId }) .constraint
    set { disk with entries }
    return .new

def begin (operationId : Uuid) : JournalTx Uuid := do
  let row ← entry operationId
  rejectIf (row.state ≠ .received) (.policy .executionAlreadyClaimed)
  setState row .executing
  return row.startReceiptId

/-- Durable intent before writing a single `tools/call` to its stdio pipe. -/
def prepareLocalMcpCall (operationId : Uuid) (requestId : String)
    (digest : Checksum) : JournalTx Unit := do
  let row ← entry operationId
  rejectIf (row.state ≠ .executing ∨
      row.dispatch.payload.capability ≠ "local.mcp.call")
    (.policy .mcpUnknown)
  let disk ← get
  rejectIf ((disk.localMcpCalls.find? operationId).isSome)
    (.policy .mcpUnknown)
  let localMcpCalls ← expect
    (disk.localMcpCalls.insert? ⟨operationId, requestId, digest⟩) .constraint
  set { disk with localMcpCalls }

/-- Put one receipt of an operation into the outbox. -/
def append (host : JournalHost) (row : EntryRow) (receiptId : Uuid)
    (signal : RuntimeOperationSignal) (evidence : Option ReceiptEvidence) :
    JournalTx RuntimeBridgeReceipt := do
  let receipt : RuntimeBridgeReceipt :=
    { receiptId
      attempt := row.dispatch.snapshot.binding.attempt
      leaseToken := row.dispatch.leaseToken
      signal
      evidence }
  rejectIf (¬receipt.Valid) .schema
  rejectIf (maximumReceiptBytes < host.receiptBytes receipt)
    (.policy .resultTooLarge)
  let disk ← get
  let outbox ← expect (disk.outbox.insert?
    { receiptId, operationId := row.operationId, body := receipt,
      delivered := false }) .constraint
  set { disk with outbox }
  return receipt

/-- Append a receipt and set the entry's state: the end of every method that
reports a result. -/
def settle (host : JournalHost) (row : EntryRow) (receiptId : Uuid)
    (signal : RuntimeOperationSignal) (evidence : Option ReceiptEvidence)
    (state : EntryState) : JournalTx RuntimeBridgeReceipt := do
  let receipt ← append host row receiptId signal evidence
  setState row state
  return receipt

/-- The statuses a caller of `outcome` can pass. -/
inductive OutcomeStatus where
  | succeeded
  | failed
  | partialResult

def OutcomeStatus.toResult : OutcomeStatus → RuntimeResultStatus
  | .succeeded => .succeeded
  | .failed => .failed
  | .partialResult => .partialResult

structure OutcomeInput where
  status : OutcomeStatus
  effects : RuntimeEffects
  summary : JsString
  output : Option EvidenceOutput
  errorCode : Option String

/-- The bounded summary of an outcome. -/
def outcomeSummary (summary : JsString) : JsString :=
  let bounded := JsString.dropTrailingHighSurrogate
    ((JsString.trim summary).take 500)
  if bounded = [] then JsString.ofString "Operation result recorded"
  else bounded

def evidenceRef (host : JournalHost) (inputs : ReceiptInputs)
    (evidence : ReceiptEvidence) : RuntimeEvidenceRef :=
  ⟨inputs.evidenceId, inputs.recordedAt, host.digestEvidence evidence⟩

def outcomeSignal (ref : RuntimeEvidenceRef) (status : OutcomeStatus)
    (effects : RuntimeEffects) : RuntimeOperationSignal :=
  .outcome ⟨status.toResult, effects, ref⟩

def outcome (host : JournalHost) (operationId : Uuid) (result : OutcomeInput)
    (inputs : ReceiptInputs) : JournalTx RuntimeBridgeReceipt := do
  let row ← entry operationId
  rejectIf (¬isActive row) (.policy .resultAlreadyFinal)
  let evidence : ReceiptEvidence :=
    { summary := outcomeSummary result.summary
      output := result.output
      errorCode := result.errorCode.filter (· ≠ "") }
  settle host row inputs.receiptId
    (outcomeSignal (evidenceRef host inputs evidence) result.status
      result.effects)
    (some evidence) .completed

def stopped (host : JournalHost) (operationId : Uuid) (output : EvidenceOutput)
    (summary : JsString) (inputs : ReceiptInputs) :
    JournalTx RuntimeBridgeReceipt := do
  let row ← entry operationId
  rejectIf (¬isActive row) (.policy .resultAlreadyFinal)
  let evidence : ReceiptEvidence := ⟨summary.take 500, some output, none⟩
  settle host row inputs.receiptId
    (.stopped (evidenceRef host inputs evidence) .none) (some evidence)
    .completed

def uncertain (host : JournalHost) (operationId : Uuid)
    (reason : UncertainReason) (evidence : Option ReceiptEvidence)
    (inputs : ReceiptInputs) : JournalTx RuntimeBridgeReceipt := do
  let row ← entry operationId
  rejectIf (¬isActive row) (.policy .resultAlreadyFinal)
  settle host row inputs.receiptId (.uncertain reason) evidence .unknown

/-- Whether a checkpoint speaks about the reviewed file of the payload. -/
def checkpointMatches (file : ChangesetFile) (result : ChangesetFileResult) :
    Bool :=
  let sums := changesetFileChecksums file
  result.path = file.path && result.beforeChecksum = sums.beforeChecksum &&
    result.afterChecksum = sums.afterChecksum &&
    (result.status != .applied || changesetFileAppliedMatches file result) &&
    match file.organization with
    | none => true
    | some item =>
      result.organization.map (·.target) = some item.target &&
        result.organization.map (·.operation) = some item.operation

/-- The row of the changeset table that one checkpoint leaves. -/
def putChangesetFile (disk : JournalDisk) (row : ChangesetFileRow) :
    JournalDisk :=
  match disk.changesetFiles.insert? row with
  | some changesetFiles => { disk with changesetFiles }
  | none =>
    { disk with changesetFiles := disk.changesetFiles.replace row }

/-- The reviewed file at an index of an executing changeset. -/
def checkpointFile? (row : EntryRow) (index : Nat) : Option ChangesetFile :=
  match row.state, row.dispatch.payload with
  | .executing, .changeset arguments => arguments.files[index]?
  | _, _ => none

def changesetCheckpoint (operationId : Uuid) (index : Nat)
    (result : ChangesetFileResult) : JournalTx Unit := do
  let row ← entry operationId
  let file ← expect (checkpointFile? row index) (.policy .changesetInvalid)
  rejectIf (¬checkpointMatches file result) (.policy .changesetInvalid)
  let disk ← get
  rejectIf (∃ previous ∈ disk.changesetFiles.find? (operationId, index),
      previous.result.status ≠ .prepared)
    (.policy .changesetAlreadyFinal)
  set (putChangesetFile disk ⟨operationId, index, result⟩)

/-- What a reconciled result is reported as. -/
inductive ReconciledSignal where
  | stopped
  | outcome (status : OutcomeStatus)

/-- The reconcile methods differ in the check on the payload, in the summary
and in the reported signal; all of them complete an `unknown` operation. -/
def reconcile (host : JournalHost) (operationId : Uuid)
    (check : RuntimeBridgePayload → Except JournalErrorCode Unit)
    (evidence : ReceiptEvidence) (reported : ReconciledSignal)
    (inputs : ReceiptInputs) : JournalTx RuntimeBridgeReceipt := do
  let row ← entry operationId
  rejectIf (row.state ≠ .unknown) (.policy .recoveryMismatch)
  lift ((check row.dispatch.payload).mapError .policy)
  let ref := evidenceRef host inputs evidence
  settle host row inputs.receiptId
    (match reported with
      | .stopped => .stopped ref .none
      | .outcome status => outcomeSignal ref status .none)
    (some evidence) .completed

def reconcileLocalPdf (host : JournalHost) (operationId : Uuid)
    (result : LocalPdfResult) (inputs : ReceiptInputs) :
    JournalTx RuntimeBridgeReceipt :=
  reconcile host operationId
    (fun payload =>
      match payload with
      | .pdf a =>
        if result.process.stopped ∧ pdfResultMatchesPayload a result then
          .ok ⟨⟩
        else .error .recoveryMismatch
      | _ => .error .recoveryMismatch)
    { summary := JsString.ofString
        "本地 PDF 原进程停止及固定结果已对账；未重新解析或换端"
      output := some (.pdf result)
      errorCode := none }
    (if result.process.reason = .canceled then .stopped
      else .outcome (if result.document.isSome then .succeeded else .failed))
    inputs

def LocalPythonReason.name : LocalPythonReason → String
  | .exited => "exited"
  | .canceled => "canceled"
  | .timeout => "timeout"
  | .outputLimit => "output_limit"
  | .artifactLimit => "artifact_limit"
  | .memoryLimit => "memory_limit"
  | .leaseLost => "lease_lost"
  | .supervisorFailed => "supervisor_failed"
  | .validationFailed => "validation_failed"
  | .inputChanged => "input_changed"

def LocalCommandReason.name : LocalCommandReason → String
  | .exited => "exited"
  | .canceled => "canceled"
  | .timeout => "timeout"
  | .outputLimit => "output_limit"
  | .cacheLimit => "cache_limit"
  | .memoryLimit => "memory_limit"
  | .leaseLost => "lease_lost"
  | .supervisorFailed => "supervisor_failed"
  | .readinessTimeout => "readiness_timeout"
  | .portConflict => "port_conflict"
  | .inputExpired => "input_expired"
  | .inputProtocolError => "input_protocol_error"

def reconcileLocalPython (host : JournalHost) (operationId : Uuid)
    (result : LocalPythonResult) (inputs : ReceiptInputs) :
    JournalTx RuntimeBridgeReceipt :=
  reconcile host operationId
    (fun payload =>
      match payload with
      | .python a =>
        if ¬localPythonResultMatchesPayload a result then
          .error .recoveryMismatch
        else if a.network ≠ .none then .error .networkReconciliationRequired
        else .ok ⟨⟩
      | _ => .error .recoveryMismatch)
    { summary := JsString.ofString
        ("本地 Python 已物理停止（" ++ result.reason.name ++
          "）；只核对结果，未重跑")
      output := some (.python result)
      errorCode := none }
    (if result.reason = .canceled ∨ result.reason = .leaseLost then .stopped
      else .outcome (if result.reason = .exited ∧ result.exitCode = 0 then
        .succeeded else .failed))
    inputs

def reconcileLocalCommand (host : JournalHost) (operationId : Uuid)
    (result : LocalCommandResult) (inputs : ReceiptInputs) :
    JournalTx RuntimeBridgeReceipt :=
  reconcile host operationId
    (fun payload =>
      match payload with
      | .process a =>
        if a.imageDigest ≠ result.imageDigest then .error .recoveryMismatch
        else if a.network ≠ .none then .error .networkReconciliationRequired
        else .ok ⟨⟩
      | _ => .error .recoveryMismatch)
    { summary := JsString.ofString
        ("已核实重启前的本地命令：退出 " ++ toString result.exitCode ++ "（" ++
          result.reason.name ++ "）；未重跑")
      output := some (.command result)
      errorCode := none }
    (if result.reason = .canceled ∨ result.reason = .leaseLost then .stopped
      else .outcome (if result.reason = .exited ∧ result.exitCode = 0 then
        .succeeded else .failed))
    inputs

structure OutputChunk where
  sequence : Nat
  stream : OutputStream
  text : JsString
deriving DecidableEq

/-- The output rows of one operation, in the order of insertion. -/
def outputRows (disk : JournalDisk) (operationId : Uuid) : List OutputRow :=
  disk.outputOutbox.rows.filter (·.operationId = operationId)

/-- The wire form of a chunk of an operation. -/
def outputOf (row : EntryRow) (chunk : OutputChunk) : RuntimeBridgeOutput :=
  { attempt := row.dispatch.snapshot.binding.attempt
    leaseToken := row.dispatch.leaseToken
    sequence := chunk.sequence
    stream := chunk.stream
    content := chunk.text }

/-- Local output evidence is committed before any network send. -/
def recordOutput (operationId : Uuid) (chunk : OutputChunk) :
    JournalTx RuntimeBridgeOutput := do
  let row ← entry operationId
  rejectIf (row.dispatch.payload.capability ≠ "local.process.execute")
    (.policy .outputInvalid)
  let output := outputOf row chunk
  rejectIf (¬output.Valid) .schema
  let disk ← get
  match disk.outputOutbox.find? (operationId, chunk.sequence) with
  | some prior =>
    rejectIf (prior.body ≠ output) (.policy .outputConflict)
    return output
  | none =>
    rejectIf (row.state ≠ .executing) (.policy .outputAlreadyFinal)
    let rows := outputRows disk operationId
    let size := JsString.byteLength chunk.text
    rejectIf (nextSequence (rows.map (·.sequence)) ≠ chunk.sequence ∨
        65536 < (rows.map (·.contentBytes)).sum + size)
      (.policy .outputLimit)
    let outputOutbox ← expect (disk.outputOutbox.insert?
      { operationId, sequence := chunk.sequence, body := output,
        contentBytes := size, delivered := false }) .constraint
    set { disk with outputOutbox }
    return output

def acknowledgeOutput (operationId : Uuid) (sequence : Nat) :
    JournalTx Unit := do
  let disk ← get
  match disk.outputOutbox.find? (operationId, sequence) with
  | some row =>
    set { disk with
      outputOutbox := disk.outputOutbox.replace { row with delivered := true } }
  | none => return ⟨⟩

def acknowledge (receiptId : Uuid) : JournalTx Unit := do
  let disk ← get
  match disk.outbox.find? receiptId with
  | some row =>
    set { disk with
      outbox := disk.outbox.replace { row with delivered := true } }
  | none => return ⟨⟩

/-- The access check of the service journal. -/
def serviceEntry (operationId : Uuid) : JournalTx EntryRow := do
  let row ← entry operationId
  rejectIf (row.state = .received ∨ ¬row.dispatch.payload.isService)
    (.policy .serviceMismatch)
  return row

def serviceEventRows (disk : JournalDisk) (operationId : Uuid) :
    List ServiceEventRow :=
  disk.serviceEvents.rows.filter (·.operationId = operationId)

/-- A lifecycle event of a service; a repeated one must be the same. -/
def serviceEvent (operationId : Uuid) (sequence body : Nat) :
    JournalTx Unit := do
  let _ ← serviceEntry operationId
  let disk ← get
  match disk.serviceEvents.find? (operationId, sequence) with
  | some prior =>
    rejectIf (prior.body ≠ body) (.policy .serviceEventConflict)
  | none =>
    rejectIf ((serviceEventRows disk operationId).length ≠ sequence)
      (.policy .serviceEventSequence)
    rejectIf (63 < sequence) .constraint
    let serviceEvents ← expect (disk.serviceEvents.insert?
      ⟨operationId, sequence, body, false⟩) .constraint
    set { disk with serviceEvents }

/-- Acknowledge the events of a service up to a sequence number; `-1` stands
for none. -/
def acknowledgeService (operationId : Uuid) (sequence : Int) :
    JournalTx Unit := do
  let _ ← serviceEntry operationId
  let disk ← get
  let rows := serviceEventRows disk operationId
  rejectIf ((nextSequence (rows.map (·.sequence)) : Int) ≤ sequence)
    (.policy .serviceAckInvalid)
  set { disk with
    serviceEvents := disk.serviceEvents.updateWhere
      (fun row => row.operationId = operationId && row.sequence ≤ sequence)
      (fun row => { row with acknowledged := true }) (fun _ => rfl) }

/-- Chunks that were not acknowledged yet. -/
def hasPendingOutput (disk : JournalDisk) (operationId : Uuid) : Bool :=
  disk.outputOutbox.rows.any fun row =>
    row.operationId = operationId && !row.delivered

def hasPendingServiceEvent (disk : JournalDisk) (operationId : Uuid) : Bool :=
  disk.serviceEvents.rows.any fun row =>
    row.operationId = operationId && !row.acknowledged

/-- Delivery eligibility is checked together with the receipt. -/
def pendingForDelivery (disk : JournalDisk) (limit : Nat) :
    List RuntimeBridgeReceipt :=
  ((disk.outbox.rows.filter fun row =>
      !row.delivered && !hasPendingOutput disk row.operationId &&
        !hasPendingServiceEvent disk row.operationId).take
    (min 32 (max 1 limit))).map (·.body)

/-- Receipts that were not acknowledged yet. -/
def pending (disk : JournalDisk) (limit : Nat) : List RuntimeBridgeReceipt :=
  ((disk.outbox.rows.filter (!·.delivered)).take (min 32 (max 1 limit))).map
    (·.body)

/-- The order `operation_id, sequence` of the output outbox. -/
def outputBefore (a b : OutputRow) : Prop :=
  a.operationId < b.operationId ∨
    (a.operationId = b.operationId ∧ a.sequence ≤ b.sequence)

instance : DecidableRel outputBefore := fun a b =>
  inferInstanceAs (Decidable (_ ∨ _))

def pendingOutput (disk : JournalDisk) (limit : Nat) :
    List RuntimeBridgeOutput :=
  (((disk.outputOutbox.rows.filter (!·.delivered)).insertionSort
    outputBefore).take (min 32 (max 1 limit))).map (·.body)

end Allrice
