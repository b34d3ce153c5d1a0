/-
A journal as its process and its disk live through calls, crashes and
reopenings.  Every call first passes the guard and runs its transaction later,
so other calls may commit in between; opening recovers one operation after the
other, so a crash may fall between any two of them.
-/
import Allrice.JournalRecord
import Allrice.Runs

namespace Allrice

open Tx

/-- A method of the journal with its arguments and the values that its
surroundings supply. -/
inductive JournalCall where
  | receive (dispatch : RuntimeBridgeDispatch) (startReceiptId : Uuid)
      (databaseBytes : Nat)
  | begin (operationId : Uuid)
  | prepareLocalMcpCall (operationId : Uuid) (requestId : String)
      (digest : Checksum)
  | outcome (operationId : Uuid) (result : OutcomeInput)
      (inputs : ReceiptInputs)
  | stopped (operationId : Uuid) (output : EvidenceOutput)
      (summary : JsString) (inputs : ReceiptInputs)
  | uncertain (operationId : Uuid) (reason : UncertainReason)
      (evidence : Option ReceiptEvidence) (inputs : ReceiptInputs)
  | changesetCheckpoint (operationId : Uuid) (index : Nat)
      (result : ChangesetFileResult)
  | reconcileLocalPdf (operationId : Uuid) (result : LocalPdfResult)
      (inputs : ReceiptInputs)
  | reconcileLocalPython (operationId : Uuid) (result : LocalPythonResult)
      (inputs : ReceiptInputs)
  | reconcileLocalCommand (operationId : Uuid) (result : LocalCommandResult)
      (inputs : ReceiptInputs)
  | recordOutput (operationId : Uuid) (chunk : OutputChunk)
  | acknowledgeOutput (operationId : Uuid) (sequence : Nat)
  | acknowledge (receiptId : Uuid)
  | serviceEvent (operationId : Uuid) (sequence body : Nat)
  | acknowledgeService (operationId : Uuid) (sequence : Int)

inductive CallResult where
  | received (answer : ReceiveAnswer)
  | begun (receiptId : Uuid)
  | reported (receipt : RuntimeBridgeReceipt)
  | recorded (output : RuntimeBridgeOutput)
  | done

/-- `/^[A-Za-z0-9_.:-]{1,128}$/`. -/
def isCallRequestId (requestId : String) : Bool :=
  0 < requestId.length && requestId.length ≤ 128 &&
    requestId.toList.all fun c =>
      c.isAlphanum || c == '_' || c == '.' || c == ':' || c == '-'

/-- What a method checks before its transaction. -/
def JournalCall.checks (host : JournalHost) :
    JournalCall → Except JournalFailure Unit
  | .receive dispatch _ _ => receiveChecks host dispatch
  | .prepareLocalMcpCall _ requestId _ =>
    if isCallRequestId requestId then .ok ⟨⟩
    else .error (.policy .mcpInvalidCallIntent)
  | .changesetCheckpoint _ _ result =>
    if result.Valid then .ok ⟨⟩ else .error .schema
  | .reconcileLocalPdf _ result _ =>
    if result.Valid then .ok ⟨⟩ else .error .schema
  | .acknowledgeService _ sequence =>
    if -1 ≤ sequence ∧ sequence ≤ 63 then .ok ⟨⟩
    else .error (.policy .serviceAckInvalid)
  | _ => .ok ⟨⟩

/-- The transaction of a method. -/
def JournalCall.run (host : JournalHost) : JournalCall → JournalTx CallResult
  | .receive dispatch startReceiptId databaseBytes =>
    CallResult.received <$>
      Allrice.receive host dispatch startReceiptId databaseBytes
  | .begin operationId => CallResult.begun <$> Allrice.begin operationId
  | .prepareLocalMcpCall operationId requestId digest =>
    (fun _ => .done) <$>
      Allrice.prepareLocalMcpCall operationId requestId digest
  | .outcome operationId result inputs =>
    CallResult.reported <$> Allrice.outcome host operationId result inputs
  | .stopped operationId output summary inputs =>
    CallResult.reported <$>
      Allrice.stopped host operationId output summary inputs
  | .uncertain operationId reason evidence inputs =>
    CallResult.reported <$>
      Allrice.uncertain host operationId reason evidence inputs
  | .changesetCheckpoint operationId index result =>
    (fun _ => .done) <$>
      Allrice.changesetCheckpoint operationId index result
  | .reconcileLocalPdf operationId result inputs =>
    CallResult.reported <$>
      Allrice.reconcileLocalPdf host operationId result inputs
  | .reconcileLocalPython operationId result inputs =>
    CallResult.reported <$>
      Allrice.reconcileLocalPython host operationId result inputs
  | .reconcileLocalCommand operationId result inputs =>
    CallResult.reported <$>
      Allrice.reconcileLocalCommand host operationId result inputs
  | .recordOutput operationId chunk =>
    CallResult.recorded <$> Allrice.recordOutput operationId chunk
  | .acknowledgeOutput operationId sequence =>
    (fun _ => .done) <$> Allrice.acknowledgeOutput operationId sequence
  | .acknowledge receiptId =>
    (fun _ => .done) <$> Allrice.acknowledge receiptId
  | .serviceEvent operationId sequence body =>
    (fun _ => .done) <$> Allrice.serviceEvent operationId sequence body
  | .acknowledgeService operationId sequence =>
    (fun _ => .done) <$> Allrice.acknowledgeService operationId sequence

/-- A restart reports a `prepared` file as `unknown`. -/
def settledResult (result : ChangesetFileResult) : ChangesetFileResult :=
  { result with
    status := if result.status = .prepared then .unknown else result.status }

/-- The per-file report that a restart rebuilds: the saved checkpoints over
the initial report. -/
def recoveredFiles (disk : JournalDisk) (operationId : Uuid)
    (arguments : ChangesetArguments) : List ChangesetFileResult :=
  (disk.changesetFiles.rows.filter (·.operationId = operationId)).foldl
    (fun files saved =>
      files.set saved.fileIndex (settledResult saved.result))
    (initialChangesetResults arguments)

/-- The overall status that a number of applied files stands for. -/
def changesetStatus (applied total : Nat) : OutcomeStatus :=
  if applied = total then .succeeded
  else if applied = 0 then .failed
  else .partialResult

def changesetEffects (applied total : Nat) : RuntimeEffects :=
  if applied = total then .applied
  else if applied = 0 then .none
  else .partialEffects

def appliedCount (files : List ChangesetFileResult) : Nat :=
  files.countP (·.status = .applied)

/-- Report one operation that a previous process left active. -/
def recoverEntry (host : JournalHost) (row : EntryRow)
    (inputs : ReceiptInputs) : JournalTx RuntimeBridgeReceipt :=
  match row.state, row.dispatch.payload with
  | .executing, .changeset arguments => do
      let disk ← get
      let files := recoveredFiles disk row.operationId arguments
      if files.any (·.status = .unknown) then
        uncertain host row.operationId .receiptMissing
          (some
            { summary := JsString.ofString
                "Bridge 已重启；逐文件日志保留，结果未知的文件不重做"
              output := some (.changeset files)
              errorCode := none }) inputs
      else
        outcome host row.operationId
          { status := changesetStatus (appliedCount files) files.length
            effects := changesetEffects (appliedCount files) files.length
            summary := JsString.ofString
              "Bridge 已重启，按已持久化的逐文件记录收口；未继续写入"
            output := some (.changeset files)
            errorCode := none } inputs
  | .executing, _ =>
    uncertain host row.operationId .receiptMissing none inputs
  | _, _ =>
    outcome host row.operationId
      { status := .failed
        effects := .none
        summary := JsString.ofString
          "Previous Bridge exited before execution was started"
        output := none
        errorCode := some "NOT_STARTED_BEFORE_RESTART" } inputs

/-- A recovered operation is reported, or its outcome stays uncertain. -/
theorem recoverEntry_eq_ok {host : JournalHost} {row : EntryRow}
    {inputs : ReceiptInputs} {disk next : JournalDisk}
    {receipt : RuntimeBridgeReceipt}
    (h : recoverEntry host row inputs disk = .ok (receipt, next)) :
    (∃ result, outcome host row.operationId result inputs disk =
        .ok (receipt, next)) ∨
      ∃ evidence, uncertain host row.operationId .receiptMissing evidence
        inputs disk = .ok (receipt, next) := by
  cases hstate : row.state with
  | executing =>
    cases hpayload : row.dispatch.payload with
    | changeset arguments =>
      simp only [recoverEntry, hstate, hpayload, get_bind_eq_ok] at h
      rcases ite_eq_ok.1 h with ⟨_, huncertain⟩ | ⟨_, houtcome⟩
      · exact .inr ⟨_, huncertain⟩
      · exact .inl ⟨_, houtcome⟩
    | _ =>
      simp only [recoverEntry, hstate, hpayload] at h
      exact .inr ⟨_, h⟩
  | _ =>
    simp only [recoverEntry, hstate] at h
    exact .inl ⟨_, h⟩

/-- What the guard finds at the journal's path. -/
inductive PathCheck where
  | unchanged
  | missing
  | insecure
  | directoryChanged
  | fileChanged

/-- An open journal: its flags and the calls that passed the guard and have
not run their transaction yet. -/
structure LiveJournal where
  closed : Bool
  poisoned : Bool
  calls : List JournalCall

/-- `guard()`. -/
def guard (journal : LiveJournal) (path : PathCheck) :
    LiveJournal × Except JournalFailure Unit :=
  if journal.closed || journal.poisoned then
    (journal, .error (.policy .unavailable))
  else
    match path with
    | .unchanged => (journal, .ok ⟨⟩)
    | .missing => (journal, .error .storage)
    | .insecure => (journal, .error (.policy .unsafePath))
    | .directoryChanged =>
      ({ journal with poisoned := true },
        .error (.policy .directoryChanged))
    | .fileChanged =>
      ({ journal with poisoned := true }, .error (.policy .fileChanged))

inductive JournalProcess where
  | down
  | recovering (rows : List EntryRow)
  | live (journal : LiveJournal)

/-- No process holds the journal's lock. -/
def JournalProcess.isFree : JournalProcess → Bool
  | .down => true
  | .recovering _ => false
  | .live journal => journal.closed

structure JournalState where
  disk : JournalDisk
  process : JournalProcess

/-- A new journal that no process has opened yet. -/
def JournalState.initial : JournalState := ⟨.empty, .down⟩

/-- `fault` stands for an SQLite failure at `BEGIN`, in a statement or at
`COMMIT`: nothing of the transaction stays. -/
inductive JournalAction where
  | openJournal
  | recover (inputs : ReceiptInputs) (path : PathCheck) (fault : Bool)
  | enter (call : JournalCall) (path : PathCheck)
  | perform (index : Nat) (fault : Bool)
  | close
  | crash

inductive JournalAnswer where
  | opened
  | recovered (operationId : Uuid)
  | ready
  | entered
  | done (call : JournalCall) (result : CallResult)
  | refused (failure : JournalFailure)
  | ended
  | ignored

/-- Admit a call: its own checks and the guard. -/
def enterCall (host : JournalHost) (journal : LiveJournal) (call : JournalCall)
    (path : PathCheck) : LiveJournal × JournalAnswer :=
  match call.checks host, guard journal path with
  | .error failure, (next, _) => (next, .refused failure)
  | .ok _, (next, .error failure) => (next, .refused failure)
  | .ok _, (next, .ok _) =>
    ({ next with calls := next.calls ++ [call] }, .entered)

/-- Run the transaction of an admitted call. -/
def performCall (host : JournalHost) (disk : JournalDisk)
    (journal : LiveJournal) (index : Nat) (fault : Bool) :
    JournalState × JournalAnswer :=
  match journal.calls[index]? with
  | none => (⟨disk, .live journal⟩, .ignored)
  | some call =>
    let calls := journal.calls.eraseIdx index
    if journal.closed || fault then
      (⟨disk, .live { journal with calls, poisoned := true }⟩,
        .refused .storage)
    else
      match call.run host disk with
      | .ok (result, next) =>
        (⟨next, .live { journal with calls }⟩, .done call result)
      | .error failure =>
        (⟨disk, .live { journal with
            calls, poisoned := journal.poisoned || failure.poisons }⟩,
          .refused failure)

/-- Recover the next operation; any failure closes the database again. -/
def recoverNext (host : JournalHost) (disk : JournalDisk)
    (rows : List EntryRow) (inputs : ReceiptInputs) (path : PathCheck)
    (fault : Bool) : JournalState × JournalAnswer :=
  match rows with
  | [] => (⟨disk, .live ⟨false, false, []⟩⟩, .ready)
  | row :: rest =>
    match (guard ⟨false, false, []⟩ path).2, fault,
        recoverEntry host row inputs disk with
    | .error failure, _, _ => (⟨disk, .down⟩, .refused failure)
    | .ok _, true, _ => (⟨disk, .down⟩, .refused .storage)
    | .ok _, false, .error failure => (⟨disk, .down⟩, .refused failure)
    | .ok _, false, .ok (_, next) =>
      (⟨next, .recovering rest⟩, .recovered row.operationId)

def journalStep (host : JournalHost) (s : JournalState) :
    JournalAction → JournalState × JournalAnswer
  | .openJournal =>
    if s.process.isFree then
      (⟨s.disk, .recovering (s.disk.entries.rows.filter isActive)⟩, .opened)
    else (s, .refused (.policy .alreadyOpen))
  | .recover inputs path fault =>
    match s.process with
    | .recovering rows => recoverNext host s.disk rows inputs path fault
    | _ => (s, .ignored)
  | .enter call path =>
    match s.process with
    | .live journal =>
      let (next, answer) := enterCall host journal call path
      (⟨s.disk, .live next⟩, answer)
    | _ => (s, .ignored)
  | .perform index fault =>
    match s.process with
    | .live journal => performCall host s.disk journal index fault
    | _ => (s, .ignored)
  | .close =>
    match s.process with
    | .live journal =>
      (⟨s.disk, .live { journal with closed := true }⟩, .ended)
    | _ => (s, .ignored)
  | .crash => (⟨s.disk, .down⟩, .ended)

/-- The journal of one device over any number of processes. -/
def journalMachine (host : JournalHost) :
    Machine JournalState JournalAction JournalAnswer :=
  ⟨journalStep host⟩

end Allrice
