/-
Executing a text changeset on a Bridge.  Journal checkpoints bracket each real
side effect; the file system, the authorization callback, the journal's faults
and the end of the process are decided by the surroundings at every step.
-/
import Allrice.JournalMachine
import Allrice.Interruptible

namespace Allrice

open Program

/-- What is known of one file's side effect. -/
inductive FileEffect where
  | untouched
  | begun
  | completed
deriving DecidableEq

/-- An error is a known precondition failure or anything else. -/
inductive FileError where
  | localExecution (code : String)
  | other

inductive AuthorizeAnswer where
  | granted
  | refused
  | throws (error : FileError)

structure ChangesetWorld where
  disk : JournalDisk
  results : List ChangesetFileResult
  effects : Nat → FileEffect
  ticks : Nat

abbrev Exec := Program FileError ChangesetWorld

/-- What the surroundings decide at the n-th step of an execution. -/
structure ChangesetHost where
  journal : JournalHost
  /-- The process ends before this step. -/
  crashes : Nat → Bool
  /-- The journal's guard or SQLite fails at this step. -/
  journalFaults : Nat → Bool
  authorize : Nat → AuthorizeAnswer
  /-- Resolving, reading, staging or checking a file fails at this step. -/
  inspect : Nat → Option FileError
  /-- A system call that changes or syncs the directory fails here. -/
  commitFails : Nat → Bool
  sha256 : JsString → Checksum
  /-- `executeFileOrganization`, which no text changeset reaches. -/
  executeFileOrganization : ChangesetArguments → Exec (List ChangesetFileResult)

/-- One step of the process, unless it ends here. -/
def tick (host : ChangesetHost) : Exec Nat := fun world =>
  if host.crashes world.ticks then (.error .crashed, world)
  else (.ok world.ticks, { world with ticks := world.ticks + 1 })

/-- Run a journal method; its failures are not precondition failures of a
file. -/
def journalTx {α : Type} (host : ChangesetHost) (method : JournalTx α) :
    Exec α := do
  let n ← tick host
  if host.journalFaults n then raise .other
  else fun world =>
    match method world.disk with
    | .ok (a, disk) => (.ok a, { world with disk })
    | .error _ => (.error (.thrown .other), world)

def checkpoint (host : ChangesetHost) (operationId : Uuid) (index : Nat)
    (result : ChangesetFileResult) : Exec Unit :=
  if result.Valid then
    journalTx host (changesetCheckpoint operationId index result)
  else raise .other

def authorize (host : ChangesetHost) : Exec Bool := do
  let n ← tick host
  match host.authorize n with
  | .granted => return true
  | .refused => return false
  | .throws error => raise error

/-- A look at the file system that may find a precondition violated. -/
def inspectFile (host : ChangesetHost) : Exec Unit := do
  let n ← tick host
  match host.inspect n with
  | none => return ()
  | some error => raise error

/-- `report`: checkpoint a status first, then keep it in memory. -/
def report (host : ChangesetHost) (operationId : Uuid) (index : Nat)
    (status : ChangesetFileStatus) (errorCode : Option String) :
    Exec Unit := do
  let world ← Program.read
  match world.results[index]? with
  | none => raise .other
  | some old =>
    let result := { old with
      status, errorCode := errorCode.orElse fun _ => old.errorCode }
    checkpoint host operationId index result
    update fun world =>
      { world with results := world.results.set index result }

/-- The supplied texts must carry their own checksums. -/
def sideMatches (host : ChangesetHost) (side : ChangesetText) : Bool :=
  JsString.byteLength side.text ≤ 200000 && !side.text.contains 0 &&
    host.sha256 side.text = side.checksum

def verifyFile (host : ChangesetHost) (file : ChangesetFile) : Exec Unit := do
  if (∀ side ∈ file.before, sideMatches host side) ∧
      (∀ side ∈ file.after, sideMatches host side) then
    inspectFile host
  else raise (.localExecution "WRITE_CONFLICT")

/-- `beforeCommit`. -/
def beforeCommit (host : ChangesetHost) : Exec Unit := do
  if ← authorize host then return ()
  else raise (.localExecution "WRITE_CONFLICT")

def setEffect (index : Nat) (effect : FileEffect) : Exec Unit :=
  update fun world =>
    { world with effects := Function.update world.effects index effect }

/-- The system calls that replace, create or remove the file and sync its
directory; a failure after the first of them is no precondition failure. -/
def commitFile (host : ChangesetHost) (index : Nat) : Exec Unit := do
  setEffect index .begun
  let n ← tick host
  if host.commitFails n then raise .other
  else
    setEffect index .completed
    let m ← tick host
    if host.commitFails m then raise .other else return ()

/-- `writeTextFile`: stage the text, ask again, check again, commit. -/
def writeTextFile (host : ChangesetHost) (index : Nat)
    (text : ChangesetText) : Exec Unit := do
  if 200000 < JsString.byteLength text.text then
    raise (.localExecution "FILE_TOO_LARGE")
  else
    inspectFile host
    beforeCommit host
    inspectFile host
    commitFile host index

def removeChangesetFile (host : ChangesetHost) (index : Nat) : Exec Unit := do
  inspectFile host
  beforeCommit host
  inspectFile host
  commitFile host index

/-- Verify all supplied texts and initial baselines before touching any path;
the answer says whether every file passed. -/
def preflight (host : ChangesetHost) (operationId : Uuid) :
    List ChangesetFile → Nat → Exec Bool
  | [], _ => return true
  | file :: rest, index => do
      let failure ← attempt
        (do verifyFile host file; return none) (fun error => return some error)
      match failure with
      | none => preflight host operationId rest (index + 1)
      | some (.localExecution code) =>
        report host operationId index .conflict (some code)
        return false
      | some .other =>
        report host operationId index .conflict (some "PREFLIGHT_FAILED")
        return false

def changeFile (host : ChangesetHost) (index : Nat) (file : ChangesetFile) :
    Exec Unit :=
  match file.after with
  | some text => writeTextFile host index text
  | none => removeChangesetFile host index

/-- Apply one file; the answer says whether the loop goes on. -/
def applyFile (host : ChangesetHost) (operationId : Uuid)
    (file : ChangesetFile) (index : Nat) : Exec Bool :=
  attempt
    (do
      if ← authorize host then
        report host operationId index .prepared none
        changeFile host index file
        report host operationId index .applied none
        return true
      else
        report host operationId index .canceled (some "AUTHORITY_LOST")
        return false)
    (fun error =>
      match error with
      | .localExecution code => do
          report host operationId index .conflict (some code)
          return false
      | .other => do
          report host operationId index .unknown
            (some "WRITE_OUTCOME_UNKNOWN")
          return false)

def applyFiles (host : ChangesetHost) (operationId : Uuid) :
    List ChangesetFile → Nat → Exec Unit
  | [], _ => return ()
  | file :: rest, index => do
      if ← applyFile host operationId file index then
        applyFiles host operationId rest (index + 1)
      else return ()

/-- Journal checkpoints bracket each real side effect: no retry loop. -/
def executeChangeset (host : ChangesetHost) (operationId : Uuid)
    (arguments : ChangesetArguments) : Exec (List ChangesetFileResult) := do
  update fun world =>
    { world with results := initialChangesetResults arguments }
  if arguments.fileOrganization then host.executeFileOrganization arguments
  else do
    let verified ← preflight host operationId arguments.files 0
    (if verified then applyFiles host operationId arguments.files 0
      else return ())
    let world ← Program.read
    return world.results

/-- The receipt that a finished execution is reported with. -/
def reportChangeset (host : JournalHost) (operationId : Uuid)
    (files : List ChangesetFileResult) (inputs : ReceiptInputs) :
    JournalTx RuntimeBridgeReceipt :=
  let applied := appliedCount files
  if files.any (·.status = .unknown) then
    uncertain host operationId .receiptMissing
      (some
        { summary := JsString.ofString "部分文件写入结果待核实，不自动重做"
          output := some (.changeset files)
          errorCode := none }) inputs
  else if applied = 0 ∧ files.any (·.status = .canceled) then
    stopped host operationId (.changeset files)
      (JsString.ofString "执行授权失效，尚未写入任何文件") inputs
  else
    outcome host operationId
      { status := changesetStatus applied files.length
        effects := changesetEffects applied files.length
        summary := JsString.ofString
          ("已确认处理 " ++ toString applied ++ "/" ++
            toString files.length ++ " 个文件；详见逐文件记录")
        output := some (.changeset files)
        errorCode := none } inputs

/-- The changeset branch of the Bridge client. -/
def handleChangeset (host : ChangesetHost) (operationId : Uuid)
    (arguments : ChangesetArguments) (inputs : ReceiptInputs) :
    Exec RuntimeBridgeReceipt := do
  let files ← executeChangeset host operationId arguments
  journalTx host (reportChangeset host.journal operationId files inputs)

end Allrice
