/-
The journal of commands of the legacy queue: one table that is the proof that a
command has begun, the receipt it came to and the mark that the server has it.
Acknowledged results are kept only as a bounded recent cache.
-/
import Allrice.JournalMachine
import Allrice.StoreProcess

namespace Allrice

open Tx

/-- A command of the queue.  `details` is an identity of what no check here
reads: its grant, status, arguments and times. -/
structure BridgeCommand where
  id : Uuid
  deviceId : Uuid
  leaseToken : Uuid
  capability : JsString
  details : Nat
deriving DecidableEq

def BridgeCommand.isLocalFile (command : BridgeCommand) : Bool :=
  (JsString.ofString "local.file.").isPrefixOf command.capability

inductive CommandReceiptStatus where
  | succeeded
  | failed
  | unknown
  | canceled
deriving DecidableEq

/-- A receipt; `output` is the JSON text of that member. -/
structure CompleteBridgeCommandInput where
  leaseToken : Uuid
  status : CommandReceiptStatus
  output : Option JsString
  summary : JsString
  errorCode : Option JsString
deriving DecidableEq

/-- `CompleteBridgeCommandInputSchema.parse`. -/
def CompleteBridgeCommandInput.parse (input : CompleteBridgeCommandInput) :
    Option CompleteBridgeCommandInput :=
  let summary := JsString.trim input.summary
  let errorCode := input.errorCode.map JsString.trim
  if 1 ≤ summary.length ∧ summary.length ≤ 500 ∧
      errorCode.all (fun code => 1 ≤ code.length ∧ code.length ≤ 120) ∧
      (input.status = .failed → errorCode.isSome) then
    some { input with summary, errorCode }
  else none

inductive CommandState where
  | executing
  | completed
  | unknown
deriving DecidableEq

structure FileCommandRow where
  rowid : Nat
  commandId : Uuid
  fingerprint : Checksum
  command : BridgeCommand
  state : CommandState
  receipt : Option CompleteBridgeCommandInput
  delivered : Bool
deriving DecidableEq

abbrev CommandTable := Table Uuid FileCommandRow FileCommandRow.commandId

inductive CommandErrorCode where
  | identityMismatch
  | full
  | resultTooLarge
deriving DecidableEq

/-- Why a call failed; only `policy` failures are `BridgeJournalError`s. -/
inductive CommandFailure where
  | policy (code : CommandErrorCode)
  | schema
  | constraint
deriving DecidableEq

def CommandFailure.poisons : CommandFailure → Bool
  | .policy _ => false
  | .schema | .constraint => true

/-- The device, its command schema, digest and encoded sizes. -/
structure FileCommandHost where
  deviceId : Uuid
  parseCommand : BridgeCommand → Option BridgeCommand
  digestCommand : BridgeCommand → Checksum
  receiptBytes : CompleteBridgeCommandInput → Nat

/-- What the guard's finding means for a journal that is open. -/
def PathCheck.gate : PathCheck → GateCheck
  | .unchanged => .pass
  | .missing | .insecure => .refuse
  | .directoryChanged | .fileChanged => .poison

abbrev CommandTx := Tx CommandFailure CommandTable

/-- The `rowid` of the next insert: one more than the largest. -/
def nextRowid (table : CommandTable) : Nat :=
  (table.rows.map FileCommandRow.rowid).foldr max 0 + 1

def beginCommand (host : FileCommandHost) (limits : JournalLimits)
    (command : BridgeCommand) : CommandTx Bool := do
  let fingerprint := host.digestCommand command
  let table ← get
  match table.find? command.id with
  | some prior => do
      rejectIf (prior.fingerprint ≠ fingerprint) (.policy .identityMismatch)
      pure false
  | none => do
      let count := table.rows.length
      rejectIf (limits.entries ≤ count ∨
        limits.bytes < (count + 1) * reservePerEntry) (.policy .full)
      let next ← expect (table.insert?
        { rowid := nextRowid table
          commandId := command.id
          fingerprint
          command
          state := .executing
          receipt := none
          delivered := false }) .constraint
      set next
      pure true

/-- `UPDATE file_commands SET state=?,receipt=? WHERE command_id=?`. -/
def setReceipt (table : CommandTable) (id : Uuid) (state : CommandState)
    (receipt : CompleteBridgeCommandInput) : CommandTable :=
  table.updateWhere (fun row => row.commandId = id)
    (fun row => { row with state, receipt := some receipt }) fun _ => rfl

/-- The state that a receipt puts its command into. -/
def stateAfter (receipt : CompleteBridgeCommandInput) : CommandState :=
  if receipt.status = .unknown then .unknown else .completed

/-- What `completeFileCommand` checks before its transaction. -/
def completionChecks (host : FileCommandHost) (command : BridgeCommand)
    (input : CompleteBridgeCommandInput) :
    Except CommandFailure CompleteBridgeCommandInput :=
  match input.parse with
  | none => .error .schema
  | some receipt =>
    if receipt.leaseToken ≠ command.leaseToken ∨
        (if command.isLocalFile then 16384 else maximumReceiptBytes) <
          host.receiptBytes receipt then
      .error (.policy .resultTooLarge)
    else .ok receipt

def completeFileCommand (host : FileCommandHost) (command : BridgeCommand)
    (receipt : CompleteBridgeCommandInput) : CommandTx Unit := do
  let table ← get
  let row ← expect (table.find? command.id) (.policy .identityMismatch)
  rejectIf (row.fingerprint ≠ host.digestCommand command)
    (.policy .identityMismatch)
  rejectIf (row.receipt ≠ none ∧ row.receipt ≠ some receipt)
    (.policy .identityMismatch)
  set (setReceipt table command.id (stateAfter receipt) receipt)

def pendingFileCommands (table : CommandTable) :
    List (Uuid × CompleteBridgeCommandInput) :=
  let ready := table.rows.filter fun row =>
    !row.delivered && row.receipt.isSome
  ((ready.insertionSort fun row other => row.rowid ≤ other.rowid).take
    16).filterMap fun row =>
      row.receipt.map fun receipt => (row.commandId, receipt)

/-- A delivered row with a known outcome. -/
def FileCommandRow.isSettled (row : FileCommandRow) : Bool :=
  row.delivered && row.state == .completed

/-- How many settled rows are kept. -/
def retainedRows (limits : JournalLimits) : Nat :=
  max 1 (min 100 (limits.entries / 4))

def markDelivered (table : CommandTable) (id : Uuid) : CommandTable :=
  table.updateWhere (fun row => row.commandId = id && row.receipt.isSome)
    (fun row => { row with delivered := true }) fun _ => rfl

/-- The newest `count` of a list of row ids: `ORDER BY rowid DESC LIMIT ?`. -/
def newest (rowids : List Nat) (count : Nat) : List Nat :=
  (rowids.insertionSort (· ≥ ·)).take count

/-- The settled rows that a pruning keeps. -/
def retained (table : CommandTable) (count : Nat) : List Nat :=
  newest ((table.rows.filter FileCommandRow.isSettled).map
    FileCommandRow.rowid) count

def pruneSettled (table : CommandTable) (count : Nat) : CommandTable :=
  table.deleteWhere fun row =>
    row.isSettled && !(retained table count).contains row.rowid

def acknowledgeFileCommand (limits : JournalLimits) (id : Uuid) :
    CommandTx Unit := do
  let table ← get
  set (pruneSettled (markDelivered table id) (retainedRows limits))

/-- A call of the command journal. -/
inductive CommandCall where
  | begin (command : BridgeCommand)
  | complete (command : BridgeCommand) (receipt : CompleteBridgeCommandInput)
  | pending
  | acknowledge (id : Uuid)
deriving DecidableEq

inductive CommandResult where
  | begun (admitted : Bool)
  | pending (commands : List (Uuid × CompleteBridgeCommandInput))
  | done
deriving DecidableEq

/-- What a call checks after the guard and before its transaction; the
transaction works on the parsed values. -/
def CommandCall.checks (host : FileCommandHost) :
    CommandCall → Except CommandFailure CommandCall
  | .begin input =>
    match host.parseCommand input with
    | none => .error .schema
    | some command =>
      if command.deviceId ≠ host.deviceId then
        .error (.policy .identityMismatch)
      else .ok (.begin command)
  | .complete command input =>
    (completionChecks host command input).map (.complete command)
  | call => .ok call

def CommandCall.run (host : FileCommandHost) (limits : JournalLimits) :
    CommandCall → CommandTx CommandResult
  | .begin command => .begun <$> beginCommand host limits command
  | .complete command receipt =>
    (fun _ => .done) <$> completeFileCommand host command receipt
  | .pending => (fun table => .pending (pendingFileCommands table)) <$> get
  | .acknowledge id =>
    (fun _ => .done) <$> acknowledgeFileCommand limits id

/-- Only transactions poison the journal when the database fails. -/
def CommandCall.writes : CommandCall → Bool
  | .pending => false
  | _ => true

/-- The receipt of a command whose process ended while it was executing. -/
def unknownReceipt (command : BridgeCommand) : CompleteBridgeCommandInput where
  leaseToken := command.leaseToken
  status := .unknown
  output := none
  summary := JsString.ofString "Bridge 已重启，操作结果待核实，不自动重做"
  errorCode := some (JsString.ofString
    (if command.isLocalFile then "FILE_RESULT_UNKNOWN"
      else "LOCAL_RESULT_UNKNOWN"))

/-- The update of one command that was executing when its process ended. -/
def recoverCommand (host : FileCommandHost) (row : FileCommandRow)
    (table : CommandTable) : Option CommandTable :=
  (host.parseCommand row.command).map fun command =>
    setReceipt table row.commandId .unknown (unknownReceipt command)

/-- `SELECT … WHERE state='executing'`. -/
def executingCommands (table : CommandTable) : List FileCommandRow :=
  table.rows.filter fun row => row.state = .executing

def commandShell (host : FileCommandHost) :
    StoreShell CommandTable JournalLimits CommandCall FileCommandRow
      CommandResult CommandFailure where
  plan := executingCommands
  recover := recoverCommand host
  checks := fun _ => CommandCall.checks host
  run := fun limits call => CommandCall.run host limits call
  writes := CommandCall.writes
  poisons := CommandFailure.poisons

abbrev CommandMachineState :=
  StoreState CommandTable JournalLimits CommandCall FileCommandRow

abbrev CommandAction := StoreAction JournalLimits CommandCall

abbrev CommandAnswer := StoreAnswer CommandCall CommandResult CommandFailure

/-- The command journal of one device over any number of processes. -/
def commandMachine (host : FileCommandHost) :
    Machine CommandMachineState CommandAction CommandAnswer :=
  (commandShell host).machine

/-- A new journal that no process has opened yet. -/
def initialCommands : CommandMachineState := ⟨.empty, .down⟩

end Allrice
