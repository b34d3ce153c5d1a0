/-
The journal of a local service: the events that its process reported, the
inputs that were written to its pipe and the source updates it took.  Every
call is one transaction of the Bridge journal, and every table has its own
counter and its own idempotency key.
-/
import Allrice.JsString
import Allrice.RuntimeIdentity
import Allrice.StoreProcess
import Allrice.Table
import Allrice.Transaction

namespace Allrice

open Tx

structure RuntimeLocalServiceRequest where
  requestId : Uuid
  sequence : Nat
  prompt : JsString
  expiresAt : JsString
  maxBytes : Nat
deriving DecidableEq

inductive LocalServiceInputKind where
  | text
  | eof
deriving DecidableEq

structure RuntimeLocalServiceInput where
  inputId : Uuid
  requestId : Uuid
  sequence : Nat
  expiresAt : JsString
  digest : Checksum
  kind : LocalServiceInputKind
  text : JsString
deriving DecidableEq

/-- The members of the event `input_delivered`. -/
structure InputDelivered where
  inputId : Uuid
  requestId : Uuid
  inputSequence : Nat
  digest : Checksum
  kind : LocalServiceInputKind
deriving DecidableEq

inductive LocalServiceReport where
  | starting (containerId : JsString) (hardDeadlineAt : JsString)
  | ready (port : Nat)
  | inputRequest (request : RuntimeLocalServiceRequest)
  | inputDelivered (input : InputDelivered)
deriving DecidableEq

structure RuntimeLocalServiceEvent where
  processId : Uuid
  attemptId : Uuid
  sequence : Nat
  report : LocalServiceReport
deriving DecidableEq

/-- `details` is an identity of what no check here reads. -/
structure ProjectServiceSourceUpdate where
  updateId : Uuid
  projectId : Uuid
  sourceDigest : Checksum
  details : Nat
deriving DecidableEq

structure ProjectServiceSourceReceipt where
  updateId : Uuid
  sourceDigest : Checksum
deriving DecidableEq

/-- The dates and digests of the host, and the schema of a source update. -/
structure LocalServiceHost where
  isoDatetime : JsString → Bool
  parseDate : JsString → Option Int
  digestInput : LocalServiceInputKind → JsString → Checksum
  updateValid : ProjectServiceSourceUpdate → Bool

section Schemas

variable (host : LocalServiceHost)

/-- `RuntimeLocalServiceRequestSchema`. -/
def RuntimeLocalServiceRequest.isValid (request : RuntimeLocalServiceRequest) :
    Bool :=
  request.sequence ≤ 15 && 1 ≤ request.prompt.length &&
    request.prompt.length ≤ 500 && host.isoDatetime request.expiresAt &&
    1 ≤ request.maxBytes && request.maxBytes ≤ 4096

/-- `RuntimeLocalServiceInputSchema`. -/
def RuntimeLocalServiceInput.isValid (input : RuntimeLocalServiceInput) :
    Bool :=
  input.sequence ≤ 15 && host.isoDatetime input.expiresAt &&
    input.text.length ≤ 4096 && !input.text.contains 0 &&
    !(input.kind = .eof && input.text ≠ []) &&
    JsString.byteLength input.text ≤ 4096

/-- `/^[a-f0-9]{64}$/`. -/
def isContainerId (text : JsString) : Bool :=
  text.length = 64 && text.all fun unit =>
    (0x30 ≤ unit && unit ≤ 0x39) || (0x61 ≤ unit && unit ≤ 0x66)

/-- `RuntimeLocalServiceEventSchema`. -/
def RuntimeLocalServiceEvent.isValid (event : RuntimeLocalServiceEvent) :
    Bool :=
  event.sequence ≤ 63 &&
    match event.report with
    | .starting containerId hardDeadlineAt =>
      isContainerId containerId && host.isoDatetime hardDeadlineAt
    | .ready port => 1024 ≤ port && port ≤ 65535
    | .inputRequest request => request.isValid host
    | .inputDelivered input => input.inputSequence ≤ 15

end Schemas

structure LocalEventRow where
  operationId : Uuid
  sequence : Nat
  body : RuntimeLocalServiceEvent
  acknowledged : Bool

def LocalEventRow.key (row : LocalEventRow) : Uuid × Nat :=
  (row.operationId, row.sequence)

inductive ServiceEffectState where
  | prepared
  | delivered
deriving DecidableEq

structure LocalInputRow where
  operationId : Uuid
  requestId : Uuid
  inputId : Uuid
  body : RuntimeLocalServiceInput
  state : ServiceEffectState
deriving DecidableEq

def LocalInputRow.key (row : LocalInputRow) : Uuid × Uuid :=
  (row.operationId, row.requestId)

structure LocalSourceRow where
  operationId : Uuid
  updateId : Uuid
  body : ProjectServiceSourceUpdate
  state : ServiceEffectState
  receipt : Option ProjectServiceSourceReceipt
  acknowledged : Bool

def LocalSourceRow.key (row : LocalSourceRow) : Uuid × Uuid :=
  (row.operationId, row.updateId)

structure ServiceTables where
  events : Table (Uuid × Nat) LocalEventRow LocalEventRow.key
  inputs : Table (Uuid × Uuid) LocalInputRow LocalInputRow.key
  sources : Table (Uuid × Uuid) LocalSourceRow LocalSourceRow.key

namespace ServiceTables

/-- `SELECT … FROM service_events WHERE operation_id=?`. -/
def eventsOf (tables : ServiceTables) (id : Uuid) : List LocalEventRow :=
  tables.events.rows.filter fun row => row.operationId = id

def inputsOf (tables : ServiceTables) (id : Uuid) : List LocalInputRow :=
  tables.inputs.rows.filter fun row => row.operationId = id

def sourcesOf (tables : ServiceTables) (id : Uuid) : List LocalSourceRow :=
  tables.sources.rows.filter fun row => row.operationId = id

/-- The request that an event stored under a request id. -/
def requestOf (tables : ServiceTables) (id requestId : Uuid) :
    Option RuntimeLocalServiceRequest :=
  (tables.eventsOf id).findSome? fun row =>
    match row.body.report with
    | .inputRequest request =>
      if request.requestId = requestId then some request else none
    | _ => none

end ServiceTables

inductive ServiceErrorCode where
  | operationMissing
  | serviceMismatch
  | journalIdentity
  | journalAttempt
  | eventConflict
  | eventSequence
  | inputUnprepared
  | inputConflict
  | inputDigest
  | inputEffectUnknown
  | inputRequestMismatch
  | sourceConflict
  | sourceEffectUnknown
  | sourceIdentity
  | sourceAck
  | ackInvalid

/-- Why a call failed; only `policy` failures are `BridgeJournalError`s. -/
inductive ServiceFailure where
  | policy (code : ServiceErrorCode)
  | schema
  | constraint

def ServiceFailure.poisons : ServiceFailure → Bool
  | .policy _ => false
  | .schema | .constraint => true

/-- The arguments of `local.process.execute`: the background settings, with
whether they name a project service, and the project of the source. -/
structure ServiceArguments where
  background : Option Bool
  projectSource : Option Uuid

/-- What a call reads of the entry of its operation; `command` is there for the
capability `local.process.execute` only. -/
structure ServiceEntry where
  received : Bool
  attemptId : Uuid
  command : Option ServiceArguments

/-- The clock and the entry of the operation, as one transaction reads them. -/
structure ServiceFacts where
  now : Int
  entry : Option ServiceEntry

abbrev ServiceTx := Tx ServiceFailure ServiceTables

/-- What `prepare` answers. -/
inductive ServicePrepared where
  | new
  | delivered

/-- The `access` that the Bridge journal gives to the service journal. -/
def serviceAccess {α : Type} (facts : ServiceFacts)
    (action : ServiceEntry → ServiceTx α) : ServiceTx α := do
  let entry ← expect facts.entry (.policy .operationMissing)
  rejectIf (entry.received ∨ (entry.command.bind (·.background)) = none)
    (.policy .serviceMismatch)
  action entry

/-- The inputs after an event of the operation. -/
def ServiceTables.deliveredInputs (tables : ServiceTables) (id : Uuid) :
    LocalServiceReport →
      Table (Uuid × Uuid) LocalInputRow LocalInputRow.key
  | .inputDelivered input =>
    tables.inputs.updateWhere
      (fun row => row.operationId = id && row.inputId = input.inputId)
      (fun row => { row with state := .delivered }) fun _ => rfl
  | _ => tables.inputs

namespace LocalServiceJournal

/-- `UPDATE service_inputs SET state='delivered'`, after the check against the
input that was prepared. -/
def deliverInput (id : Uuid) (input : InputDelivered) : ServiceTx Unit := do
  let tables ← get
  let row ← expect ((tables.inputsOf id).find? fun row =>
    row.inputId = input.inputId) (.policy .inputUnprepared)
  rejectIf (row.body.requestId ≠ input.requestId ∨
    row.body.sequence ≠ input.inputSequence ∨
    row.body.digest ≠ input.digest ∨ row.body.kind ≠ input.kind)
    (.policy .inputConflict)
  set { tables with
    inputs := tables.inputs.updateWhere
      (fun row => row.operationId = id && row.inputId = input.inputId)
      (fun row => { row with state := .delivered }) fun _ => rfl }

/-- `INSERT INTO service_events`, with its range check. -/
def insertEvent (row : LocalEventRow) : ServiceTx Unit := do
  rejectIf (63 < row.sequence) .constraint
  let tables ← get
  let events ← expect (tables.events.insert? row) .constraint
  set { tables with events }

/-- What an event does to the inputs. -/
def deliver (id : Uuid) : LocalServiceReport → ServiceTx Unit
  | .inputDelivered input => deliverInput id input
  | _ => pure ()

def event (id : Uuid) (input : RuntimeLocalServiceEvent)
    (entry : ServiceEntry) : ServiceTx Unit := do
  rejectIf (input.attemptId ≠ entry.attemptId) (.policy .journalAttempt)
  let tables ← get
  match tables.events.find? (id, input.sequence) with
  | some prior => rejectIf (prior.body ≠ input) (.policy .eventConflict)
  | none => do
      rejectIf ((tables.eventsOf id).length ≠ input.sequence)
        (.policy .eventSequence)
      deliver id input.report
      insertEvent ⟨id, input.sequence, input, false⟩

def pending (id : Uuid) : ServiceTx (List RuntimeLocalServiceEvent) := do
  let tables ← get
  let waiting := (tables.eventsOf id).filter fun row => !row.acknowledged
  pure (((waiting.insertionSort fun row other =>
    row.sequence ≤ other.sequence).take 16).map (·.body))

def prepareSource (id : Uuid) (update : ProjectServiceSourceUpdate)
    (entry : ServiceEntry) : ServiceTx ServicePrepared := do
  let tables ← get
  match tables.sources.find? (id, update.updateId) with
  | some prior => do
      rejectIf (prior.body ≠ update) (.policy .sourceConflict)
      rejectIf (prior.state ≠ .delivered) (.policy .sourceEffectUnknown)
      pure .delivered
  | none => do
      rejectIf (entry.command.bind (·.background) ≠ some true ∨
        entry.command.bind (·.projectSource) ≠ some update.projectId ∨
        8 ≤ (tables.sourcesOf id).length) (.policy .sourceIdentity)
      let sources ← expect (tables.sources.insert?
        ⟨id, update.updateId, update, .prepared, none, false⟩) .constraint
      set { tables with sources }
      pure .new

def sourceApplied (id : Uuid) (receipt : ProjectServiceSourceReceipt) :
    ServiceTx Unit := do
  let tables ← get
  let prior ← expect (tables.sources.find? (id, receipt.updateId))
    (.policy .sourceConflict)
  rejectIf (prior.body.sourceDigest ≠ receipt.sourceDigest ∨
    ∃ stored ∈ prior.receipt, stored ≠ receipt) (.policy .sourceConflict)
  set { tables with
    sources := tables.sources.replace
      { prior with state := .delivered, receipt := some receipt } }

def pendingSources (id : Uuid) :
    ServiceTx (List ProjectServiceSourceReceipt) := do
  let tables ← get
  let waiting := (tables.sourcesOf id).filter fun row =>
    row.state = .delivered && !row.acknowledged
  expect ((waiting.take 1).mapM (·.receipt)) .schema

/-- One turn of the loop of `acknowledgeSources`. -/
def acknowledgeSource (id : Uuid) (receipt : ProjectServiceSourceReceipt) :
    ServiceTx Unit := do
  let tables ← get
  let row ← expect (tables.sources.find? (id, receipt.updateId))
    (.policy .sourceAck)
  rejectIf (row.state ≠ .delivered ∨ row.receipt ≠ some receipt)
    (.policy .sourceAck)
  set { tables with
    sources := tables.sources.replace { row with acknowledged := true } }

def acknowledgeSources (id : Uuid)
    (receipts : List ProjectServiceSourceReceipt) : ServiceTx Unit :=
  receipts.forM (acknowledgeSource id)

/-- `coalesce(max(sequence),-1)`. -/
def lastSequence (rows : List LocalEventRow) : Int :=
  rows.foldl (fun last row => max last row.sequence) (-1)

def acknowledge (id : Uuid) (sequence : Int) : ServiceTx Unit := do
  let tables ← get
  rejectIf (lastSequence (tables.eventsOf id) < sequence) (.policy .ackInvalid)
  set { tables with
    events := tables.events.updateWhere
      (fun row => row.operationId = id && (row.sequence : Int) ≤ sequence)
      (fun row => { row with acknowledged := true }) fun _ => rfl }

/-- `INSERT INTO service_inputs`, whose second constraint is one row for each
input id. -/
def insertInput (row : LocalInputRow) : ServiceTx Unit := do
  let tables ← get
  rejectIf (∃ other ∈ tables.inputs.rows, other.inputId = row.inputId)
    .constraint
  let inputs ← expect (tables.inputs.insert? row) .constraint
  set { tables with inputs }

def prepare (host : LocalServiceHost) (now : Int) (id : Uuid)
    (input : RuntimeLocalServiceInput) : ServiceTx ServicePrepared := do
  let tables ← get
  match tables.inputs.find? (id, input.requestId) with
  | some prior => do
      rejectIf (prior.body ≠ input) (.policy .inputConflict)
      rejectIf (prior.state ≠ .delivered) (.policy .inputEffectUnknown)
      pure .delivered
  | none => do
      let request ← expect (tables.requestOf id input.requestId)
        (.policy .inputRequestMismatch)
      let count := (tables.inputsOf id).length
      rejectIf (request.sequence ≠ input.sequence ∨ input.sequence ≠ count ∨
        request.expiresAt ≠ input.expiresAt ∨
        (∃ expires ∈ host.parseDate input.expiresAt, expires ≤ now) ∨
        request.maxBytes < JsString.byteLength input.text ∨ 16 ≤ count)
        (.policy .inputRequestMismatch)
      insertInput ⟨id, input.requestId, input.inputId, input, .prepared⟩
      pure .new

end LocalServiceJournal

/-- A call on the journal of a service.  `none` is an acknowledged sequence
that is not an integer. -/
inductive ServiceCall where
  | event (id : Uuid) (event : RuntimeLocalServiceEvent)
      (facts : ServiceFacts)
  | pending (id : Uuid) (facts : ServiceFacts)
  | prepareSource (id : Uuid) (update : ProjectServiceSourceUpdate)
      (facts : ServiceFacts)
  | sourceApplied (id : Uuid) (receipt : ProjectServiceSourceReceipt)
      (facts : ServiceFacts)
  | pendingSources (id : Uuid) (facts : ServiceFacts)
  | acknowledgeSources (id : Uuid)
      (receipts : List ProjectServiceSourceReceipt) (facts : ServiceFacts)
  | acknowledge (id : Uuid) (sequence : Option Int) (facts : ServiceFacts)
  | prepare (id : Uuid) (input : RuntimeLocalServiceInput)
      (facts : ServiceFacts)

inductive ServiceResult where
  | done
  | prepared (answer : ServicePrepared)
  | events (waiting : List RuntimeLocalServiceEvent)
  | receipts (waiting : List ProjectServiceSourceReceipt)

section Host

variable (host : LocalServiceHost)

/-- What a call checks before it asks for access. -/
def ServiceCall.checks : ServiceCall → Except ServiceFailure ServiceCall
  | .event id input facts =>
    if input.isValid host = false then .error .schema
    else if input.processId ≠ id then .error (.policy .journalIdentity)
    else .ok (.event id input facts)
  | .prepareSource id update facts =>
    if host.updateValid update = false then .error .schema
    else .ok (.prepareSource id update facts)
  | .acknowledge id sequence facts =>
    if ∃ n ∈ sequence, -1 ≤ n ∧ n ≤ 63 then
      .ok (.acknowledge id sequence facts)
    else .error (.policy .ackInvalid)
  | .prepare id input facts =>
    if input.isValid host = false then .error .schema
    else if input.digest ≠ host.digestInput input.kind input.text then
      .error (.policy .inputDigest)
    else .ok (.prepare id input facts)
  | call => .ok call

/-- The transaction of a call. -/
def ServiceCall.run : ServiceCall → ServiceTx ServiceResult
  | .event id input facts => (fun _ => .done) <$>
      serviceAccess facts (LocalServiceJournal.event id input)
  | .pending id facts => .events <$>
      serviceAccess facts fun _ => LocalServiceJournal.pending id
  | .prepareSource id update facts => .prepared <$>
      serviceAccess facts (LocalServiceJournal.prepareSource id update)
  | .sourceApplied id receipt facts => (fun _ => .done) <$>
      serviceAccess facts fun _ => LocalServiceJournal.sourceApplied id receipt
  | .pendingSources id facts => .receipts <$>
      serviceAccess facts fun _ => LocalServiceJournal.pendingSources id
  | .acknowledgeSources id receipts facts => (fun _ => .done) <$>
      serviceAccess facts fun _ =>
        LocalServiceJournal.acknowledgeSources id receipts
  | .acknowledge id sequence facts => (fun _ => .done) <$>
      serviceAccess facts fun _ => do
        let sequence ← expect sequence (.policy .ackInvalid)
        LocalServiceJournal.acknowledge id sequence
  | .prepare id input facts => .prepared <$>
      serviceAccess facts fun _ =>
        LocalServiceJournal.prepare host facts.now id input

/-- Opening the journal recovers nothing in these tables, and even a call that
only reads runs in a transaction. -/
def serviceShell : StoreShell ServiceTables Unit ServiceCall Empty ServiceResult
    ServiceFailure where
  plan := fun _ => []
  recover := fun item _ => item.elim
  checks := fun _ call => .ok call
  run := fun _ call => ServiceCall.run host call
  writes := fun _ => true
  poisons := ServiceFailure.poisons

abbrev ServiceMachineState := StoreState ServiceTables Unit ServiceCall Empty

abbrev ServiceAction := StoreAction Unit ServiceCall

abbrev ServiceStoreAnswer := StoreAnswer ServiceCall ServiceResult ServiceFailure

/-- A call is checked before it comes to the gate of the journal. -/
def serviceStep (s : ServiceMachineState) :
    ServiceAction → ServiceMachineState × ServiceStoreAnswer
  | .enter call gate =>
    match call.checks host with
    | .error error => (s, .refused error)
    | .ok checked => (serviceShell host).step s (.enter checked gate)
  | action => (serviceShell host).step s action

/-- The service journal of one device over any number of processes. -/
def serviceMachine :
    Machine ServiceMachineState ServiceAction ServiceStoreAnswer :=
  ⟨serviceStep host⟩

/-- A new journal that no process has opened yet. -/
def initialServices : ServiceMachineState :=
  ⟨⟨.empty, .empty, .empty⟩, .down⟩

end Host

end Allrice
