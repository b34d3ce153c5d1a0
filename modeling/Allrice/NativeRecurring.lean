/-
The control of a recurring native schedule.  A write of the schedule host is
prepared against the stored snapshot: the session steps, the task it puts or
deletes, the command it confirms.  A task that is put carries its receipts; the
new ones become occurrences of the applied revision, pending or blocked.
-/
import Allrice.ByteReader
import Allrice.JsString
import Allrice.RuntimeIdentity

namespace Allrice.NativeRecurring

open ByteReader

/-- `FixedRecurringScheduleRule`. -/
inductive Rule
  | every (seconds : Int)
  | daily (time timezone : JsString)
  | weekly (time timezone : JsString) (weekdays : List Int)
deriving DecidableEq

inductive SessionState
  | reserved
  | initializing
  | ready
deriving DecidableEq

inductive CommandKind
  | create
  | update
  | delete
deriving DecidableEq

inductive CommandStatus
  | pending
  | confirmed
  | blocked
deriving DecidableEq

structure Command where
  id : Uuid
  kind : CommandKind
  status : CommandStatus

inductive Dispatch
  | chat (employeeAssignmentId employeeInstanceId businessSessionId : Uuid)
  | platformQuality

structure Control where
  partitionId : JsString
  controlId : Uuid
  organizationId : Uuid
  workspaceId : Uuid
  ownerId : Uuid
  automationId : Uuid
  revision : Int
  controlSessionId : JsString
  rule : Rule
  appliedRevision : Option Int
  appliedRule : Option Rule
  sessionState : SessionState
  nativeTaskId : Option JsString
  taskDeleted : Bool
  command : Command
  dispatch : Dispatch

/-- What a revision of the platform quality schedule has besides. -/
structure Quality where
  configurationDigest : JsString
  legacyScheduledFor : Option JsString

structure Revision where
  revision : Int
  name : JsString
  prompt : JsString
  rule : Rule
  reservationDigest : JsString
  acceptedAt : JsString
  quality : Option Quality

/-- The frozen versions, each under its own number. -/
structure Versions where
  get : Int → Option Revision
  keyed : ∀ number version, get number = some version →
    version.revision = number

structure Delivery where
  scheduledAt : JsString
  deliveredAt : JsString
  messageId : JsString
deriving DecidableEq

structure Receipt extends Delivery where
  prompt : Option JsString
deriving DecidableEq

structure DeliveryHistory where
  records : List Receipt
  earlierRecordsUnavailable : Bool
  earlierRecordsPruned : Option Bool

inductive RecordKind
  | every
  | daily
  | weekly
  | other (kind : JsString)
deriving DecidableEq

structure TaskRecord where
  id : JsString
  kind : RecordKind
  title : JsString
  prompt : JsString
  scheduledAt : JsString
  everySeconds : Option Int
  time : Option JsString
  timeZone : Option JsString
  weekdays : Option (List Int)

structure Task where
  sessionId : JsString
  record : TaskRecord
  status : JsString
  lastDelivery : Option Delivery
  deliveryHistory : Option DeliveryHistory

inductive MutationKind (ω : Type)
  | sessionInitializing
  | sessionReady
  | putTask (task : ω)
  | deleteTask (nativeTaskId : JsString)
  | confirmCommand (commandId : Uuid) (nativeTaskId : Option JsString)

structure Mutation (ω : Type) where
  controlId : Uuid
  kind : MutationKind ω

structure Write (ω : Type) where
  writeId : JsString
  digest : JsString
  mutation : Mutation ω

structure Snapshot (ω : Type) where
  control : Control
  task : Option ω

/-- `recurringControlIdentity`. -/
structure Identity where
  partitionId : JsString
  controlId : Uuid
  organizationId : Uuid
  workspaceId : Uuid
  ownerId : Uuid
  automationId : Uuid
  controlSessionId : JsString
  dispatch : Dispatch

def recurringControlIdentity (c : Control) : Identity where
  partitionId := c.partitionId
  controlId := c.controlId
  organizationId := c.organizationId
  workspaceId := c.workspaceId
  ownerId := c.ownerId
  automationId := c.automationId
  controlSessionId := c.controlSessionId
  dispatch := c.dispatch

/-- The revision an occurrence carries. -/
structure Attribution where
  revision : Int
  rule : Rule
  reservationDigest : JsString
  acceptedAt : JsString

structure Payload where
  control : Identity
  revision : Attribution
  nativeTaskId : JsString
  receipt : Receipt

inductive OccurrenceState
  | pending
  | blocked

inductive Reason
  | currentAuthorityChanged
  | pausedOrDeleted
  | configurationChanged
  | beforeResumeWatermark

structure Occurrence where
  id : JsString
  key : JsString
  clientMessageId : JsString
  payload : Payload
  payloadDigest : JsString
  state : OccurrenceState
  reason : Option Reason

inductive AutomationStatus
  | enabled
  | paused
  | deleted
deriving DecidableEq

structure Admission where
  allowed : Bool
  currentRevision : Int
  status : AutomationStatus
  resumeAfter : Option JsString

structure Readiness where
  enabled : Option Bool
  storageReady : Option Bool
  legacyClockExcluded : Option Bool
  controlArtifactApproved : Option Bool

structure Reference where
  artifactId : JsString
  profileId : JsString
  storageId : JsString
  stateRoot : JsString
deriving DecidableEq

structure Writer where
  partitionId : JsString
  ownerId : JsString
  epoch : Int
  token : JsString

structure WriterRow where
  partitionId : JsString
  ownerId : Option JsString
  epoch : Int
  tokenDigest : Option JsString
  expiresAtMs : Option Int
  closed : Bool
  reference : Reference

inductive Fault
  | writerFence
  | writeInvalid
  | revisionMissing
  | sessionTransition
  | taskInvalid
  | taskBinding
  | taskRule
  | receiptHistory
  | receiptInvalid
  | receiptTail
  | receiptRewritten
  | receiptPrefixChanged
  | unprovedHistoryPruning
  | receiptAppendOrder
  | initialReceiptFabricated
  | receiptRuleChanged
  | appliedRevisionMissing
  | receiptTargetRewind
  | updateMixedWithDelivery
  | unprovedTargetChange
  | deleteBinding
  | commandBinding
  | deleteNotPersisted
  | commandNotPersisted
  /-- `native_once_writer_invalid`. -/
  | writerInvalid
  /-- `native_once_json_limit` or `native_once_invalid_json`. -/
  | digestRefused
  | schema
  | decode

/-- What is digested. -/
inductive Digested (ω : Type)
  | task (value : ω)
  | mutation (value : Mutation ω)
  | snapshot (value : Snapshot ω)
  | token (value : JsString)
  | slot (automationId : Uuid) (revision : Int) (scheduledAt : JsString)
  | payload (value : Payload)

/-- The runtime under the code: the decoder of stored tasks and the reading of
what it gives, dates, time zones and hashes. -/
structure Host (ω : Type) where
  decode : ω → Option ω
  read : ω → Task
  parseDate : JsString → Option Int
  toISOString : Int → JsString
  resolveZone : JsString → Option JsString
  digest : Digested ω → Option JsString
  stableUuid : List JsString → JsString

def need (value : Prop) [Decidable value] (code : Fault) :
    Except Fault Unit :=
  if value then .ok () else .error code

theorem need_eq_ok {value : Prop} [Decidable value] {code : Fault} {u : Unit} :
    need value code = .ok u ↔ value := by
  unfold need
  split <;> simp [*]

def isKey (s : JsString) : Bool := 1 ≤ s.length && s.length ≤ 512

def isRevision (n : Int) : Bool := 0 < n && n ≤ maxSafeInteger

def isDigit (unit : UInt16) : Bool := 0x30 ≤ unit && unit ≤ 0x39

def isHex (unit : UInt16) : Bool :=
  isDigit unit || (0x61 ≤ unit && unit ≤ 0x66)

/-- `/^sha256:[a-f0-9]{64}$/`. -/
def isDigest (s : JsString) : Bool :=
  s.take 7 == JsString.ofString "sha256:" && (s.drop 7).length == 64 &&
    (s.drop 7).all isHex

/-- `/^(?:[01]\d|2[0-3]):[0-5]\d:[0-5]\d$/`. -/
def isTime (s : JsString) : Bool :=
  match s with
  | [h, h', c, m, m', c', t, t'] =>
    (((h == 0x30 || h == 0x31) && isDigit h') ||
      (h == 0x32 && 0x30 ≤ h' && h' ≤ 0x33)) &&
    c == 0x3A && (0x30 ≤ m && m ≤ 0x35) && isDigit m' &&
    c' == 0x3A && (0x30 ≤ t && t ≤ 0x35) && isDigit t'
  | _ => false

namespace Host

variable {ω : Type} (host : Host ω)

def isInstant (s : JsString) : Bool :=
  match host.parseDate s with
  | some at_ => host.toISOString at_ == s
  | none => false

def isTimezone (s : JsString) : Bool :=
  1 ≤ s.length && s.length ≤ 64 && (host.resolveZone s).isSome

def isRule : Rule → Bool
  | .every seconds => 60 ≤ seconds && seconds ≤ 31536000
  | .daily time timezone => isTime time && host.isTimezone timezone
  | .weekly time timezone weekdays =>
    isTime time && host.isTimezone timezone &&
      (weekdays.all fun day => 1 ≤ day && day ≤ 7) &&
      1 ≤ weekdays.length && weekdays.length ≤ 7 &&
      decide (weekdays.IsChain (· < ·))

/-- `NativeRecurringControlSchema`. -/
def isControl (c : Control) : Bool :=
  isKey c.partitionId && isRevision c.revision && isKey c.controlSessionId &&
    host.isRule c.rule && c.appliedRevision.all isRevision &&
    c.appliedRule.all host.isRule && c.nativeTaskId.all isKey &&
    c.appliedRevision.isNone == c.appliedRule.isNone &&
    (c.appliedRevision.all fun applied => applied ≤ c.revision) &&
    (c.nativeTaskId.isNone ||
      (c.sessionState == .ready && c.appliedRevision.isSome))

/-- `NativeRecurringRevisionSchema`. -/
def isRevisionContent (v : Revision) : Bool :=
  isRevision v.revision && 1 ≤ v.name.length && v.name.length ≤ 160 &&
    1 ≤ v.prompt.length && v.prompt.length ≤ 40000 && host.isRule v.rule &&
    isDigest v.reservationDigest && host.isInstant v.acceptedAt &&
    v.quality.all fun q =>
      isDigest q.configurationDigest && q.legacyScheduledFor.all host.isInstant

def parse (valid : Bool) : Except Fault Unit := need (valid = true) .schema

def nativeOnceDigest (value : Digested ω) : Except Fault JsString :=
  match host.digest value with
  | some digest => .ok digest
  | none => .error .digestRefused

/-- `Date.parse(a) >= Date.parse(b)` and the like, false for what is no date. -/
def atLeast : Option Int → Option Int → Bool
  | some a, some b => b ≤ a
  | _, _ => false

def before : Option Int → Option Int → Bool
  | some a, some b => a < b
  | _, _ => false

def nativeOnceReady (v : Readiness) : Bool :=
  v.enabled == some true && v.storageReady == some true &&
    v.legacyClockExcluded == some true && v.controlArtifactApproved == some true

def ttlMax : Int := 300000

def safeTime (value : Int) : Bool := 0 ≤ value && value ≤ maxSafeInteger

def goodId (value : JsString) : Bool := 0 < value.length && value.length ≤ 512

/-- `fence`, the digest of the token. -/
def fence (writer : Writer) : Except Fault JsString := do
  need (goodId writer.partitionId && goodId writer.ownerId &&
    goodId writer.token && 1 ≤ writer.epoch && writer.epoch ≤ maxSafeInteger)
    .writerInvalid
  host.nativeOnceDigest (.token writer.token)

def sameWriter (row : WriterRow) (writer : Writer) : Except Fault Bool := do
  let tokenDigest ← host.fence writer
  return row.partitionId == writer.partitionId &&
    row.ownerId == some writer.ownerId && row.epoch == writer.epoch &&
    row.tokenDigest == some tokenDigest

def nativeOnceWriterRemaining (row : WriterRow) (writer : Writer)
    (dbNowMs : Int) : Except Fault Int := do
  if !safeTime dbNowMs then return 0
  if !(← host.sameWriter row writer) || row.closed then return 0
  match row.expiresAtMs with
  | none => return 0
  | some expiresAtMs =>
    if !safeTime expiresAtMs then return 0
    let remaining := expiresAtMs - dbNowMs
    return if 0 < remaining && remaining ≤ ttlMax then remaining else 0

/-- The wall time of a record against the one of a rule. -/
def sameClock (record : TaskRecord) (time timezone : JsString) : Bool :=
  match record.timeZone with
  | some timeZone =>
    record.time == some (time ++ JsString.ofString ".000") &&
      match host.resolveZone timeZone, host.resolveZone timezone with
      | some a, some b => a == b
      | _, _ => false
  | none => false

def recurringRecordMatches (record : TaskRecord) (rule : Rule) : Bool :=
  match record.kind, rule with
  | .every, .every seconds => record.everySeconds == some seconds
  | .daily, .daily time timezone => host.sameClock record time timezone
  | .weekly, .weekly time timezone weekdays =>
    record.weekdays == some weekdays && host.sameClock record time timezone
  | _, _ => false

/-- The key of a receipt, its three texts. -/
def receiptKey (r : Receipt) : Delivery := r.toDelivery

def receipts (task : Option Task) : List Receipt :=
  match task with
  | none => []
  | some task =>
    match task.deliveryHistory with
    | some history => history.records
    | none =>
      match task.lastDelivery with
      | some last => [{ toDelivery := last, prompt := none }]
      | none => []

def title : JsString := JsString.ofString "AllRice once control"

def prompt : JsString :=
  JsString.ofString
    "Synthetic schedule control only. Never execute business work."

def isReceipt (r : Receipt) : Bool :=
  host.isInstant r.scheduledAt && host.isInstant r.deliveredAt &&
    isKey r.messageId && (r.prompt == none || r.prompt == some prompt)

def appliedMatches (record : TaskRecord) (c : Control) : Bool :=
  c.appliedRule.any fun rule => host.recurringRecordMatches record rule

def decodeTask (raw : ω) : Except Fault ω :=
  match host.decode raw with
  | some value => .ok value
  | none => .error .decode

/-- `validateRecurringTask`. -/
def validateRecurringTask [DecidableEq ω] (c : Control) (raw : ω) :
    Except Fault ω := do
  let value ← host.decodeTask raw
  let _ ← host.nativeOnceDigest (.task value)
  let task := host.read value
  need (value = raw ∧ task.sessionId = c.controlSessionId ∧
    task.record.title = title ∧ task.record.prompt = prompt ∧
    task.record.kind ∈ [.every, .daily, .weekly] ∧
    task.status = JsString.ofString "active" ∧
    host.isInstant task.record.scheduledAt ∧ c.sessionState = .ready ∧
    !c.taskDeleted) .taskInvalid
  need (c.nativeTaskId = some task.record.id ∨
    (c.nativeTaskId = none ∧ c.command.kind = .create ∧
      c.command.status = .pending)) .taskBinding
  need (host.appliedMatches task.record c ∨
    (c.command.status = .pending ∧ c.command.kind ∈ [.create, .update] ∧
      host.recurringRecordMatches task.record c.rule)) .taskRule
  let history := receipts (some task)
  need (history.length ≤ 200 ∧ (history.map receiptKey).Nodup) .receiptHistory
  need (history.all host.isReceipt) .receiptInvalid
  need (task.lastDelivery = history.getLast?.map receiptKey) .receiptTail
  return value

structure Input (ω : Type) where
  readiness : Readiness
  reference : Reference
  writerRow : WriterRow
  writer : Writer
  dbNowMs : Int
  before : Snapshot ω
  write : Write ω
  revisions : Versions
  admission : Option Admission

structure JournalWriter where
  partitionId : JsString
  ownerId : JsString
  epoch : Int
  tokenDigest : JsString

structure ReceiptLink where
  id : JsString
  key : JsString
  payloadDigest : JsString

structure Journal (ω : Type) where
  writer : JournalWriter
  reference : Reference
  write : Write ω
  identity : Identity
  beforeDigest : JsString
  afterDigest : JsString
  receiptLinks : List ReceiptLink

structure Result (ω : Type) where
  after : Snapshot ω
  occurrences : List Occurrence
  journal : Journal ω

/-- Whether a target lies at or before the watermark of a resume. -/
def heldByResume (a : Admission) (scheduledAt : JsString) : Bool :=
  match a.resumeAfter with
  | some resumeAfter =>
    !resumeAfter.isEmpty &&
      atLeast (host.parseDate resumeAfter) (host.parseDate scheduledAt)
  | none => false

def reasonOf (admission : Option Admission) (version : Revision)
    (scheduledAt : JsString) : Option Reason :=
  match admission with
  | none => some .currentAuthorityChanged
  | some a =>
    if !a.allowed then some .currentAuthorityChanged
    else if a.status ≠ .enabled then some .pausedOrDeleted
    else if a.currentRevision ≠ version.revision then
      some .configurationChanged
    else if host.heldByResume a scheduledAt then
      some .beforeResumeWatermark
    else none

/-- The occurrence of one new receipt. -/
def occurrenceOf (c : Control) (admission : Option Admission)
    (version : Revision) (taskId : JsString) (receipt : Receipt) :
    Except Fault Occurrence := do
  let key ← host.nativeOnceDigest
    (.slot c.automationId version.revision receipt.scheduledAt)
  let payload : Payload :=
    { control := recurringControlIdentity c
      revision :=
        { revision := version.revision
          rule := version.rule
          reservationDigest := version.reservationDigest
          acceptedAt := version.acceptedAt }
      nativeTaskId := taskId
      receipt := receipt }
  let payloadDigest ← host.nativeOnceDigest (.payload payload)
  let reason := host.reasonOf admission version receipt.scheduledAt
  return { id := host.stableUuid [JsString.ofString "recurring-occurrence", key]
           key := key
           clientMessageId :=
             host.stableUuid [JsString.ofString "recurring-message", key]
           payload := payload
           payloadDigest := payloadDigest
           state := if reason.isSome then .blocked else .pending
           reason := reason }

/-- The loop over the new receipts: each target at the floor or later, and
before the next target of the task. -/
def deliver (c : Control) (admission : Option Admission) (version : Revision)
    (record : TaskRecord) (floor : Option Int) :
    List Receipt → Except Fault (List Occurrence)
  | [] => .ok []
  | receipt :: rest => do
      let scheduledAt := host.parseDate receipt.scheduledAt
      need (atLeast scheduledAt floor &&
        before scheduledAt (host.parseDate record.scheduledAt))
        .receiptTargetRewind
      let occurrence ← host.occurrenceOf c admission version record.id receipt
      let others ← deliver c admission version record
        (scheduledAt.map (· + 1)) rest
      return occurrence :: others

/-- The occurrences of the new receipts of a task that is put. -/
def occurrencesOf (input : Input ω) (c : Control) (previous : Option Task)
    (task : Task) (added : List Receipt) :
    Except Fault (List Occurrence) := do
  if added.isEmpty then return []
  match previous, c.appliedRule, c.appliedRevision with
  | some previous, some appliedRule, some appliedRevision => do
      need (host.recurringRecordMatches task.record appliedRule)
        .receiptRuleChanged
      match input.revisions.get appliedRevision with
      | none => .error .appliedRevisionMissing
      | some version => do
          need (version.rule = appliedRule) .appliedRevisionMissing
          host.deliver c input.admission version task.record
            (host.parseDate previous.record.scheduledAt) added
  | _, _, _ => .error .receiptRuleChanged

/-- Whether a task that is put brings a pending update into force. -/
def bringsUpdate (c : Control) (previous task : Task) : Bool :=
  c.command.kind == .update && c.command.status == .pending &&
    host.recurringRecordMatches task.record c.rule &&
      !host.recurringRecordMatches previous.record c.rule

/-- The control after a task is put. -/
def controlAfterPut (c : Control) (previous : Option Task) (task : Task)
    (added : List Receipt) : Except Fault Control :=
  let applied : Control :=
    { c with appliedRule := some c.rule, appliedRevision := some c.revision }
  let bound (c : Control) : Control :=
    { c with nativeTaskId := some task.record.id }
  match previous with
  | none => do
      need (added = []) .updateMixedWithDelivery
      return bound applied
  | some previous =>
    if host.bringsUpdate c previous task then do
      need (added = []) .updateMixedWithDelivery
      return bound applied
    else do
      need (added ≠ [] ∨
        task.record.scheduledAt = previous.record.scheduledAt)
        .unprovedTargetChange
      return bound c

/-- The task of the snapshot, checked like a new one. -/
def previousTask [DecidableEq ω] (input : Input ω) (c : Control) :
    Except Fault (Option Task) :=
  match input.before.task with
  | none => .ok none
  | some stored => do
      let value ← host.validateRecurringTask c stored
      return some (host.read value)

/-- `case 'put_task'`. -/
def putTask [DecidableEq ω] (input : Input ω) (c : Control) (raw : ω) :
    Except Fault (Snapshot ω × List Occurrence) := do
  let value ← host.validateRecurringTask c raw
  let previous ← host.previousTask input c
  let task := host.read value
  let prior := receipts previous
  let next := receipts (some task)
  let old (key : Delivery) : Option Receipt :=
    prior.find? fun r => receiptKey r == key
  let added := next.filter fun r => (old (receiptKey r)).isNone
  need (∀ r ∈ next, (old (receiptKey r)).all fun stored => stored = r)
    .receiptRewritten
  let retained := next.filter fun r => (old (receiptKey r)).isSome
  need (retained = prior.drop (prior.length - retained.length))
    .receiptPrefixChanged
  need (retained.length = prior.length ∨
    (task.deliveryHistory.bind (·.earlierRecordsPruned)) = some true)
    .unprovedHistoryPruning
  need (next = retained ++ added) .receiptAppendOrder
  need (previous.isSome ∨ (added = [] ∧ c.appliedRevision = none))
    .initialReceiptFabricated
  let occurrences ← host.occurrencesOf input c previous task added
  let control ← host.controlAfterPut c previous task added
  return ({ control := control, task := some value }, occurrences)

/-- The mutation of a write, by its kind. -/
def mutate [DecidableEq ω] (input : Input ω) (c : Control) :
    Except Fault (Snapshot ω × List Occurrence) :=
  let snapshot := input.before
  match input.write.mutation.kind with
  | .sessionInitializing => do
      need (c.sessionState = .reserved ∨ c.sessionState = .initializing)
        .sessionTransition
      return ({ snapshot with control :=
        { c with sessionState := .initializing } }, [])
  | .sessionReady => do
      need (c.sessionState = .initializing ∨ c.sessionState = .ready)
        .sessionTransition
      return ({ snapshot with control :=
        { c with sessionState := .ready } }, [])
  | .putTask raw => host.putTask input c raw
  | .deleteTask nativeTaskId => do
      need (c.command.kind = .delete ∧ c.command.status = .pending ∧
        c.nativeTaskId = some nativeTaskId) .deleteBinding
      return ({ control := { c with taskDeleted := true }, task := none }, [])
  | .confirmCommand commandId nativeTaskId => do
      need (c.command.id = commandId ∧ c.command.status = .pending ∧
        c.nativeTaskId = nativeTaskId) .commandBinding
      let confirmed : Command := { c.command with status := .confirmed }
      if c.command.kind = .delete then
        need (c.nativeTaskId = none ∨ c.taskDeleted) .deleteNotPersisted
        return ({ snapshot with control :=
          { c with command := confirmed } }, [])
      else
        match snapshot.task with
        | none => .error .commandNotPersisted
        | some stored => do
            let value ← host.validateRecurringTask c stored
            need (host.recurringRecordMatches (host.read value).record c.rule)
              .commandNotPersisted
            return ({ snapshot with control :=
              { c with appliedRevision := some c.revision
                       appliedRule := some c.rule
                       command := confirmed } }, [])

/-- `prepareNativeRecurringMutation`. -/
def prepareNativeRecurringMutation [DecidableEq ω] (input : Input ω) :
    Except Fault (Result ω) := do
  let c := input.before.control
  let writer := input.writer
  need (nativeOnceReady input.readiness) .writerFence
  let remaining ← host.nativeOnceWriterRemaining input.writerRow writer
    input.dbNowMs
  need (0 < remaining ∧ input.writerRow.reference = input.reference)
    .writerFence
  parse (host.isControl c)
  need (c.partitionId = writer.partitionId ∧ isKey input.write.writeId ∧
    input.write.mutation.controlId = c.controlId) .writeInvalid
  let written ← host.nativeOnceDigest (.mutation input.write.mutation)
  need (input.write.digest = written) .writeInvalid
  let beforeDigest ← host.nativeOnceDigest (.snapshot input.before)
  match input.revisions.get c.revision with
  | none => .error .revisionMissing
  | some desired => do
      parse (host.isRevisionContent desired)
      need (desired.rule = c.rule) .revisionMissing
      let (after, occurrences) ← host.mutate input c
      parse (host.isControl after.control)
      let afterDigest ← host.nativeOnceDigest (.snapshot after)
      let tokenDigest ← host.nativeOnceDigest (.token writer.token)
      return {
        after := after
        occurrences := occurrences
        journal :=
          { writer :=
              { partitionId := writer.partitionId
                ownerId := writer.ownerId
                epoch := writer.epoch
                tokenDigest := tokenDigest }
            reference := input.reference
            write := input.write
            identity := recurringControlIdentity c
            beforeDigest := beforeDigest
            afterDigest := afterDigest
            receiptLinks := occurrences.map fun o =>
              { id := o.id, key := o.key, payloadDigest := o.payloadDigest } } }

end Host

end Allrice.NativeRecurring
