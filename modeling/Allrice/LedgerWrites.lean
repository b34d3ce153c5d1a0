/-
Everything that a method of the ledger can write.  Each statement is one of a
dozen kinds of writes, and a transaction is a chain of them; whatever holds of
every run of the ledger is proved once for each kind of write.
-/
import Allrice.LedgerReceipts

namespace Allrice

open Tx

/-- The event that `appendEvent` inserts. -/
def appendedEvent (row : OperationRow) (snapshot : RuntimeOperationSnapshot)
    (occurredAt : Timestamp) (signal : RuntimeOperationSignal) : EventRow where
  operationId := row.id
  sequence := row.nextSequence
  task := snapshot.binding.task
  attempt := snapshot.binding.attempt
  execution := snapshot.binding.execution
  occurredAt := occurredAt
  signal := signal

/-- The signals that only an executor with a lease brings about. -/
def isExecutorSignal : RuntimeOperationSignal → Bool
  | .started _ | .transportAck | .uncertain _ | .outcome _ => true
  | .waiting _ | .ready | .dispatched | .cancelRequested _ | .stopped _ _ =>
    false

/-- A lease keeps its owner and its token. -/
def SameHolder (held lease : OperationLease) : Prop :=
  lease.owner = held.owner ∧ lease.tokenHash = held.tokenHash

/-- A new attempt before its first event. -/
structure OperationRow.Fresh (row : OperationRow) : Prop where
  identity : row.id = row.snapshot.binding.attempt.operationId
  initial : row.initialSnapshot = row.snapshot
  valid : row.snapshot.Valid
  planned : row.snapshot.status = .planned
  sequence : row.nextSequence = 0
  lease : row.lease = none

/-- One write of the ledger outside its table of output. -/
inductive LedgerWrite : LedgerDb → LedgerDb → Prop
  | event {db : LedgerDb} {row : OperationRow}
      {snapshot : RuntimeOperationSnapshot} {occurredAt : Timestamp}
      {signal : RuntimeOperationSignal} {events}
      (hrow : db.operations.find? row.id = some row)
      (hadvance : advanceRuntimeOperation row.snapshot signal = .ok snapshot)
      (hevents : db.events.insert?
        (appendedEvent row snapshot occurredAt signal) = some events)
      (hsignal : signal ≠ .dispatched)
      (hexecutor : isExecutorSignal signal = true → row.lease ≠ none) :
      LedgerWrite db { db with
        events
        operations := db.operations.replace
          { row with snapshot, nextSequence := row.nextSequence + 1 } }
  | dispatch {db : LedgerDb} {row : OperationRow}
      {snapshot : RuntimeOperationSnapshot} {occurredAt : Timestamp}
      {lease : OperationLease} {events}
      (hrow : db.operations.find? row.id = some row)
      (hadvance : advanceRuntimeOperation row.snapshot .dispatched =
        .ok snapshot)
      (hevents : db.events.insert?
        (appendedEvent row snapshot occurredAt .dispatched) = some events)
      (hheld : ∀ held ∈ row.lease, SameHolder held lease) :
      LedgerWrite db { db with
        events
        operations := db.operations.replace
          { row with
            snapshot
            nextSequence := row.nextSequence + 1
            lease := some lease } }
  | extend {db : LedgerDb} {row : OperationRow} {held lease : OperationLease}
      (hrow : db.operations.find? row.id = some row)
      (hheld : row.lease = some held) (hsame : SameHolder held lease) :
      LedgerWrite db { db with
        operations := db.operations.replace { row with lease := some lease } }
  | operation {db : LedgerDb} {row : OperationRow} {operations}
      (hfresh : row.Fresh)
      (hoperations : db.operations.insert? row = some operations) :
      LedgerWrite db { db with operations }
  | root {db : LedgerDb} {row : RootRow} {roots}
      (hroots : db.roots.insert? row = some roots) :
      LedgerWrite db { db with roots }
  | deadline {db : LedgerDb} {row : RootRow} {deadlineAt : Timestamp}
      (hrow : db.roots.find? row.rootRunId = some row) :
      LedgerWrite db { db with
        roots := db.roots.replace { row with deadlineAt } }
  | cancel {db : LedgerDb} {row : RootRow} {requestId : Uuid}
      {reason : CancelReason}
      (hrow : db.roots.find? row.rootRunId = some row) :
      LedgerWrite db { db with
        roots := db.roots.replace (cancelRootRow requestId reason row) }
  | link {db : LedgerDb} {row : RunLinkRow} {runLinks}
      (hlinks : db.runLinks.insert? row = some runLinks) :
      LedgerWrite db { db with runLinks }
  | budget {db : LedgerDb} {row : BudgetRow} {budgets}
      (hunused : row.reserved = 0 ∧ row.spent = 0)
      (hbudgets : db.budgets.insert? row = some budgets) :
      LedgerWrite db { db with budgets }
  | reserve {db : LedgerDb} {row : OperationRow} {budget : BudgetRow}
      {reservation : ReservationRow} {reservations}
      (hrow : db.operations.find? reservation.operationId = some row)
      (hroot : row.rootRunId = reservation.rootRunId)
      (hunsettled : reservation.settled = none)
      (hbudget : db.budgets.find?
        (reservation.rootRunId, reservation.metric) = some budget)
      (hreservations : db.reservations.insert? reservation =
        some reservations) :
      LedgerWrite db { db with
        reservations
        budgets := db.budgets.replace
          { budget with reserved := budget.reserved + reservation.amount } }
  | settle {db : LedgerDb} {row : OperationRow} {budget : BudgetRow}
      {reservation : ReservationRow} {amount : Nat}
      {observation : RuntimeUsageObservation}
      (hreservation : db.reservations.find? reservation.key =
        some reservation)
      (hunsettled : reservation.settled = none)
      (hrow : db.operations.find? reservation.operationId = some row)
      (hbudget : db.budgets.find? (row.rootRunId, reservation.metric) =
        some budget) :
      LedgerWrite db { db with
        reservations := db.reservations.replace
          { reservation with settled := some (amount, observation) }
        budgets := db.budgets.replace
          { budget with
            reserved := budget.reserved - reservation.amount
            spent := budget.spent + amount } }
  | receipt {db : LedgerDb} {row : ReceiptRow} {receipts}
      (hreceipts : db.receipts.insert? row = some receipts) :
      LedgerWrite db { db with receipts }

/-- A chain of writes. -/
abbrev Writes : LedgerDb → LedgerDb → Prop := Relation.ReflTransGen LedgerWrite

variable {env : LedgerEnv} {db next : LedgerDb} {host : LedgerHost}
  {operationId rootRunId token requestId owner : Uuid}
  {row found : OperationRow} {u : Unit} {root : RootRow} {scope : RuntimeScope}
  {signal : RuntimeOperationSignal} {task : RuntimeTaskRef}
  {input : CreateRuntimeOperationInput} {snapshot : RuntimeOperationSnapshot}
  {α : Type} {reason : CancelReason} {content : ReceiptContent}

theorem LedgerWrite.writes (h : LedgerWrite db next) :
    Writes db next := Relation.ReflTransGen.single h

/-- A write, or a chunk of output. -/
inductive LedgerChange : LedgerDb → LedgerDb → Prop
  | write {db next : LedgerDb} (hwrite : LedgerWrite db next) :
      LedgerChange db next
  | output {db : LedgerDb} {row : LedgerOutputRow} {outputs}
      (houtputs : db.outputs.insert? row = some outputs) :
      LedgerChange db { db with outputs }

/-- A chain of changes. -/
abbrev Changes : LedgerDb → LedgerDb → Prop :=
  Relation.ReflTransGen LedgerChange

theorem Writes.changes (h : Writes db next) : Changes db next := by
  induction h with
  | refl => exact Relation.ReflTransGen.refl
  | tail _ hstep ih => exact ih.tail (.write hstep)

/-- What every kind of change keeps, every chain of changes keeps. -/
theorem Changes.keep {db next : LedgerDb} (h : Changes db next)
    (Inv : LedgerDb → Prop)
    (hwrite : ∀ {a b}, LedgerWrite a b → Inv a → Inv b)
    (houtput : ∀ {db outputs}, Inv db → Inv { db with outputs })
    (hdb : Inv db) : Inv next := by
  induction h with
  | refl => exact hdb
  | tail _ hstep ih =>
    cases hstep with
    | write hstep => exact hwrite hstep ih
    | output _ => exact houtput ih

/-- The statuses that an operation has before it starts. -/
def beforeStart : List RuntimeOperationStatus :=
  .planned :: .ready :: .dispatched :: waitingStatuses

/-- What stays of an operation, whatever the ledger writes: its identity, the
holder of its lease, and that it has left the statuses before its start. -/
structure OperationRow.Later (row later : OperationRow) : Prop where
  id : later.id = row.id
  rootRunId : later.rootRunId = row.rootRunId
  initialSnapshot : later.initialSnapshot = row.initialSnapshot
  binding : later.snapshot.binding = row.snapshot.binding
  idempotencyKey :
    later.snapshot.idempotencyKey = row.snapshot.idempotencyKey
  lease : ∀ held ∈ row.lease, ∃ lease ∈ later.lease, SameHolder held lease
  begun : row.snapshot.status ∉ beforeStart →
    later.snapshot.status ∉ beforeStart

theorem OperationRow.Later.refl (row : OperationRow) : row.Later row :=
  ⟨rfl, rfl, rfl, rfl, rfl, fun held hheld => ⟨held, hheld, rfl, rfl⟩,
    fun h => h⟩

theorem OperationRow.Later.trans {a b c : OperationRow} (hab : a.Later b)
    (hbc : b.Later c) : a.Later c where
  id := hbc.id.trans hab.id
  rootRunId := hbc.rootRunId.trans hab.rootRunId
  initialSnapshot := hbc.initialSnapshot.trans hab.initialSnapshot
  binding := hbc.binding.trans hab.binding
  idempotencyKey := hbc.idempotencyKey.trans hab.idempotencyKey
  lease := by
    intro held hheld
    obtain ⟨middle, hmiddle, howner, htoken⟩ := hab.lease held hheld
    obtain ⟨lease, hlease, howner', htoken'⟩ := hbc.lease middle hmiddle
    exact ⟨lease, hlease, howner'.trans howner, htoken'.trans htoken⟩
  begun := fun h => hbc.begun (hab.begun h)

/-- No signal takes an operation back to a status before its start. -/
theorem begun_of_advance {next : RuntimeOperationSnapshot}
    (h : advanceRuntimeOperation snapshot signal = .ok next)
    (hbegun : snapshot.status ∉ beforeStart) : next.status ∉ beforeStart := by
  rcases (advance_step h).move with hsame | hmove
  · rw [hsame]
    exact hbegun
  · generalize snapshot.status = source at hbegun hmove
    generalize next.status = target at hmove ⊢
    revert hbegun hmove
    cases source <;> cases target <;> decide

/-- An operation after an accepted signal and a change of its lease. -/
theorem OperationRow.Later.of_advance {sequence : Nat}
    {lease : Option OperationLease}
    (h : advanceRuntimeOperation row.snapshot signal = .ok snapshot)
    (hlease : ∀ held ∈ row.lease, ∃ next ∈ lease, SameHolder held next) :
    row.Later { row with snapshot, nextSequence := sequence, lease } :=
  ⟨rfl, rfl, rfl, (advance_step h).binding, (advance_step h).idempotencyKey,
    hlease, begun_of_advance h⟩

/-- An update of one operation keeps every operation. -/
theorem later_of_replace {next : OperationRow}
    (hrow : db.operations.find? row.id = some row) (hlater : row.Later next)
    (hfound : db.operations.find? operationId = some found) :
    ∃ later, (db.operations.replace next).find? operationId = some later ∧
      found.Later later := by
  rw [Table.find?_replace, hlater.id]
  by_cases hid : row.id = operationId
  · subst hid
    rw [hrow] at hfound
    obtain rfl := Option.some.inj hfound
    exact ⟨next, by simp [hrow], hlater⟩
  · exact ⟨found, by simp [hid, hfound], .refl found⟩

theorem LedgerWrite.operation_later (h : LedgerWrite db next)
    (hfound : db.operations.find? operationId = some row) :
    ∃ later, next.operations.find? operationId = some later ∧
      row.Later later := by
  cases h with
  | event hrow hadvance _ _ _ =>
    refine later_of_replace hrow (.of_advance hadvance ?_) hfound
    exact fun held hheld => ⟨held, hheld, rfl, rfl⟩
  | dispatch hrow hadvance _ hheld =>
    refine later_of_replace hrow (.of_advance hadvance ?_) hfound
    exact fun held hmem => ⟨_, rfl, hheld held hmem⟩
  | @extend row held lease hrow hheld hsame =>
    refine later_of_replace hrow ⟨rfl, rfl, rfl, rfl, rfl, ?_, fun h => h⟩
      hfound
    intro other hother
    rw [hheld] at hother
    obtain rfl := Option.some.inj hother
    exact ⟨lease, rfl, hsame⟩
  | @operation fresh operations hfresh hoperations =>
    refine ⟨row, ?_, .refl row⟩
    rw [Table.find?_insert? hoperations, if_neg, hfound]
    intro hsame
    rw [← hsame, (Table.insert?_eq_some hoperations).1] at hfound
    simp at hfound
  | root _ | deadline _ | cancel _ | link _ | budget _ _ | reserve _ _ _ _ _
  | settle _ _ _ _ | receipt _ => exact ⟨row, hfound, .refl row⟩

/-- Every operation stays, with what `Later` says. -/
theorem Changes.operation_later (h : Changes db next)
    (hfound : db.operations.find? operationId = some row) :
    ∃ later, next.operations.find? operationId = some later ∧
      row.Later later := by
  refine h.keep (fun db => ∃ later,
    db.operations.find? operationId = some later ∧ row.Later later) ?_
    (fun h => h) ⟨row, hfound, .refl row⟩
  rintro a b hwrite ⟨middle, hmiddle, hbefore⟩
  obtain ⟨later, hlater, hafter⟩ := hwrite.operation_later hmiddle
  exact ⟨later, hlater, hbefore.trans hafter⟩

theorem Writes.operation_later (h : Writes db next)
    (hfound : db.operations.find? operationId = some row) :
    ∃ later, next.operations.find? operationId = some later ∧
      row.Later later :=
  h.changes.operation_later hfound

-- what only reads keeps every reflexive and transitive relation
variable {R : LedgerDb → LedgerDb → Prop} [Std.Refl R] [IsTrans LedgerDb R]
  {r : α × LedgerDb} {change : RootRow → RootRow} {point : ClockPoint}
  {at_ deadlineAt : Timestamp} {n duration : Nat} {reservation : ReservationRow}
  {acceptedId receiptId : Uuid} {lease : OperationLease}
  {output : RuntimeBridgeOutput}

theorem currentOperation_bind_eq_ok {rest : OperationRow → LedgerTx α} :
    (currentOperation operationId >>= rest) db = .ok r ↔
      ∃ row, db.operations.find? operationId = some row ∧
        rest row db = .ok r := by
  simp only [currentOperation, bind_assoc, get_bind_eq_ok]
  exact expect_bind_eq_ok

theorem currentOperation_keeps : Keeps R (currentOperation operationId) :=
  .bind .get fun _ => .expect

theorem updateOperation_eq_ok {change : OperationRow → OperationRow}
    (h : updateOperation operationId change db = .ok (u, next)) :
    ∃ row, db.operations.find? operationId = some row ∧
      row.MayBecome (change row) ∧
      next = { db with operations := db.operations.replace (change row) } := by
  simp only [updateOperation, currentOperation_bind_eq_ok,
    rejectIf_bind_eq_ok, modify_eq_ok, Prod.mk.injEq, not_not] at h
  obtain ⟨row, hrow, hmay, _, rfl⟩ := h
  exact ⟨row, hrow, hmay, rfl⟩

theorem insertEvent_eq_ok {row : EventRow}
    (h : insertEvent row db = .ok (u, next)) :
    ∃ events, db.events.insert? row = some events ∧
      next = { db with events } := by
  simp only [insertEvent, get_bind_eq_ok, expect_bind_eq_ok, set_eq_ok,
    Prod.mk.injEq] at h
  obtain ⟨events, hevents, _, rfl⟩ := h
  exact ⟨events, hevents, rfl⟩

theorem insertReceipt_eq_ok {row : ReceiptRow}
    (h : insertReceipt row db = .ok (u, next)) :
    ∃ receipts, db.receipts.insert? row = some receipts ∧
      next = { db with receipts } := by
  simp only [insertReceipt, get_bind_eq_ok, expect_bind_eq_ok, set_eq_ok,
    Prod.mk.injEq] at h
  obtain ⟨receipts, hreceipts, _, rfl⟩ := h
  exact ⟨receipts, hreceipts, rfl⟩

theorem insertReceipt_writes {row : ReceiptRow} :
    Keeps Writes (insertReceipt row) := by
  intro db u next h
  obtain ⟨_, hreceipts, rfl⟩ := insertReceipt_eq_ok h
  exact (LedgerWrite.receipt hreceipts).writes

theorem updateRoot_eq_ok (h : updateRoot rootRunId change db = .ok (u, next)) :
    (db.roots.find? rootRunId = none ∧ next = db) ∨
      ∃ row, db.roots.find? rootRunId = some row ∧
        next = { db with roots := db.roots.replace (change row) } := by
  simp only [updateRoot, get_bind_eq_ok] at h
  cases hfind : db.roots.find? rootRunId with
  | none =>
    simp only [hfind, pure_eq_ok, Prod.mk.injEq] at h
    exact .inl ⟨rfl, h.2⟩
  | some row =>
    simp only [hfind, set_eq_ok, Prod.mk.injEq] at h
    exact .inr ⟨row, rfl, h.2⟩

theorem updateRoot_writes
    (hchange : ∀ {db row}, db.roots.find? rootRunId = some row →
      LedgerWrite db { db with roots := db.roots.replace (change row) }) :
    Keeps Writes (updateRoot rootRunId change) := by
  intro db u next h
  rcases updateRoot_eq_ok h with ⟨_, rfl⟩ | ⟨row, hrow, rfl⟩
  · exact Relation.ReflTransGen.refl
  · exact (hchange hrow).writes

/-- Refreshing the clock moves at most a deadline, whatever else has been
written before. -/
theorem refreshTaskClock_eq_ok {clock : Option Timestamp}
    (h : refreshTaskClock env point rootRunId db = .ok (clock, next)) :
    ∃ roots, (∀ middle : LedgerDb, middle.roots = db.roots →
        Writes middle { middle with roots }) ∧
      next = { db with roots } := by
  have hquiet : ∃ roots, (∀ middle : LedgerDb, middle.roots = db.roots →
      Writes middle { middle with roots }) ∧ db = { db with roots } := by
    refine ⟨db.roots, fun middle hsame => ?_, rfl⟩
    rw [← hsame]
  unfold refreshTaskClock at h
  cases hclock : env.taskClock point with
  | none =>
    simp only [hclock, pure_eq_ok, Prod.mk.injEq] at h
    rw [h.2]
    exact hquiet
  | some clock =>
    simp only [hclock, bind_eq_ok, pure_eq_ok, Prod.mk.injEq] at h
    obtain ⟨_, middle, hupdate, _, rfl⟩ := h
    rcases whenever_eq_ok.1 hupdate with ⟨_, hupdate⟩ | ⟨_, hsame⟩
    · rcases updateRoot_eq_ok hupdate with ⟨_, rfl⟩ | ⟨row, hrow, rfl⟩
      · exact hquiet
      · refine ⟨_, fun middle hsame => ?_, rfl⟩
        have hkey := Table.key_of_find? hrow
        rw [← hsame] at hrow ⊢
        exact (LedgerWrite.deadline (hkey ▸ hrow)).writes
    · rw [(Prod.mk.inj hsame).2]
      exact hquiet

theorem refreshTaskClock_writes :
    Keeps Writes (refreshTaskClock env point rootRunId) := by
  intro db clock next h
  obtain ⟨_, hroots, rfl⟩ := refreshTaskClock_eq_ok h
  exact hroots db rfl

/-- What a successful `appendEvent` did: the event and the projection, and then a
refresh of the clock. -/
theorem appended_eq_ok
    (h : appendEvent env operationId signal db = .ok (u, next)) :
    ∃ row snapshot events roots,
      db.operations.find? row.id = some row ∧ row.id = operationId ∧
      advanceRuntimeOperation row.snapshot signal = .ok snapshot ∧
      db.events.insert? (appendedEvent row snapshot
        (env.occurredAt operationId row.nextSequence) signal) = some events ∧
      (∀ middle : LedgerDb, middle.roots = db.roots →
        Writes middle { middle with roots }) ∧
      next = { db with
        events
        operations := db.operations.replace
          { row with snapshot, nextSequence := row.nextSequence + 1 }
        roots } := by
  simp only [appendEvent, currentOperation_bind_eq_ok, lift_bind_eq_ok] at h
  obtain ⟨row, hrow, snapshot, hadvance, hrest⟩ := h
  obtain ⟨_, _, hevent, hrest⟩ := bind_eq_ok.1 hrest
  obtain ⟨_, _, hupdate, hrest⟩ := bind_eq_ok.1 hrest
  obtain ⟨clock, _, hrefresh, hdone⟩ := bind_eq_ok.1 hrest
  rw [pure_eq_ok, Prod.mk.injEq] at hdone
  obtain ⟨_, rfl⟩ := hdone
  have hadvance' : advanceRuntimeOperation row.snapshot signal =
      .ok snapshot := by
    cases hresult : advanceRuntimeOperation row.snapshot signal with
    | error error => simp [hresult, Except.mapError] at hadvance
    | ok value =>
      simp only [hresult, Except.mapError, Except.ok.injEq] at hadvance
      rw [hadvance]
  obtain ⟨events, hevents, rfl⟩ := insertEvent_eq_ok hevent
  obtain ⟨found, hfound, _, rfl⟩ := updateOperation_eq_ok hupdate
  have hsame : found = row := by
    rw [hrow] at hfound
    exact (Option.some.inj hfound).symm
  subst hsame
  have hid := Table.key_of_find? hrow
  subst hid
  obtain ⟨roots, hroots, rfl⟩ := refreshTaskClock_eq_ok hrefresh
  exact ⟨found, snapshot, events, roots, hrow, rfl, hadvance', hevents,
    fun middle hsame => hroots middle hsame, rfl⟩

/-- A caller that has checked the lease of an operation. -/
def Leased (operationId : Uuid) (db : LedgerDb) : Prop :=
  ∃ row, db.operations.find? operationId = some row ∧ row.lease ≠ none

/-- The writes of a caller that has checked the lease of an operation. -/
def WritesLeased (operationId : Uuid) (db next : LedgerDb) : Prop :=
  Leased operationId db → Writes db next

theorem Writes.leased (h : Writes db next) (hdb : Leased operationId db) :
    Leased operationId next := by
  obtain ⟨row, hrow, hlease⟩ := hdb
  obtain ⟨later, hlater, hkept⟩ := h.operation_later hrow
  refine ⟨later, hlater, ?_⟩
  obtain ⟨held, hheld⟩ := Option.ne_none_iff_exists'.1 hlease
  obtain ⟨lease, hmem, _⟩ := hkept.lease held hheld
  rw [Option.mem_def.1 hmem]
  simp

instance {operationId : Uuid} : Std.Refl (WritesLeased operationId) :=
  ⟨fun _ _ => Relation.ReflTransGen.refl⟩

instance {operationId : Uuid} :
    IsTrans LedgerDb (WritesLeased operationId) := by
  refine ⟨fun a b c hab hbc hleased => ?_⟩
  have hfirst := hab hleased
  exact hfirst.trans (hbc (hfirst.leased hleased))

theorem Writes.forLeased {action : LedgerTx α} (h : Keeps Writes action) :
    Keeps (WritesLeased operationId) action :=
  fun db a next hrun _ => h db a next hrun

theorem appendEvent_writes (hsignal : signal ≠ .dispatched)
    (hscheduling : isExecutorSignal signal = false) :
    Keeps Writes (appendEvent env operationId signal) := by
  intro db u next h
  obtain ⟨row, snapshot, events, roots, hrow, _, hadvance, hevents, hroots,
    rfl⟩ := appended_eq_ok h
  refine Relation.ReflTransGen.head (.event hrow hadvance hevents hsignal ?_)
    (hroots _ rfl)
  intro hexecutor
  rw [hscheduling] at hexecutor
  simp at hexecutor

theorem appendEvent_writesLeased (hsignal : signal ≠ .dispatched) :
    Keeps (WritesLeased operationId) (appendEvent env operationId signal) := by
  rintro db u next h ⟨held, hheld, hlease⟩
  obtain ⟨row, snapshot, events, roots, hrow, rfl, hadvance, hevents, hroots,
    rfl⟩ := appended_eq_ok h
  rw [hrow] at hheld
  obtain rfl := Option.some.inj hheld
  exact Relation.ReflTransGen.head
    (.event hrow hadvance hevents hsignal fun _ => hlease) (hroots _ rfl)

theorem lockRoot_writes : Keeps Writes (lockRoot env scope rootRunId) := by
  refine .bind .get fun _ => ?_
  refine .bind .expect fun _ => ?_
  refine .bind .rejectIf fun _ => ?_
  exact .bind refreshTaskClock_writes fun _ => .pure

theorem lockOperation_writes :
    Keeps Writes (lockOperation env scope operationId) := by
  refine .bind .get fun _ => ?_
  refine .bind .expect fun _ => ?_
  refine .bind .rejectIf fun _ => ?_
  refine .bind lockRoot_writes fun _ => ?_
  refine .bind currentOperation_keeps fun _ => ?_
  exact .bind .rejectIf fun _ => .pure

/-- `lockOperation` hands out the stored operation. -/
theorem lockOperation_eq_ok
    (h : lockOperation env scope operationId db = .ok ((root, row), next)) :
    db.operations.find? operationId = some row ∧
      (∃ stored, db.roots.find? row.rootRunId = some stored ∧
        root.rootRunId = row.rootRunId ∧
        root.cancelRequestId = stored.cancelRequestId) ∧
      row.snapshot.Valid ∧ ∃ roots, next = { db with roots } := by
  simp only [lockOperation, lockRoot, get_bind_eq_ok, expect_bind_eq_ok,
    rejectIf_bind_eq_ok, bind_assoc, pure_bind, not_not] at h
  obtain ⟨reference, hreference, _, stored, hstored, _, h⟩ := h
  obtain ⟨clock, middle, hclock, h⟩ := bind_eq_ok.1 h
  simp only [currentOperation_bind_eq_ok, rejectIf_bind_eq_ok, pure_eq_ok,
    Prod.mk.injEq, not_not] at h
  obtain ⟨found, hfound, hvalid, ⟨rfl, rfl⟩, rfl⟩ := h
  obtain ⟨roots, _, rfl⟩ := refreshTaskClock_eq_ok hclock
  have hsame : reference = row := by
    rw [hreference] at hfound
    exact Option.some.inj hfound
  subst hsame
  have hkey := Table.key_of_find? hstored
  exact ⟨hfound, ⟨stored, hstored, hkey, rfl⟩, hvalid, roots, rfl⟩

theorem ensureRootAdmits_keeps : Keeps R (ensureRootAdmits root at_) :=
  .bind .rejectIf fun _ => .rejectIf

theorem assertRun_keeps : Keeps R (assertRun env task) :=
  .bind .expect fun _ => .rejectIf

theorem assertTarget_keeps : Keeps R (assertTarget env snapshot) := by
  refine .bind .expect fun _ => ?_
  exact .bind .rejectIf fun _ => .rejectIf

theorem linkRun_eq_ok (h : linkRun task db = .ok (u, next)) :
    next = db ∨ ∃ row runLinks, db.runLinks.insert? row = some runLinks ∧
      next = { db with runLinks } := by
  simp only [linkRun, get_bind_eq_ok] at h
  cases hfind : db.runLinks.find? task.runId with
  | some previous =>
    simp only [hfind, rejectIf_eq_ok, Prod.mk.injEq] at h
    exact .inl h.2.2
  | none =>
    simp only [hfind, rejectIf_bind_eq_ok, expect_bind_eq_ok, set_eq_ok,
      Prod.mk.injEq] at h
    obtain ⟨_, runLinks, hlinks, _, rfl⟩ := h
    exact .inr ⟨_, runLinks, hlinks, rfl⟩

theorem linkRun_writes : Keeps Writes (linkRun task) := by
  intro db u next h
  rcases linkRun_eq_ok h with rfl | ⟨row, runLinks, hlinks, rfl⟩
  · exact Relation.ReflTransGen.refl
  · exact (LedgerWrite.link hlinks).writes

theorem verifyLease_keeps : Keeps R (verifyLease host row token) := by
  refine .bind .expect fun _ => ?_
  exact .bind .rejectIf fun _ => .pure

theorem admitRow_keeps : Keeps R (admitRow host env row n) := by
  refine .bind .rejectIf fun _ => ?_
  refine .bind assertRun_keeps fun _ => ?_
  refine .bind .lift fun _ => ?_
  exact .bind assertTarget_keeps fun _ => .rejectIf

/-- A caller that holds a lease continues with it. -/
theorem verifyLease_bind_eq_ok {rest : OperationLease → LedgerTx α} :
    (verifyLease host row token >>= rest) db = .ok r ↔
      ∃ lease, row.lease = some lease ∧ host.hash token = lease.tokenHash ∧
        rest lease db = .ok r := by
  simp only [verifyLease, bind_assoc, pure_bind, expect_bind_eq_ok,
    rejectIf_bind_eq_ok, not_not]

theorem updateBudget_eq_ok {metric : UsageMetric}
    {change : BudgetRow → BudgetRow}
    (h : updateBudget rootRunId metric change db = .ok (u, next)) :
    ∃ budget, db.budgets.find? (rootRunId, metric) = some budget ∧
      next = { db with budgets := db.budgets.replace (change budget) } := by
  simp only [updateBudget, get_bind_eq_ok, expect_bind_eq_ok,
    rejectIf_bind_eq_ok, set_eq_ok, Prod.mk.injEq] at h
  obtain ⟨budget, hbudget, _, _, rfl⟩ := h
  exact ⟨budget, hbudget, rfl⟩

/-- A settlement of a known, unsettled reservation is one write. -/
theorem settleReservation_write {amount : Nat}
    {observation : RuntimeUsageObservation}
    (hreservation : db.reservations.find? reservation.key = some reservation)
    (hunsettled : reservation.settled = none)
    (hrow : db.operations.find? reservation.operationId = some row)
    (hroot : row.rootRunId = rootRunId)
    (h : settleReservation rootRunId reservation amount observation db =
      .ok (u, next)) :
    LedgerWrite db next ∧ next.operations = db.operations ∧
      next.reservations = db.reservations.replace
        { reservation with settled := some (amount, observation) } := by
  simp only [settleReservation, get_bind_eq_ok, rejectIf_bind_eq_ok,
    set_bind_eq_ok] at h
  obtain ⟨budget, hbudget, rfl⟩ := updateBudget_eq_ok h.2
  subst hroot
  exact ⟨.settle hreservation hunsettled hrow hbudget, rfl, rfl⟩

theorem releaseReservation_eq_ok
    (h : releaseReservation env row reservation db = .ok (u, next)) :
    ∃ observation, settleReservation row.rootRunId reservation 0 observation
      db = .ok (u, next) := by
  simp only [releaseReservation, get_bind_eq_ok, expect_bind_eq_ok,
    rejectIf_bind_eq_ok] at h
  obtain ⟨_, _, _, hsettle⟩ := h
  exact ⟨_, hsettle⟩

/-- Releasing distinct unsettled reservations of one operation one by one. -/
theorem releaseAll_writes (hroot : found.rootRunId = row.rootRunId)
    (reservations : List ReservationRow)
    (hdistinct : (reservations.map ReservationRow.key).Nodup)
    (hstored : ∀ reservation ∈ reservations,
      db.reservations.find? reservation.key = some reservation ∧
        reservation.settled = none ∧
        db.operations.find? reservation.operationId = some found)
    (h : reservations.forM (releaseReservation env row) db = .ok (u, next)) :
    Writes db next := by
  induction reservations generalizing db with
  | nil =>
    rw [(Prod.mk.inj (pure_eq_ok.1 h)).2]
  | cons head tail ih =>
    obtain ⟨_, middle, hhead, htail⟩ := bind_eq_ok.1 h
    obtain ⟨hfind, hunsettled, hoperation⟩ :=
      hstored head List.mem_cons_self
    obtain ⟨_, hsettle⟩ := releaseReservation_eq_ok hhead
    obtain ⟨hwrite, hoperations, hreservations⟩ :=
      settleReservation_write hfind hunsettled hoperation hroot hsettle
    simp only [List.map_cons, List.nodup_cons] at hdistinct
    refine Relation.ReflTransGen.head hwrite (ih hdistinct.2 ?_ htail)
    intro reservation hmem
    obtain ⟨hother, hopen, hsame⟩ :=
      hstored reservation (List.mem_cons_of_mem head hmem)
    have hne : head.key ≠ reservation.key := by
      intro heq
      exact hdistinct.1 (heq ▸ List.mem_map_of_mem hmem)
    refine ⟨?_, hopen, by rw [hoperations]; exact hsame⟩
    rw [hreservations, Table.find?_replace_ne db.reservations]
    · exact hother
    · exact hne

theorem releaseReservations_writes
    (hfound : db.operations.find? row.id = some found)
    (hroot : found.rootRunId = row.rootRunId)
    (h : releaseReservations env row db = .ok (u, next)) : Writes db next := by
  simp only [releaseReservations, get_bind_eq_ok] at h
  refine releaseAll_writes hroot _ ?_ ?_ h
  · refine List.Nodup.sublist ?_ db.reservations.unique
    exact (List.filter_sublist.trans List.filter_sublist).map _
  · intro reservation hmem
    simp only [reservationsOf, List.mem_filter, decide_eq_true_eq] at hmem
    obtain ⟨⟨hrow, hid⟩, hopen⟩ := hmem
    exact ⟨Table.find?_of_mem hrow, hopen, hid ▸ hfound⟩

/-- Appending keeps every other column of the operation. -/
theorem appendEvent_operation
    (hrow : db.operations.find? operationId = some row)
    (h : appendEvent env operationId signal db = .ok (u, next)) :
    ∃ snapshot, next.operations.find? operationId = some { row with
      snapshot, nextSequence := row.nextSequence + 1 } := by
  obtain ⟨found, snapshot, _, _, hfound, rfl, _, _, _, rfl⟩ :=
    appended_eq_ok h
  rw [hrow] at hfound
  obtain rfl := Option.some.inj hfound
  refine ⟨snapshot, ?_⟩
  show (db.operations.replace _).find? row.id = _
  rw [Table.find?_replace, if_pos rfl, hrow]
  rfl

theorem stopNotExecuted_writes (hrow : db.operations.find? row.id = some row)
    (h : stopNotExecuted host env row db = .ok (u, next)) : Writes db next := by
  obtain ⟨_, first, happend, h⟩ := bind_eq_ok.1 h
  obtain ⟨_, second, hreceipt, h⟩ := bind_eq_ok.1 h
  refine (appendEvent_writes (by simp) rfl _ _ _ happend).trans
    ((insertReceipt_writes _ _ _ hreceipt).trans ?_)
  obtain ⟨snapshot, hfirst⟩ := appendEvent_operation hrow happend
  obtain ⟨_, _, rfl⟩ := insertReceipt_eq_ok hreceipt
  rcases whenever_eq_ok.1 h with ⟨_, hrelease⟩ | ⟨_, hsame⟩
  · exact releaseReservations_writes hfirst rfl hrelease
  · rw [(Prod.mk.inj hsame).2]

theorem cancelOperationRow_writes :
    Keeps Writes (cancelOperationRow host env acceptedId operationId) := by
  refine .bind currentOperation_keeps fun _ => ?_
  refine .bind (.whenever (appendEvent_writes (by simp) rfl)) fun _ => ?_
  intro db u next h
  obtain ⟨row, hrow, h⟩ := currentOperation_bind_eq_ok.1 h
  rcases whenever_eq_ok.1 h with ⟨_, hstop⟩ | ⟨_, hsame⟩
  · have hid := Table.key_of_find? hrow
    exact stopNotExecuted_writes (hid ▸ hrow) hstop
  · rw [(Prod.mk.inj hsame).2]

theorem cancelOperationRows_writes {rows : List OperationRow} :
    Keeps Writes (cancelOperationRows host env rows acceptedId) :=
  Keeps.forM (fun _ => cancelOperationRow_writes) rows

theorem cancelRootRow_write :
    Keeps Writes (updateRoot rootRunId (cancelRootRow requestId reason)) := by
  refine updateRoot_writes fun hrow => ?_
  have hkey := Table.key_of_find? hrow
  exact .cancel (hkey ▸ hrow)

theorem cancelLocked_writes :
    Keeps Writes (cancelLocked host env root requestId reason) := by
  refine .bind cancelRootRow_write fun _ => ?_
  exact .bind .get fun _ => cancelOperationRows_writes

theorem cancelRoot_writes :
    Keeps Writes (cancelRoot host env scope rootRunId requestId) := by
  refine .bind lockRoot_writes fun _ => ?_
  exact .bind cancelLocked_writes fun _ => .pure

theorem cancelRuntimeAgentOperationsTransaction_writes
    {childRunIds : Option (List Uuid)} :
    Keeps Writes (cancelRuntimeAgentOperationsTransaction host env rootRunId
      requestId childRunIds) :=
  .bind .get fun _ => cancelOperationRows_writes

theorem cancelRuntimeRootTransaction_writes :
    Keeps Writes (cancelRuntimeRootTransaction host env rootRunId requestId
      reason) := by
  refine .bind .get fun db => ?_
  cases db.roots.find? rootRunId with
  | none => exact .pure
  | some root =>
    exact .bind cancelRootRow_write fun _ =>
      cancelRuntimeAgentOperationsTransaction_writes

theorem recoverLease_keeps :
    Keeps R (recoverLease host env root row owner token) := by
  refine .bind .expect fun _ => ?_
  refine .bind .rejectIf fun _ => ?_
  refine .bind verifyLease_keeps fun _ => ?_
  refine .bind admitRow_keeps fun _ => ?_
  refine .bind ensureRootAdmits_keeps fun _ => ?_
  exact .bind .rejectIf fun _ => .pure

/-- The dispatch and its lease are one write. -/
theorem grantLease_writes :
    Keeps Writes (grantLease env operationId lease) := by
  intro db u next h
  obtain ⟨_, middle, happend, hupdate⟩ := bind_eq_ok.1 h
  obtain ⟨row, snapshot, events, roots, hrow, rfl, hadvance, hevents, hroots,
    rfl⟩ := appended_eq_ok happend
  obtain ⟨found, hfound, hmay, rfl⟩ := updateOperation_eq_ok hupdate
  have hstored : found =
      { row with snapshot, nextSequence := row.nextSequence + 1 } := by
    rw [Table.find?_replace, if_pos rfl, hrow] at hfound
    exact (Option.some.inj hfound).symm
  subst hstored
  have hheld : ∀ held ∈ row.lease, SameHolder held lease := by
    intro held hmem
    obtain ⟨_, hnew, hsame⟩ := hmay.2.2.2.2.2 held hmem
    obtain rfl := Option.some.inj hnew
    exact hsame
  refine Relation.ReflTransGen.head (.dispatch hrow hadvance hevents hheld) ?_
  have htwice := Table.replace_replace db.operations
    { row with snapshot, nextSequence := row.nextSequence + 1 }
    { row with
      snapshot, nextSequence := row.nextSequence + 1, lease := some lease } rfl
  rw [htwice]
  exact hroots _ rfl

theorem issueLease_writes :
    Keeps Writes (issueLease host env root row owner duration token) := by
  refine .bind .rejectIf fun _ => ?_
  refine .bind .get fun _ => ?_
  refine .bind .rejectIf fun _ => ?_
  refine .bind admitRow_keeps fun _ => ?_
  refine .bind ensureRootAdmits_keeps fun _ => ?_
  refine .bind (.whenever (appendEvent_writes (by simp) rfl)) fun _ => ?_
  refine .bind grantLease_writes fun _ => ?_
  refine .bind .lift fun _ => ?_
  refine .bind admitRow_keeps fun _ => ?_
  refine .bind ensureRootAdmits_keeps fun _ => ?_
  refine .bind .rejectIf fun _ => ?_
  exact .bind currentOperation_keeps fun _ => .pure

theorem dispatchLocked_writes
    {recoverLeaseToken : Option (RuntimeActionBinding → Uuid)} :
    Keeps Writes
      (dispatchLocked host env root row owner duration recoverLeaseToken) := by
  refine .bind ensureRootAdmits_keeps fun _ => ?_
  refine .bind assertRun_keeps fun _ => ?_
  cases recoverLeaseToken with
  | none => exact issueLease_writes
  | some recover => exact .ite recoverLease_keeps issueLease_writes

theorem dispatch_writes {leaseOwner : Uuid} {leaseMs : Nat} :
    Keeps Writes (dispatch host env scope operationId leaseOwner leaseMs) := by
  refine .bind .rejectIf fun _ => ?_
  exact .bind lockOperation_writes fun _ => dispatchLocked_writes

theorem insertBudget_writes {budget : RuntimeBudgetLimit} :
    Keeps Writes (insertBudget rootRunId budget) := by
  intro db u next h
  simp only [insertBudget, get_bind_eq_ok, expect_bind_eq_ok, set_eq_ok,
    Prod.mk.injEq] at h
  obtain ⟨budgets, hbudgets, _, rfl⟩ := h
  exact (LedgerWrite.budget ⟨rfl, rfl⟩ hbudgets).writes

theorem insertRoot_writes : Keeps Writes (insertRoot task deadlineAt) := by
  intro db u next h
  simp only [insertRoot, get_bind_eq_ok, expect_bind_eq_ok, set_eq_ok,
    Prod.mk.injEq] at h
  obtain ⟨roots, hroots, _, rfl⟩ := h
  exact (LedgerWrite.root hroots).writes

theorem createRoot_writes {budgets : List RuntimeBudgetLimit} :
    Keeps Writes (createRoot env task deadlineAt budgets) := by
  refine .bind .rejectIf fun _ => ?_
  refine .bind .rejectIf fun _ => ?_
  refine .bind .rejectIf fun _ => ?_
  refine .bind .rejectIf fun _ => ?_
  refine .bind assertRun_keeps fun _ => ?_
  refine .bind .get fun db => ?_
  cases db.roots.find? task.runId with
  | some prior => exact .rejectIf
  | none =>
    refine .bind .rejectIf fun _ => ?_
    refine .bind insertRoot_writes fun _ => ?_
    refine .bind linkRun_writes fun _ => ?_
    exact Keeps.forM (fun _ => insertBudget_writes) budgets

theorem insertOperation_eq_ok (h : insertOperation row db = .ok (u, next)) :
    ∃ operations, db.operations.insert? row = some operations ∧
      next = { db with operations } := by
  simp only [insertOperation, get_bind_eq_ok, rejectIf_bind_eq_ok,
    expect_bind_eq_ok, set_eq_ok, Prod.mk.injEq] at h
  obtain ⟨_, operations, hoperations, _, rfl⟩ := h
  exact ⟨operations, hoperations, rfl⟩

/-- The row that a reservation request inserts. -/
def reservedRow (operationId rootRunId : Uuid)
    (reservation : RuntimeBudgetReservation) : ReservationRow where
  operationId := operationId
  rootRunId := rootRunId
  metric := reservation.metric
  accountingId := reservation.accountingId
  amount := reservation.amount
  settled := none

/-- What one successful `reserve` wrote. -/
theorem reserve_eq_ok {reservation : RuntimeBudgetReservation}
    (h : reserve operationId rootRunId reservation db = .ok (u, next)) :
    ∃ budget reservations,
      db.budgets.find? (rootRunId, reservation.metric) = some budget ∧
      db.reservations.insert?
        (reservedRow operationId rootRunId reservation) = some reservations ∧
      next = { db with
        reservations
        budgets := db.budgets.replace
          { budget with reserved := budget.reserved + reservation.amount } } := by
  simp only [reserve, get_bind_eq_ok, rejectIf_bind_eq_ok, expect_bind_eq_ok,
    set_bind_eq_ok] at h
  obtain ⟨_, reservations, hreservations, hupdate⟩ := h
  obtain ⟨budget, hbudget, rfl⟩ := updateBudget_eq_ok hupdate
  exact ⟨budget, reservations, hbudget, hreservations, rfl⟩

theorem reserveAll_writes (reservations : List RuntimeBudgetReservation)
    (hroot : row.rootRunId = rootRunId)
    (hrow : db.operations.find? operationId = some row)
    (h : reservations.forM (reserve operationId rootRunId) db = .ok (u, next)) :
    Writes db next := by
  induction reservations generalizing db with
  | nil => rw [(Prod.mk.inj (pure_eq_ok.1 h)).2]
  | cons head tail ih =>
    obtain ⟨_, middle, hhead, htail⟩ := bind_eq_ok.1 h
    obtain ⟨budget, stored, hbudget, hinsert, rfl⟩ := reserve_eq_ok hhead
    have hwrite := @LedgerWrite.reserve db row budget
      (reservedRow operationId rootRunId head) stored hrow hroot rfl hbudget
      hinsert
    exact Relation.ReflTransGen.head hwrite (ih hrow htail)

theorem insertReserved_writes (hvalid : input.snapshot.Valid)
    (hplanned : input.snapshot.status = .planned) :
    Keeps Writes (insertReserved root input) := by
  intro db u next h
  obtain ⟨_, middle, hinsert, hreserve⟩ := bind_eq_ok.1 h
  obtain ⟨operations, hoperations, rfl⟩ := insertOperation_eq_ok hinsert
  have hfind := Table.find?_insert? hoperations
    input.snapshot.binding.attempt.operationId
  simp only [↓reduceIte] at hfind
  refine (LedgerWrite.operation ⟨rfl, rfl, hvalid, hplanned, rfl, rfl⟩
    hoperations).writes.trans ?_
  exact reserveAll_writes input.reservations rfl hfind hreserve

theorem replayOperation_keeps {prior : OperationRow} :
    Keeps R (replayOperation env prior input) := by
  refine .bind .get fun _ => ?_
  refine .bind .rejectIf fun _ => ?_
  refine .bind .lift fun _ => ?_
  exact .bind .rejectIf fun _ => .pure

theorem admitOperation_writes (hvalid : input.snapshot.Valid)
    (hplanned : input.snapshot.status = .planned) :
    Keeps Writes (admitOperation env root input) := by
  refine .bind ensureRootAdmits_keeps fun _ => ?_
  refine .bind assertRun_keeps fun _ => ?_
  refine .bind assertRun_keeps fun _ => ?_
  refine .bind .lift fun decision => ?_
  refine .bind assertTarget_keeps fun _ => ?_
  refine .bind ensureRootAdmits_keeps fun _ => ?_
  refine .bind linkRun_writes fun _ => ?_
  refine .bind .get fun db => ?_
  refine .bind .rejectIf fun _ => ?_
  cases (budgetsOf db root.rootRunId).findSome?
      (budgetRefusal input.reservations) with
  | some code => exact Keeps.throw
  | none =>
    refine .bind (insertReserved_writes hvalid hplanned) fun _ => ?_
    refine .bind (appendEvent_writes ?_ ?_) fun _ => ?_
    · split <;> simp
    · split <;> rfl
    refine .bind .lift fun _ => ?_
    refine .bind .rejectIf fun _ => ?_
    refine .bind ensureRootAdmits_keeps fun _ => ?_
    exact .bind currentOperation_keeps fun _ => .pure

/-- The two ways to a successful `createOperation`. -/
theorem createOperation_eq_ok
    (h : createOperation host env input db = .ok (snapshot, next)) :
    input.snapshot.Valid ∧ input.snapshot.status = .planned ∧
      ∃ root locked,
        lockRoot env input.snapshot.binding.task.scope
          input.snapshot.binding.task.rootRunId db = .ok (root, locked) ∧
        ((∃ prior,
            findByKey locked root input.snapshot.idempotencyKey = some prior ∧
              replayOperation env prior input locked = .ok (snapshot, next)) ∨
          (findByKey locked root input.snapshot.idempotencyKey = none ∧
            admitOperation env root input locked = .ok (snapshot, next))) := by
  simp only [createOperation, rejectIf_bind_eq_ok, not_or, not_not] at h
  obtain ⟨hvalid, ⟨hplanned, _⟩, _, _, _, _, _, h⟩ := h
  obtain ⟨root, locked, hlock, h⟩ := bind_eq_ok.1 h
  rw [get_bind_eq_ok] at h
  refine ⟨hvalid, hplanned, root, locked, hlock, ?_⟩
  cases hprior : findByKey locked root input.snapshot.idempotencyKey with
  | some prior =>
    simp only [hprior] at h
    exact .inl ⟨prior, rfl, h⟩
  | none =>
    simp only [hprior] at h
    exact .inr ⟨rfl, h⟩

theorem createOperation_writes :
    Keeps Writes (createOperation host env input) := by
  intro db snapshot next h
  obtain ⟨hvalid, hplanned, root, locked, hlock, h⟩ := createOperation_eq_ok h
  refine (lockRoot_writes _ _ _ hlock).trans ?_
  rcases h with ⟨prior, _, hreplay⟩ | ⟨_, hadmitted⟩
  · exact replayOperation_keeps _ _ _ hreplay
  · exact admitOperation_writes hvalid hplanned _ _ _ hadmitted

theorem admitStart_writes {input : StartInput} :
    Keeps (WritesLeased row.id) (admitStart host env input root row lease) := by
  have hadmitted : ∀ {n},
      Keeps (WritesLeased row.id) (admitRow host env row n) :=
    admitRow_keeps
  have hroot : ∀ {n}, Keeps (WritesLeased row.id)
      (ensureRootAdmits root (env.now n)) :=
    ensureRootAdmits_keeps
  refine .bind .rejectIf fun _ => ?_
  refine .bind hroot fun _ => ?_
  refine .bind assertRun_keeps fun _ => ?_
  refine .bind .rejectIf fun _ => ?_
  refine .bind hadmitted fun _ => ?_
  refine .bind hroot fun _ => ?_
  refine .bind .rejectIf fun _ => ?_
  refine .bind (appendEvent_writesLeased (by simp)) fun _ => ?_
  refine .bind (Writes.forLeased insertReceipt_writes) fun _ => ?_
  refine .bind hadmitted fun _ => ?_
  refine .bind hroot fun _ => ?_
  refine .bind .rejectIf fun _ => ?_
  exact .bind currentOperation_keeps fun _ =>
    .pure

/-- What a caller writes after it has locked an operation and verified its
lease. -/
theorem leased_writes {body : RootRow × OperationRow → LedgerTx α}
    (hbody : ∀ root row, ∃ rest : OperationLease → LedgerTx α,
      body (root, row) = verifyLease host row token >>= rest ∧
        ∀ lease, Keeps (WritesLeased row.id) (rest lease)) :
    Keeps Writes (lockOperation env scope operationId >>= body) := by
  intro db a next h
  obtain ⟨⟨root, row⟩, locked, hlock, h⟩ := bind_eq_ok.1 h
  obtain ⟨rest, hrest, hwrites⟩ := hbody root row
  rw [hrest, verifyLease_bind_eq_ok] at h
  obtain ⟨lease, hlease, _, h⟩ := h
  refine (lockOperation_writes _ _ _ hlock).trans
    (hwrites lease _ _ _ h ⟨row, ?_, ?_⟩)
  · obtain ⟨hrow, _, _, roots, rfl⟩ := lockOperation_eq_ok hlock
    have hid := Table.key_of_find? hrow
    exact hid ▸ hrow
  · rw [hlease]
    simp

theorem startOperation_writes {input : StartInput} :
    Keeps Writes (startOperation host env input) := by
  refine .bind .rejectIf fun _ => ?_
  refine leased_writes fun root row => ⟨_, rfl, fun lease => ?_⟩
  refine .bind .get fun db => ?_
  cases db.receipts.find? input.receiptId with
  | some prior => exact .bind .rejectIf fun _ => .pure
  | none => exact admitStart_writes

theorem extendLease_writes {expiresAt : Timestamp} :
    Keeps Writes (extendLease operationId expiresAt) := by
  intro db u next h
  obtain ⟨row, hrow, _, rfl⟩ := updateOperation_eq_ok h
  have hid := Table.key_of_find? hrow
  rw [← hid] at hrow
  by_cases hlease : row.lease = none
  · have hsame : ({ row with lease := row.lease.map fun lease =>
        { lease with expiresAt } } : OperationRow) = row := by
      cases row
      simp_all
    rw [hsame, Table.replace_eq_self hrow]
  · obtain ⟨lease, hlease⟩ := Option.ne_none_iff_exists'.1 hlease
    have hwrite := @LedgerWrite.extend db row lease
      { lease with expiresAt } hrow hlease ⟨rfl, rfl⟩
    rw [hlease]
    exact hwrite.writes

theorem heartbeat_writes {input : HeartbeatInput} :
    Keeps Writes (heartbeat host env input) := by
  refine .bind .rejectIf fun _ => ?_
  refine .bind lockOperation_writes fun _ => ?_
  refine .bind verifyLease_keeps fun _ => ?_
  refine .bind ensureRootAdmits_keeps fun _ => ?_
  refine .bind assertRun_keeps fun _ => ?_
  refine .bind .rejectIf fun _ => ?_
  refine .bind admitRow_keeps fun _ => ?_
  refine .bind ensureRootAdmits_keeps fun _ => ?_
  refine .bind .rejectIf fun _ => ?_
  refine .bind extendLease_writes fun _ => ?_
  refine .bind admitRow_keeps fun _ => ?_
  refine .bind ensureRootAdmits_keeps fun _ => ?_
  exact .bind .rejectIf fun _ => .pure

/-- A chunk that is there already must be the same; a new one is the next. -/
theorem recordLedgerOutput_eq_ok
    (h : recordLedgerOutput host env scope operationId output db =
      .ok (u, next)) :
    ∃ root row lease locked,
      lockOperation env scope operationId db = .ok ((root, row), locked) ∧
      row.lease = some lease ∧ host.hash output.leaseToken = lease.tokenHash ∧
      row.snapshot.binding.attempt = output.attempt ∧
      ((next = locked ∧ ∃ prior,
          locked.outputs.find? (row.id, output.sequence) = some prior ∧
            prior.stream = output.stream ∧ prior.content = output.content) ∨
        (output.sequence =
            nextSequence ((outputsOf locked row.id).map (·.sequence)) ∧
          ∃ outputs, locked.outputs.insert?
              ⟨row.id, output.sequence, output.stream, output.content⟩ =
                some outputs ∧
            next = { locked with outputs })) := by
  simp only [recordLedgerOutput, rejectIf_bind_eq_ok] at h
  obtain ⟨_, h⟩ := h
  obtain ⟨⟨root, row⟩, locked, hlock, h⟩ := bind_eq_ok.1 h
  simp only [verifyLease_bind_eq_ok, rejectIf_bind_eq_ok, get_bind_eq_ok,
    not_or, not_not] at h
  obtain ⟨lease, hlease, htoken, ⟨hattempt, _⟩, h⟩ := h
  refine ⟨root, row, lease, locked, hlock, hlease, htoken, hattempt, ?_⟩
  cases hfind : locked.outputs.find? (row.id, output.sequence) with
  | some prior =>
    simp only [hfind, rejectIf_eq_ok, Prod.mk.injEq, not_or, not_not] at h
    exact .inl ⟨h.2.2, prior, rfl, h.1⟩
  | none =>
    simp only [hfind, rejectIf_bind_eq_ok, expect_bind_eq_ok, set_eq_ok,
      Prod.mk.injEq, not_or, not_not] at h
    obtain ⟨⟨hsequence, _⟩, outputs, houtputs, _, rfl⟩ := h
    exact .inr ⟨hsequence, outputs, houtputs, rfl⟩

theorem recordLedgerOutput_changes :
    Keeps Changes (recordLedgerOutput host env scope operationId output) := by
  intro db u next h
  obtain ⟨_, _, _, locked, hlock, _, _, _, h⟩ := recordLedgerOutput_eq_ok h
  refine (lockOperation_writes _ _ _ hlock).changes.trans ?_
  rcases h with ⟨rfl, _⟩ | ⟨_, outputs, houtputs, rfl⟩
  · exact Relation.ReflTransGen.refl
  · exact Relation.ReflTransGen.single (.output houtputs)

/-- The evidence checks write nothing. -/
theorem checkBridgeEvidence_keeps {payload : Option RuntimeBridgePayload} :
    Keeps R (checkBridgeEvidence host env payload content) := by
  have hstored : ∀ object, Keeps R (storedObject env object) :=
    fun object => .bind .expect fun _ => .rejectIf
  have hcommand : ∀ {signal output isMatch},
      Keeps R (checkCommandEvidence signal output isMatch) :=
    .rejectIf
  cases payload with
  | none => exact .pure
  | some payload =>
    refine .bind (.whenever ?_) fun _ => ?_
    · unfold checkFinalEvidence
      split
      · refine .ite ?_ .rejectIf
        split
        · exact .bind .rejectIf fun _ =>
            .whenever (hstored _)
        · exact Keeps.throw
      · refine .ite ?_ .pure
        split
        · exact .bind .rejectIf fun _ =>
            .whenever (hstored _)
        · exact Keeps.throw
      · exact .bind (.whenever hcommand) fun _ =>
          .whenever hcommand
      · refine .bind .rejectIf fun _ => ?_
        split
        · exact .pure
        · exact Keeps.forM (fun _ => hstored _) _
      · exact .rejectIf
      · exact .pure
      · exact .pure
      · exact .pure
    · split
      · refine .whenever ?_
        unfold checkOrganizationEvidence
        split
        · exact .rejectIf
        · exact .rejectIf
      · exact .pure

theorem requestStops_writes :
    Keeps Writes (requestStops host env row receiptId content) := by
  have hrequest : ∀ {requestId proved},
      Keeps Writes (requestStop env row.id requestId proved) :=
    .bind .rejectIf fun _ => appendEvent_writes (by simp) rfl
  unfold requestStops
  refine .ite ?_ .pure
  split
  · split
    · exact hrequest
    · exact .pure
  · refine .ite (.ite ?_ hrequest) .pure
    exact appendEvent_writes (by simp) rfl

theorem applyReceipt_writes (hreceipt : isReceiptSignal signal = true) :
    Keeps (WritesLeased operationId) (applyReceipt env operationId signal) := by
  refine .bind currentOperation_keeps fun row => ?_
  cases advanceRuntimeOperation row.snapshot signal with
  | error error => exact .pure
  | ok snapshot =>
    refine .bind (appendEvent_writesLeased ?_) fun _ => .pure
    rintro rfl
    simp [isReceiptSignal] at hreceipt

theorem judgeReceipt_writes (hreceipt : isReceiptSignal content.signal = true) :
    Keeps (WritesLeased row.id)
      (judgeReceipt host env row receiptId content) := by
  refine .ite .pure ?_
  refine .bind .lift fun _ => ?_
  refine .bind checkBridgeEvidence_keeps fun _ => ?_
  refine .bind (Writes.forLeased requestStops_writes) fun _ => ?_
  exact applyReceipt_writes hreceipt

theorem recordReceipt_writes {input : LedgerReceipt} :
    Keeps Writes (recordReceipt host env input) := by
  intro db answer next h
  simp only [recordReceipt, rejectIf_bind_eq_ok, not_or,
    Bool.not_eq_false] at h
  obtain ⟨_, ⟨_, hreceipt⟩, h⟩ := h
  refine leased_writes (fun root row => ⟨_, rfl, fun lease => ?_⟩) _ _ _ h
  refine .bind .get fun db => ?_
  cases db.receipts.find? input.receiptId with
  | some previous => exact .bind .rejectIf fun _ => .pure
  | none =>
    refine .bind (judgeReceipt_writes hreceipt) fun _ => ?_
    exact .bind (Writes.forLeased insertReceipt_writes) fun _ =>
      .pure

omit [IsTrans LedgerDb R] in
theorem succeeds_keeps {check : LedgerTx Unit} :
    Keeps R (succeeds check) := by
  refine Keeps.of_same fun db a next h => ?_
  unfold succeeds at h
  split at h
  · exact (Prod.mk.inj (Except.ok.inj h)).2.symm
  · exact (Prod.mk.inj (Except.ok.inj h)).2.symm

theorem exchangeEvents_writes {reported stopRequested : Bool} :
    Keeps (WritesLeased operationId)
      (exchangeEvents env operationId reported stopRequested) := by
  have hcurrent : Keeps (WritesLeased operationId)
      (currentOperation operationId) :=
    currentOperation_keeps
  refine .bind hcurrent fun _ => ?_
  refine .bind (.whenever (appendEvent_writesLeased (by simp)))
    fun _ => ?_
  refine .bind hcurrent fun _ => ?_
  exact .whenever (appendEvent_writesLeased (by simp))

theorem serviceAuthority_keeps :
    Keeps R (serviceAuthority host env root row n at_) :=
  .ite .lift
    (.bind admitRow_keeps fun _ => ensureRootAdmits_keeps)

theorem exchangeLocalService_writes {input : ServiceInput} :
    Keeps Writes (exchangeLocalService host env input) := by
  refine leased_writes fun root row => ⟨_, rfl, fun lease => ?_⟩
  refine .bind .rejectIf fun _ => ?_
  refine .bind .expect fun _ => ?_
  refine .bind succeeds_keeps fun _ => ?_
  refine .bind .rejectIf fun _ => ?_
  refine .bind .lift fun _ => ?_
  refine .bind exchangeEvents_writes fun _ => ?_
  refine .bind .lift fun _ => ?_
  refine .ite ?_ .pure
  refine .bind .rejectIf fun _ => ?_
  refine .bind (Writes.forLeased extendLease_writes) fun _ => ?_
  refine .bind serviceAuthority_keeps fun _ => ?_
  exact .bind .rejectIf fun _ => .pure

theorem exchangeCloudProjectService_writes {input : ServiceInput} :
    Keeps Writes (exchangeCloudProjectService host env input) := by
  refine leased_writes fun root row => ⟨_, rfl, fun lease => ?_⟩
  refine .bind .rejectIf fun _ => ?_
  refine .bind .rejectIf fun _ => ?_
  refine .bind succeeds_keeps fun _ => ?_
  refine .bind .lift fun _ => ?_
  refine .bind exchangeEvents_writes fun _ => ?_
  refine .bind .lift fun _ => ?_
  refine .ite ?_ .pure
  refine .bind .rejectIf fun _ => ?_
  refine .bind .rejectIf fun _ => ?_
  refine .bind (Writes.forLeased extendLease_writes) fun _ => ?_
  refine .bind .lift fun _ => ?_
  exact .bind .rejectIf fun _ => .pure

/-- Only operations with a lease expire, and each of them keeps its lease
while the others are written. -/
theorem expireAll_writes (rows : List OperationRow)
    (hleased : ∀ row ∈ rows, Leased row.id db)
    (h : (rows.forM fun row => appendEvent env row.id (.uncertain .leaseLost)) db =
      .ok (u, next)) : Writes db next := by
  induction rows generalizing db with
  | nil => rw [(Prod.mk.inj (pure_eq_ok.1 h)).2]
  | cons head tail ih =>
    obtain ⟨_, middle, hhead, htail⟩ := bind_eq_ok.1 h
    have hfirst : Writes db middle :=
      appendEvent_writesLeased (by simp) _ _ _ hhead
        (hleased head List.mem_cons_self)
    refine hfirst.trans (ih ?_ htail)
    intro row hmem
    exact hfirst.leased (hleased row (List.mem_cons_of_mem head hmem))

theorem expireLeases_writes :
    Keeps Writes (expireLeases host env scope rootRunId) := by
  refine .bind lockRoot_writes fun _ => ?_
  refine .bind (.whenever cancelLocked_writes) fun _ => ?_
  intro db u next h
  rw [get_bind_eq_ok] at h
  refine expireAll_writes _ ?_ h
  intro row hmem
  simp only [operationsOfRoot, List.mem_filter, List.mem_insertionSort,
    leaseExpired, Bool.and_eq_true] at hmem
  obtain ⟨⟨hrow, _⟩, _, hlease⟩ := hmem
  refine ⟨row, Table.find?_of_mem hrow, ?_⟩
  intro hnone
  simp [hnone] at hlease

theorem settleUsage_writes {input : SettleInput} :
    Keeps Writes (settleUsage host env input) := by
  refine .bind .rejectIf fun _ => ?_
  intro db answer next h
  obtain ⟨⟨root, row⟩, locked, hlock, h⟩ := bind_eq_ok.1 h
  obtain ⟨hrow, ⟨stored, _, hroot, _⟩, _, roots, hlocked⟩ :=
    lockOperation_eq_ok hlock
  refine (lockOperation_writes _ _ _ hlock).trans ?_
  have hid := Table.key_of_find? hrow
  replace hrow : locked.operations.find? row.id = some row := by
    rw [hlocked, hid]
    exact hrow
  simp only [verifyLease_bind_eq_ok, get_bind_eq_ok, expect_bind_eq_ok,
    rejectIf_bind_eq_ok] at h
  obtain ⟨_, _, _, reservation, hreservation, budget, _, _, amount, _, h⟩ := h
  have hkey := Table.key_of_find? hreservation
  have hoperation : reservation.operationId = row.id :=
    congrArg Prod.fst hkey
  cases hsettled : reservation.settled with
  | some settled =>
    simp only [hsettled, rejectIf_bind_eq_ok, pure_eq_ok,
      Prod.mk.injEq] at h
    rw [h.2.2]
  | none =>
    simp only [hsettled, settleFirst, rejectIf_bind_eq_ok] at h
    obtain ⟨_, _, h⟩ := h
    obtain ⟨_, settled, hsettle, h⟩ := bind_eq_ok.1 h
    obtain ⟨hwrite, _⟩ := settleReservation_write (hkey ▸ hreservation)
      hsettled (hoperation ▸ hrow) hroot.symm hsettle
    refine Relation.ReflTransGen.head hwrite ?_
    exact Keeps.bind (.whenever cancelLocked_writes) (fun _ => .pure) _ _ _ h

end Allrice
