/-
The life of one operation in a journal: its state and the receipts that were
appended for it.  `RecordStep` is the whole list of what a journal method may
do to such a record; every invariant of the journal's runs is derived from it.
-/
import Allrice.BridgeJournal

namespace Allrice

open Tx

/-- What the journal knows of one operation. -/
@[ext] structure OperationRecord where
  state : Option EntryState
  receipts : List RuntimeBridgeReceipt

/-- The receipts that were ever appended for an operation, in order. -/
def receiptsOf (disk : JournalDisk) (operationId : Uuid) :
    List RuntimeBridgeReceipt :=
  (disk.outbox.rows.filter (·.operationId = operationId)).map (·.body)

def JournalDisk.record (disk : JournalDisk) (operationId : Uuid) :
    OperationRecord :=
  ⟨(disk.entries.find? operationId).map (·.state),
    receiptsOf disk operationId⟩

/-- The moves of an operation's record. -/
inductive RecordMove where
  | receive
  | begin
  | report
  | reconcile

/-- One move: a report ends an active operation with the receipt that says
so, and only a reconciliation leads out of `unknown`. -/
inductive RecordStep : RecordMove → OperationRecord → OperationRecord → Prop
  | receive (receipts) :
      RecordStep .receive ⟨none, receipts⟩ ⟨some .received, receipts⟩
  | begin (receipts) :
      RecordStep .begin ⟨some .received, receipts⟩ ⟨some .executing, receipts⟩
  | final {state} (hstate : state = .received ∨ state = .executing)
      (receipts) (receipt : RuntimeBridgeReceipt)
      (hsignal : isFinalSignal receipt.signal = true) :
      RecordStep .report ⟨some state, receipts⟩
        ⟨some .completed, receipts ++ [receipt]⟩
  | uncertain {state} (hstate : state = .received ∨ state = .executing)
      (receipts) (receipt : RuntimeBridgeReceipt)
      (hsignal : isUncertainSignal receipt.signal = true) :
      RecordStep .report ⟨some state, receipts⟩
        ⟨some .unknown, receipts ++ [receipt]⟩
  | reconcile (receipts) (receipt : RuntimeBridgeReceipt)
      (hsignal : isFinalSignal receipt.signal = true) :
      RecordStep .reconcile ⟨some .unknown, receipts⟩
        ⟨some .completed, receipts ++ [receipt]⟩

/-- No record changes. -/
def SameRecords (disk next : JournalDisk) : Prop :=
  ∀ operationId, next.record operationId = disk.record operationId

/-- One operation's record makes a move and no other record changes. -/
structure Moves (move : RecordMove) (target : Uuid) (disk next : JournalDisk) :
    Prop where
  step : RecordStep move (disk.record target) (next.record target)
  frame : ∀ operationId, operationId ≠ target →
    next.record operationId = disk.record operationId

variable {disk next : JournalDisk} {operationId receiptId : Uuid}
  {host : JournalHost} {receipt : RuntimeBridgeReceipt} {inputs : ReceiptInputs}
  {row : EntryRow} {u : Unit} {evidence : Option ReceiptEvidence}
  {signal : RuntimeOperationSignal}

theorem record_congr (hentries : next.entries = disk.entries)
    (houtbox : next.outbox = disk.outbox) : SameRecords disk next := by
  intro operationId
  simp [JournalDisk.record, receiptsOf, hentries, houtbox]

theorem record_state (h : disk.entries.find? operationId = some row) :
    (disk.record operationId).state = some row.state := by
  simp [JournalDisk.record, h]

/-- Setting the state of an existing entry changes that record only. -/
theorem record_setState (h : disk.entries.find? operationId = some row)
    (state : EntryState) (other : Uuid) :
    ((disk.entries.replace { row with state }).find? other).map (·.state) =
      if other = operationId then some state
      else (disk.record other).state := by
  have hkey := Table.key_of_find? h
  by_cases hother : other = operationId
  · subst hother
    simp [Table.find?_replace, hkey, h]
  · have hne : row.operationId ≠ other := fun heq => hother (heq ▸ hkey)
    simp [Table.find?_replace, hne, hother, JournalDisk.record]

theorem receiptsOf_insert? (next : JournalDisk) {row : OutboxRow}
    (h : disk.outbox.insert? row = some next.outbox) (other : Uuid) :
    receiptsOf next other =
      receiptsOf disk other ++
        if row.operationId = other then [row.body] else [] := by
  have hrows := (Table.insert?_eq_some h).2
  by_cases hother : row.operationId = other
  · simp [receiptsOf, hrows, hother]
  · simp [receiptsOf, hrows, hother]

variable {α : Type} {rest : EntryRow → JournalTx α} {r : α × JournalDisk}
  {result : OutcomeInput} {sequence : Nat}

theorem entry_bind_eq_ok :
    (entry operationId >>= rest) disk = .ok r ↔
      ∃ row, disk.entries.find? operationId = some row ∧
        rest row disk = .ok r := by
  simp only [entry, bind_assoc, get_bind_eq_ok]
  exact expect_bind_eq_ok

/-- What a successful `append` wrote. -/
theorem append_eq_ok
    (h : append host row receiptId signal evidence disk = .ok (receipt, next)) :
    receipt.signal = signal ∧ receipt.evidence = evidence ∧ receipt.Valid ∧
      ∃ outbox, disk.outbox.insert?
          ⟨receiptId, row.operationId, receipt, false⟩ = some outbox ∧
        next = { disk with outbox } := by
  simp only [append, rejectIf_bind_eq_ok, get_bind_eq_ok, expect_bind_eq_ok,
    set_bind_eq_ok, pure_eq_ok, Prod.mk.injEq, not_not] at h
  obtain ⟨hvalid, _, outbox, hinsert, rfl, rfl⟩ := h
  exact ⟨rfl, rfl, hvalid, outbox, hinsert, rfl⟩

variable {state : EntryState} {dispatch : RuntimeBridgeDispatch}
  {startReceiptId : Uuid} {databaseBytes : Nat} {output : EvidenceOutput}
  {summary : JsString} {reason : UncertainReason}
  {check : RuntimeBridgePayload → Except JournalErrorCode Unit}
  {reported : ReconciledSignal}

/-- What a successful `settle` wrote: one receipt and one state. -/
theorem settle_eq_ok
    (h : settle host row receiptId signal evidence state disk =
      .ok (receipt, next)) :
    receipt.signal = signal ∧ receipt.evidence = evidence ∧ receipt.Valid ∧
      ∃ outbox, disk.outbox.insert?
          ⟨receiptId, row.operationId, receipt, false⟩ = some outbox ∧
        next = { disk with
          outbox, entries := disk.entries.replace { row with state } } := by
  simp only [settle, setState, bind_eq_ok, modify_eq_ok, pure_eq_ok,
    Prod.mk.injEq] at h
  obtain ⟨_, _, happend, _, _, ⟨_, rfl⟩, rfl, rfl⟩ := h
  obtain ⟨hsignal, hevidence, hvalid, outbox, hinsert, rfl⟩ :=
    append_eq_ok happend
  exact ⟨hsignal, hevidence, hvalid, outbox, hinsert, rfl⟩

/-- `settle` moves the record of its operation and no other record. -/
theorem settle_record (hrow : disk.entries.find? operationId = some row)
    (h : settle host row receiptId signal evidence state disk =
      .ok (receipt, next)) :
    next.record operationId =
        ⟨some state, (disk.record operationId).receipts ++ [receipt]⟩ ∧
      ∀ other, other ≠ operationId → next.record other = disk.record other := by
  obtain ⟨_, _, _, outbox, hinsert, rfl⟩ := settle_eq_ok h
  have hkey := Table.key_of_find? hrow
  have hreceipts := receiptsOf_insert? { disk with
    outbox, entries := disk.entries.replace { row with state } } hinsert
  refine ⟨?_, ?_⟩
  · ext1
    · exact (record_setState hrow state operationId).trans (if_pos rfl)
    · simpa [hkey, JournalDisk.record] using hreceipts operationId
  · intro other hother
    have hne : row.operationId ≠ other := fun heq => hother (heq ▸ hkey)
    ext1
    · exact (record_setState hrow state other).trans (if_neg hother)
    · simpa [hne, JournalDisk.record] using hreceipts other

/-- `receive` inserts an unknown operation or changes nothing. -/
theorem receive_eq_ok {answer : ReceiveAnswer}
    (h : receive host dispatch startReceiptId databaseBytes disk =
      .ok (answer, next)) :
    (answer = .duplicate ∧ next = disk) ∨
      (answer = .new ∧ ∃ entries, disk.entries.insert?
          { operationId := dispatch.operationId
            fingerprint := host.digestDispatch dispatch
            dispatch
            state := .received
            startReceiptId } = some entries ∧
        next = { disk with entries }) := by
  simp only [receive, get_bind_eq_ok] at h
  cases hfind : disk.entries.find? dispatch.operationId with
  | some previous =>
    simp only [hfind, rejectIf_bind_eq_ok, pure_eq_ok, Prod.mk.injEq] at h
    exact .inl h.2
  | none =>
    simp only [hfind, rejectIf_bind_eq_ok, expect_bind_eq_ok,
      set_bind_eq_ok, pure_eq_ok, Prod.mk.injEq] at h
    obtain ⟨_, _, entries, hinsert, rfl, rfl⟩ := h
    exact .inr ⟨rfl, entries, hinsert, rfl⟩

theorem receive_new_record
    (h : receive host dispatch startReceiptId databaseBytes disk =
      .ok (.new, next)) : Moves .receive dispatch.operationId disk next := by
  rcases receive_eq_ok h with ⟨hanswer, _⟩ | ⟨_, entries, hinsert, rfl⟩
  · simp at hanswer
  · have hfind := Table.find?_insert? hinsert
    have hfresh := (Table.insert?_eq_some hinsert).1
    constructor
    · have hbefore : disk.record dispatch.operationId =
          ⟨none, receiptsOf disk dispatch.operationId⟩ := by
        simp only [JournalDisk.record]
        rw [hfresh, Option.map_none]
      have hafter : ({ disk with entries } : JournalDisk).record
          dispatch.operationId =
          ⟨some .received, receiptsOf disk dispatch.operationId⟩ := by
        simp [JournalDisk.record, hfind, receiptsOf]
      rw [hbefore, hafter]
      exact .receive _
    · intro other hother
      have hne : dispatch.operationId ≠ other := fun heq => hother heq.symm
      simp [JournalDisk.record, hfind, hne, receiptsOf]

theorem receive_duplicate_eq
    (h : receive host dispatch startReceiptId databaseBytes disk =
      .ok (.duplicate, next)) : next = disk := by
  rcases receive_eq_ok h with ⟨_, hnext⟩ | ⟨hanswer, _⟩
  · exact hnext
  · simp at hanswer

theorem begin_eq_ok (h : begin operationId disk = .ok (receiptId, next)) :
    ∃ row, disk.entries.find? operationId = some row ∧
      row.state = .received ∧ receiptId = row.startReceiptId ∧
      next = { disk with
        entries := disk.entries.replace { row with state := .executing } } := by
  simp only [begin, setState, entry_bind_eq_ok, rejectIf_bind_eq_ok,
    modify_bind_eq_ok, pure_eq_ok, Prod.mk.injEq, not_not] at h
  obtain ⟨row, hrow, hstate, rfl, rfl⟩ := h
  exact ⟨row, hrow, hstate, rfl, rfl⟩

theorem begin_record (h : begin operationId disk = .ok (receiptId, next)) :
    Moves .begin operationId disk next := by
  obtain ⟨row, hrow, hstate, _, rfl⟩ := begin_eq_ok h
  have hreplaced := record_setState hrow .executing
  constructor
  · have hbefore : disk.record operationId =
        ⟨some .received, receiptsOf disk operationId⟩ := by
      simp [JournalDisk.record, hrow, hstate]
    rw [hbefore]
    simp only [JournalDisk.record, hreplaced, ↓reduceIte]
    exact .begin _
  · intro other hother
    ext1
    · exact (hreplaced other).trans (if_neg hother)
    · rfl

/-- A report through `settle` is one move of its operation. -/
theorem settle_moves {move : RecordMove}
    (hrow : disk.entries.find? operationId = some row)
    (h : settle host row receiptId signal evidence state disk =
      .ok (receipt, next))
    (hmove : ∀ receipts, RecordStep move ⟨some row.state, receipts⟩
      ⟨some state, receipts ++ [receipt]⟩) :
    Moves move operationId disk next := by
  obtain ⟨hrecord, hframe⟩ := settle_record hrow h
  refine ⟨?_, hframe⟩
  rw [hrecord]
  have hbefore : disk.record operationId =
      ⟨some row.state, receiptsOf disk operationId⟩ := by
    simp [JournalDisk.record, hrow]
  rw [hbefore]
  exact hmove _

theorem isActive_iff :
    isActive row = true ↔ row.state = .received ∨ row.state = .executing := by
  simp [isActive]

theorem outcome_eq_ok
    (h : outcome host operationId result inputs disk = .ok (receipt, next)) :
    ∃ row, disk.entries.find? operationId = some row ∧ isActive row = true ∧
      ∃ ref evidence, settle host row inputs.receiptId
        (outcomeSignal ref result.status result.effects) (some evidence)
        .completed disk = .ok (receipt, next) ∧
        evidence.output = result.output := by
  simp only [outcome, entry_bind_eq_ok, rejectIf_bind_eq_ok, not_not] at h
  obtain ⟨row, hrow, hactive, hsettle⟩ := h
  exact ⟨row, hrow, hactive, _, _, hsettle, rfl⟩

theorem stopped_eq_ok
    (h : stopped host operationId output summary inputs disk =
      .ok (receipt, next)) :
    ∃ row, disk.entries.find? operationId = some row ∧ isActive row = true ∧
      ∃ ref evidence, settle host row inputs.receiptId (.stopped ref .none)
        (some evidence) .completed disk = .ok (receipt, next) ∧
        evidence.output = some output := by
  simp only [stopped, entry_bind_eq_ok, rejectIf_bind_eq_ok, not_not] at h
  obtain ⟨row, hrow, hactive, hsettle⟩ := h
  exact ⟨row, hrow, hactive, _, _, hsettle, rfl⟩

theorem uncertain_eq_ok
    (h : uncertain host operationId reason evidence inputs disk =
      .ok (receipt, next)) :
    ∃ row, disk.entries.find? operationId = some row ∧ isActive row = true ∧
      settle host row inputs.receiptId (.uncertain reason) evidence .unknown
        disk = .ok (receipt, next) := by
  simp only [uncertain, entry_bind_eq_ok, rejectIf_bind_eq_ok, not_not] at h
  exact h

theorem reconcile_eq_ok {evidence : ReceiptEvidence}
    (h : reconcile host operationId check evidence reported inputs disk =
      .ok (receipt, next)) :
    ∃ row, disk.entries.find? operationId = some row ∧ row.state = .unknown ∧
      check row.dispatch.payload = .ok ⟨⟩ ∧
      ∃ signal, isFinalSignal signal = true ∧
        settle host row inputs.receiptId signal (some evidence) .completed
          disk = .ok (receipt, next) := by
  simp only [reconcile, entry_bind_eq_ok, rejectIf_bind_eq_ok, lift_bind_eq_ok,
    not_not] at h
  obtain ⟨row, hrow, hstate, _, hcheck, hsettle⟩ := h
  refine ⟨row, hrow, hstate, ?_, _, ?_, hsettle⟩
  · cases hc : check row.dispatch.payload with
    | error code => simp [hc, Except.mapError] at hcheck
    | ok value => rfl
  · cases reported <;> rfl

theorem outcome_record
    (h : outcome host operationId result inputs disk = .ok (receipt, next)) :
    Moves .report operationId disk next := by
  obtain ⟨row, hrow, hactive, _, _, hsettle, _⟩ := outcome_eq_ok h
  refine settle_moves hrow hsettle fun receipts => ?_
  refine .final (isActive_iff.1 hactive) receipts receipt ?_
  rw [(settle_eq_ok hsettle).1]
  rfl

theorem stopped_record
    (h : stopped host operationId output summary inputs disk =
      .ok (receipt, next)) : Moves .report operationId disk next := by
  obtain ⟨row, hrow, hactive, _, _, hsettle, _⟩ := stopped_eq_ok h
  refine settle_moves hrow hsettle fun receipts => ?_
  refine .final (isActive_iff.1 hactive) receipts receipt ?_
  rw [(settle_eq_ok hsettle).1]
  rfl

theorem uncertain_record
    (h : uncertain host operationId reason evidence inputs disk =
      .ok (receipt, next)) : Moves .report operationId disk next := by
  obtain ⟨row, hrow, hactive, hsettle⟩ := uncertain_eq_ok h
  refine settle_moves hrow hsettle fun receipts => ?_
  refine .uncertain (isActive_iff.1 hactive) receipts receipt ?_
  rw [(settle_eq_ok hsettle).1]
  rfl

theorem reconcile_record {evidence : ReceiptEvidence}
    (h : reconcile host operationId check evidence reported inputs disk =
      .ok (receipt, next)) : Moves .reconcile operationId disk next := by
  obtain ⟨row, hrow, hstate, _, signal, hsignal, hsettle⟩ := reconcile_eq_ok h
  refine settle_moves hrow hsettle fun receipts => ?_
  rw [hstate]
  refine .reconcile receipts receipt ?_
  rw [(settle_eq_ok hsettle).1]
  exact hsignal

theorem prepareLocalMcpCall_eq_ok {requestId : String} {digest : Checksum}
    (h : prepareLocalMcpCall operationId requestId digest disk =
      .ok (u, next)) : ∃ localMcpCalls, next = { disk with localMcpCalls } := by
  simp only [prepareLocalMcpCall, entry_bind_eq_ok, rejectIf_bind_eq_ok,
    get_bind_eq_ok, expect_bind_eq_ok, set_eq_ok, Prod.mk.injEq] at h
  obtain ⟨_, _, _, _, localMcpCalls, _, _, rfl⟩ := h
  exact ⟨localMcpCalls, rfl⟩

theorem putChangesetFile_eq (disk : JournalDisk) (row : ChangesetFileRow) :
    ∃ changesetFiles, putChangesetFile disk row =
      { disk with changesetFiles } := by
  unfold putChangesetFile
  split
  · exact ⟨_, rfl⟩
  · exact ⟨_, rfl⟩

/-- A checkpoint speaks about an executing changeset and replaces at most a
`prepared` one. -/
theorem changesetCheckpoint_eq_ok {index : Nat} {result : ChangesetFileResult}
    (h : changesetCheckpoint operationId index result disk = .ok (u, next)) :
    ∃ row file, disk.entries.find? operationId = some row ∧
      checkpointFile? row index = some file ∧
      checkpointMatches file result = true ∧
      (∀ previous ∈ disk.changesetFiles.find? (operationId, index),
        previous.result.status = .prepared) ∧
      next = putChangesetFile disk ⟨operationId, index, result⟩ := by
  simp only [changesetCheckpoint, entry_bind_eq_ok, rejectIf_bind_eq_ok,
    get_bind_eq_ok, expect_bind_eq_ok, set_eq_ok, Prod.mk.injEq,
    not_not] at h
  obtain ⟨row, hrow, file, hfile, hmatches, hprevious, _, rfl⟩ := h
  refine ⟨row, file, hrow, hfile, hmatches, ?_, rfl⟩
  intro previous hmem
  by_contra hne
  exact hprevious ⟨previous, hmem, hne⟩

/-- A chunk is either there already, or it is the next one of an executing
operation. -/
theorem recordOutput_eq_ok {chunk : OutputChunk} {output : RuntimeBridgeOutput}
    (h : recordOutput operationId chunk disk = .ok (output, next)) :
    ∃ row, disk.entries.find? operationId = some row ∧
      output = outputOf row chunk ∧
      ((next = disk ∧ ∃ prior,
          disk.outputOutbox.find? (operationId, chunk.sequence) = some prior ∧
            prior.body = output) ∨
        (row.state = .executing ∧
          nextSequence ((outputRows disk operationId).map (·.sequence)) =
            chunk.sequence ∧
          ∃ outputOutbox, disk.outputOutbox.insert?
              ⟨operationId, chunk.sequence, output,
                JsString.byteLength chunk.text, false⟩ = some outputOutbox ∧
            next = { disk with outputOutbox })) := by
  simp only [recordOutput, entry_bind_eq_ok, rejectIf_bind_eq_ok,
    get_bind_eq_ok, not_not] at h
  obtain ⟨row, hrow, _, _, hrest⟩ := h
  cases hfind : disk.outputOutbox.find? (operationId, chunk.sequence) with
  | some prior =>
    simp only [hfind, rejectIf_bind_eq_ok, pure_eq_ok, Prod.mk.injEq,
      not_not] at hrest
    obtain ⟨hbody, rfl, rfl⟩ := hrest
    exact ⟨row, hrow, rfl, .inl ⟨rfl, prior, rfl, hbody⟩⟩
  | none =>
    simp only [hfind, rejectIf_bind_eq_ok, expect_bind_eq_ok,
      set_bind_eq_ok, pure_eq_ok, Prod.mk.injEq, not_not, not_or] at hrest
    obtain ⟨hstate, ⟨hsequence, _⟩, outputOutbox, hinsert, rfl, rfl⟩ := hrest
    exact ⟨row, hrow, rfl,
      Or.inr ⟨hstate, hsequence, outputOutbox, hinsert, rfl⟩⟩

theorem acknowledgeOutput_eq_ok
    (h : acknowledgeOutput operationId sequence disk = .ok (u, next)) :
    next = disk ∨ ∃ row,
      disk.outputOutbox.find? (operationId, sequence) = some row ∧
        next = { disk with outputOutbox :=
          disk.outputOutbox.replace { row with delivered := true } } := by
  simp only [acknowledgeOutput, get_bind_eq_ok] at h
  cases hfind : disk.outputOutbox.find? (operationId, sequence) with
  | some row =>
    simp only [hfind, set_eq_ok, Prod.mk.injEq] at h
    exact .inr ⟨row, rfl, h.2⟩
  | none =>
    simp only [hfind, pure_eq_ok, Prod.mk.injEq] at h
    exact .inl h.2

theorem acknowledge_eq_ok (h : acknowledge receiptId disk = .ok (u, next)) :
    next = disk ∨ ∃ row, disk.outbox.find? receiptId = some row ∧
      next = { disk with
        outbox := disk.outbox.replace { row with delivered := true } } := by
  simp only [acknowledge, get_bind_eq_ok] at h
  cases hfind : disk.outbox.find? receiptId with
  | some row =>
    simp only [hfind, set_eq_ok, Prod.mk.injEq] at h
    exact .inr ⟨row, rfl, h.2⟩
  | none =>
    simp only [hfind, pure_eq_ok, Prod.mk.injEq] at h
    exact .inl h.2

theorem serviceEntry_bind_eq_ok
    (h : (serviceEntry operationId >>= rest) disk = .ok r) :
    ∃ row, disk.entries.find? operationId = some row ∧
      row.state ≠ .received ∧ rest row disk = .ok r := by
  simp only [serviceEntry, bind_assoc, pure_bind, entry_bind_eq_ok,
    rejectIf_bind_eq_ok, not_or] at h
  obtain ⟨row, hrow, ⟨hstate, _⟩, hrest⟩ := h
  exact ⟨row, hrow, hstate, hrest⟩

theorem serviceEvent_eq_ok {body : Nat}
    (h : serviceEvent operationId sequence body disk = .ok (u, next)) :
    ∃ serviceEvents, next = { disk with serviceEvents } := by
  obtain ⟨_, _, _, hrest⟩ := serviceEntry_bind_eq_ok h
  simp only [get_bind_eq_ok] at hrest
  cases hfind : disk.serviceEvents.find? (operationId, sequence) with
  | some prior =>
    simp only [hfind, rejectIf_eq_ok, Prod.mk.injEq] at hrest
    exact ⟨disk.serviceEvents, hrest.2.2⟩
  | none =>
    simp only [hfind, rejectIf_bind_eq_ok, expect_bind_eq_ok, set_eq_ok,
      Prod.mk.injEq] at hrest
    obtain ⟨_, _, serviceEvents, _, _, rfl⟩ := hrest
    exact ⟨serviceEvents, rfl⟩

theorem acknowledgeService_eq_ok {sequence : Int}
    (h : acknowledgeService operationId sequence disk = .ok (u, next)) :
    ∃ serviceEvents, next = { disk with serviceEvents } := by
  obtain ⟨_, _, _, hrest⟩ := serviceEntry_bind_eq_ok h
  simp only [get_bind_eq_ok, rejectIf_bind_eq_ok, set_eq_ok,
    Prod.mk.injEq] at hrest
  exact ⟨_, hrest.2.2⟩

/-- Marking a receipt as delivered keeps every record. -/
theorem acknowledge_record (h : acknowledge receiptId disk = .ok (u, next)) :
    SameRecords disk next := by
  rcases acknowledge_eq_ok h with rfl | ⟨row, hrow, rfl⟩
  · exact fun _ => rfl
  · intro operationId
    ext1
    · rfl
    · simp only [JournalDisk.record, receiptsOf, Table.replace]
      have hrows : ∀ old ∈ disk.outbox.rows, old.receiptId = row.receiptId →
          old = row := by
        intro old hold heq
        have hfound := Table.find?_of_mem hold
        rw [heq, Table.key_of_find? hrow, hrow] at hfound
        exact (Option.some.inj hfound).symm
      generalize disk.outbox.rows = rows at hrows ⊢
      induction rows with
      | nil => rfl
      | cons head tail ih =>
        have htail := ih fun old hold => hrows old (List.mem_cons_of_mem _ hold)
        by_cases hhead : head.receiptId = row.receiptId
        · have heq := hrows head List.mem_cons_self hhead
          subst heq
          by_cases hop : head.operationId = operationId
          · simpa [hop] using htail
          · simpa [hop] using htail
        · by_cases hop : head.operationId = operationId
          · simpa [hop, hhead] using htail
          · simpa [hop, hhead] using htail

end Allrice
