/-
What the methods of a journal write, table by table.  Where `RecordStep` says
what a method means for one operation, this is the list of the rows that it
touches, for the invariants that speak about rows.
-/
import Allrice.JournalMachine

namespace Allrice

open Tx

/-- The writes of a call. -/
inductive JournalWrite : JournalCall → JournalDisk → JournalDisk → Prop
  | none {call : JournalCall} {disk : JournalDisk} : JournalWrite call disk disk
  | receive {disk : JournalDisk} {dispatch : RuntimeBridgeDispatch}
      {startReceiptId : Uuid} {databaseBytes : Nat} {fingerprint : Checksum}
      {entries}
      (hinsert : disk.entries.insert?
        ⟨dispatch.operationId, fingerprint, dispatch, .received,
          startReceiptId⟩ = some entries) :
      JournalWrite (.receive dispatch startReceiptId databaseBytes) disk
        { disk with entries }
  | begin {disk : JournalDisk} {operationId : Uuid} {row : EntryRow}
      (hrow : disk.entries.find? operationId = some row)
      (hstate : row.state = .received) :
      JournalWrite (.begin operationId) disk { disk with
        entries := disk.entries.replace { row with state := .executing } }
  | settle {call : JournalCall} {disk : JournalDisk} {operationId : Uuid}
      {row : EntryRow} {receipt : OutboxRow} {state : EntryState} {outbox}
      (hrow : disk.entries.find? operationId = some row)
      (hreceipt : receipt.operationId = row.operationId)
      (hattempt : receipt.body.attempt = row.dispatch.snapshot.binding.attempt)
      (hstate : isActive { row with state } = false)
      (houtbox : disk.outbox.insert? receipt = some outbox) :
      JournalWrite call disk { disk with
        outbox, entries := disk.entries.replace { row with state } }
  | checkpoint {call : JournalCall} {disk : JournalDisk} {operationId : Uuid}
      {row : EntryRow} {index : Nat} {file : ChangesetFile}
      {result : ChangesetFileResult} {changesetFiles}
      (hrow : disk.entries.find? operationId = some row)
      (hfile : checkpointFile? row index = some file)
      (hput : putChangesetFile disk ⟨operationId, index, result⟩ =
        { disk with changesetFiles }) :
      JournalWrite call disk { disk with changesetFiles }
  | output {disk : JournalDisk} {operationId : Uuid} {chunk : OutputChunk}
      {row : EntryRow} {outputOutbox}
      (hrow : disk.entries.find? operationId = some row)
      (hstate : row.state = .executing)
      (hnext : nextSequence
        ((outputRows disk operationId).map (·.sequence)) = chunk.sequence)
      (hinsert : disk.outputOutbox.insert?
        ⟨operationId, chunk.sequence, outputOf row chunk,
          JsString.byteLength chunk.text, false⟩ = some outputOutbox) :
      JournalWrite (.recordOutput operationId chunk) disk
        { disk with outputOutbox }
  | acknowledgeOutput {disk : JournalDisk} {operationId : Uuid}
      {sequence : Nat} {row : OutputRow}
      (hrow : disk.outputOutbox.find? (operationId, sequence) = some row) :
      JournalWrite (.acknowledgeOutput operationId sequence) disk
        { disk with outputOutbox :=
            disk.outputOutbox.replace { row with delivered := true } }
  | acknowledge {disk : JournalDisk} {receiptId : Uuid} {row : OutboxRow}
      (hrow : disk.outbox.find? receiptId = some row) :
      JournalWrite (.acknowledge receiptId) disk { disk with
        outbox := disk.outbox.replace { row with delivered := true } }
  | intent {call : JournalCall} {disk : JournalDisk} (localMcpCalls) :
      JournalWrite call disk { disk with localMcpCalls }
  | service {call : JournalCall} {disk : JournalDisk} (serviceEvents) :
      JournalWrite call disk { disk with serviceEvents }

variable {host : JournalHost} {disk next : JournalDisk} {row : EntryRow}
  {receipt : RuntimeBridgeReceipt} {receiptId : Uuid}
  {signal : RuntimeOperationSignal} {evidence : Option ReceiptEvidence}
  {state : EntryState}

theorem settle_attempt
    (h : settle host row receiptId signal evidence state disk =
      .ok (receipt, next)) :
    receipt.attempt = row.dispatch.snapshot.binding.attempt := by
  simp only [settle, append, setState, bind_assoc, rejectIf_bind_eq_ok,
    get_bind_eq_ok, expect_bind_eq_ok, set_bind_eq_ok, pure_bind,
    modify_bind_eq_ok, pure_eq_ok, Prod.mk.injEq] at h
  obtain ⟨_, _, _, _, rfl, _⟩ := h
  rfl

theorem settle_write {operationId : Uuid} (call : JournalCall)
    (hrow : disk.entries.find? operationId = some row)
    (hstate : isActive { row with state } = false)
    (h : settle host row receiptId signal evidence state disk =
      .ok (receipt, next)) : JournalWrite call disk next := by
  have hattempt := settle_attempt h
  obtain ⟨_, _, _, outbox, houtbox, rfl⟩ := settle_eq_ok h
  exact .settle hrow rfl hattempt hstate houtbox

/-- Every method writes what its case says. -/
theorem run_write {call : JournalCall} {result : CallResult}
    (h : call.run host disk = .ok (result, next)) :
    JournalWrite call disk next := by
  cases call
  all_goals obtain ⟨_, hcall, _⟩ := map_eq_ok.1 h
  case receive =>
    rcases receive_eq_ok hcall with ⟨_, rfl⟩ | ⟨_, entries, hinsert, rfl⟩
    · exact .none
    · exact .receive hinsert
  case begin =>
    obtain ⟨row, hrow, hstate, _, rfl⟩ := begin_eq_ok hcall
    exact .begin hrow hstate
  case prepareLocalMcpCall =>
    obtain ⟨_, rfl⟩ := prepareLocalMcpCall_eq_ok hcall
    exact .intent _
  case outcome =>
    obtain ⟨_, hrow, _, _, _, hsettle, _⟩ := outcome_eq_ok hcall
    exact settle_write _ hrow rfl hsettle
  case stopped =>
    obtain ⟨_, hrow, _, _, _, hsettle, _⟩ := stopped_eq_ok hcall
    exact settle_write _ hrow rfl hsettle
  case uncertain =>
    obtain ⟨_, hrow, _, hsettle⟩ := uncertain_eq_ok hcall
    exact settle_write _ hrow rfl hsettle
  case changesetCheckpoint operationId index result _ _ =>
    obtain ⟨_, _, hrow, hfile, _, _, rfl⟩ := changesetCheckpoint_eq_ok hcall
    obtain ⟨_, hput⟩ := putChangesetFile_eq disk ⟨operationId, index, result⟩
    rw [hput]
    exact .checkpoint hrow hfile hput
  case reconcileLocalPdf | reconcileLocalPython | reconcileLocalCommand =>
    obtain ⟨_, hrow, _, _, _, _, hsettle⟩ := reconcile_eq_ok hcall
    exact settle_write _ hrow rfl hsettle
  case recordOutput =>
    obtain ⟨row, hrow, rfl, hwrite⟩ := recordOutput_eq_ok hcall
    rcases hwrite with ⟨rfl, _⟩ | ⟨hstate, hnext, _, hinsert, rfl⟩
    · exact .none
    · exact .output hrow hstate hnext hinsert
  case acknowledgeOutput =>
    rcases acknowledgeOutput_eq_ok hcall with rfl | ⟨_, hrow, rfl⟩
    · exact .none
    · exact .acknowledgeOutput hrow
  case acknowledge =>
    rcases acknowledge_eq_ok hcall with rfl | ⟨_, hrow, rfl⟩
    · exact .none
    · exact .acknowledge hrow
  case serviceEvent =>
    obtain ⟨_, rfl⟩ := serviceEvent_eq_ok hcall
    exact .service _
  case acknowledgeService =>
    obtain ⟨_, rfl⟩ := acknowledgeService_eq_ok hcall
    exact .service _

/-- The recovery of an operation writes what a report writes. -/
theorem recoverEntry_write {inputs : ReceiptInputs}
    (h : recoverEntry host row inputs disk = .ok (receipt, next)) :
    ∃ result, JournalWrite (.outcome row.operationId result inputs) disk
      next := by
  rcases recoverEntry_eq_ok h with ⟨result, hcall⟩ | ⟨_, hcall⟩
  · obtain ⟨_, hrow, _, _, _, hsettle, _⟩ := outcome_eq_ok hcall
    exact ⟨result, settle_write _ hrow rfl hsettle⟩
  · obtain ⟨_, hrow, _, hsettle⟩ := uncertain_eq_ok hcall
    exact ⟨⟨.failed, .none, [], none, none⟩, settle_write _ hrow rfl hsettle⟩

/-- The calls that wait for their transaction. -/
def JournalState.calls (s : JournalState) : List JournalCall :=
  match s.process with
  | .live journal => journal.calls
  | _ => []

/-- What one step does to the rows and to the waiting calls. -/
structure StepWrites (s next : JournalState) (action : JournalAction) :
    Prop where
  disk : ∃ call, JournalWrite call s.disk next.disk ∧
    ∀ operationId sequence,
      call = .acknowledgeOutput operationId sequence → call ∈ s.calls
  calls : ∀ call ∈ next.calls,
    call ∈ s.calls ∨ ∃ path, action = .enter call path

theorem StepWrites.of_disk {s next : JournalState} {action : JournalAction}
    (hdisk : next.disk = s.disk)
    (hcalls : ∀ call ∈ next.calls,
      call ∈ s.calls ∨ ∃ path, action = .enter call path) :
    StepWrites s next action := by
  refine ⟨⟨.begin 0, ?_, ?_⟩, hcalls⟩
  · rw [hdisk]
    exact .none
  · intro operationId sequence hcall
    exact absurd hcall (by simp)

theorem guard_calls (journal : LiveJournal) (path : PathCheck) :
    (guard journal path).1.calls = journal.calls := by
  unfold guard
  split
  · rfl
  · cases path <;> rfl

theorem enterCall_calls (host : JournalHost) (journal : LiveJournal)
    (entering : JournalCall) (path : PathCheck) :
    ∀ call ∈ (enterCall host journal entering path).1.calls,
      call ∈ journal.calls ∨ call = entering := by
  have hguard := guard_calls journal path
  intro call hcall
  unfold enterCall at hcall
  cases hchecks : entering.checks host with
  | error failure =>
    simp only [hchecks] at hcall
    exact .inl (hguard ▸ hcall)
  | ok _ =>
    cases hpath : guard journal path with
    | mk journal' result =>
      rw [hpath] at hguard
      cases result with
      | error failure =>
        simp only [hchecks, hpath] at hcall
        exact .inl (hguard ▸ hcall)
      | ok _ =>
        simp only [hchecks, hpath, List.mem_append,
          List.mem_singleton] at hcall
        exact hcall.imp_left (hguard ▸ ·)

theorem performCall_writes (host : JournalHost) (disk : JournalDisk)
    (journal : LiveJournal) (index : Nat) (fault : Bool) :
    StepWrites ⟨disk, .live journal⟩
      (performCall host disk journal index fault).1 (.perform index fault) := by
  unfold performCall
  cases hcall : journal.calls[index]? with
  | none => exact .of_disk rfl fun _ h => .inl h
  | some call =>
    have hrest : ∀ other ∈ journal.calls.eraseIdx index,
        other ∈ journal.calls := fun other h =>
      (List.eraseIdx_sublist _ _).subset h
    by_cases hfault : (journal.closed || fault) = true
    · simp only [hfault, ↓reduceIte]
      exact .of_disk rfl fun other h => .inl (hrest other h)
    · simp only [hfault, Bool.false_eq_true, ↓reduceIte]
      cases hrun : call.run host disk with
      | error failure =>
        exact .of_disk rfl fun other h => .inl (hrest other h)
      | ok pair =>
        obtain ⟨result, next⟩ := pair
        refine ⟨⟨call, run_write hrun, ?_⟩, ?_⟩
        · exact fun _ _ _ => List.mem_of_getElem? hcall
        · exact fun other h => .inl (hrest other h)

theorem recoverNext_writes (host : JournalHost) (disk : JournalDisk)
    (rows : List EntryRow) (inputs : ReceiptInputs) (path : PathCheck)
    (fault : Bool) :
    StepWrites ⟨disk, .recovering rows⟩
      (recoverNext host disk rows inputs path fault).1
      (.recover inputs path fault) := by
  have hnone : ∀ {state : JournalState} {action : JournalAction},
      state.calls = [] → ∀ call ∈ state.calls, call ∈ ([] : List JournalCall) ∨
        ∃ path, action = .enter call path := by
    intro state action hstate call hcall
    rw [hstate] at hcall
    simp at hcall
  unfold recoverNext
  split
  · exact .of_disk rfl (hnone rfl)
  · split
    · exact .of_disk rfl (hnone rfl)
    · exact .of_disk rfl (hnone rfl)
    · exact .of_disk rfl (hnone rfl)
    · rename_i hrecover
      obtain ⟨result, hwrite⟩ := recoverEntry_write hrecover
      refine ⟨⟨_, hwrite, ?_⟩, hnone rfl⟩
      intro operationId sequence hcall
      exact absurd hcall (by simp)

/-- Every step writes what one call writes. -/
theorem journalStep_writes (host : JournalHost) (s : JournalState)
    (action : JournalAction) :
    StepWrites s (journalStep host s action).1 action := by
  obtain ⟨disk, process⟩ := s
  cases action with
  | openJournal =>
    simp only [journalStep]
    split
    · exact .of_disk rfl fun _ h => by simp [JournalState.calls] at h
    · exact .of_disk rfl fun _ h => .inl h
  | recover inputs path fault =>
    cases process with
    | recovering rows => exact recoverNext_writes host disk rows _ _ _
    | _ => exact .of_disk rfl fun _ h => .inl h
  | enter call path =>
    cases process with
    | live journal =>
      refine .of_disk rfl ?_
      intro other hother
      rcases enterCall_calls host journal call path other hother with
        hold | rfl
      · exact .inl hold
      · exact .inr ⟨path, rfl⟩
    | _ => exact .of_disk rfl fun _ h => .inl h
  | perform index fault =>
    cases process with
    | live journal => exact performCall_writes host disk journal _ _
    | _ => exact .of_disk rfl fun _ h => .inl h
  | close =>
    cases process with
    | live journal => exact .of_disk rfl fun _ h => .inl h
    | _ => exact .of_disk rfl fun _ h => .inl h
  | crash =>
    refine .of_disk rfl ?_
    intro call hcall
    simp [JournalState.calls, journalStep] at hcall

end Allrice
