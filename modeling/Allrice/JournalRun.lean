/-
Runs of a journal.  One step makes at most the one move that its answer names,
so an operation is begun at most once, its state never goes back, and its
receipts say exactly what its state says, over every run with any number of
crashes and reopenings.
-/
import Allrice.JournalMachine

namespace Allrice

open Tx

/-- The move that a successful call stands for. -/
def moveOf : JournalCall → CallResult → Option (RecordMove × Uuid)
  | .receive dispatch _ _, .received .new =>
    some (.receive, dispatch.operationId)
  | .begin operationId, _ => some (.begin, operationId)
  | .outcome operationId _ _, _ | .stopped operationId _ _ _, _
  | .uncertain operationId _ _ _, _ => some (.report, operationId)
  | .reconcileLocalPdf operationId _ _, _
  | .reconcileLocalPython operationId _ _, _
  | .reconcileLocalCommand operationId _ _, _ =>
    some (.reconcile, operationId)
  | _, _ => none

/-- What a move, or none, does to the records. -/
def Makes (move : Option (RecordMove × Uuid)) (disk next : JournalDisk) :
    Prop :=
  match move with
  | none => SameRecords disk next
  | some (move, operationId) => Moves move operationId disk next

variable {v v' record : OperationRecord} {disk next : JournalDisk}
  {operationId : Uuid}

/-- Every method makes exactly the move that its name and result say. -/
theorem run_makes {host : JournalHost} {call : JournalCall}
    {result : CallResult} (h : call.run host disk = .ok (result, next)) :
    Makes (moveOf call result) disk next := by
  cases call
  all_goals obtain ⟨answer, hcall, rfl⟩ := map_eq_ok.1 h
  case receive =>
    cases answer with
    | new => exact receive_new_record hcall
    | duplicate =>
      rw [receive_duplicate_eq hcall]
      exact fun _ => rfl
  case begin =>
    exact begin_record hcall
  case prepareLocalMcpCall =>
    obtain ⟨_, rfl⟩ := prepareLocalMcpCall_eq_ok hcall
    exact record_congr rfl rfl
  case outcome =>
    exact outcome_record hcall
  case stopped =>
    exact stopped_record hcall
  case uncertain =>
    exact uncertain_record hcall
  case changesetCheckpoint operationId index result =>
    obtain ⟨_, _, _, _, _, _, rfl⟩ := changesetCheckpoint_eq_ok hcall
    obtain ⟨_, hput⟩ := putChangesetFile_eq disk ⟨operationId, index, result⟩
    rw [hput]
    exact record_congr rfl rfl
  case reconcileLocalPdf | reconcileLocalPython | reconcileLocalCommand =>
    exact reconcile_record hcall
  case recordOutput =>
    obtain ⟨_, _, _, ⟨rfl, _⟩ | ⟨_, _, _, _, rfl⟩⟩ := recordOutput_eq_ok hcall
    · exact fun _ => rfl
    · exact record_congr rfl rfl
  case acknowledgeOutput =>
    rcases acknowledgeOutput_eq_ok hcall with rfl | ⟨_, _, rfl⟩
    · exact fun _ => rfl
    · exact record_congr rfl rfl
  case acknowledge =>
    exact acknowledge_record hcall
  case serviceEvent =>
    obtain ⟨_, rfl⟩ := serviceEvent_eq_ok hcall
    exact record_congr rfl rfl
  case acknowledgeService =>
    obtain ⟨_, rfl⟩ := acknowledgeService_eq_ok hcall
    exact record_congr rfl rfl

variable {receipt : RuntimeBridgeReceipt} {signal : RuntimeOperationSignal}

/-- A recovered operation is reported, whichever branch it takes. -/
theorem recoverEntry_moves {host : JournalHost} {row : EntryRow}
    {inputs : ReceiptInputs}
    (h : recoverEntry host row inputs disk = .ok (receipt, next)) :
    Moves .report row.operationId disk next := by
  rcases recoverEntry_eq_ok h with ⟨_, hcall⟩ | ⟨_, hcall⟩
  · exact outcome_record hcall
  · exact uncertain_record hcall

/-- The move that the answer of a step stands for. -/
def JournalAnswer.move : JournalAnswer → Option (RecordMove × Uuid)
  | .done call result => moveOf call result
  | .recovered operationId => some (.report, operationId)
  | _ => none

theorem enterCall_move (host : JournalHost) (journal : LiveJournal)
    (call : JournalCall) (path : PathCheck) :
    (enterCall host journal call path).2.move = none := by
  unfold enterCall
  split <;> rfl

theorem performCall_makes (host : JournalHost) (disk : JournalDisk)
    (journal : LiveJournal) (index : Nat) (fault : Bool) :
    Makes (performCall host disk journal index fault).2.move disk
      (performCall host disk journal index fault).1.disk := by
  unfold performCall
  split
  · exact fun _ => rfl
  · split
    · exact fun _ => rfl
    · split
      · rename_i hrun
        exact run_makes hrun
      · exact fun _ => rfl

theorem recoverNext_makes (host : JournalHost) (disk : JournalDisk)
    (rows : List EntryRow) (inputs : ReceiptInputs) (path : PathCheck)
    (fault : Bool) :
    Makes (recoverNext host disk rows inputs path fault).2.move disk
      (recoverNext host disk rows inputs path fault).1.disk := by
  unfold recoverNext
  split
  · exact fun _ => rfl
  · split
    · exact fun _ => rfl
    · exact fun _ => rfl
    · exact fun _ => rfl
    · rename_i hrecover
      exact recoverEntry_moves hrecover

/-- One step of the journal makes the move that its answer names. -/
theorem step_makes (host : JournalHost) (s : JournalState)
    (action : JournalAction) :
    Makes ((journalMachine host).step s action).2.move s.disk
      ((journalMachine host).step s action).1.disk := by
  cases action with
  | openJournal =>
    simp only [journalMachine, journalStep]
    split <;> exact fun _ => rfl
  | recover inputs path fault =>
    simp only [journalMachine, journalStep]
    split
    · exact recoverNext_makes host s.disk _ inputs path fault
    · exact fun _ => rfl
  | enter call path =>
    simp only [journalMachine, journalStep]
    split
    · rw [enterCall_move]
      exact fun _ => rfl
    · exact fun _ => rfl
  | perform index fault =>
    simp only [journalMachine, journalStep]
    split
    · exact performCall_makes host s.disk _ index fault
    · exact fun _ => rfl
  | close =>
    simp only [journalMachine, journalStep]
    split <;> exact fun _ => rfl
  | crash => exact fun _ => rfl

/-- The states from which an operation cannot be begun any more. -/
def isStarted : Option EntryState → Bool
  | some .executing | some .completed | some .unknown => true
  | _ => false

theorem RecordStep.started {move : RecordMove} (h : RecordStep move v v')
    (hstarted : isStarted v.state = true) : isStarted v'.state = true := by
  cases h <;> simp_all [isStarted]

theorem RecordStep.isSome {move : RecordMove} (h : RecordStep move v v') :
    v'.state.isSome = true := by
  cases h <;> rfl

theorem RecordStep.begin_started (h : RecordStep .begin v v') :
    isStarted v.state = false ∧ isStarted v'.state = true := by
  cases h
  exact ⟨rfl, rfl⟩

theorem RecordStep.report_settled (h : RecordStep .report v v') :
    v'.state = some .completed ∨ v'.state = some .unknown := by
  cases h
  · exact .inl rfl
  · exact .inr rfl

/-- The state of an operation's entry. -/
def JournalState.entryState (s : JournalState) (operationId : Uuid) :
    Option EntryState :=
  (s.disk.record operationId).state

theorem Makes.started {move : Option (RecordMove × Uuid)}
    (h : Makes move disk next)
    (hstarted : isStarted (disk.record operationId).state = true) :
    isStarted (next.record operationId).state = true := by
  match move, h with
  | none, hsame => rwa [hsame operationId]
  | some (move, target), hmoves =>
    by_cases htarget : operationId = target
    · subst htarget
      exact hmoves.step.started hstarted
    · rwa [hmoves.frame operationId htarget]

theorem Makes.isSome {move : Option (RecordMove × Uuid)}
    (h : Makes move disk next)
    (hsome : (disk.record operationId).state.isSome = true) :
    (next.record operationId).state.isSome = true := by
  match move, h with
  | none, hsame => rwa [hsame operationId]
  | some (move, target), hmoves =>
    by_cases htarget : operationId = target
    · subst htarget
      exact hmoves.step.isSome
    · rwa [hmoves.frame operationId htarget]

/-- While a journal recovers, every operation that is still active stands in
the rows that are left; an open journal has called no recovery off. -/
def RecoveryComplete (s : JournalState) : Prop :=
  match s.process with
  | .recovering rows => ∀ operationId,
      s.entryState operationId = some .received ∨
        s.entryState operationId = some .executing →
      operationId ∈ rows.map (·.operationId)
  | _ => True

theorem active_mem_filter
    (h : (disk.record operationId).state = some .received ∨
      (disk.record operationId).state = some .executing) :
    operationId ∈
      (disk.entries.rows.filter isActive).map (·.operationId) := by
  simp only [JournalDisk.record, Option.map_eq_some_iff] at h
  obtain ⟨row, hrow, hactive⟩ : ∃ row,
      disk.entries.find? operationId = some row ∧ isActive row = true := by
    rcases h with ⟨row, hrow, hstate⟩ | ⟨row, hrow, hstate⟩
    · exact ⟨row, hrow, isActive_iff.2 (.inl hstate)⟩
    · exact ⟨row, hrow, isActive_iff.2 (.inr hstate)⟩
  rw [← Table.key_of_find? hrow]
  exact List.mem_map_of_mem
    (List.mem_filter.2 ⟨Table.mem_of_find? hrow, hactive⟩)

/-- After the head row was reported, the active operations are in the rest. -/
theorem recoverNext_complete (host : JournalHost) (disk : JournalDisk)
    (rows : List EntryRow) (inputs : ReceiptInputs) (path : PathCheck)
    (fault : Bool) (h : RecoveryComplete ⟨disk, .recovering rows⟩) :
    RecoveryComplete (recoverNext host disk rows inputs path fault).1 := by
  unfold recoverNext
  split
  · trivial
  · rename_i row rest
    split
    · trivial
    · trivial
    · trivial
    · rename_i receipt next hrecover
      have hmoves := recoverEntry_moves hrecover
      intro operationId hactive
      simp only [JournalState.entryState] at hactive
      by_cases htarget : operationId = row.operationId
      · subst htarget
        rcases hmoves.step.report_settled with hs | hs <;>
          simp [hs] at hactive
      · rw [hmoves.frame operationId htarget] at hactive
        have hmem := h operationId hactive
        simp only [List.map_cons, List.mem_cons] at hmem
        exact hmem.resolve_left htarget

theorem step_complete (host : JournalHost) (s : JournalState)
    (action : JournalAction) (h : RecoveryComplete s) :
    RecoveryComplete ((journalMachine host).step s action).1 := by
  cases action with
  | openJournal =>
    simp only [journalMachine, journalStep]
    split
    · exact fun _ => active_mem_filter
    · exact h
  | recover inputs path fault =>
    simp only [journalMachine, journalStep]
    split
    · rename_i rows hprocess
      refine recoverNext_complete host s.disk rows inputs path fault ?_
      have hs : s = ⟨s.disk, .recovering rows⟩ := by
        cases s
        simp_all
      rwa [← hs]
    · exact h
  | enter call path =>
    simp only [journalMachine, journalStep]
    split
    · trivial
    · exact h
  | perform index fault =>
    simp only [journalMachine, journalStep]
    split
    · unfold performCall
      split
      · trivial
      · split
        · trivial
        · split <;> trivial
    · exact h
  | close =>
    simp only [journalMachine, journalStep]
    split
    · trivial
    · exact h
  | crash => trivial

/-- An operation that can never be begun again: it has been started, or it is
known to a journal that has to be recovered before its next use. -/
def Claimed (operationId : Uuid) (s : JournalState) : Prop :=
  isStarted (s.entryState operationId) = true ∨
    ((s.entryState operationId).isSome = true ∧
      ((∃ rows, s.process = .recovering rows) ∨ s.process.isFree = true))

/-- The answer that says an operation was begun. -/
def isBegun (operationId : Uuid) : JournalAction × JournalAnswer → Bool
  | (_, .done (.begin id) _) => id = operationId
  | _ => false

theorem isBegun_iff {event : JournalAction × JournalAnswer} :
    isBegun operationId event = true ↔
      event.2.move = some (.begin, operationId) := by
  obtain ⟨action, answer⟩ := event
  cases answer with
  | done call result =>
    cases call with
    | receive =>
      cases result with
      | received answer =>
        cases answer <;> simp [isBegun, JournalAnswer.move, moveOf]
      | _ => simp [isBegun, JournalAnswer.move, moveOf]
    | _ => simp [isBegun, JournalAnswer.move, moveOf]
  | _ => simp [isBegun, JournalAnswer.move]

theorem started_of_not_active {state : Option EntryState}
    (hsome : state.isSome = true)
    (h : ¬(state = some .received ∨ state = some .executing)) :
    isStarted state = true := by
  cases state with
  | none => simp at hsome
  | some state => cases state <;> simp_all [isStarted]

/-- A journal without a usable process becomes usable only after every
operation it knows was reported. -/
theorem step_held (host : JournalHost) (s : JournalState)
    (action : JournalAction) (hcomplete : RecoveryComplete s)
    (hprocess : (∃ rows, s.process = .recovering rows) ∨
      s.process.isFree = true) :
    ((∃ rows, ((journalMachine host).step s action).1.process =
          .recovering rows) ∨
        ((journalMachine host).step s action).1.process.isFree = true) ∨
      (((journalMachine host).step s action).1.disk = s.disk ∧
        ∀ operationId, ¬(s.entryState operationId = some .received ∨
          s.entryState operationId = some .executing)) := by
  obtain ⟨disk, process⟩ := s
  cases action with
  | openJournal =>
    simp only [journalMachine, journalStep]
    split
    · exact .inl (.inl ⟨_, rfl⟩)
    · exact .inl hprocess
  | recover inputs path fault =>
    cases process with
    | recovering rows =>
      simp only [journalMachine, journalStep, recoverNext]
      cases rows with
      | nil =>
        right
        refine ⟨rfl, fun operationId hactive => ?_⟩
        simpa using hcomplete operationId hactive
      | cons row rest =>
        left
        simp only
        split
        · exact .inr rfl
        · exact .inr rfl
        · exact .inr rfl
        · exact .inl ⟨_, rfl⟩
    | _ => exact .inl hprocess
  | enter call path =>
    cases process with
    | live journal =>
      have hclosed : journal.closed = true := by
        simpa [JournalProcess.isFree] using hprocess
      left
      right
      simp only [journalMachine, journalStep, enterCall, guard, hclosed,
        Bool.true_or, ↓reduceIte]
      split <;> simp_all [JournalProcess.isFree]
    | _ => exact .inl hprocess
  | perform index fault =>
    cases process with
    | live journal =>
      have hclosed : journal.closed = true := by
        simpa [JournalProcess.isFree] using hprocess
      left
      right
      simp only [journalMachine, journalStep, performCall]
      split
      · exact hclosed
      · simp [hclosed, JournalProcess.isFree]
    | _ => exact .inl hprocess
  | close =>
    cases process with
    | live journal => exact .inl (.inr rfl)
    | _ => exact .inl hprocess
  | crash => exact .inl (.inr rfl)

theorem claimed_step (host : JournalHost) (operationId : Uuid)
    (s : JournalState) (action : JournalAction) (hcomplete : RecoveryComplete s)
    (h : Claimed operationId s) :
    Claimed operationId ((journalMachine host).step s action).1 := by
  have hmakes := step_makes host s action
  rcases h with hstarted | ⟨hsome, hprocess⟩
  · exact .inl (hmakes.started hstarted)
  · rcases step_held host s action hcomplete hprocess with
      hheld | ⟨hdisk, hidle⟩
    · exact .inr ⟨hmakes.isSome hsome, hheld⟩
    · left
      simp only [JournalState.entryState, hdisk]
      exact started_of_not_active hsome (hidle operationId)

/-- Only an open journal begins an operation, and only a received one. -/
theorem not_begun_of_claimed (host : JournalHost) (operationId : Uuid)
    (s : JournalState) (action : JournalAction)
    (h : Claimed operationId s) :
    isBegun operationId (action, ((journalMachine host).step s action).2) =
      false := by
  by_contra hbegun
  simp only [Bool.not_eq_false, isBegun_iff] at hbegun
  have hmakes := step_makes host s action
  rw [hbegun] at hmakes
  have hfresh := hmakes.step.begin_started.1
  rcases h with hstarted | ⟨_, hprocess⟩
  · simp only [JournalState.entryState] at hstarted
    simp [hfresh] at hstarted
  · obtain ⟨disk, process⟩ := s
    cases action with
    | perform index fault =>
      cases process with
      | live journal =>
        have hclosed : journal.closed = true := by
          simpa [JournalProcess.isFree] using hprocess
        simp only [journalMachine, journalStep, performCall] at hbegun
        split at hbegun
        · simp [JournalAnswer.move] at hbegun
        · simp [hclosed, JournalAnswer.move] at hbegun
      | _ => simp [journalMachine, journalStep, JournalAnswer.move] at hbegun
    | enter call path =>
      cases process with
      | live journal =>
        simp only [journalMachine, journalStep, enterCall_move] at hbegun
        simp at hbegun
      | _ => simp [journalMachine, journalStep, JournalAnswer.move] at hbegun
    | recover inputs path fault =>
      cases process with
      | recovering rows =>
        simp only [journalMachine, journalStep, recoverNext] at hbegun
        split at hbegun
        · simp [JournalAnswer.move] at hbegun
        · split at hbegun <;> simp [JournalAnswer.move] at hbegun
      | _ => simp [journalMachine, journalStep, JournalAnswer.move] at hbegun
    | openJournal =>
      simp only [journalMachine, journalStep] at hbegun
      split at hbegun <;> simp [JournalAnswer.move] at hbegun
    | close =>
      cases process <;>
        simp [journalMachine, journalStep, JournalAnswer.move] at hbegun
    | crash => simp [journalMachine, journalStep, JournalAnswer.move] at hbegun

theorem claimed_of_begun (host : JournalHost) (operationId : Uuid)
    (s : JournalState) (action : JournalAction)
    (h : isBegun operationId (action, ((journalMachine host).step s action).2) =
      true) :
    Claimed operationId ((journalMachine host).step s action).1 := by
  simp only [isBegun_iff] at h
  have hmakes := step_makes host s action
  rw [h] at hmakes
  exact .inl hmakes.step.begin_started.2

theorem initial_complete : RecoveryComplete JournalState.initial := trivial

theorem reachable_complete (host : JournalHost)
    (actions : List JournalAction) :
    RecoveryComplete ((journalMachine host).after .initial actions) :=
  Machine.after_invariant _ (step_complete host) initial_complete actions

theorem begun_countP_le_one (host : JournalHost) (operationId : Uuid)
    (actions : List JournalAction) :
    ((journalMachine host).events .initial actions).countP
      (isBegun operationId) ≤ 1 :=
  Machine.events_countP_le_one _ (Claimed operationId)
    (step_complete host)
    (claimed_step host operationId)
    (fun s action _ => not_begun_of_claimed host operationId s action)
    (fun s action _ => claimed_of_begun host operationId s action)
    initial_complete actions

/-- The moves of an operation's state.  Only a reconciliation leaves
`unknown`. -/
inductive EntryMove (reconciled : Prop) :
    Option EntryState → Option EntryState → Prop
  | stay (state) : EntryMove reconciled state state
  | receive : EntryMove reconciled none (some .received)
  | begin : EntryMove reconciled (some .received) (some .executing)
  | finish {state} (hstate : state = .received ∨ state = .executing) :
      EntryMove reconciled (some state) (some .completed)
  | doubt {state} (hstate : state = .received ∨ state = .executing) :
      EntryMove reconciled (some state) (some .unknown)
  | reconcile (h : reconciled) :
      EntryMove reconciled (some .unknown) (some .completed)

theorem RecordStep.entryMove {move : RecordMove} {reconciled : Prop}
    (h : RecordStep move v v') (hreconciled : move = .reconcile → reconciled) :
    EntryMove reconciled v.state v'.state := by
  cases h with
  | receive => exact .receive
  | begin => exact .begin
  | final hstate => exact .finish hstate
  | uncertain hstate => exact .doubt hstate
  | reconcile => exact .reconcile (hreconciled rfl)

/-- The answer of a successful reconcile call for an operation. -/
def isReconciled (operationId : Uuid) : JournalAnswer → Bool
  | .done (.reconcileLocalPdf id _ _) _
  | .done (.reconcileLocalPython id _ _) _
  | .done (.reconcileLocalCommand id _ _) _ => id = operationId
  | _ => false

theorem isReconciled_of_move {answer : JournalAnswer}
    (h : answer.move = some (.reconcile, operationId)) :
    isReconciled operationId answer = true := by
  cases answer with
  | done call result =>
    simp only [JournalAnswer.move] at h
    cases call with
    | receive =>
      cases result with
      | received answer => cases answer <;> simp [moveOf] at h
      | _ => simp [moveOf] at h
    | _ => simp_all [moveOf, isReconciled]
  | _ => simp [JournalAnswer.move] at h

theorem step_entryMove (host : JournalHost) (operationId : Uuid)
    (s : JournalState) (action : JournalAction) :
    EntryMove
      (isReconciled operationId ((journalMachine host).step s action).2 = true)
      (s.entryState operationId)
      (((journalMachine host).step s action).1.entryState operationId) := by
  have hmakes := step_makes host s action
  simp only [JournalState.entryState]
  cases hmove : ((journalMachine host).step s action).2.move with
  | none =>
    rw [hmove] at hmakes
    rw [hmakes operationId]
    exact .stay _
  | some made =>
    obtain ⟨move, target⟩ := made
    rw [hmove] at hmakes
    by_cases htarget : operationId = target
    · subst htarget
      refine hmakes.step.entryMove fun hreconcile => ?_
      exact isReconciled_of_move (hreconcile ▸ hmove)
    · rw [hmakes.frame operationId htarget]
      exact .stay _

/-- Over every run of a journal, with crashes and reopenings at any point, an
operation is begun at most once, its state only moves forward, and one that was
active when the journal was reopened is never begun again. -/
theorem journal_begins_at_most_once (host : JournalHost) (operationId : Uuid) :
    (∀ actions,
      ((journalMachine host).events .initial actions).countP
        (isBegun operationId) ≤ 1) ∧
    (∀ past action,
      let s := (journalMachine host).after .initial past
      let reached := (journalMachine host).step s action
      EntryMove (isReconciled operationId reached.2 = true)
        (s.entryState operationId) (reached.1.entryState operationId)) ∧
    (∀ past rest,
      let s := (journalMachine host).after .initial past
      s.process.isFree = true →
      s.entryState operationId = some .received ∨
        s.entryState operationId = some .executing →
      ∀ event ∈ (journalMachine host).events s (.openJournal :: rest),
        isBegun operationId event = false) := by
  refine ⟨begun_countP_le_one host operationId, ?_, ?_⟩
  · intro past action s
    exact step_entryMove host operationId s action
  · intro past rest s hfree hactive event hevent
    have hclaimed : Claimed operationId s := by
      refine .inr ⟨?_, .inr hfree⟩
      rcases hactive with h | h <;> rw [h] <;> rfl
    have havoid := Machine.events_avoid (Claimed operationId)
      (fun e => isBegun operationId e = true)
      (step_complete host) (claimed_step host operationId)
      (fun t action _ hc => by
        rw [not_begun_of_claimed host operationId t action hc]
        simp)
      (reachable_complete host past) hclaimed (.openJournal :: rest)
    exact Bool.eq_false_iff.2 (havoid event hevent)

/-- A receipt that ends an operation, for good or until it is reconciled. -/
def isTerminalReceipt (receipt : RuntimeBridgeReceipt) : Bool :=
  isFinalSignal receipt.signal || isUncertainSignal receipt.signal

/-- What the state of an operation says about its receipts. -/
def ReceiptsAgree (record : OperationRecord) : Prop :=
  match record.state with
  | none | some .received | some .executing => record.receipts = []
  | some .unknown => ∃ doubt, isUncertainSignal doubt.signal = true ∧
      record.receipts = [doubt]
  | some .completed => ∃ final, isFinalSignal final.signal = true ∧
      (record.receipts = [final] ∨
        ∃ doubt, isUncertainSignal doubt.signal = true ∧
          record.receipts = [doubt, final])

theorem RecordStep.receiptsAgree {move : RecordMove} (h : RecordStep move v v')
    (hagree : ReceiptsAgree v) : ReceiptsAgree v' := by
  cases h with
  | receive receipts | begin receipts => exact hagree
  | final hstate receipts receipt hsignal =>
    have hnil : receipts = [] := by
      rcases hstate with rfl | rfl <;> exact hagree
    subst hnil
    exact ⟨receipt, hsignal, .inl rfl⟩
  | uncertain hstate receipts receipt hsignal =>
    have hnil : receipts = [] := by
      rcases hstate with rfl | rfl <;> exact hagree
    subst hnil
    exact ⟨receipt, hsignal, rfl⟩
  | reconcile receipts receipt hsignal =>
    obtain ⟨doubt, hdoubt, hreceipts⟩ := hagree
    simp only at hreceipts
    subst hreceipts
    exact ⟨receipt, hsignal, .inr ⟨doubt, hdoubt, rfl⟩⟩

theorem step_receiptsAgree (host : JournalHost) (s : JournalState)
    (action : JournalAction)
    (h : ∀ operationId, ReceiptsAgree (s.disk.record operationId)) :
    ∀ operationId, ReceiptsAgree
      (((journalMachine host).step s action).1.disk.record operationId) := by
  intro operationId
  have hmakes := step_makes host s action
  match ((journalMachine host).step s action).2.move, hmakes with
  | none, hsame => rw [hsame operationId]; exact h operationId
  | some (move, target), hmoves =>
    by_cases htarget : operationId = target
    · subst htarget
      exact hmoves.step.receiptsAgree (h operationId)
    · rw [hmoves.frame operationId htarget]
      exact h operationId

theorem reachable_receiptsAgree (host : JournalHost)
    (actions : List JournalAction) (operationId : Uuid) :
    ReceiptsAgree
      (((journalMachine host).after .initial actions).disk.record
        operationId) := by
  refine Machine.after_invariant
    (fun s : JournalState => ∀ id, ReceiptsAgree (s.disk.record id))
    (step_receiptsAgree host) ?_ actions operationId
  exact fun _ => rfl

/-- What a step may add to an operation's receipts. -/
structure ReceiptStep (v v' : OperationRecord) : Prop where
  grows : v.receipts <+: v'.receipts
  frozen : v.state = some .completed → v' = v
  together : v'.state ≠ v.state →
    (v'.state = some .completed ∨ v'.state = some .unknown) →
    ∃ receipt, isTerminalReceipt receipt = true ∧
      v'.receipts = v.receipts ++ [receipt]

theorem ReceiptStep.refl (v : OperationRecord) : ReceiptStep v v :=
  ⟨List.prefix_refl _, fun _ => rfl, fun h => absurd rfl h⟩

theorem RecordStep.receiptStep {move : RecordMove} (h : RecordStep move v v') :
    ReceiptStep v v' := by
  cases h with
  | receive receipts | begin receipts =>
    exact ⟨List.prefix_refl _, by simp, by simp⟩
  | final hstate receipts receipt hsignal
  | uncertain hstate receipts receipt hsignal =>
    refine ⟨List.prefix_append _ _, ?_, ?_⟩
    · rcases hstate with rfl | rfl <;> simp
    · exact fun _ _ => ⟨receipt, by simp [isTerminalReceipt, hsignal], rfl⟩
  | reconcile receipts receipt hsignal =>
    refine ⟨List.prefix_append _ _, by simp, ?_⟩
    exact fun _ _ => ⟨receipt, by simp [isTerminalReceipt, hsignal], rfl⟩

theorem step_receiptStep (host : JournalHost) (operationId : Uuid)
    (s : JournalState) (action : JournalAction) :
    ReceiptStep (s.disk.record operationId)
      (((journalMachine host).step s action).1.disk.record operationId) := by
  have hmakes := step_makes host s action
  match ((journalMachine host).step s action).2.move, hmakes with
  | none, hsame => rw [hsame operationId]; exact .refl _
  | some (move, target), hmoves =>
    by_cases htarget : operationId = target
    · subst htarget
      exact hmoves.step.receiptStep
    · rw [hmoves.frame operationId htarget]
      exact .refl _

/-- Receipts are never taken back, and a completed record is final. -/
theorem run_receipts (host : JournalHost) (operationId : Uuid)
    (s : JournalState) (actions : List JournalAction) :
    (s.disk.record operationId).receipts <+:
        (((journalMachine host).after s actions).disk.record
          operationId).receipts ∧
      (s.entryState operationId = some .completed →
        ((journalMachine host).after s actions).disk.record operationId =
          s.disk.record operationId) := by
  induction actions generalizing s with
  | nil => exact ⟨List.prefix_refl _, fun _ => rfl⟩
  | cons action rest ih =>
    have hstep := step_receiptStep host operationId s action
    obtain ⟨hgrows, hfrozen⟩ := ih ((journalMachine host).step s action).1
    refine ⟨hstep.grows.trans hgrows, fun hcompleted => ?_⟩
    have hsame := hstep.frozen hcompleted
    rw [Machine.after_cons, hfrozen, hsame]
    rwa [JournalState.entryState, hsame]

theorem not_final_of_uncertain (h : isUncertainSignal signal = true) :
    isFinalSignal signal = false := by
  cases signal <;> simp_all [isUncertainSignal, isFinalSignal]

theorem not_uncertain_of_final (h : isFinalSignal signal = true) :
    isUncertainSignal signal = false := by
  cases signal <;> simp_all [isUncertainSignal, isFinalSignal]

/-- The terminal receipts of one operation: there is one when the state says
so, none is contradicted by another, and doubt comes before the outcome. -/
structure TerminalReceipts (record : OperationRecord) : Prop where
  present : record.state = some .completed ∨ record.state = some .unknown →
    ∃ receipt ∈ record.receipts, isTerminalReceipt receipt = true
  oneFinal : record.receipts.countP (isFinalSignal ·.signal) ≤ 1
  oneUncertain : record.receipts.countP (isUncertainSignal ·.signal) ≤ 1
  doubtFirst : ∀ (i j : Nat) (doubt final : RuntimeBridgeReceipt),
    record.receipts[i]? = some doubt → isUncertainSignal doubt.signal = true →
    record.receipts[j]? = some final → isFinalSignal final.signal = true →
    i < j

theorem terminalReceipts_nil (hnil : record.receipts = [])
    (hopen : ¬(record.state = some .completed ∨ record.state = some .unknown)) :
    TerminalReceipts record := by
  refine ⟨fun h => absurd h hopen, ?_, ?_, ?_⟩ <;> simp [hnil]

theorem terminalReceipts_one (hone : record.receipts = [receipt])
    (hterminal : isTerminalReceipt receipt = true) :
    TerminalReceipts record := by
  refine ⟨fun _ => ⟨receipt, by simp [hone], hterminal⟩, ?_, ?_, ?_⟩
  · rw [hone]
    exact List.countP_le_length
  · rw [hone]
    exact List.countP_le_length
  · intro i j doubt final hi hdoubt hj hfinal
    simp only [hone, List.getElem?_singleton] at hi hj
    split at hi <;> split at hj <;> simp_all
    subst hi
    rw [not_final_of_uncertain hdoubt] at hfinal
    simp at hfinal

theorem terminalReceipts_two {doubt final : RuntimeBridgeReceipt}
    (htwo : record.receipts = [doubt, final])
    (hdoubt : isUncertainSignal doubt.signal = true)
    (hfinal : isFinalSignal final.signal = true) : TerminalReceipts record := by
  have hd := not_final_of_uncertain hdoubt
  have hf := not_uncertain_of_final hfinal
  refine ⟨fun _ => ⟨final, by simp [htwo], by
    simp [isTerminalReceipt, hfinal]⟩, ?_, ?_, ?_⟩
  · simp [htwo, hd, hfinal]
  · simp [htwo, hdoubt, hf]
  · intro i j first last hi hfirst hj hlast
    rw [htwo] at hi hj
    match i, j with
    | 0, 0 =>
      simp only [List.getElem?_cons_zero, Option.some.injEq] at hj
      subst hj
      simp [hd] at hlast
    | 0, _ + 1 => omega
    | 1, _ =>
      simp only [List.getElem?_cons_succ, List.getElem?_cons_zero,
        Option.some.injEq] at hi
      subst hi
      simp [hf] at hfirst
    | n + 2, _ => simp at hi

theorem ReceiptsAgree.terminalReceipts (h : ReceiptsAgree record) :
    TerminalReceipts record := by
  obtain ⟨state, receipts⟩ := record
  match state, h with
  | none, hnil | some .received, hnil | some .executing, hnil =>
    exact terminalReceipts_nil hnil (by simp)
  | some .unknown, ⟨doubt, hdoubt, hone⟩ =>
    exact terminalReceipts_one hone (by simp [isTerminalReceipt, hdoubt])
  | some .completed, ⟨final, hfinal, .inl hone⟩ =>
    exact terminalReceipts_one hone (by simp [isTerminalReceipt, hfinal])
  | some .completed, ⟨final, hfinal, .inr ⟨doubt, hdoubt, htwo⟩⟩ =>
    exact terminalReceipts_two htwo hdoubt hfinal

/-- Over every run of a journal, terminal receipts are written together with
the state they justify, they are never taken back or contradicted, and a
completed operation receives no further one. -/
theorem journal_receipts_settle (host : JournalHost) (operationId : Uuid) :
    (∀ actions, TerminalReceipts
      (((journalMachine host).after .initial actions).disk.record
        operationId)) ∧
    (∀ past action,
      let s := (journalMachine host).after .initial past
      ReceiptStep (s.disk.record operationId)
        (((journalMachine host).step s action).1.disk.record operationId)) ∧
    (∀ past rest,
      let s := (journalMachine host).after .initial past
      let later := (journalMachine host).after s rest
      (s.disk.record operationId).receipts <+:
          (later.disk.record operationId).receipts ∧
        (s.entryState operationId = some .completed →
          later.disk.record operationId = s.disk.record operationId)) := by
  refine ⟨?_, ?_, ?_⟩
  · intro actions
    exact (reachable_receiptsAgree host actions operationId).terminalReceipts
  · intro past action s
    exact step_receiptStep host operationId s action
  · intro past rest s later
    exact run_receipts host operationId s rest

namespace JournalRunWitness

def host : JournalHost where
  deviceId := 5
  limits := ⟨1000, 128 * 1024 * 1024⟩
  digestPayload _ := 1
  digestDispatch _ := 2
  digestEvidence _ := 3
  dispatchBytes _ := 900
  receiptBytes _ := 700

def task : RuntimeTaskRef where
  scope := ⟨1, 2, none⟩
  chatSessionId := none
  runId := 3
  rootRunId := 3
  parentRunId := none
  frozenConfiguration := ⟨none, 4⟩

def bindingOf (operationId : Uuid) (action : String) :
    RuntimeActionBinding where
  task := task
  attempt := ⟨operationId, 21, 1, 0, 1⟩
  requestedBy := ⟨.user, 8⟩
  execution := ⟨30, .riceBridge, some 5, 31, 1, 32, ⟨33, .inPlace⟩⟩
  action := action
  inputDigest := 1
  command := none

def dispatchOf (operationId : Uuid) (payload : RuntimeBridgePayload) :
    RuntimeBridgeDispatch where
  snapshot :=
    { binding := bindingOf operationId payload.capability
      stepId := none
      agentInstanceId := none
      processId := none
      cancelRequestId := none
      idempotencyKey := 40
      status := .dispatched
      result := none }
  payload := payload
  leaseToken := 50
  leaseExpiresAt := 1000
  grantRootFingerprint := 32

/-- Open an empty or recovered journal and run the calls one after the other. -/
def session (recoveries : Nat) (calls : List JournalCall) :
    List JournalAction :=
  JournalAction.openJournal ::
    ((List.range (recoveries + 1)).map fun i =>
      .recover ⟨100 + i, 200 + i, 0⟩ .unchanged false) ++
    calls.flatMap fun call =>
      [JournalAction.enter call .unchanged, .perform 0 false]

def command : RuntimeBridgeDispatch := dispatchOf 7 (.command .gitStatus 0)

/-- The process ends after the operation was begun. -/
def interrupted : List JournalAction :=
  session 0 [.receive command 60 4096, .begin 7] ++ [JournalAction.crash]

theorem journal_begins_at_most_once_interrupted :
    ((journalMachine host).events .initial interrupted).countP (isBegun 7) =
        1 ∧
      ∀ event ∈ (journalMachine host).events
          ((journalMachine host).after .initial interrupted)
          (session 1 [.receive command 61 4096, .begin 7]),
        isBegun 7 event = false :=
  ⟨by decide,
    (journal_begins_at_most_once host 7).2.2 interrupted _ (by decide)
      (by decide)⟩

theorem journal_receipts_settle_interrupted :
    ∃ receipt ∈ (((journalMachine host).after .initial
        (interrupted ++ session 1 [])).disk.record 7).receipts,
      isTerminalReceipt receipt = true :=
  ((journal_receipts_settle host 7).1 (interrupted ++ session 1 [])).present
    (by decide)

end JournalRunWitness

end Allrice
