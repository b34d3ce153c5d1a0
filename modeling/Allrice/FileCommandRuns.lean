/-
Runs of the command journal with crashes and openings at any point.  Every
transaction and every recovery write is a write of the journal, so what a run
keeps is read off the writes.
-/
import Allrice.FileCommandWrites

namespace Allrice

open Tx

variable {host : FileCommandHost} {row : FileCommandRow}
  {s : CommandMachineState} {table next : CommandTable}

theorem beginCommand_write {limits : JournalLimits} {command : BridgeCommand}
    {admitted : Bool}
    (h : beginCommand host limits command table = .ok (admitted, next)) :
    CommandWrite table none next ∧
      (admitted = true → table.find? command.id = none ∧
        ∃ row ∈ next.rows, row.commandId = command.id ∧
          row.command = command ∧ row.state = .executing) := by
  simp only [beginCommand, get_bind_eq_ok] at h
  cases hprior : table.find? command.id with
  | some prior =>
    simp only [hprior, rejectIf_bind_eq_ok, pure_eq_ok, Prod.mk.injEq] at h
    obtain ⟨_, rfl, rfl⟩ := h
    exact ⟨.same, by simp⟩
  | none =>
    simp only [hprior, rejectIf_bind_eq_ok, expect_bind_eq_ok,
      set_bind_eq_ok, pure_eq_ok, Prod.mk.injEq] at h
    obtain ⟨_, inserted, hinsert, rfl, rfl⟩ := h
    refine ⟨.inserted _ _ hinsert rfl rfl rfl rfl, fun _ => ⟨rfl, ?_⟩⟩
    rw [(Table.insert?_eq_some hinsert).2]
    exact ⟨_, List.mem_append_right _ (List.mem_singleton_self _),
      rfl, rfl, rfl⟩

theorem completeFileCommand_write {command : BridgeCommand}
    {receipt : CompleteBridgeCommandInput} {result : Unit}
    (h : completeFileCommand host command receipt table = .ok (result, next)) :
    CommandWrite table none next := by
  simp only [completeFileCommand, get_bind_eq_ok, expect_bind_eq_ok,
    rejectIf_bind_eq_ok, set_eq_ok, Prod.mk.injEq] at h
  obtain ⟨row, hrow, _, hfree, _, rfl⟩ := h
  refine .received command.id receipt ?_
  intro other hother hid
  have hfound := Table.find?_of_mem hother
  rw [hid, hrow] at hfound
  cases hfound
  by_cases hnone : row.receipt = none
  · exact .inl hnone
  · exact .inr (by_contra fun hne => hfree ⟨hnone, hne⟩)

theorem acknowledgeFileCommand_next {limits : JournalLimits} {id : Uuid}
    {result : Unit}
    (h : acknowledgeFileCommand limits id table = .ok (result, next)) :
    next = pruneSettled (markDelivered table id) (retainedRows limits) := by
  simp only [acknowledgeFileCommand, get_bind_eq_ok, set_eq_ok,
    Prod.mk.injEq] at h
  exact h.2

theorem retainedRows_pos (limits : JournalLimits) : 0 < retainedRows limits :=
  Nat.le_max_left _ _

/-- The command that a call acknowledges and how many rows it retains. -/
def CommandCall.prunes (limits : JournalLimits) :
    CommandCall → Option (Uuid × Nat)
  | .acknowledge id => some (id, retainedRows limits)
  | _ => none

/-- A transaction is one write. -/
theorem command_write {limits : JournalLimits} {call : CommandCall}
    {result : CommandResult}
    (h : CommandCall.run host limits call table = .ok (result, next)) :
    CommandWrite table (call.prunes limits) next := by
  cases call with
  | begin command =>
    rw [CommandCall.run, map_eq_ok] at h
    obtain ⟨admitted, h, _⟩ := h
    exact (beginCommand_write h).1
  | complete command receipt =>
    rw [CommandCall.run, map_eq_ok] at h
    obtain ⟨_, h, _⟩ := h
    exact completeFileCommand_write h
  | pending =>
    rw [CommandCall.run, map_eq_ok] at h
    obtain ⟨_, h, _⟩ := h
    simp only [get_eq_ok, Prod.mk.injEq] at h
    rw [h.2]
    exact .same
  | acknowledge id =>
    rw [CommandCall.run, map_eq_ok] at h
    obtain ⟨_, h, _⟩ := h
    rw [acknowledgeFileCommand_next h]
    exact .acknowledged id _ (retainedRows_pos limits)

theorem CommandsWellFormed.receipt_of_executing (h : CommandsWellFormed table)
    (hrow : row ∈ executingCommands table) : row.receipt = none := by
  obtain ⟨hmem, hexecuting⟩ := List.mem_filter.mp hrow
  have hstate := h.state row hmem
  rw [of_decide_eq_true hexecuting] at hstate
  cases hnone : row.receipt with
  | none => rfl
  | some receipt =>
    rw [hnone] at hstate
    exact absurd hstate.symm (stateAfter_ne_executing receipt)

/-- A recovery write gives a receipt to a command that had none. -/
theorem recoverCommand_write (hwf : CommandsWellFormed table)
    (hrow : row ∈ executingCommands table)
    (h : recoverCommand host row table = some next) :
    CommandWrite table none next := by
  have hmem := (List.mem_filter.mp hrow).1
  obtain ⟨command, _, rfl⟩ := Option.map_eq_some_iff.mp h
  have hstate : stateAfter (unknownReceipt command) = .unknown := rfl
  rw [← hstate]
  refine .received row.commandId _ ?_
  intro other hother hid
  have hsame := Table.find?_of_mem hother
  rw [hid, Table.find?_of_mem hmem] at hsame
  cases hsame
  exact .inl (hwf.receipt_of_executing hrow)

/-- A recovered command is no longer executing; the others are as before. -/
theorem commandShell_lawful (host : FileCommandHost) :
    (commandShell host).Lawful := by
  refine ⟨?_⟩
  intro table next row rest hplan hnext
  change executingCommands table = row :: rest at hplan
  change executingCommands next = rest
  obtain ⟨command, _, rfl⟩ := Option.map_eq_some_iff.mp hnext
  have hother : ∀ other ∈ rest, other.commandId ≠ row.commandId := by
    intro other hmem heq
    have hdistinct : ((executingCommands table).map
        FileCommandRow.commandId).Nodup :=
      table.unique.sublist (List.filter_sublist.map _)
    rw [hplan, List.map_cons, List.nodup_cons] at hdistinct
    exact hdistinct.1 (heq ▸ List.mem_map_of_mem hmem)
  have hstate : stateAfter (unknownReceipt command) = .unknown := rfl
  have hfilter : ∀ other : FileCommandRow,
      decide ((receivedRow row.commandId (unknownReceipt command)
        other).state = .executing) =
        (decide (other.commandId ≠ row.commandId) &&
          decide (other.state = .executing)) := by
    intro other
    by_cases hid : other.commandId = row.commandId
    · simp [receivedRow, hid, stateAfter_ne_executing]
    · simp [receivedRow, hid]
  rw [← hstate, executingCommands, setReceipt_rows, List.filter_map]
  simp only [Function.comp_def, hfilter, ← List.filter_filter]
  rw [← executingCommands, hplan, List.filter_cons_of_neg (by simp),
    List.filter_eq_self.mpr (by simpa using hother)]
  refine (List.map_congr_left ?_).trans (List.map_id rest)
  intro other hmem
  simp [receivedRow, hother other hmem]

/-- What holds in every state of the journal. -/
structure CommandsSound (host : FileCommandHost) (s : CommandMachineState) :
    Prop where
  plan : (commandShell host).OnPlan s
  wellFormed : CommandsWellFormed s.table

/-- The step is the transaction of an acknowledgement that retains `count`
rows, whether its answer arrived or was lost. -/
def Acknowledges (host : FileCommandHost) (s : CommandMachineState)
    (action : CommandAction) (id : Uuid) (count : Nat) : Prop :=
  ∃ store result, s.process = .live store ∧ count = retainedRows store.config ∧
    CommandCall.run host store.config (.acknowledge id) s.table =
      .ok (result, ((commandMachine host).step s action).1.table)

/-- A step is one write, and only an acknowledgement prunes. -/
theorem step_write (h : CommandsSound host s) (action : CommandAction) :
    ∃ pruning, CommandWrite s.table pruning
        ((commandMachine host).step s action).1.table ∧
      ∀ id count, pruning = some (id, count) →
        Acknowledges host s action id count := by
  change ∃ pruning, CommandWrite s.table pruning
      ((commandShell host).step s action).1.table ∧
    ∀ id count, pruning = some (id, count) →
      Acknowledges host s action id count
  cases (commandShell host).step_durable s action with
  | same htable hsilent =>
    rw [htable]
    exact ⟨none, .same, by simp⟩
  | recovered config row rest hprocess htable hsilent =>
    have hplan : row :: rest = executingCommands s.table :=
      h.plan config _ hprocess
    exact ⟨none, recoverCommand_write h.wellFormed
      (hplan ▸ List.mem_cons_self) htable, by simp⟩
  | called store call result hprocess hcalls hchecked hanswer htable =>
    refine ⟨_, command_write htable, ?_⟩
    intro id count hpruning
    cases call with
    | acknowledge acknowledged =>
      simp only [CommandCall.prunes, Option.some.injEq,
        Prod.mk.injEq] at hpruning
      obtain ⟨rfl, rfl⟩ := hpruning
      exact ⟨store, result, hprocess, rfl, htable⟩
    | begin command | complete command receipt | pending => cases hpruning

theorem commandsSound_step (s : CommandMachineState) (action : CommandAction)
    (h : CommandsSound host s) :
    CommandsSound host ((commandMachine host).step s action).1 :=
  ⟨StoreShell.onPlan_step (commandShell_lawful host) h.plan action, by
    obtain ⟨_, hwrite, _⟩ := step_write h action
    exact hwrite.wellFormed h.wellFormed⟩

theorem commandsSound_initial (host : FileCommandHost) :
    CommandsSound host initialCommands := by
  refine ⟨?_, ?_, ?_, ?_⟩
  · intro config todo hprocess
    cases hprocess
  · exact List.Pairwise.nil
  · intro row hrow
    cases hrow
  · intro row hrow
    cases hrow

theorem commandsSound_after (h : CommandsSound host s)
    (actions : List CommandAction) :
    CommandsSound host ((commandMachine host).after s actions) :=
  Machine.after_invariant _ commandsSound_step h actions

/-- What runs keep of the table. -/
theorem after_onward (h : CommandsSound host s) (actions : List CommandAction) :
    Onward s.table ((commandMachine host).after s actions).table :=
  Machine.after_rel (CommandsSound host)
    (fun first second => Onward first.table second.table)
    (fun s => Onward.refl s.table) (fun h h' => h.trans h')
    commandsSound_step
    (fun _ action hs => by
      obtain ⟨_, hwrite, _⟩ := step_write hs action
      exact hwrite.onward hs.wellFormed) h actions

/-- In this step the acknowledgement of some command prunes the row: it was
completed and delivered, and the retained number of newer rows that are both
remain. -/
def PrunedIn (host : FileCommandHost) (s : CommandMachineState)
    (action : CommandAction) (row : FileCommandRow) : Prop :=
  row ∈ s.table.rows ∧ ∃ id count, Acknowledges host s action id count ∧
    PrunedBehind id count ((commandMachine host).step s action).1.table row

/-- A step keeps a row or prunes it. -/
theorem step_row (h : CommandsSound host s) (action : CommandAction)
    (hrow : row ∈ s.table.rows) :
    (∃ later ∈ ((commandMachine host).step s action).1.table.rows,
        RowKept row later) ∨ PrunedIn host s action row := by
  obtain ⟨pruning, hwrite, hprunes⟩ := step_write h action
  rcases hwrite.kept h.wellFormed hrow with
    hkept | ⟨id, count, hpruning, _, hpruned⟩
  · exact .inl hkept
  · exact .inr ⟨hrow, id, count, hprunes id count hpruning, hpruned⟩

/-- A run keeps a row or prunes it in one of its steps. -/
theorem after_row (h : CommandsSound host s) (hrow : row ∈ s.table.rows)
    (actions : List CommandAction) :
    (∃ later ∈ ((commandMachine host).after s actions).table.rows,
        RowKept row later) ∨
      ∃ early action late, actions = early ++ action :: late ∧
        ∃ earlier, RowKept row earlier ∧
          PrunedIn host ((commandMachine host).after s early) action
            earlier := by
  induction actions generalizing s row with
  | nil => exact .inl ⟨row, hrow, RowKept.refl row⟩
  | cons action rest ih =>
    rcases step_row h action hrow with ⟨next, hnext, hkept⟩ | hpruned
    · rcases ih (commandsSound_step s action h) hnext with
        ⟨later, hlater, hkept'⟩ |
          ⟨early, pruning, late, rfl, earlier, hkept', hpruned⟩
      · exact .inl ⟨later, hlater, hkept.trans hkept'⟩
      · exact .inr ⟨action :: early, pruning, late, rfl, earlier,
          hkept.trans hkept', hpruned⟩
    · exact .inr ⟨[], action, rest, rfl, row, RowKept.refl row, hpruned⟩

/-- What an admission does to its step. -/
theorem admitted_step {action : CommandAction} {command : BridgeCommand}
    (h : ((commandMachine host).step s action).2 =
      .done (.begin command) (.begun true)) :
    s.table.find? command.id = none ∧
      ∃ row ∈ ((commandMachine host).step s action).1.table.rows,
        row.commandId = command.id ∧ row.command = command ∧
          row.state = .executing := by
  obtain ⟨store, _, hrun⟩ := StoreShell.run_of_done h
  change CommandCall.run host store.config (.begin command) s.table = _ at hrun
  rw [CommandCall.run, map_eq_ok] at hrun
  obtain ⟨admitted, hbegin, hresult⟩ := hrun
  cases hresult
  exact (beginCommand_write hbegin).2 rfl

/-- A command that was executing at a crash: no process has the journal open
yet, or its receipt is the unknown one. -/
def Recovered (host : FileCommandHost) (row : FileCommandRow)
    (s : CommandMachineState) : Prop :=
  (row ∈ s.table.rows ∧ ∀ store, s.process ≠ .live store) ∨
    ∃ command, host.parseCommand row.command = some command ∧
      ∃ later ∈ s.table.rows, RowKept row later ∧ later.state = .unknown ∧
        later.receipt = some (unknownReceipt command)

theorem setReceipt_mem_ne {id : Uuid} {receipt : CompleteBridgeCommandInput}
    (hrow : row ∈ table.rows) (hne : row.commandId ≠ id) :
    row ∈ (setReceipt table id (stateAfter receipt) receipt).rows := by
  rw [setReceipt_rows]
  exact List.mem_map.mpr ⟨row, hrow, by simp [receivedRow, hne]⟩

/-- The recovery write of a row, seen by a row that is executing. -/
theorem recoverCommand_row {item : FileCommandRow}
    (hwf : CommandsWellFormed table) (hrow : row ∈ executingCommands table)
    (hitem : item ∈ executingCommands table)
    (h : recoverCommand host item table = some next) :
    row ∈ next.rows ∨ ∃ command, host.parseCommand row.command = some command ∧
      ∃ later ∈ next.rows, RowKept row later ∧ later.state = .unknown ∧
        later.receipt = some (unknownReceipt command) := by
  have hmem := (List.mem_filter.mp hrow).1
  have hitem := (List.mem_filter.mp hitem).1
  obtain ⟨command, hparse, rfl⟩ := Option.map_eq_some_iff.mp h
  have hstate : stateAfter (unknownReceipt command) = .unknown := rfl
  rw [← hstate]
  by_cases hid : row.commandId = item.commandId
  · have hsame := Table.find?_of_mem hmem
    rw [hid, Table.find?_of_mem hitem] at hsame
    cases hsame
    refine .inr ⟨command, hparse, receivedRow row.commandId
      (unknownReceipt command) row, ?_, ?_, ?_, ?_⟩
    · rw [setReceipt_rows]
      exact List.mem_map_of_mem hmem
    · exact receivedRow_kept (hwf.state row hmem) fun _ =>
        .inl (hwf.receipt_of_executing hrow)
    · simp [receivedRow]
    · simp [receivedRow]
  · exact .inl (setReceipt_mem_ne hmem hid)

/-- One piece of recovery work leaves a row executing under recovery or gives
it the unknown receipt. -/
theorem recovered_recover (hsound : CommandsSound host s)
    (hrow : row ∈ executingCommands s.table) {config : JournalLimits}
    {todo : List FileCommandRow}
    (hprocess : s.process = .recovering config todo) (fault : StoreFault) :
    Recovered host row
      ((commandMachine host).step s (.recover fault)).1 := by
  have hplan : todo = executingCommands s.table :=
    hsound.plan config todo hprocess
  have hstep : (commandMachine host).step s (.recover fault) =
      (commandShell host).recoverNext s.table config todo fault := by
    simp only [commandMachine, StoreShell.machine, StoreShell.step, hprocess]
  have hmem := (List.mem_filter.mp hrow).1
  rw [hstep]
  cases todo with
  | nil =>
    rw [← hplan] at hrow
    cases hrow
  | cons item rest =>
    have hitem : item ∈ executingCommands s.table :=
      hplan ▸ List.mem_cons_self
    cases hnext : (commandShell host).recover item s.table with
    | none =>
      cases fault <;>
        (simp only [StoreShell.recoverNext, hnext]
         exact .inl ⟨hmem, fun store hlive => by cases hlive⟩)
    | some next =>
      have hrow := recoverCommand_row hsound.wellFormed hrow hitem hnext
      cases fault with
      | failed =>
        simp only [StoreShell.recoverNext]
        exact .inl ⟨hmem, fun store hlive => by cases hlive⟩
      | none | lost =>
        simp only [StoreShell.recoverNext, hnext]
        rcases hrow with hstill | hdone
        · exact .inl ⟨hstill, fun store hlive => by cases hlive⟩
        · exact .inr hdone

theorem recovered_step (hexecuting : row.state = .executing)
    (hsound : CommandsSound host s) (h : Recovered host row s)
    (action : CommandAction) :
    Recovered host row ((commandMachine host).step s action).1 := by
  rcases h with ⟨hrow, hclosed⟩ | ⟨command, hparse, later, hlater, hkept,
    hunknown, hreceipt⟩
  · have hmem : row ∈ executingCommands s.table :=
      List.mem_filter.mpr ⟨hrow, by simp [hexecuting]⟩
    cases hprocess : s.process with
    | live store => exact absurd hprocess (hclosed store)
    | down =>
      have hnext : ((commandMachine host).step s action).1.table = s.table ∧
          ∀ store, ((commandMachine host).step s action).1.process ≠
            .live store := by
        change ((commandShell host).step s action).1.table = s.table ∧
          ∀ store, ((commandShell host).step s action).1.process ≠
            .live store
        cases action <;>
          simp [StoreShell.step, hprocess, StoreProcess.isFree]
      exact .inl ⟨hnext.1 ▸ hrow, hnext.2⟩
    | recovering config todo =>
      cases action with
      | recover fault =>
        exact recovered_recover hsound hmem hprocess fault
      | openStore opened =>
        refine .inl ⟨?_, ?_⟩ <;>
          simp [commandMachine, StoreShell.machine, StoreShell.step,
            hprocess, StoreProcess.isFree, hrow]
      | enter call gate | perform index fault | close =>
        refine .inl ⟨?_, ?_⟩ <;>
          simp [commandMachine, StoreShell.machine, StoreShell.step,
            hprocess, hrow]
      | crash => exact .inl ⟨hrow, fun store hlive => by cases hlive⟩
  · obtain ⟨next, hnext, hkept'⟩ :=
      (after_onward hsound [action]).unknown later hlater hunknown
    refine .inr ⟨command, hparse, next, hnext, hkept.trans hkept', ?_,
      hkept'.receipt _ hreceipt⟩
    rw [hkept'.state (by simp [hunknown]), hunknown]

/-- After a crash, a journal that is open again reports the commands that were
executing as unknown. -/
theorem after_crash (hsound : CommandsSound host s) (hrow : row ∈ s.table.rows)
    (hexecuting : row.state = .executing) {actions : List CommandAction}
    (hopen : ((commandMachine host).after s
      (.crash :: actions)).process.isOpen = true) :
    ∃ command, host.parseCommand row.command = some command ∧
      ∃ later ∈ ((commandMachine host).after s
          (.crash :: actions)).table.rows, RowKept row later ∧
        later.state = .unknown ∧
        later.receipt = some (unknownReceipt command) := by
  have hcrash : Recovered host row ((commandMachine host).step s .crash).1 :=
    .inl ⟨hrow, fun store hlive => by cases hlive⟩
  have hend := (Machine.after_invariant (m := commandMachine host)
    (fun s => CommandsSound host s ∧ Recovered host row s)
    (fun s action h => ⟨commandsSound_step s action h.1,
      recovered_step hexecuting h.1 h.2 action⟩)
    ⟨commandsSound_step s .crash hsound, hcrash⟩ actions).2
  rw [Machine.after_cons] at hopen ⊢
  rcases hend with ⟨_, hclosed⟩ | hdone
  · generalize (commandMachine host).after
      ((commandMachine host).step s .crash).1 actions = final at hopen hclosed
    cases hprocess : final.process with
    | down | recovering config todo =>
      simp [hprocess, StoreProcess.isOpen] at hopen
    | live store => exact absurd hprocess (hclosed store)
  · exact hdone

/-- From any state that a run reaches: a receipt once set stays; a step keeps
every row or prunes it delivered, completed and behind the retained number of
newer rows, and an unknown outcome stays for good; a command is admitted a
second time only after its earlier row was pruned; what executed at a crash
gets the unknown receipt; and every way back to an open journal, however often
it is cut short, ends with the same rows. -/
theorem file_command_journal (host : FileCommandHost)
    (before : List CommandAction) (s : CommandMachineState)
    (hs : s = (commandMachine host).after initialCommands before) :
    (∀ row ∈ s.table.rows, ∀ receipt, row.receipt = some receipt →
      ∀ actions, ∀ later ∈ ((commandMachine host).after s actions).table.rows,
        later.rowid = row.rowid → later.receipt = some receipt) ∧
    (∀ row ∈ s.table.rows, ∀ action,
      (∃ later ∈ ((commandMachine host).step s action).1.table.rows,
        RowKept row later) ∨ PrunedIn host s action row) ∧
    (∀ row ∈ s.table.rows, row.state = .unknown → ∀ actions,
      ∃ later ∈ ((commandMachine host).after s actions).table.rows,
        RowKept row later) ∧
    (∀ first between second command again,
      ((commandMachine host).step s first).2 =
        .done (.begin command) (.begun true) →
      ((commandMachine host).step ((commandMachine host).after s
        (first :: between)) second).2 = .done (.begin again) (.begun true) →
      again.id = command.id →
      ∃ row ∈ ((commandMachine host).step s first).1.table.rows,
        row.commandId = command.id ∧ row.command = command ∧
        ∃ early action late, between = early ++ action :: late ∧
          ∃ earlier, RowKept row earlier ∧
            PrunedIn host ((commandMachine host).after s (first :: early))
              action earlier) ∧
    (∀ row ∈ s.table.rows, row.state = .executing → ∀ actions,
      ((commandMachine host).after s
        (.crash :: actions)).process.isOpen = true →
      ∃ command, host.parseCommand row.command = some command ∧
        ∃ later ∈ ((commandMachine host).after s
            (.crash :: actions)).table.rows,
          RowKept row later ∧ later.state = .unknown ∧
            later.receipt = some (unknownReceipt command)) ∧
    (s.process.isFree = true → ∀ once again : List CommandAction,
      (∀ action ∈ once ++ again, action.reopens = true) →
      ((commandMachine host).after s once).process.isOpen = true →
      ((commandMachine host).after s again).process.isOpen = true →
      ((commandMachine host).after s once).table =
        ((commandMachine host).after s again).table) := by
  have hsound : CommandsSound host s := by
    rw [hs]
    exact commandsSound_after (commandsSound_initial host) before
  refine ⟨?_, fun row hrow action => step_row hsound action hrow, ?_, ?_, ?_,
    ?_⟩
  · intro row hrow receipt hreceipt actions later hlater hrowid
    rcases (after_onward hsound actions).origin later hlater with
      ⟨origin, horigin, hkept⟩ | hnew
    · have hsame := hsound.wellFormed.rowid_inj horigin hrow
        (hkept.rowid.symm.trans hrowid)
      subst hsame
      exact hkept.receipt receipt hreceipt
    · exact absurd (hnew row hrow) (by omega)
  · intro row hrow hunknown actions
    exact (after_onward hsound actions).unknown row hrow hunknown
  · intro first between second command again hfirst hsecond hid
    obtain ⟨_, row, hrow, hcommandId, hcommand, _⟩ := admitted_step hfirst
    refine ⟨row, hrow, hcommandId, hcommand, ?_⟩
    rcases after_row (commandsSound_step s first hsound) hrow between with
      ⟨later, hlater, hkept⟩ | hpruned
    · obtain ⟨hnone, _⟩ := admitted_step hsecond
      rw [Table.find?_eq_none_iff] at hnone
      refine absurd ?_ (hnone later hlater)
      rw [hkept.commandId, hcommandId, hid]
    · exact hpruned
  · intro row hrow hexecuting actions hopen
    exact after_crash hsound hrow hexecuting hopen
  · intro hfree once again hreopens honce hagain
    have hfirst := StoreShell.reopen_table (commandShell_lawful host) hfree
      (fun action h => hreopens action (List.mem_append_left _ h)) honce
    have hsecond := StoreShell.reopen_table (commandShell_lawful host) hfree
      (fun action h => hreopens action (List.mem_append_right _ h)) hagain
    exact Option.some.inj (hfirst.symm.trans hsecond)

namespace FileCommandWitness

def device : FileCommandHost where
  deviceId := 11
  parseCommand := some
  digestCommand := fun command => command.details
  receiptBytes := fun _ => 400

def limits : JournalLimits := ⟨4, 8000000⟩

def command (id : Uuid) : BridgeCommand where
  id
  deviceId := 11
  leaseToken := 15
  capability := JsString.ofString "local.fs.write"
  details := id

def receipt : CompleteBridgeCommandInput where
  leaseToken := 15
  status := .succeeded
  output := none
  summary := JsString.ofString "saved"
  errorCode := none

def started : List CommandAction :=
  [.openStore limits, .recover .none, .enter (.begin (command 100)) .pass,
    .perform 0 .none]

/-- The call that passed the guard runs to its answer. -/
def perform (call : CommandCall) : List CommandAction :=
  [.enter call .pass, .perform 0 .none]

/-- Another command until its delivery, with one settled row retained. -/
def settle (id : Uuid) : List CommandAction :=
  perform (.complete (command id) receipt) ++ perform (.acknowledge id)

/-- A command executing at a crash, in an opening after one that was cut short;
and a command admitted again once a newer one had pushed it out. -/
theorem file_command_journal_crash :
    (∃ later ∈ ((commandMachine device).after initialCommands
        (started ++ [StoreAction.crash, .openStore limits, .crash, .openStore limits,
          .recover .none, .recover .none])).table.rows,
      later.commandId = 100 ∧
        later.receipt = some (unknownReceipt (command 100))) ∧
    ∃ early action late, settle 100 ++ perform (.begin (command 200)) ++
        settle 200 ++
          [StoreAction.enter (CommandCall.begin (command 100)) .pass] =
          early ++ action :: late ∧
      ∃ earlier, earlier.commandId = 100 ∧
        PrunedIn device ((commandMachine device).after initialCommands
          (started ++ early)) action earlier := by
  constructor
  · have h := (file_command_journal device started _ rfl).2.2.2.2.1
      ⟨1, 100, 100, command 100, .executing, none, false⟩
      (by decide) rfl
      [.openStore limits, .crash, .openStore limits, .recover .none,
        .recover .none] (by decide)
    obtain ⟨parsed, hparsed, later, hlater, hkept, _, hreceipt⟩ := h
    cases Option.some.inj hparsed
    rw [Machine.after_append]
    exact ⟨later, hlater, hkept.commandId, hreceipt⟩
  · have h := (file_command_journal device (started.take 3) _ rfl).2.2.2.1
      (.perform 0 .none)
      (settle 100 ++ perform (.begin (command 200)) ++ settle 200 ++
        [StoreAction.enter (CommandCall.begin (command 100)) .pass])
      (.perform 0 .none) (command 100) (command 100) (by decide) (by decide)
      rfl
    obtain ⟨row, _, hid, _, early, action, late, hsplit, earlier, hkept,
      hpruned⟩ := h
    refine ⟨early, action, late, hsplit, earlier, hkept.commandId.trans hid, ?_⟩
    rw [Machine.after_append]
    exact hpruned

end FileCommandWitness

end Allrice
