/-
Runs of the service journal.  What one committed call does to the tables is
said once, in `ServiceEffect`; that the counters have no gap, that a request is
answered as new once and that only a prepared input is delivered follow from
it.
-/
import Allrice.LocalServiceJournal

namespace Allrice

open Tx

variable {host : LocalServiceHost}

/-- The call is no `prepare` that was answered as new. -/
def ServiceCall.IsOld (call : ServiceCall) (result : ServiceResult) : Prop :=
  ∀ id input facts, call = .prepare id input facts → result ≠ .prepared .new

/-- What one committed call does. -/
inductive ServiceEffect (tables : ServiceTables) :
    ServiceCall → ServiceResult → ServiceTables → Prop
  | same {call : ServiceCall} {result : ServiceResult}
      (old : call.IsOld result) : ServiceEffect tables call result tables
  | sources {call : ServiceCall} {result : ServiceResult}
      {sources : Table (Uuid × Uuid) LocalSourceRow LocalSourceRow.key}
      (old : call.IsOld result) :
      ServiceEffect tables call result { tables with sources }
  | acknowledged {id : Uuid} {sequence : Option Int} {facts : ServiceFacts}
      {through : Int} :
      ServiceEffect tables (.acknowledge id sequence facts) .done
        { tables with
          events := tables.events.updateWhere
            (fun row => row.operationId = id && (row.sequence : Int) ≤ through)
            (fun row => { row with acknowledged := true }) fun _ => rfl }
  | recorded {id : Uuid} {input : RuntimeLocalServiceEvent}
      {facts : ServiceFacts}
      {events : Table (Uuid × Nat) LocalEventRow LocalEventRow.key}
      (count : (tables.eventsOf id).length = input.sequence)
      (rows : events.rows =
        tables.events.rows ++ [⟨id, input.sequence, input, false⟩]) :
      ServiceEffect tables (.event id input facts) .done
        { tables with
          events, inputs := tables.deliveredInputs id input.report }
  | prepared {id : Uuid} {input : RuntimeLocalServiceInput}
      {facts : ServiceFacts}
      {inputs : Table (Uuid × Uuid) LocalInputRow LocalInputRow.key}
      (fresh : tables.inputs.find? (id, input.requestId) = none)
      (count : (tables.inputsOf id).length = input.sequence)
      (rows : inputs.rows = tables.inputs.rows ++
        [⟨id, input.requestId, input.inputId, input, .prepared⟩]) :
      ServiceEffect tables (.prepare id input facts) (.prepared .new)
        { tables with inputs }

variable {id requestId : Uuid} {tables next : ServiceTables}
  {s : ServiceMachineState} {call : ServiceCall} {α ρ : Type}
  {entry : ServiceEntry} {action : ServiceAction} {index : Nat}
  {store : LiveStore Unit ServiceCall} {result : ServiceResult}
  {row : LocalInputRow} {error : ServiceFailure}

theorem serviceAccess_ok {facts : ServiceFacts}
    {action : ServiceEntry → ServiceTx α} {r : α × ServiceTables}
    (h : serviceAccess facts action tables = .ok r) :
    ∃ entry, facts.entry = some entry ∧ action entry tables = .ok r := by
  simp only [serviceAccess, expect_bind_eq_ok, rejectIf_bind_eq_ok] at h
  obtain ⟨entry, hentry, _, haction⟩ := h
  exact ⟨entry, hentry, haction⟩

variable {shown : α → ServiceResult} {report : LocalServiceReport}
  {other : Uuid} {refused conflict : Prop} {rest : PUnit → ServiceTx α}
  {prior : LocalEventRow} {first second : ServiceFailure} {answer : α}

theorem deliver_spec {result : Unit}
    (h : LocalServiceJournal.deliver id report tables = .ok (result, next)) :
    next = { tables with inputs := tables.deliveredInputs id report } := by
  cases report with
  | inputDelivered input =>
    simp only [LocalServiceJournal.deliver, LocalServiceJournal.deliverInput,
      get_bind_eq_ok, expect_bind_eq_ok, rejectIf_bind_eq_ok, set_eq_ok,
      Prod.mk.injEq] at h
    obtain ⟨_, _, _, _, hnext⟩ := h
    exact hnext
  | starting containerId hardDeadlineAt | ready port | inputRequest request =>
    exact (Prod.mk.inj (pure_eq_ok.1 h)).2

theorem event_spec {input : RuntimeLocalServiceEvent} {facts : ServiceFacts}
    {result : Unit}
    (h : LocalServiceJournal.event id input entry tables = .ok (result, next)) :
    ServiceEffect tables (.event id input facts) .done next := by
  simp only [LocalServiceJournal.event, rejectIf_bind_eq_ok,
    get_bind_eq_ok] at h
  obtain ⟨_, h⟩ := h
  cases hfound : tables.events.find? (id, input.sequence) with
  | some prior =>
    simp only [hfound, rejectIf_eq_ok, Prod.mk.injEq] at h
    obtain ⟨_, _, rfl⟩ := h
    exact .same fun _ _ _ hcall => by cases hcall
  | none =>
    simp only [hfound, rejectIf_bind_eq_ok] at h
    obtain ⟨hcount, h⟩ := h
    obtain ⟨_, between, hdeliver, hinsert⟩ := bind_eq_ok.1 h
    obtain rfl := deliver_spec hdeliver
    simp only [LocalServiceJournal.insertEvent, rejectIf_bind_eq_ok,
      get_bind_eq_ok, expect_bind_eq_ok, set_eq_ok, Prod.mk.injEq] at hinsert
    obtain ⟨_, events, hevents, _, rfl⟩ := hinsert
    exact .recorded (not_not.1 hcount) (Table.insert?_eq_some hevents).2

theorem prepare_spec {input : RuntimeLocalServiceInput} {facts : ServiceFacts}
    {answer : ServicePrepared}
    (h : LocalServiceJournal.prepare host facts.now id input tables =
      .ok (answer, next)) :
    ServiceEffect tables (.prepare id input facts) (.prepared answer) next := by
  simp only [LocalServiceJournal.prepare, get_bind_eq_ok] at h
  cases hfound : tables.inputs.find? (id, input.requestId) with
  | some prior =>
    simp only [hfound, rejectIf_bind_eq_ok, pure_eq_ok, Prod.mk.injEq] at h
    obtain ⟨_, _, rfl, rfl⟩ := h
    exact .same fun _ _ _ _ hnew => by cases hnew
  | none =>
    simp only [hfound, expect_bind_eq_ok, rejectIf_bind_eq_ok] at h
    obtain ⟨request, _, hagrees, h⟩ := h
    obtain ⟨_, between, hinsert, hpure⟩ := bind_eq_ok.1 h
    obtain ⟨rfl, rfl⟩ := Prod.mk.inj (pure_eq_ok.1 hpure)
    simp only [LocalServiceJournal.insertInput, get_bind_eq_ok,
      rejectIf_bind_eq_ok, expect_bind_eq_ok, set_eq_ok,
      Prod.mk.injEq] at hinsert
    obtain ⟨_, inputs, hinputs, _, rfl⟩ := hinsert
    have hcount : (tables.inputsOf id).length = input.sequence := by
      by_contra hne
      exact hagrees (.inr (.inl fun heq => hne heq.symm))
    exact .prepared hfound hcount (Table.insert?_eq_some hinputs).2

/-- The next tables differ in the sources only. -/
def OnlySources (tables next : ServiceTables) : Prop :=
  next.events = tables.events ∧ next.inputs = tables.inputs

instance : Std.Refl OnlySources := ⟨fun _ => ⟨rfl, rfl⟩⟩

instance : IsTrans ServiceTables OnlySources :=
  ⟨fun _ _ _ h h' => ⟨h'.1.trans h.1, h'.2.trans h.2⟩⟩

theorem OnlySources.effect (h : OnlySources tables next)
    (hold : call.IsOld result) : ServiceEffect tables call result next := by
  obtain ⟨events, inputs, sources⟩ := next
  obtain ⟨rfl, rfl⟩ := h
  exact .sources hold

theorem acknowledgeSource_keeps (id : Uuid)
    (receipt : ProjectServiceSourceReceipt) :
    Keeps OnlySources (LocalServiceJournal.acknowledgeSource id receipt) := by
  intro tables result next h
  simp only [LocalServiceJournal.acknowledgeSource, get_bind_eq_ok,
    expect_bind_eq_ok, rejectIf_bind_eq_ok, set_eq_ok, Prod.mk.injEq] at h
  obtain ⟨_, _, _, _, rfl⟩ := h
  exact ⟨rfl, rfl⟩

theorem prepareSource_keeps (id : Uuid) (update : ProjectServiceSourceUpdate)
    (entry : ServiceEntry) :
    Keeps OnlySources (LocalServiceJournal.prepareSource id update entry) := by
  intro tables result next h
  simp only [LocalServiceJournal.prepareSource, get_bind_eq_ok] at h
  cases hfound : tables.sources.find? (id, update.updateId) with
  | some prior =>
    simp only [hfound, rejectIf_bind_eq_ok, pure_eq_ok, Prod.mk.injEq] at h
    obtain ⟨_, _, _, rfl⟩ := h
    exact ⟨rfl, rfl⟩
  | none =>
    simp only [hfound, rejectIf_bind_eq_ok, expect_bind_eq_ok,
      set_bind_eq_ok, pure_eq_ok, Prod.mk.injEq] at h
    obtain ⟨_, _, _, _, rfl⟩ := h
    exact ⟨rfl, rfl⟩

theorem sourceApplied_keeps (id : Uuid)
    (receipt : ProjectServiceSourceReceipt) :
    Keeps OnlySources (LocalServiceJournal.sourceApplied id receipt) := by
  intro tables result next h
  simp only [LocalServiceJournal.sourceApplied, get_bind_eq_ok,
    expect_bind_eq_ok, rejectIf_bind_eq_ok, set_eq_ok, Prod.mk.injEq] at h
  obtain ⟨_, _, _, _, rfl⟩ := h
  exact ⟨rfl, rfl⟩

theorem pending_keeps (id : Uuid) :
    Keeps OnlySources (LocalServiceJournal.pending id) := by
  intro tables result next h
  simp only [LocalServiceJournal.pending, get_bind_eq_ok, pure_eq_ok,
    Prod.mk.injEq] at h
  obtain ⟨_, rfl⟩ := h
  exact ⟨rfl, rfl⟩

theorem pendingSources_keeps (id : Uuid) :
    Keeps OnlySources (LocalServiceJournal.pendingSources id) := by
  intro tables result next h
  simp only [LocalServiceJournal.pendingSources, get_bind_eq_ok,
    expect_eq_ok, Prod.mk.injEq] at h
  obtain ⟨_, _, _, rfl⟩ := h
  exact ⟨rfl, rfl⟩

/-- What a committed call does. -/
theorem ServiceCall.run_effect
    (h : ServiceCall.run host call tables = .ok (result, next)) :
    ServiceEffect tables call result next := by
  cases call with
  | event id input facts =>
    obtain ⟨_, haccess, rfl⟩ := map_eq_ok.1 h
    obtain ⟨entry, _, hevent⟩ := serviceAccess_ok haccess
    exact event_spec hevent
  | prepare id input facts =>
    obtain ⟨_, haccess, rfl⟩ := map_eq_ok.1 h
    obtain ⟨entry, _, hprepare⟩ := serviceAccess_ok haccess
    exact prepare_spec hprepare
  | acknowledge id sequence facts =>
    obtain ⟨_, haccess, rfl⟩ := map_eq_ok.1 h
    obtain ⟨entry, _, hacknowledge⟩ := serviceAccess_ok haccess
    simp only [LocalServiceJournal.acknowledge, get_bind_eq_ok,
      expect_bind_eq_ok, rejectIf_bind_eq_ok, set_eq_ok,
      Prod.mk.injEq] at hacknowledge
    obtain ⟨_, _, _, _, rfl⟩ := hacknowledge
    exact .acknowledged
  | pending id facts =>
    obtain ⟨_, haccess, rfl⟩ := map_eq_ok.1 h
    obtain ⟨entry, _, hpending⟩ := serviceAccess_ok haccess
    exact (pending_keeps id _ _ _ hpending).effect
      fun _ _ _ hcall => by cases hcall
  | prepareSource id update facts =>
    obtain ⟨_, haccess, rfl⟩ := map_eq_ok.1 h
    obtain ⟨entry, _, hprepare⟩ := serviceAccess_ok haccess
    exact (prepareSource_keeps id update entry _ _ _ hprepare).effect
      fun _ _ _ hcall => by cases hcall
  | sourceApplied id receipt facts =>
    obtain ⟨_, haccess, rfl⟩ := map_eq_ok.1 h
    obtain ⟨entry, _, happlied⟩ := serviceAccess_ok haccess
    exact (sourceApplied_keeps id receipt _ _ _ happlied).effect
      fun _ _ _ hcall => by cases hcall
  | pendingSources id facts =>
    obtain ⟨_, haccess, rfl⟩ := map_eq_ok.1 h
    obtain ⟨entry, _, hpending⟩ := serviceAccess_ok haccess
    exact (pendingSources_keeps id _ _ _ hpending).effect
      fun _ _ _ hcall => by cases hcall
  | acknowledgeSources id receipts facts =>
    obtain ⟨_, haccess, rfl⟩ := map_eq_ok.1 h
    obtain ⟨entry, _, hacknowledge⟩ := serviceAccess_ok haccess
    exact (Keeps.forM (acknowledgeSource_keeps id) receipts _ _ _
      hacknowledge).effect fun _ _ _ hcall => by cases hcall

/-- The numbers of the events and of the inputs of an operation. -/
structure ServiceTables.Counted (tables : ServiceTables) (id : Uuid) :
    Prop where
  events : (tables.eventsOf id).map (·.sequence) =
    List.range (tables.eventsOf id).length
  inputs : (tables.inputsOf id).map (·.body.sequence) =
    List.range (tables.inputsOf id).length

/-- What is stored for an operation stays, in its order. -/
structure ServiceTables.Keeps (tables next : ServiceTables) (id : Uuid) :
    Prop where
  events : (tables.eventsOf id).map (·.body) <+:
    (next.eventsOf id).map (·.body)
  inputs : (tables.inputsOf id).map (·.body) <+:
    (next.inputsOf id).map (·.body)

/-- An update that leaves the operation of a row alone goes under the
selection of an operation. -/
theorem filter_map_operation {ρ : Type} {operation : ρ → Uuid} {f : ρ → ρ}
    (hf : ∀ row, operation (f row) = operation row) (rows : List ρ)
    (id : Uuid) :
    (rows.map f).filter (fun row => decide (operation row = id)) =
      (rows.filter fun row => decide (operation row = id)).map f := by
  rw [List.filter_map]
  congr 1
  apply List.filter_congr
  intro row _
  simp [hf]

/-- The rows of an operation after one more row. -/
theorem filter_append_operation (operation : ρ → Uuid) (rows : List ρ) (row : ρ)
    (id : Uuid) :
    (rows ++ [row]).filter (fun row => decide (operation row = id)) =
      (rows.filter fun row => decide (operation row = id)) ++
        if operation row = id then [row] else [] := by
  rw [List.filter_append]
  by_cases h : operation row = id
  · simp [h]
  · simp [h]

theorem eventsOf_acknowledged (tables : ServiceTables) (id other : Uuid)
    (through : Int) :
    ({ tables with
        events := tables.events.updateWhere
          (fun row => row.operationId = id && (row.sequence : Int) ≤ through)
          (fun row => { row with acknowledged := true }) fun _ => rfl } :
      ServiceTables).eventsOf other =
    (tables.eventsOf other).map fun row =>
      if row.operationId = id && (row.sequence : Int) ≤ through then
        { row with acknowledged := true } else row := by
  apply filter_map_operation
  intro row
  split <;> rfl

/-- Delivering an input changes the state of its row only. -/
theorem inputsOf_delivered (tables : ServiceTables) (id other : Uuid)
    (report : LocalServiceReport) :
    ∃ mark : LocalInputRow → LocalInputRow,
      (∀ row, (mark row).body = row.body) ∧
      (tables.deliveredInputs id report).rows.filter
        (fun row => decide (row.operationId = other)) =
          (tables.inputsOf other).map mark := by
  cases report with
  | inputDelivered input =>
    refine ⟨fun row =>
      if row.operationId = id && row.inputId = input.inputId then
        { row with state := .delivered } else row, ?_, ?_⟩
    · intro row
      dsimp only
      split <;> rfl
    · apply filter_map_operation
      intro row
      split <;> rfl
  | starting containerId hardDeadlineAt | ready port | inputRequest request =>
    exact ⟨fun row => row, fun _ => rfl, (List.map_id _).symm⟩

/-- A list of numbers without a gap goes on with its length. -/
theorem range_append_length {number : ρ → Nat} {rows : List ρ}
    (h : rows.map number = List.range rows.length) {row : ρ}
    (hrow : number row = rows.length) :
    (rows ++ [row]).map number = List.range (rows ++ [row]).length := by
  rw [List.map_append, h, List.length_append, List.length_singleton,
    List.range_succ, List.map_singleton, hrow]

theorem ServiceTables.Counted.of_delivered (h : tables.Counted other)
    (id : Uuid) (report : LocalServiceReport) :
    (({ tables with inputs := tables.deliveredInputs id report } :
      ServiceTables).inputsOf other).map (·.body.sequence) =
    List.range (({ tables with
      inputs := tables.deliveredInputs id report } :
        ServiceTables).inputsOf other).length := by
  obtain ⟨mark, hbody, hrows⟩ := inputsOf_delivered tables id other report
  change (((tables.deliveredInputs id report).rows.filter fun row =>
    decide (row.operationId = other)).map _) = List.range
      ((tables.deliveredInputs id report).rows.filter fun row =>
        decide (row.operationId = other)).length
  rw [hrows, List.length_map, ← h.inputs, List.map_map]
  apply List.map_congr_left
  intro row _
  simp only [Function.comp_apply, hbody]

theorem ServiceEffect.counted (h : ServiceEffect tables call result next)
    (hcounted : tables.Counted other) : next.Counted other := by
  cases h with
  | same hold => exact hcounted
  | sources hold => exact ⟨hcounted.events, hcounted.inputs⟩
  | @acknowledged id sequence facts through =>
    refine ⟨?_, hcounted.inputs⟩
    rw [eventsOf_acknowledged, List.length_map, ← hcounted.events,
      List.map_map]
    apply List.map_congr_left
    intro row _
    simp only [Function.comp_apply]
    split <;> rfl
  | @recorded id input facts events hcount hrows =>
    refine ⟨?_, hcounted.of_delivered id input.report⟩
    have happend := filter_append_operation LocalEventRow.operationId
      tables.events.rows ⟨id, input.sequence, input, false⟩ other
    by_cases hid : id = other
    · subst hid
      simp only [ServiceTables.eventsOf, hrows, happend]
      simp only [↓reduceIte]
      exact range_append_length hcounted.events hcount.symm
    · simp only [ServiceTables.eventsOf, hrows, happend, if_neg hid,
        List.append_nil]
      exact hcounted.events
  | @prepared id input facts inputs hfresh hcount hrows =>
    refine ⟨hcounted.events, ?_⟩
    have happend := filter_append_operation LocalInputRow.operationId
      tables.inputs.rows
      ⟨id, input.requestId, input.inputId, input, .prepared⟩ other
    by_cases hid : id = other
    · subst hid
      simp only [ServiceTables.inputsOf, hrows, happend]
      simp only [↓reduceIte]
      exact range_append_length hcounted.inputs hcount.symm
    · simp only [ServiceTables.inputsOf, hrows, happend, if_neg hid,
        List.append_nil]
      exact hcounted.inputs

theorem ServiceTables.Keeps.refl (tables : ServiceTables) (id : Uuid) :
    tables.Keeps tables id :=
  ⟨List.prefix_rfl, List.prefix_rfl⟩

theorem ServiceTables.Keeps.trans {first second third : ServiceTables}
    (h : first.Keeps second id) (h' : second.Keeps third id) :
    first.Keeps third id :=
  ⟨h.events.trans h'.events, h.inputs.trans h'.inputs⟩

theorem ServiceEffect.keeps (h : ServiceEffect tables call result next)
    (other : Uuid) : tables.Keeps next other := by
  cases h with
  | same hold => exact .refl tables other
  | sources hold => exact ⟨List.prefix_rfl, List.prefix_rfl⟩
  | @acknowledged id sequence facts through =>
    refine ⟨?_, List.prefix_rfl⟩
    rw [eventsOf_acknowledged, List.map_map]
    refine ⟨[], ?_⟩
    rw [List.append_nil]
    apply List.map_congr_left
    intro row _
    simp only [Function.comp_apply]
    split <;> rfl
  | @recorded id input facts events hcount hrows =>
    refine ⟨?_, ?_⟩
    · have happend := filter_append_operation LocalEventRow.operationId
        tables.events.rows ⟨id, input.sequence, input, false⟩ other
      simp only [ServiceTables.eventsOf, hrows, happend, List.map_append]
      exact List.prefix_append _ _
    · obtain ⟨mark, hbody, hmark⟩ :=
        inputsOf_delivered tables id other input.report
      change _ <+: ((tables.deliveredInputs id input.report).rows.filter
        fun row => decide (row.operationId = other)).map _
      rw [hmark, List.map_map]
      refine ⟨[], ?_⟩
      rw [List.append_nil]
      apply List.map_congr_left
      intro row _
      simp only [Function.comp_apply, hbody]
  | @prepared id input facts inputs hfresh hcount hrows =>
    refine ⟨List.prefix_rfl, ?_⟩
    have happend := filter_append_operation LocalInputRow.operationId
      tables.inputs.rows
      ⟨id, input.requestId, input.inputId, input, .prepared⟩ other
    simp only [ServiceTables.inputsOf, hrows, happend, List.map_append]
    exact List.prefix_append _ _

/-- What a step does to the tables: nothing, or what one committed call
does. -/
inductive ServiceStep (host : LocalServiceHost) (s : ServiceMachineState)
    (action : ServiceAction) : Prop
  | same (table : ((serviceMachine host).step s action).1.table = s.table)
      (silent : ∀ call result,
        ((serviceMachine host).step s action).2 ≠ .done call result)
  | called (store : LiveStore Unit ServiceCall) (call : ServiceCall)
      (result : ServiceResult) (process : s.process = .live store)
      (answer : ∀ ran shown,
        ((serviceMachine host).step s action).2 = .done ran shown →
          ran = call ∧ shown = result)
      (run : ServiceCall.run host call s.table =
        .ok (result, ((serviceMachine host).step s action).1.table))
      (refusal : ∀ error,
        ((serviceMachine host).step s action).2 ≠ .refused error)

theorem ServiceStep.of_shell (shown : ServiceAction)
    (h : (serviceMachine host).step s action =
      (serviceShell host).step s shown) : ServiceStep host s action := by
  cases (serviceShell host).step_durable s shown with
  | same htable hsilent =>
    refine .same (by rw [h, htable]) ?_
    rw [h]
    exact hsilent
  | recovered config item rest hprocess htable hsilent => exact item.elim
  | called store call result hprocess hcalls hchecked hanswer htable =>
    refine .called store call result hprocess ?_ (by rw [h]; exact htable) ?_
    · intro ran shownResult hran
      rw [h] at hran
      rcases hanswer with hdone | ⟨hfailed, _⟩
      · rw [hdone] at hran
        cases hran
        exact ⟨rfl, rfl⟩
      · rw [hfailed] at hran
        cases hran
    · intro error hrefused
      rw [h] at hrefused
      rcases hanswer with hdone | ⟨hfailed, _⟩
      · rw [hdone] at hrefused
        cases hrefused
      · rw [hfailed] at hrefused
        cases hrefused

theorem serviceStep_spec (host : LocalServiceHost) (s : ServiceMachineState)
    (action : ServiceAction) :
    ServiceStep host s action := by
  cases action with
  | openStore config => exact .of_shell (.openStore config) rfl
  | recover fault => exact .of_shell (.recover fault) rfl
  | perform index fault => exact .of_shell (.perform index fault) rfl
  | close => exact .of_shell .close rfl
  | crash => exact .of_shell .crash rfl
  | enter call gate =>
    cases hchecks : call.checks host with
    | error error =>
      have hstep : (serviceMachine host).step s (.enter call gate) =
          (s, .refused error) := by
        simp only [serviceMachine, serviceStep, hchecks]
      refine .same (by rw [hstep]) ?_
      intro ran result h
      rw [hstep] at h
      cases h
    | ok checked =>
      have hstep : (serviceMachine host).step s (.enter call gate) =
          (serviceShell host).step s (.enter checked gate) := by
        simp only [serviceMachine, serviceStep, hchecks]
      exact .of_shell (.enter checked gate) hstep

/-- A call that is rejected leaves the tables as they are. -/
theorem serviceStep_refused
    (h : ((serviceMachine host).step s action).2 = .refused error) :
    ((serviceMachine host).step s action).1.table = s.table := by
  cases serviceStep_spec host s action with
  | same htable hsilent => exact htable
  | called store call result hprocess hanswer hrun hrefusal =>
    exact absurd h (hrefusal error)

theorem serviceStep_counted (h : s.table.Counted id) (action : ServiceAction) :
    ((serviceMachine host).step s action).1.table.Counted id := by
  cases serviceStep_spec host s action with
  | same htable hsilent =>
    rw [htable]
    exact h
  | called store call result hprocess hanswer hrun hrefusal =>
    exact (ServiceCall.run_effect hrun).counted h

theorem serviceStep_keeps (s : ServiceMachineState) (action : ServiceAction)
    (id : Uuid) :
    s.table.Keeps ((serviceMachine host).step s action).1.table id := by
  cases serviceStep_spec host s action with
  | same htable hsilent =>
    rw [htable]
    exact .refl s.table id
  | called store call result hprocess hanswer hrun hrefusal =>
    exact (ServiceCall.run_effect hrun).keeps id

theorem services_counted (actions : List ServiceAction) (id : Uuid) :
    ((serviceMachine host).after initialServices actions).table.Counted id :=
  Machine.after_invariant
    (fun s : ServiceMachineState => s.table.Counted id)
    (fun _ action h => serviceStep_counted h action) ⟨rfl, rfl⟩ actions

theorem services_keep (s : ServiceMachineState) (actions : List ServiceAction)
    (id : Uuid) :
    s.table.Keeps ((serviceMachine host).after s actions).table id :=
  Machine.after_rel (fun _ => True)
    (fun s t : ServiceMachineState => s.table.Keeps t.table id)
    (fun s => .refl s.table id) (fun h h' => h.trans h')
    (fun _ _ _ => trivial) (fun s action _ => serviceStep_keeps s action id)
    trivial actions

/-- The answer by which an input request is new. -/
def answersNew (id requestId : Uuid) : ServiceAction × ServiceStoreAnswer → Bool
  | (_, .done (.prepare operation input _) (.prepared .new)) =>
    operation = id && input.requestId = requestId
  | _ => false

/-- An input is stored for the request. -/
def ServiceTables.HasInput (tables : ServiceTables) (id requestId : Uuid) :
    Prop :=
  (id, requestId) ∈ tables.inputs.rows.map LocalInputRow.key

theorem ServiceEffect.hasInput (h : ServiceEffect tables call result next)
    (hinput : tables.HasInput id requestId) : next.HasInput id requestId := by
  cases h with
  | same hold | sources hold | acknowledged => exact hinput
  | @recorded operation input facts events hcount hrows =>
    cases hreport : input.report with
    | starting containerId hardDeadlineAt | ready port | inputRequest request =>
      exact hinput
    | inputDelivered delivered =>
      simp only [ServiceTables.HasInput, ServiceTables.deliveredInputs,
        Table.updateWhere, List.map_map]
      obtain ⟨row, hrow, hkey⟩ := List.mem_map.1 hinput
      apply List.mem_map.2
      refine ⟨row, hrow, ?_⟩
      rw [← hkey]
      simp only [Function.comp_apply]
      split <;> rfl
  | @prepared operation input facts inputs hfresh hcount hrows =>
    simp only [ServiceTables.HasInput, hrows, List.map_append]
    exact List.mem_append_left _ hinput

theorem serviceStep_hasInput (h : s.table.HasInput id requestId)
    (action : ServiceAction) :
    ((serviceMachine host).step s action).1.table.HasInput id requestId := by
  cases serviceStep_spec host s action with
  | same htable hsilent =>
    rw [htable]
    exact h
  | called store call result hprocess hanswer hrun hrefusal =>
    exact (ServiceCall.run_effect hrun).hasInput h

/-- A request that is answered as new had no input and has one now. -/
theorem serviceStep_new
    (h : answersNew id requestId
      (action, ((serviceMachine host).step s action).2) = true) :
    ¬s.table.HasInput id requestId ∧
      ((serviceMachine host).step s action).1.table.HasInput id
        requestId := by
  have hdone : ∃ input facts, ((serviceMachine host).step s action).2 =
      .done (.prepare id input facts) (.prepared .new) ∧
        input.requestId = requestId := by
    unfold answersNew at h
    split at h
    · rename_i shown operation input facts heq
      simp only [Bool.and_eq_true, decide_eq_true_eq] at h
      obtain ⟨rfl, hrequest⟩ := h
      exact ⟨input, facts, (Prod.mk.inj heq).2, hrequest⟩
    · cases h
  obtain ⟨input, facts, hdone, rfl⟩ := hdone
  cases serviceStep_spec host s action with
  | same htable hsilent => exact absurd hdone (hsilent _ _)
  | called store call result hprocess hanswer hrun hrefusal =>
    obtain ⟨rfl, rfl⟩ := hanswer _ _ hdone
    generalize hnext : ((serviceMachine host).step s action).1.table = next
      at hrun ⊢
    cases ServiceCall.run_effect hrun with
    | same hold | sources hold => exact absurd rfl (hold id input facts rfl)
    | @prepared _ _ _ inputs hfresh hcount hrows =>
      constructor
      · intro hinput
        obtain ⟨row, hrow, hkey⟩ := List.mem_map.1 hinput
        exact Table.find?_eq_none_iff.1 hfresh row hrow hkey
      · simp only [ServiceTables.HasInput, hrows, List.map_append]
        exact List.mem_append_right _ (List.mem_singleton_self _)

theorem new_once (actions : List ServiceAction) (id requestId : Uuid) :
    ((serviceMachine host).events initialServices actions).countP
      (answersNew id requestId) ≤ 1 := by
  apply Machine.events_countP_le_one (fun _ => True)
    (fun s : ServiceMachineState => s.table.HasInput id requestId)
  · intro _ _ _
    trivial
  · intro s action _ h
    exact serviceStep_hasInput h action
  · intro s action _ h
    by_contra hnew
    exact (serviceStep_new (eq_true_of_ne_false hnew)).1 h
  · intro s action _ h
    exact (serviceStep_new h).2
  · trivial

/-- The row as it was prepared. -/
def LocalInputRow.asPrepared (row : LocalInputRow) : LocalInputRow :=
  { row with state := .prepared }

/-- The step is the transaction that prepares the input of the row. -/
def PreparedIn (host : LocalServiceHost) (s : ServiceMachineState)
    (action : ServiceAction) (row : LocalInputRow) : Prop :=
  (∃ facts, ServiceCall.run host (.prepare row.operationId row.body facts)
    s.table = .ok (.prepared .new,
      ((serviceMachine host).step s action).1.table)) ∧
  row.asPrepared ∈ ((serviceMachine host).step s action).1.table.inputs.rows

/-- The step is the transaction of an event that delivers the stored input of
the row. -/
def DeliveredIn (host : LocalServiceHost) (s : ServiceMachineState)
    (action : ServiceAction) (row : LocalInputRow) : Prop :=
  (∃ input delivered facts, input.report = .inputDelivered delivered ∧
    delivered.inputId = row.inputId ∧
    ServiceCall.run host (.event row.operationId input facts) s.table =
      .ok (.done, ((serviceMachine host).step s action).1.table)) ∧
  ∃ old ∈ s.table.inputs.rows, old.asPrepared = row.asPrepared

/-- Where a row of the inputs comes from in one step. -/
inductive InputOrigin (host : LocalServiceHost) (s : ServiceMachineState)
    (action : ServiceAction) (row : LocalInputRow) : Prop
  | stored (mem : row ∈ s.table.inputs.rows)
  | prepared (made : PreparedIn host s action row)
      (state : row.state = .prepared)
  | delivered (old : LocalInputRow) (mem : old ∈ s.table.inputs.rows)
      (same : old.asPrepared = row.asPrepared)
      (made : DeliveredIn host s action row)

theorem PreparedIn.congr {s : ServiceMachineState} {action : ServiceAction}
    {old row : LocalInputRow} (h : PreparedIn host s action old)
    (hsame : old.asPrepared = row.asPrepared) :
    PreparedIn host s action row := by
  have hid : old.operationId = row.operationId := by
    have h := congrArg LocalInputRow.operationId hsame
    exact h
  have hbody : old.body = row.body := by
    have h := congrArg LocalInputRow.body hsame
    exact h
  unfold PreparedIn at h ⊢
  rwa [hid, hbody, hsame] at h

/-- An event that delivers marks the row of its input only. -/
theorem mem_deliveredInputs {report : LocalServiceReport}
    (h : row ∈ (tables.deliveredInputs id report).rows) :
    row ∈ tables.inputs.rows ∨
      ∃ delivered, report = .inputDelivered delivered ∧
        ∃ old ∈ tables.inputs.rows, old.operationId = id ∧
          old.inputId = delivered.inputId ∧
            { old with state := .delivered } = row := by
  cases report with
  | starting containerId hardDeadlineAt | ready port | inputRequest request =>
    exact .inl h
  | inputDelivered delivered =>
    obtain ⟨old, hold, hrow⟩ := List.mem_map.1 h
    dsimp only at hrow
    split at hrow
    · rename_i hmatches
      simp only [Bool.and_eq_true, decide_eq_true_eq] at hmatches
      exact .inr ⟨delivered, rfl, old, hold, hmatches.1, hmatches.2, hrow⟩
    · exact .inl (hrow ▸ hold)

theorem serviceStep_origin
    (h : row ∈ ((serviceMachine host).step s action).1.table.inputs.rows) :
    InputOrigin host s action row := by
  cases serviceStep_spec host s action with
  | same htable hsilent =>
    rw [htable] at h
    exact .stored h
  | called store call result hprocess hanswer hrun hrefusal =>
    have hmem := h
    have hran := hrun
    generalize hnext : ((serviceMachine host).step s action).1.table = next
      at hmem hran
    cases ServiceCall.run_effect hran with
    | same hold | sources hold | acknowledged => exact .stored hmem
    | @recorded id input facts events hcount hrows =>
      rcases mem_deliveredInputs hmem with
        hstored | ⟨delivered, hreport, old, hold, rfl, hinput, rfl⟩
      · exact .stored hstored
      · exact .delivered old hold rfl
          ⟨⟨input, delivered, facts, hreport, hinput.symm, hrun⟩, old,
            hold, rfl⟩
    | @prepared id input facts inputs hfresh hcount hrows =>
      change row ∈ inputs.rows at hmem
      rw [hrows, List.mem_append, List.mem_singleton] at hmem
      rcases hmem with hstored | rfl
      · exact .stored hstored
      · exact .prepared ⟨⟨facts, hrun⟩, h⟩ rfl

/-- The input of the row was prepared in the run, and delivered only after
that. -/
structure PreparedFirst (host : LocalServiceHost)
    (actions : List ServiceAction) (row : LocalInputRow)
    (early late : List ServiceAction) (action : ServiceAction) : Prop where
  run : actions = early ++ action :: late
  prepared : PreparedIn host
    ((serviceMachine host).after initialServices early) action row
  delivered : row.state = .delivered →
    ∃ middle deliver rest, late = middle ++ deliver :: rest ∧
      DeliveredIn host ((serviceMachine host).after initialServices
        (early ++ action :: middle)) deliver row

theorem PreparedFirst.snoc {actions early late : List ServiceAction}
    (h : PreparedFirst host actions row early late action)
    (last : ServiceAction) :
    PreparedFirst host (actions ++ [last]) row early (late ++ [last])
      action := by
  refine ⟨by rw [h.run, List.append_assoc]; rfl, h.prepared, ?_⟩
  intro hstate
  obtain ⟨middle, deliver, rest, hlate, hdelivered⟩ := h.delivered hstate
  exact ⟨middle, deliver, rest ++ [last],
    by rw [hlate, List.append_assoc]; rfl, hdelivered⟩

/-- Every stored input was prepared in the run that stored it, and delivered
only after that. -/
theorem prepared_first (actions : List ServiceAction)
    (hrow : row ∈
      ((serviceMachine host).after initialServices actions).table.inputs.rows) :
    ∃ early action late,
      PreparedFirst host actions row early late action := by
  induction actions using List.reverseRecOn generalizing row with
  | nil => cases hrow
  | append_singleton actions last ih =>
    rw [Machine.after_append] at hrow
    cases serviceStep_origin hrow with
    | stored hmem =>
      obtain ⟨early, action, late, hfirst⟩ := ih hmem
      exact ⟨early, action, late ++ [last], hfirst.snoc last⟩
    | prepared hmade hstate =>
      refine ⟨actions, last, [], rfl, hmade, ?_⟩
      intro hdelivered
      rw [hstate] at hdelivered
      cases hdelivered
    | delivered old hmem hsame hmade =>
      obtain ⟨early, action, late, hfirst⟩ := ih hmem
      refine ⟨early, action, late ++ [last], (hfirst.snoc last).run,
        hfirst.prepared.congr hsame, ?_⟩
      intro _
      refine ⟨late, last, [], rfl, ?_⟩
      rw [← hfirst.run]
      exact hmade

/-- The call comes to its action: the operation is a service that has
begun. -/
structure Accessed (facts : ServiceFacts) (entry : ServiceEntry) : Prop where
  found : facts.entry = some entry
  begun : entry.received = false
  service : (entry.command.bind (·.background)).isSome

/-- Running the admitted call changes no table, however the store behaves, and
a working journal answers it. -/
structure Settles (host : LocalServiceHost) (s : ServiceMachineState)
    (index : Nat) (answer : ServiceStoreAnswer) : Prop where
  unchanged : ∀ fault,
    ((serviceMachine host).step s (.perform index fault)).1.table = s.table
  answered : ((serviceMachine host).step s (.perform index .none)).2 = answer

/-- The open store has admitted the call. -/
structure Admitted (s : ServiceMachineState) (index : Nat)
    (call : ServiceCall) (store : LiveStore Unit ServiceCall) : Prop where
  process : s.process = .live store
  opened : store.closed = false
  call : store.calls[index]? = some call

theorem Admitted.step (h : Admitted s index call store) (fault : StoreFault) :
    (serviceMachine host).step s (.perform index fault) =
      (serviceShell host).runCall s.table
        { store with calls := store.calls.eraseIdx index } call fault := by
  simp only [serviceMachine, serviceStep, StoreShell.step, h.process,
    StoreShell.performCall, h.call]

theorem Admitted.settles_ok (h : Admitted s index call store)
    {action : ServiceTx α}
    (hcall : ServiceCall.run host call = shown <$> action) {a : α}
    (haction : action s.table = .ok (a, s.table)) :
    Settles host s index (.done call (shown a)) := by
  have hrun : ServiceCall.run host call s.table = .ok (shown a, s.table) := by
    rw [hcall]
    exact map_eq_ok.2 ⟨a, haction, rfl⟩
  constructor
  · intro fault
    rw [h.step fault]
    cases fault <;>
      simp [StoreShell.runCall, serviceShell, h.opened, hrun]
  · rw [h.step .none]
    simp [StoreShell.runCall, serviceShell, h.opened, hrun]

theorem Admitted.settles_error (h : Admitted s index call store)
    {action : ServiceTx α}
    (hcall : ServiceCall.run host call = shown <$> action)
    (haction : action s.table = .error error) :
    Settles host s index (.refused error) := by
  have hrun : ServiceCall.run host call s.table = .error error := by
    rw [hcall, map_eq_pure_bind]
    change (action s.table >>= _) = _
    rw [haction]
    rfl
  constructor
  · intro fault
    rw [h.step fault]
    cases fault <;>
      simp [StoreShell.runCall, serviceShell, h.opened, hrun]
  · rw [h.step .none]
    simp [StoreShell.runCall, serviceShell, h.opened, hrun]

theorem get_bind_run {rest : ServiceTables → ServiceTx α}
    (tables : ServiceTables) : (get >>= rest) tables = rest tables tables :=
  rfl

theorem rejectIf_bind_pass [Decidable refused] (h : ¬refused)
    (tables : ServiceTables) :
    (rejectIf refused error >>= rest) tables = rest ⟨⟩ tables := by
  rw [rejectIf, if_neg h]
  rfl

theorem rejectIf_bind_fail [Decidable refused] (h : refused)
    (tables : ServiceTables) :
    (rejectIf refused error >>= rest) tables = .error error := by
  rw [rejectIf, if_pos h]
  rfl

theorem Accessed.run {facts : ServiceFacts} (h : Accessed facts entry)
    (action : ServiceEntry → ServiceTx α) (tables : ServiceTables) :
    serviceAccess facts action tables = action entry tables := by
  have hpass : ¬(entry.received = true ∨
      entry.command.bind (·.background) = none) := by
    rintro (hreceived | hnone)
    · rw [h.begun] at hreceived
      cases hreceived
    · have hsome := h.service
      rw [hnone] at hsome
      cases hsome
  rw [serviceAccess, h.found]
  change (rejectIf _ _ >>= fun _ => action entry) tables = _
  exact rejectIf_bind_pass hpass tables

theorem event_repeat {input : RuntimeLocalServiceEvent}
    (hattempt : input.attemptId = entry.attemptId)
    (hprior : tables.events.find? (id, input.sequence) = some prior) :
    LocalServiceJournal.event id input entry tables =
      if prior.body = input then .ok (⟨⟩, tables)
      else .error (.policy .eventConflict) := by
  rw [LocalServiceJournal.event, rejectIf_bind_pass (not_not.2 hattempt),
    get_bind_run]
  simp only [hprior]
  by_cases hbody : prior.body = input
  · rw [rejectIf, if_neg (not_not.2 hbody), if_pos hbody]
    rfl
  · rw [rejectIf, if_pos hbody, if_neg hbody]
    rfl

theorem repeat_run {delivered : Prop} [Decidable conflict] [Decidable delivered]
    (tables : ServiceTables) :
    (do rejectIf conflict first
        rejectIf (¬delivered) second
        pure answer : ServiceTx α) tables =
      if conflict then .error first
      else if delivered then .ok (answer, tables)
      else .error second := by
  by_cases hconflict : conflict
  · rw [rejectIf_bind_fail hconflict, if_pos hconflict]
  · rw [rejectIf_bind_pass hconflict, if_neg hconflict]
    by_cases hdelivered : delivered
    · rw [rejectIf_bind_pass (not_not.2 hdelivered), if_pos hdelivered]
      rfl
    · rw [rejectIf_bind_fail hdelivered, if_neg hdelivered]

theorem prepare_repeat {input : RuntimeLocalServiceInput} {now : Int}
    {prior : LocalInputRow}
    (hprior : tables.inputs.find? (id, input.requestId) = some prior) :
    LocalServiceJournal.prepare host now id input tables =
      if prior.body ≠ input then .error (.policy .inputConflict)
      else if prior.state = .delivered then .ok (.delivered, tables)
      else .error (.policy .inputEffectUnknown) := by
  rw [LocalServiceJournal.prepare, get_bind_run]
  simp only [hprior]
  exact repeat_run tables

theorem prepareSource_repeat {update : ProjectServiceSourceUpdate}
    {prior : LocalSourceRow}
    (hprior : tables.sources.find? (id, update.updateId) = some prior) :
    LocalServiceJournal.prepareSource id update entry tables =
      if prior.body ≠ update then .error (.policy .sourceConflict)
      else if prior.state = .delivered then .ok (.delivered, tables)
      else .error (.policy .sourceEffectUnknown) := by
  rw [LocalServiceJournal.prepareSource, get_bind_run]
  simp only [hprior]
  exact repeat_run tables

theorem sourceApplied_conflict {receipt : ProjectServiceSourceReceipt}
    {prior : LocalSourceRow}
    (hprior : tables.sources.find? (id, receipt.updateId) = some prior)
    (hconflict : prior.body.sourceDigest ≠ receipt.sourceDigest ∨
      ∃ stored ∈ prior.receipt, stored ≠ receipt) :
    LocalServiceJournal.sourceApplied id receipt tables =
      .error (.policy .sourceConflict) := by
  rw [LocalServiceJournal.sourceApplied, get_bind_run, hprior]
  simp only [expect, pure_bind]
  exact rejectIf_bind_fail hconflict tables

/-- An event whose number is stored is done if it is the same event, and a
conflict if it is not. -/
theorem Admitted.settles_event {input : RuntimeLocalServiceEvent}
    {facts : ServiceFacts} (h : Admitted s index (.event id input facts) store)
    (haccess : Accessed facts entry)
    (hattempt : input.attemptId = entry.attemptId)
    (hprior : s.table.events.find? (id, input.sequence) = some prior) :
    Settles host s index (if prior.body = input then
      .done (.event id input facts) .done
      else .refused (.policy .eventConflict)) := by
  have hrun := (haccess.run (LocalServiceJournal.event id input) s.table).trans
    (event_repeat hattempt hprior)
  by_cases hbody : prior.body = input
  · rw [if_pos hbody] at hrun ⊢
    exact h.settles_ok rfl hrun
  · rw [if_neg hbody] at hrun ⊢
    exact h.settles_error rfl hrun

/-- What is stored is a conflict if it is another, delivered if its event is
stored, and unknown in its effect before that. -/
theorem Admitted.settles_repeat {delivered : Prop} [Decidable conflict]
    [Decidable delivered] (h : Admitted s index call store)
    {action : ServiceTx α}
    (hcall : ServiceCall.run host call = shown <$> action)
    (haction : action s.table = if conflict then .error first
      else if delivered then .ok (answer, s.table) else .error second) :
    Settles host s index (if conflict then .refused first
      else if delivered then .done call (shown answer)
      else .refused second) := by
  by_cases hconflict : conflict
  · rw [if_pos hconflict] at haction ⊢
    exact h.settles_error hcall haction
  · rw [if_neg hconflict] at haction ⊢
    by_cases hdelivered : delivered
    · rw [if_pos hdelivered] at haction ⊢
      exact h.settles_ok hcall haction
    · rw [if_neg hdelivered] at haction ⊢
      exact h.settles_error hcall haction

/-- How the journal settles what it has stored already. -/
structure SettlesRepeats (host : LocalServiceHost) (s : ServiceMachineState) :
    Prop where
  event : ∀ {index store id input facts entry prior},
    Admitted s index (.event id input facts) store → Accessed facts entry →
    input.attemptId = entry.attemptId →
    s.table.events.find? (id, input.sequence) = some prior →
      Settles host s index (if prior.body = input then
        .done (.event id input facts) .done
        else .refused (.policy .eventConflict))
  prepare : ∀ {index store id input facts entry prior},
    Admitted s index (.prepare id input facts) store → Accessed facts entry →
    s.table.inputs.find? (id, input.requestId) = some prior →
      Settles host s index (if prior.body ≠ input then
        .refused (.policy .inputConflict)
        else if prior.state = .delivered then
          .done (.prepare id input facts) (.prepared .delivered)
        else .refused (.policy .inputEffectUnknown))
  source : ∀ {index store id update facts entry prior},
    Admitted s index (.prepareSource id update facts) store →
    Accessed facts entry →
    s.table.sources.find? (id, update.updateId) = some prior →
      Settles host s index (if prior.body ≠ update then
        .refused (.policy .sourceConflict)
        else if prior.state = .delivered then
          .done (.prepareSource id update facts) (.prepared .delivered)
        else .refused (.policy .sourceEffectUnknown))
  applied : ∀ {index store id receipt facts entry prior},
    Admitted s index (.sourceApplied id receipt facts) store →
    Accessed facts entry →
    s.table.sources.find? (id, receipt.updateId) = some prior →
    (prior.body.sourceDigest ≠ receipt.sourceDigest ∨
      ∃ stored ∈ prior.receipt, stored ≠ receipt) →
      Settles host s index (.refused (.policy .sourceConflict))
  refused : ∀ action error,
    ((serviceMachine host).step s action).2 = .refused error →
      ((serviceMachine host).step s action).1.table = s.table

/-- In the state that any run reaches: a request has been answered as new at
most once; the events and the inputs of an operation are numbered without a
gap, and what is stored stays in its place whatever comes; a delivered input
was prepared before it was delivered; and a repeat, the same or a conflicting
one, changes nothing. -/
theorem local_service_journal (host : LocalServiceHost)
    (actions : List ServiceAction) (s : ServiceMachineState)
    (hs : s = (serviceMachine host).after initialServices actions) :
    (∀ id requestId, ((serviceMachine host).events initialServices
      actions).countP (answersNew id requestId) ≤ 1) ∧
    (∀ id, s.table.Counted id) ∧
    (∀ id more,
      s.table.Keeps ((serviceMachine host).after s more).table id) ∧
    (∀ row ∈ s.table.inputs.rows, ∃ early action late,
      PreparedFirst host actions row early late action) ∧
    SettlesRepeats host s := by
  subst hs
  refine ⟨new_once actions, services_counted actions,
    fun id more => services_keep _ more id,
    fun row hrow => prepared_first actions hrow, ?_⟩
  exact {
    event := fun h => h.settles_event
    prepare := fun h haccess hprior =>
      h.settles_repeat rfl ((haccess.run _ _).trans (prepare_repeat hprior))
    source := fun h haccess hprior => h.settles_repeat rfl
      ((haccess.run _ _).trans (prepareSource_repeat hprior))
    applied := fun h haccess hprior hconflict => h.settles_error rfl
      ((haccess.run _ _).trans (sourceApplied_conflict hprior hconflict))
    refused := fun action error h => serviceStep_refused h }

namespace LocalServiceWitness

def device : LocalServiceHost where
  isoDatetime := fun _ => true
  parseDate := fun _ => some 1000
  digestInput := fun _ text => text.length
  updateValid := fun _ => true

def facts : ServiceFacts := ⟨0, some ⟨false, 7, some ⟨some false, none⟩⟩⟩

def request : RuntimeLocalServiceRequest where
  requestId := 21
  sequence := 0
  prompt := JsString.ofString "name"
  expiresAt := JsString.ofString "2026-01-01T00:00:00Z"
  maxBytes := 100

def input : RuntimeLocalServiceInput where
  inputId := 31
  requestId := 21
  sequence := 0
  expiresAt := request.expiresAt
  digest := 2
  kind := .text
  text := JsString.ofString "ok"

def requested : RuntimeLocalServiceEvent := ⟨6, 7, 0, .inputRequest request⟩

def delivered : RuntimeLocalServiceEvent :=
  ⟨6, 7, 1, .inputDelivered ⟨31, 21, 0, 2, .text⟩⟩

/-- A request, its input and the event that the input was delivered. -/
def actions : List ServiceAction :=
  [.openStore (), .recover .none,
    .enter (.event 6 requested facts) .pass, .perform 0 .none,
    .enter (.prepare 6 input facts) .pass, .perform 0 .none,
    .enter (.event 6 delivered facts) .pass, .perform 0 .none]

theorem local_service_journal_delivered :
    ∃ early action late, PreparedFirst device actions
      ⟨6, 21, 31, input, .delivered⟩ early late action :=
  (local_service_journal device actions _ rfl).2.2.2.1
    ⟨6, 21, 31, input, .delivered⟩ (by decide)

end LocalServiceWitness

end Allrice
