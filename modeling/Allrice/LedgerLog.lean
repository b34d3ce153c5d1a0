/-
The event log of an operation.  An operation and its events are written
together, so whatever relates a row to its log is an invariant as soon as it
holds of a fresh operation and survives the three writes that touch a row: an
event, a dispatch with its lease, and a longer lease.
-/
import Allrice.EventLog
import Allrice.LedgerMachine

namespace Allrice

/-- A relation between an operation and its log that every write keeps. -/
structure LogRule (P : OperationRow → List EventRow → Prop) : Prop where
  fresh : ∀ {row : OperationRow}, row.Fresh → P row []
  event : ∀ {row : OperationRow} {log : List EventRow}
    {snapshot : RuntimeOperationSnapshot} {occurredAt : Timestamp}
    {signal : RuntimeOperationSignal},
    P row log → advanceRuntimeOperation row.snapshot signal = .ok snapshot →
    signal ≠ .dispatched →
    (isExecutorSignal signal = true → row.lease ≠ none) →
    P { row with snapshot, nextSequence := row.nextSequence + 1 }
      (log ++ [appendedEvent row snapshot occurredAt signal])
  dispatch : ∀ {row : OperationRow} {log : List EventRow}
    {snapshot : RuntimeOperationSnapshot} {occurredAt : Timestamp}
    {lease : OperationLease},
    P row log →
    advanceRuntimeOperation row.snapshot .dispatched = .ok snapshot →
    P { row with
        snapshot, nextSequence := row.nextSequence + 1, lease := some lease }
      (log ++ [appendedEvent row snapshot occurredAt .dispatched])
  extend : ∀ {row : OperationRow} {log : List EventRow}
    {held lease : OperationLease},
    P row log → row.lease = some held → P { row with lease := some lease } log

/-- Every operation stands in the relation to its log, and only operations have
events. -/
structure LedgerDb.Logged (P : OperationRow → List EventRow → Prop)
    (db : LedgerDb) : Prop where
  unknown : ∀ {operationId}, db.operations.find? operationId = none →
    eventsOf db operationId = []
  known : ∀ {operationId row}, db.operations.find? operationId = some row →
    P row (eventsOf db operationId)

variable {db : LedgerDb} {row next : OperationRow} {event : EventRow}
  {snapshot : RuntimeOperationSnapshot}

/-- An inserted event is the last one of its operation. -/
theorem eventsOf_insert {events} (h : db.events.insert? event = some events)
    (operationId : Uuid) :
    events.rows.filter (·.operationId = operationId) =
      if event.operationId = operationId
      then eventsOf db operationId ++ [event]
      else eventsOf db operationId := by
  rw [(Table.insert?_eq_some h).2, List.filter_append]
  by_cases hid : event.operationId = operationId
  · simp [hid, eventsOf]
  · simp [hid, eventsOf]

variable {P : OperationRow → List EventRow → Prop}

/-- An update of a row, with no event of another operation. -/
theorem LedgerDb.Logged.replace {events} (h : db.Logged P)
    (hrow : db.operations.find? row.id = some row) (hid : next.id = row.id)
    (hothers : ∀ operationId, row.id ≠ operationId →
      eventsOf { db with events } operationId = eventsOf db operationId)
    (hnext : P next (eventsOf { db with events } row.id)) :
    LedgerDb.Logged P
      { db with events, operations := db.operations.replace next } := by
  refine ⟨?_, ?_⟩
  · intro operationId hnone
    rw [Table.find?_replace, hid] at hnone
    by_cases hsame : row.id = operationId
    · subst hsame
      simp [hrow] at hnone
    · rw [if_neg hsame] at hnone
      exact (hothers _ hsame).trans (h.unknown hnone)
  · intro operationId found hfound
    rw [Table.find?_replace, hid] at hfound
    by_cases hsame : row.id = operationId
    · subst hsame
      simp only [↓reduceIte, hrow, Option.map_some, Option.some.injEq] at hfound
      subst hfound
      exact hnext
    · rw [if_neg hsame] at hfound
      have hknown := h.known hfound
      rw [← hothers _ hsame] at hknown
      exact hknown

/-- An event of an operation and the update of its row, written together. -/
theorem LedgerDb.Logged.append {events} (h : db.Logged P)
    (hrow : db.operations.find? row.id = some row) (hid : next.id = row.id)
    (hevent : event.operationId = row.id)
    (hevents : db.events.insert? event = some events)
    (hnext : P next (eventsOf db row.id ++ [event])) :
    LedgerDb.Logged P
      { db with events, operations := db.operations.replace next } := by
  have hlog := eventsOf_insert hevents
  rw [hevent] at hlog
  refine h.replace hrow hid (fun operationId hother => ?_) ?_
  · exact (hlog operationId).trans (if_neg hother)
  · show P next (events.rows.filter _)
    rw [hlog, if_pos rfl]
    exact hnext

/-- An update of a row that leaves its log alone. -/
theorem LedgerDb.Logged.update (h : db.Logged P)
    (hrow : db.operations.find? row.id = some row) (hid : next.id = row.id)
    (hnext : P next (eventsOf db row.id)) :
    LedgerDb.Logged P
      { db with operations := db.operations.replace next } :=
  h.replace hrow hid (fun _ _ => rfl) hnext

/-- A new operation starts with an empty log. -/
theorem LedgerDb.Logged.create {operations} (h : db.Logged P)
    (hoperations : db.operations.insert? row = some operations)
    (hrow : P row []) : LedgerDb.Logged P { db with operations } := by
  have hnew := (Table.insert?_eq_some hoperations).1
  refine ⟨?_, ?_⟩
  · intro operationId hnone
    rw [Table.find?_insert? hoperations] at hnone
    by_cases hsame : row.id = operationId
    · simp [hsame] at hnone
    · rw [if_neg hsame] at hnone
      exact h.unknown hnone
  · intro operationId found hfound
    rw [Table.find?_insert? hoperations] at hfound
    by_cases hsame : row.id = operationId
    · subst hsame
      simp only [↓reduceIte, Option.some.injEq] at hfound
      subst hfound
      have hempty := h.unknown hnew
      show P row (eventsOf db row.id)
      rw [hempty]
      exact hrow
    · rw [if_neg hsame] at hfound
      exact h.known hfound

/-- Every write keeps what a log rule describes. -/
theorem LogRule.write (rule : LogRule P) {next : LedgerDb}
    (hwrite : LedgerWrite db next) (h : db.Logged P) : next.Logged P := by
  cases hwrite with
  | event hrow hadvance hevents hsignal hexecutor =>
    refine h.append hrow rfl rfl hevents ?_
    exact rule.event (h.known hrow) hadvance hsignal hexecutor
  | dispatch hrow hadvance hevents _ =>
    refine h.append hrow rfl rfl hevents ?_
    exact rule.dispatch (h.known hrow) hadvance
  | extend hrow hheld _ =>
    exact h.update hrow rfl (rule.extend (h.known hrow) hheld)
  | operation hfresh hoperations =>
    exact h.create hoperations (rule.fresh hfresh)
  | root _ | deadline _ | cancel _ | link _ | budget _ _ | reserve _ _ _ _ _
  | settle _ _ _ _ | receipt _ => exact ⟨h.unknown, h.known⟩

/-- A log rule holds of every operation that any run of the ledger reaches. -/
theorem LogRule.reachable (rule : LogRule P) (host : LedgerHost)
    (actions : List LedgerAction) :
    ((ledgerMachine host).after .init actions).db.Logged P := by
  refine ledger_invariant host rule.write (fun h => ⟨h.unknown, h.known⟩)
    ⟨?_, ?_⟩ actions
  · intro operationId _
    rfl
  · intro operationId row hrow
    simp [LedgerDb.empty] at hrow

/-- The signals of a log. -/
def signalsOf (log : List EventRow) : List RuntimeOperationSignal :=
  log.map (·.signal)

theorem signalsOf_append (log : List EventRow) (event : EventRow) :
    signalsOf (log ++ [event]) = signalsOf log ++ [event.signal] := by
  simp [signalsOf]

/-- The log has contiguous sequence numbers and replays to the stored
snapshot. -/
structure OperationRow.Projects (row : OperationRow) (log : List EventRow) :
    Prop where
  sequence : log.map (·.sequence) = List.range row.nextSequence
  replay : Replays advanceRuntimeOperation row.initialSnapshot (signalsOf log)
    row.snapshot

/-- One appended event keeps the projection, whatever the lease becomes. -/
theorem OperationRow.Projects.append {log : List EventRow}
    {occurredAt : Timestamp} {signal : RuntimeOperationSignal}
    {lease : Option OperationLease} (h : row.Projects log)
    (hadvance : advanceRuntimeOperation row.snapshot signal = .ok snapshot) :
    OperationRow.Projects
      { row with snapshot, nextSequence := row.nextSequence + 1, lease }
      (log ++ [appendedEvent row snapshot occurredAt signal]) := by
  constructor
  · rw [List.map_append, h.sequence, List.range_succ]
    rfl
  · rw [signalsOf_append]
    exact h.replay.snoc hadvance

theorem projects_rule : LogRule OperationRow.Projects where
  fresh := by
    intro row hfresh
    refine ⟨?_, ?_⟩
    · rw [hfresh.sequence]
      rfl
    · rw [hfresh.initial]
      exact Replays.nil
  event := fun h hadvance _ _ => h.append hadvance
  dispatch := fun h hadvance => h.append hadvance
  extend := fun h _ => ⟨h.sequence, h.replay⟩

/-- What a run of signals leaves of a valid planned snapshot. -/
structure ProjectionSound (snapshot : RuntimeOperationSnapshot)
    (signals : List RuntimeOperationSignal) : Prop where
  terminal : ∀ more,
    isTerminalRuntimeOperationStatus
        (operationProjection.after snapshot signals).status = true →
      operationProjection.after snapshot (signals ++ more) =
        operationProjection.after snapshot signals
  result : (operationProjection.after snapshot signals).result ≠ none ↔
    isTerminalRuntimeOperationStatus
      (operationProjection.after snapshot signals).status = true
  agreement : ∀ result ∈
      (operationProjection.after snapshot signals).result,
    result.status.toStatus =
      (operationProjection.after snapshot signals).status
  process : ∀ more,
    (operationProjection.after snapshot signals).processId ≠ none →
      (operationProjection.after snapshot (signals ++ more)).processId =
        (operationProjection.after snapshot signals).processId
  intent : ∀ more,
    (operationProjection.after snapshot signals).cancelRequestId ≠ none →
      (operationProjection.after snapshot (signals ++ more)).cancelRequestId =
        (operationProjection.after snapshot signals).cancelRequestId
  rejected : ∀ signal error,
    advanceRuntimeOperation (operationProjection.after snapshot signals)
        signal = .error error →
      operationProjection.after snapshot (signals ++ [signal]) =
        operationProjection.after snapshot signals

theorem projection_sound (hvalid : snapshot.Valid)
    (signals : List RuntimeOperationSignal) :
    ProjectionSound snapshot signals := by
  have hafter := projection_valid hvalid signals
  have hretained : ∀ more,
      Retained (operationProjection.after snapshot signals)
        (operationProjection.after snapshot (signals ++ more)) := by
    intro more
    rw [Machine.after_append]
    exact projection_retained _ more
  constructor
  · intro more hterminal
    exact (hretained more).absorbed hterminal
  · rw [hafter.terminal, Option.isSome_iff_ne_none]
  · exact hafter.agreement
  · intro more hprocess
    exact (hretained more).process hprocess
  · intro more hintent
    exact (hretained more).intent hintent
  · intro signal error hrejected
    rw [Machine.after_append, Machine.after_cons, Machine.after_nil]
    simp [operationProjection] at hrejected ⊢
    rw [hrejected]

/-- The projection of an operation: what every sequence of signals leaves of
it, and that the ledger stores exactly the fold of its event log. -/
theorem operation_projection :
    (∀ snapshot : RuntimeOperationSnapshot, snapshot.Valid →
      snapshot.status = .planned →
      ∀ signals, ProjectionSound snapshot signals) ∧
    ∀ (host : LedgerHost) (actions : List LedgerAction),
      let db := ((ledgerMachine host).after .init actions).db
      ∀ operationId row, db.operations.find? operationId = some row →
        (eventsOf db operationId).map (·.sequence) =
            List.range row.nextSequence ∧
          (signalsOf (eventsOf db operationId)).foldlM
            advanceRuntimeOperation row.initialSnapshot = .ok row.snapshot := by
  constructor
  · intro snapshot hvalid _ signals
    exact projection_sound hvalid signals
  · intro host actions db operationId row hrow
    have hprojects := (projects_rule.reachable host actions).known hrow
    exact ⟨hprojects.sequence, hprojects.replay⟩

namespace LedgerWitness

theorem operation_projection_dispatched :
    ProjectionSound planned [.ready, .dispatched, .started none] ∧
      ∃ row ∈ ((ledgerMachine host).after .init
          dispatched).db.operations.find? 7,
        row.nextSequence = 2 ∧
        (signalsOf (eventsOf ((ledgerMachine host).after .init
          dispatched).db 7)).foldlM advanceRuntimeOperation
            row.initialSnapshot = .ok row.snapshot := by
  have hsome : (((ledgerMachine host).after .init
      dispatched).db.operations.find? 7).isSome := by decide
  obtain ⟨row, hrow⟩ := Option.isSome_iff_exists.1 hsome
  have hlog := operation_projection.2 host dispatched 7 row hrow
  refine ⟨operation_projection.1 planned (by decide) rfl _, row, hrow, ?_,
    hlog.2⟩
  have hcount := congrArg List.length hlog.1
  rw [List.length_map, List.length_range] at hcount
  rw [← hcount]
  decide

end LedgerWitness

end Allrice
