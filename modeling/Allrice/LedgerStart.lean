/-
At most one start per operation.  The statuses before a start are left for
good, a start is granted only from `dispatched` under the lease that the
dispatch wrote, and everything an executor can report needs that lease: so
every log has its dispatch before the first thing that an executor reports.
-/
import Allrice.LedgerLog

namespace Allrice

open Tx

/-- A first start takes a dispatched operation to `running`. -/
theorem running_of_started {snapshot next : RuntimeOperationSnapshot}
    {processId : Option Uuid} (hstatus : snapshot.status = .dispatched)
    (h : advanceRuntimeOperation snapshot (.started processId) = .ok next) :
    next.status = .running := by
  obtain ⟨_, _, happly⟩ := advance_eq_ok.1 h
  simp only [applySignal, hstatus] at happly
  split at happly
  · simp at happly
  · rw [if_neg (by decide)] at happly
    obtain ⟨_, _, rfl⟩ := moveTo_eq_ok.1 happly
    rfl

theorem ensureRootAdmits_eq_ok {root : RootRow} {at_ : Timestamp}
    {db next : LedgerDb} {u : Unit}
    (h : ensureRootAdmits root at_ db = .ok (u, next)) :
    root.cancelRequestId = none ∧ at_ < root.deadlineAt ∧ db = next := by
  simp only [ensureRootAdmits, rejectIf_bind_eq_ok, rejectIf_eq_ok,
    Prod.mk.injEq, not_not, not_le] at h
  exact ⟨h.1, h.2.1, h.2.2.2.symm⟩

/-- What was true when a start was granted: the caller held the unexpired lease
of the current attempt of a dispatched operation whose root is not canceled. -/
structure StartGranted (host : LedgerHost) (env : LedgerEnv)
    (input : StartInput) (db : LedgerDb) : Prop where
  held : ∃ row lease root,
    db.operations.find? input.operationId = some row ∧
      row.lease = some lease ∧ host.hash input.leaseToken = lease.tokenHash ∧
      row.snapshot.binding.attempt = input.attempt ∧
      row.snapshot.status = .dispatched ∧
      env.now 0 < lease.expiresAt ∧ env.now 1 < lease.expiresAt ∧
      env.now 2 < lease.expiresAt ∧
      db.roots.find? row.rootRunId = some root ∧ root.cancelRequestId = none

/-- An operation that has left the statuses before its start. -/
def Begun (operationId : Uuid) (db : LedgerDb) : Prop :=
  ∃ row, db.operations.find? operationId = some row ∧
    row.snapshot.status ∉ beforeStart

theorem Changes.begun {operationId : Uuid} {db next : LedgerDb}
    (h : Changes db next) (hdb : Begun operationId db) :
    Begun operationId next := by
  obtain ⟨row, hrow, hbegun⟩ := hdb
  obtain ⟨later, hlater, hkept⟩ := h.operation_later hrow
  exact ⟨later, hlater, hkept.begun hbegun⟩

/-- Appending the first start begins the operation. -/
theorem begun_of_append {env : LedgerEnv} {row : OperationRow}
    {processId : Option Uuid} {db next : LedgerDb} {u : Unit}
    (hrow : db.operations.find? row.id = some row)
    (hstatus : row.snapshot.status = .dispatched)
    (h : appendEvent env row.id (.started processId) db = .ok (u, next)) :
    Begun row.id next := by
  obtain ⟨found, snapshot, _, _, hfound, hid, hadvance, _, _, rfl⟩ :=
    appended_eq_ok h
  rw [hid, hrow] at hfound
  obtain rfl := Option.some.inj hfound
  refine ⟨{ row with snapshot, nextSequence := row.nextSequence + 1 }, ?_, ?_⟩
  · exact Table.find?_replace_self hrow
  · show snapshot.status ∉ beforeStart
    rw [running_of_started hstatus hadvance]
    decide

/-- The checks and the effect of an admitted start. -/
theorem admitStart_eq_ok {host : LedgerHost} {env : LedgerEnv}
    {input : StartInput} {root : RootRow} {row : OperationRow}
    {lease : OperationLease} {db next : LedgerDb} {answer : StartAnswer}
    (hrow : db.operations.find? row.id = some row)
    (h : admitStart host env input root row lease db = .ok (answer, next)) :
    input.attempt = row.snapshot.binding.attempt ∧
      root.cancelRequestId = none ∧ row.snapshot.status = .dispatched ∧
      env.now 0 < lease.expiresAt ∧ env.now 1 < lease.expiresAt ∧
      env.now 2 < lease.expiresAt ∧ Begun row.id next := by
  simp only [admitStart, rejectIf_bind_eq_ok, not_not] at h
  obtain ⟨hattempt, h⟩ := h
  obtain ⟨_, _, hroot, h⟩ := bind_eq_ok.1 h
  obtain ⟨hcancel, _, rfl⟩ := ensureRootAdmits_eq_ok hroot
  obtain ⟨_, _, hrun, h⟩ := bind_eq_ok.1 h
  obtain rfl := assertRun_keeps (R := Eq) _ _ _ hrun
  rw [rejectIf_bind_eq_ok, not_or, not_not, not_le] at h
  obtain ⟨⟨hzero, hstatus⟩, h⟩ := h
  obtain ⟨_, _, hadmitted, h⟩ := bind_eq_ok.1 h
  obtain rfl := admitRow_keeps (R := Eq) _ _ _ hadmitted
  obtain ⟨_, _, hroot', h⟩ := bind_eq_ok.1 h
  obtain ⟨_, _, rfl⟩ := ensureRootAdmits_eq_ok hroot'
  rw [rejectIf_bind_eq_ok, not_le] at h
  obtain ⟨hone, h⟩ := h
  obtain ⟨_, started, happend, h⟩ := bind_eq_ok.1 h
  obtain ⟨_, recorded, hreceipt, h⟩ := bind_eq_ok.1 h
  obtain ⟨_, _, hadmitted', h⟩ := bind_eq_ok.1 h
  obtain rfl := admitRow_keeps (R := Eq) _ _ _ hadmitted'
  obtain ⟨_, _, hroot'', h⟩ := bind_eq_ok.1 h
  obtain ⟨_, _, rfl⟩ := ensureRootAdmits_eq_ok hroot''
  simp only [rejectIf_bind_eq_ok, not_le, currentOperation_bind_eq_ok,
    pure_eq_ok, Prod.mk.injEq] at h
  obtain ⟨htwo, _, _, _, rfl⟩ := h
  refine ⟨hattempt, hcancel, hstatus, hzero, hone, htwo, ?_⟩
  exact (insertReceipt_writes _ _ _ hreceipt).changes.begun
    (begun_of_append hrow hstatus happend)

/-- A granted start: what was true before it, and that the operation has begun
after it. -/
theorem startOperation_granted {host : LedgerHost} {env : LedgerEnv}
    {input : StartInput} {db next : LedgerDb} {answer : StartAnswer}
    (h : startOperation host env input db = .ok (answer, next))
    (hmay : answer.mayExecute = true) :
    StartGranted host env input db ∧ Begun input.operationId next := by
  simp only [startOperation, rejectIf_bind_eq_ok] at h
  obtain ⟨_, h⟩ := h
  obtain ⟨⟨root, row⟩, locked, hlock, h⟩ := bind_eq_ok.1 h
  simp only [verifyLease_bind_eq_ok, get_bind_eq_ok] at h
  obtain ⟨lease, hlease, htoken, h⟩ := h
  cases hprior : locked.receipts.find? input.receiptId with
  | some prior =>
    -- a receipt that is there already answers without permission
    simp only [hprior, rejectIf_bind_eq_ok, pure_eq_ok, Prod.mk.injEq] at h
    rw [h.2.1] at hmay
    simp at hmay
  | none =>
    simp only [hprior] at h
    obtain ⟨hrow, ⟨stored, hstored, _, hcancel⟩, _, roots, rfl⟩ :=
      lockOperation_eq_ok hlock
    have hid := Table.key_of_find? hrow
    obtain ⟨hattempt, hopen, hstatus, hzero, hone, htwo, hbegun⟩ :=
      admitStart_eq_ok (hid ▸ hrow) h
    constructor
    · exact ⟨row, lease, stored, hrow, hlease, htoken, hattempt.symm,
        hstatus, hzero, hone, htwo, hstored, hcancel ▸ hopen⟩
    · exact hid ▸ hbegun

/-- Nothing is granted for an operation that has begun. -/
theorem StartGranted.not_begun {host : LedgerHost} {env : LedgerEnv}
    {input : StartInput} {db : LedgerDb}
    (h : StartGranted host env input db) : ¬Begun input.operationId db := by
  rintro ⟨found, hfound, hbegun⟩
  obtain ⟨row, _, _, hrow, _, _, _, hstatus, _⟩ := h
  rw [hrow] at hfound
  obtain rfl := Option.some.inj hfound
  rw [hstatus] at hbegun
  exact hbegun (by decide)

/-- What every log keeps to: a lease is there exactly after the dispatch, and
nothing that an executor reports comes before it. -/
structure OperationRow.Ordered (row : OperationRow) (log : List EventRow) :
    Prop where
  leased : row.lease ≠ none ↔
    RuntimeOperationSignal.dispatched ∈ signalsOf log
  running : row.snapshot.status = .running →
    RuntimeOperationSignal.dispatched ∈ signalsOf log
  executor : Precedes .dispatched isExecutorSignal (signalsOf log)
  stopped : RuntimeOperationSignal.dispatched ∈ signalsOf log →
    Precedes .dispatched isStopped (signalsOf log)
  ended : ∀ signal ∈ signalsOf log, isStopped signal = true →
    isTerminalRuntimeOperationStatus row.snapshot.status = true

/-- Only a start leads to `running`. -/
theorem running_of_advance {snapshot next : RuntimeOperationSnapshot}
    {signal : RuntimeOperationSignal}
    (h : advanceRuntimeOperation snapshot signal = .ok next)
    (hnext : next.status = .running) :
    snapshot.status = .running ∨ isExecutorSignal signal = true := by
  obtain ⟨_, _, happly⟩ := advance_eq_ok.1 h
  cases signal with
  | started | transportAck | uncertain | outcome => exact .inr rfl
  | waiting reason =>
    obtain ⟨_, _, rfl⟩ := moveTo_eq_ok.1 happly
    cases reason <;> simp [WaitingReason.status] at hnext
  | ready | dispatched =>
    obtain ⟨_, _, rfl⟩ := moveTo_eq_ok.1 happly
    simp at hnext
  | cancelRequested requestId =>
    simp only [applySignal] at happly
    split at happly
    · obtain ⟨_, rfl⟩ := parseSnapshot_eq_ok.1 happly
      exact .inl hnext
    · obtain ⟨_, _, rfl⟩ := moveTo_eq_ok.1 happly
      simp at hnext
  | stopped evidence effects =>
    obtain ⟨_, _, rfl⟩ := moveTo_eq_ok.1 happly
    cases effects <;>
      simp [stoppedResult, RuntimeResultStatus.toStatus] at hnext

/-- A stop ends the operation. -/
theorem terminal_of_stopped {snapshot next : RuntimeOperationSnapshot}
    {signal : RuntimeOperationSignal} (hstopped : isStopped signal = true)
    (h : advanceRuntimeOperation snapshot signal = .ok next) :
    isTerminalRuntimeOperationStatus next.status = true := by
  obtain ⟨_, _, happly⟩ := advance_eq_ok.1 h
  cases signal with
  | stopped evidence effects =>
    obtain ⟨_, _, rfl⟩ := moveTo_eq_ok.1 happly
    cases effects <;> rfl
  | waiting | ready | dispatched | started | transportAck | cancelRequested
  | uncertain | outcome => simp [isStopped] at hstopped

/-- A terminal operation cannot be dispatched. -/
theorem not_dispatched_of_terminal {snapshot next : RuntimeOperationSnapshot}
    (hterminal : isTerminalRuntimeOperationStatus snapshot.status = true)
    (h : advanceRuntimeOperation snapshot .dispatched = .ok next) : False := by
  obtain ⟨_, _, happly⟩ := advance_eq_ok.1 h
  obtain ⟨hmove, _, _⟩ := moveTo_eq_ok.1 happly
  rw [no_transition_from_terminal hterminal] at hmove
  simp at hmove

theorem ordered_rule : LogRule OperationRow.Ordered where
  fresh := by
    intro row hfresh
    refine ⟨by simp [hfresh.lease, signalsOf], ?_, EachEntry.nil,
      fun _ => EachEntry.nil, ?_⟩
    · intro hrunning
      rw [hfresh.planned] at hrunning
      simp at hrunning
    · intro signal hmem
      simp [signalsOf] at hmem
  event := by
    intro row log snapshot occurredAt signal h hadvance hsignal hexecutor
    have hsignals : signalsOf
        (log ++ [appendedEvent row snapshot occurredAt signal]) =
          signalsOf log ++ [signal] := signalsOf_append _ _
    have hdispatched : RuntimeOperationSignal.dispatched ∈
        signalsOf log ++ [signal] ↔
          RuntimeOperationSignal.dispatched ∈ signalsOf log := by
      simp [Ne.symm hsignal]
    constructor
    · rw [hsignals, hdispatched]
      exact h.leased
    · intro hrunning
      rw [hsignals, hdispatched]
      rcases running_of_advance hadvance hrunning with hbefore | hreported
      · exact h.running hbefore
      · exact h.leased.1 (hexecutor hreported)
    · rw [hsignals]
      exact EachEntry.concat h.executor fun hreported =>
        h.leased.1 (hexecutor hreported)
    · rw [hsignals, hdispatched]
      intro hmem
      exact EachEntry.concat (h.stopped hmem) fun _ => hmem
    · rw [hsignals]
      intro other hmem hstopped
      rcases List.mem_append.1 hmem with hold | hnew
      · have hterminal := h.ended other hold hstopped
        have hsame := (advance_step hadvance).absorbed hterminal
        rw [← hsame] at hterminal
        exact hterminal
      · rw [List.mem_singleton.1 hnew] at hstopped
        exact terminal_of_stopped hstopped hadvance
  dispatch := by
    intro row log snapshot occurredAt lease h hadvance
    have hsignals : signalsOf
        (log ++ [appendedEvent row snapshot occurredAt .dispatched]) =
          signalsOf log ++ [RuntimeOperationSignal.dispatched] := signalsOf_append _ _
    -- a stop before the dispatch would have ended the operation
    have hnone : ∀ signal ∈ signalsOf log, isStopped signal = false := by
      intro signal hmem
      by_contra hstopped
      rw [Bool.not_eq_false] at hstopped
      exact not_dispatched_of_terminal (h.ended signal hmem hstopped) hadvance
    constructor
    · simp [hsignals]
    · intro _
      simp [hsignals]
    · rw [hsignals]
      refine EachEntry.concat h.executor fun hreported => ?_
      simp [isExecutorSignal] at hreported
    · rw [hsignals]
      intro _
      refine EachEntry.concat (.of_forall ?_) fun hstopped => ?_
      · intro signal hmem before hstopped
        rw [hnone signal hmem] at hstopped
        simp at hstopped
      · simp [isStopped] at hstopped
    · rw [hsignals]
      intro other hmem hstopped
      rcases List.mem_append.1 hmem with hold | hnew
      · rw [hnone other hold] at hstopped
        simp at hstopped
      · rw [List.mem_singleton.1 hnew] at hstopped
        simp [isStopped] at hstopped
  extend := by
    intro row log held lease h hheld
    refine ⟨?_, h.running, h.executor, h.stopped, h.ended⟩
    rw [← h.leased, hheld]
    simp

/-- A call that is answered with the permission to execute an operation. -/
def grantsStart (operationId : Uuid) :
    LedgerAction × Except LedgerError LedgerAnswer → Bool
  | (.call (.startOperation input) _, .ok (.started answer)) =>
    input.operationId = operationId && answer.mayExecute
  | _ => false

/-- A start that a step of the ledger grants. -/
theorem granted_of_step {host : LedgerHost} {s : LedgerState} {env : LedgerEnv}
    {input : StartInput} {answer : StartAnswer}
    (h : (ledgerStep host s (.call (.startOperation input) env)).2 =
      .ok (.started answer)) (hmay : answer.mayExecute = true) :
    StartGranted host env input s.db ∧ Begun input.operationId
      (ledgerStep host s (.call (.startOperation input) env)).1.db := by
  obtain ⟨given, hrun, hgiven⟩ := map_eq_ok.1 (ledgerStep_call_eq_ok h)
  obtain rfl := LedgerAnswer.started.inj hgiven
  exact startOperation_granted hrun hmay

theorem grantsStart_eq_true {operationId : Uuid} {action : LedgerAction}
    {result : Except LedgerError LedgerAnswer}
    (h : grantsStart operationId (action, result) = true) :
    ∃ input env answer, action = .call (.startOperation input) env ∧
      result = .ok (.started answer) ∧ input.operationId = operationId ∧
      answer.mayExecute = true := by
  unfold grantsStart at h
  split at h
  · rename_i input env answer heq
    obtain ⟨rfl, rfl⟩ := Prod.mk.inj heq
    simp only [Bool.and_eq_true, decide_eq_true_eq] at h
    exact ⟨input, env, answer, rfl, rfl, h.1, h.2⟩
  · simp at h

/-- No run grants two starts of one operation. -/
theorem grants_countP_le_one (host : LedgerHost) (actions : List LedgerAction)
    (operationId : Uuid) :
    ((ledgerMachine host).events .init actions).countP
      (grantsStart operationId) ≤ 1 := by
  refine Machine.events_countP_le_one (fun _ => True)
    (fun s : LedgerState => Begun operationId s.db) ?_ ?_ ?_ ?_ trivial actions
  · exact fun _ _ _ => trivial
  · intro s action _ hbegun
    exact (ledgerStep_changes host s action).begun hbegun
  · intro s action _ hbegun
    by_contra hgrants
    rw [Bool.not_eq_false] at hgrants
    obtain ⟨input, env, answer, rfl, hanswer, rfl, hmay⟩ :=
      grantsStart_eq_true hgrants
    exact (granted_of_step hanswer hmay).1.not_begun hbegun
  · intro s action _ hgrants
    obtain ⟨input, env, answer, rfl, hanswer, rfl, hmay⟩ :=
      grantsStart_eq_true hgrants
    exact (granted_of_step hanswer hmay).2

/-- Whoever reports a receipt holds the lease of a dispatch. -/
theorem recordReceipt_held {host : LedgerHost} {env : LedgerEnv}
    {input : LedgerReceipt} {db next : LedgerDb} {answer : ReceiptAnswer}
    (h : recordReceipt host env input db = .ok (answer, next)) :
    ∃ row lease, db.operations.find? input.operationId = some row ∧
      row.lease = some lease ∧
      host.hash input.leaseToken = lease.tokenHash := by
  simp only [recordReceipt, rejectIf_bind_eq_ok] at h
  obtain ⟨_, _, h⟩ := h
  obtain ⟨⟨root, row⟩, locked, hlock, h⟩ := bind_eq_ok.1 h
  obtain ⟨lease, hlease, htoken, _⟩ := verifyLease_bind_eq_ok.1 h
  exact ⟨row, lease, (lockOperation_eq_ok hlock).1, hlease, htoken⟩

/-- What a reported receipt presupposes: a dispatch under the lease that the
reporter holds. -/
def ReportedUnderLease (host : LedgerHost) (input : LedgerReceipt)
    (db : LedgerDb) : Prop :=
  ∃ row lease, db.operations.find? input.operationId = some row ∧
    row.lease = some lease ∧ host.hash input.leaseToken = lease.tokenHash ∧
    RuntimeOperationSignal.dispatched ∈
      signalsOf (eventsOf db input.operationId)

/-- At most one start per operation, whatever workers and Bridges call in
whatever order: permission to execute is given once, only under the current
lease of the current attempt and an open root, and nothing runs or ends by an
executor's report before a dispatch under a lease. -/
theorem ledger_starts_at_most_once (host : LedgerHost)
    (actions : List LedgerAction) :
    (∀ operationId, ((ledgerMachine host).events .init actions).countP
      (grantsStart operationId) ≤ 1) ∧
    (∀ input env answer,
      (ledgerStep host ((ledgerMachine host).after .init actions)
        (.call (.startOperation input) env)).2 = .ok (.started answer) →
      answer.mayExecute = true →
      StartGranted host env input
        ((ledgerMachine host).after .init actions).db) ∧
    (∀ operationId row,
      ((ledgerMachine host).after .init actions).db.operations.find?
        operationId = some row →
      row.Ordered (eventsOf ((ledgerMachine host).after .init actions).db
        operationId)) ∧
    ∀ input env answer,
      (ledgerStep host ((ledgerMachine host).after .init actions)
        (.call (.recordReceipt input) env)).2 = .ok answer →
      ReportedUnderLease host input
        ((ledgerMachine host).after .init actions).db := by
  have hlogged := ordered_rule.reachable host actions
  refine ⟨grants_countP_le_one host actions, ?_, ?_, ?_⟩
  · intro input env answer hanswer hmay
    exact (granted_of_step hanswer hmay).1
  · intro operationId row hrow
    exact hlogged.known hrow
  · intro input env answer hanswer
    obtain ⟨_, hrun, _⟩ := map_eq_ok.1 (ledgerStep_call_eq_ok hanswer)
    obtain ⟨row, lease, hrow, hlease, htoken⟩ := recordReceipt_held hrun
    refine ⟨row, lease, hrow, hlease, htoken, ?_⟩
    refine (hlogged.known hrow).leased.1 ?_
    rw [hlease]
    simp

namespace LedgerWitness

/-- The device starts its operation and then tries once more. -/
def startedTwice : List LedgerAction :=
  dispatched ++ [LedgerAction.call (.startOperation (start 70)) (envAt 2),
    .call (.startOperation (start 71)) (envAt 2)]

theorem ledger_starts_at_most_once_retried :
    ((ledgerMachine host).events .init startedTwice).countP (grantsStart 7) =
        1 ∧
      StartGranted host (envAt 2) (start 70)
        ((ledgerMachine host).after .init dispatched).db :=
  ⟨by decide,
    (ledger_starts_at_most_once host dispatched).2.1 (start 70) (envAt 2)
      ⟨{ planned with status := .running }, true⟩ (by decide) rfl⟩

end LedgerWitness

end Allrice
