/-
The ledger as its database lives through the calls of any number of workers and
Bridges.  Every call is one transaction under the root's lock; a claim selects
its candidates without a lock and dispatches them one transaction at a time, so
other calls may commit in between.
-/
import Allrice.LedgerWrites
import Allrice.Runs

namespace Allrice

open Tx

/-- A method of the ledger with its arguments. -/
inductive LedgerCall where
  | createRoot (task : RuntimeTaskRef) (deadlineAt : Timestamp)
      (budgets : List RuntimeBudgetLimit)
  | createOperation (input : CreateRuntimeOperationInput)
  | dispatch (scope : RuntimeScope) (operationId leaseOwner : Uuid)
      (leaseMs : Nat)
  | startOperation (input : StartInput)
  | heartbeat (input : HeartbeatInput)
  | recordReceipt (input : LedgerReceipt)
  | recordOutput (scope : RuntimeScope) (operationId : Uuid)
      (output : RuntimeBridgeOutput)
  | exchangeLocalService (input : ServiceInput)
  | exchangeCloudProjectService (input : ServiceInput)
  | expireLeases (scope : RuntimeScope) (rootRunId : Uuid)
  | settleUsage (input : SettleInput)
  | cancelRoot (scope : RuntimeScope) (rootRunId requestId : Uuid)
  | cancelRuntimeRootTransaction (rootRunId requestId : Uuid)
      (reason : CancelReason)
  | cancelRuntimeAgentOperationsTransaction (rootRunId requestId : Uuid)
      (childRunIds : Option (List Uuid))

inductive LedgerAnswer where
  | done
  | created (snapshot : RuntimeOperationSnapshot)
  | leased (lease : LedgerLease)
  | started (answer : StartAnswer)
  | extended (leaseExpiresAt : Timestamp)
  | recorded (answer : ReceiptAnswer)
  | exchanged (answer : ServiceAnswer)
  | settled (answer : SettleAnswer)
  | canceled (requestId : Uuid)
  | selected
  | exhausted
deriving DecidableEq

/-- The transaction of a method. -/
def LedgerCall.run (host : LedgerHost) (env : LedgerEnv) :
    LedgerCall → LedgerTx LedgerAnswer
  | .createRoot task deadlineAt budgets =>
    (fun _ => .done) <$> Allrice.createRoot env task deadlineAt budgets
  | .createOperation input =>
    LedgerAnswer.created <$> Allrice.createOperation host env input
  | .dispatch scope operationId leaseOwner leaseMs =>
    LedgerAnswer.leased <$>
      Allrice.dispatch host env scope operationId leaseOwner leaseMs
  | .startOperation input =>
    LedgerAnswer.started <$> Allrice.startOperation host env input
  | .heartbeat input =>
    LedgerAnswer.extended <$> Allrice.heartbeat host env input
  | .recordReceipt input =>
    LedgerAnswer.recorded <$> Allrice.recordReceipt host env input
  | .recordOutput scope operationId output =>
    (fun _ => .done) <$>
      Allrice.recordLedgerOutput host env scope operationId output
  | .exchangeLocalService input =>
    LedgerAnswer.exchanged <$> Allrice.exchangeLocalService host env input
  | .exchangeCloudProjectService input =>
    LedgerAnswer.exchanged <$>
      Allrice.exchangeCloudProjectService host env input
  | .expireLeases scope rootRunId =>
    (fun _ => .done) <$> Allrice.expireLeases host env scope rootRunId
  | .settleUsage input =>
    LedgerAnswer.settled <$> Allrice.settleUsage host env input
  | .cancelRoot scope rootRunId requestId =>
    LedgerAnswer.canceled <$>
      Allrice.cancelRoot host env scope rootRunId requestId
  | .cancelRuntimeRootTransaction rootRunId requestId reason =>
    (fun _ => .done) <$>
      Allrice.cancelRuntimeRootTransaction host env rootRunId requestId reason
  | .cancelRuntimeAgentOperationsTransaction rootRunId requestId childRunIds =>
    (fun _ => .done) <$>
      Allrice.cancelRuntimeAgentOperationsTransaction host env rootRunId
        requestId childRunIds

/-- A Bridge that asks for work.  What it supports decides which payloads it is
offered, and it may be able to compute the token of an earlier dispatch. -/
structure ClaimInput where
  scope : RuntimeScope
  deviceId : Uuid
  leaseMs : Nat
  supports : OperationRow → Bool
  recoverLeaseToken : Option (RuntimeActionBinding → Uuid)

/-- The rows that the candidate query of a claim selects from. -/
def ClaimInput.eligible (input : ClaimInput) (env : LedgerEnv)
    (row : OperationRow) : Bool :=
  let scope := row.snapshot.binding.task.scope
  scope.organizationId = input.scope.organizationId &&
    scope.workspaceId = input.scope.workspaceId &&
    row.snapshot.binding.execution.deviceId = some input.deviceId &&
    (row.snapshot.status ∈ dispatchable ||
      (input.recoverLeaseToken.isSome && row.snapshot.status = .dispatched &&
        row.lease.any fun lease => env.rowTime row.id < lease.expiresAt)) &&
    input.supports row

/-- A claim between its candidate query and its answer. -/
structure Claim where
  input : ClaimInput
  candidates : List Uuid

/-- The database and the claims that are going on. -/
structure LedgerState where
  db : LedgerDb
  claims : List Claim

def LedgerState.init : LedgerState := ⟨.empty, []⟩

inductive LedgerAction where
  | call (call : LedgerCall) (env : LedgerEnv)
  /-- The candidate query of a claim, in the order in which it answers. -/
  | scan (input : ClaimInput) (env : LedgerEnv) (picked : List Uuid)
  /-- The next candidate of a claim that is going on. -/
  | claimNext (index : Nat) (env : LedgerEnv)

/-- Commit a transaction that succeeds; drop the effect of any other. -/
def LedgerState.commit (s : LedgerState) (action : LedgerTx LedgerAnswer) :
    LedgerState × Except LedgerError LedgerAnswer :=
  match action s.db with
  | .ok (answer, db) => ({ s with db }, .ok answer)
  | .error error => (s, .error error)

/-- The refusals after which a claim tries its next candidate. -/
def isRetryable : LedgerError → Bool
  | .ledger code =>
    code ∈ [LedgerErrorCode.invalidState, .unavailable, .rootCanceled,
      .deadlineExceeded, .budgetExhausted, .leaseLost]
  | _ => false

/-- The transaction of one candidate. -/
def claimCandidate (host : LedgerHost) (env : LedgerEnv) (input : ClaimInput)
    (operationId : Uuid) : LedgerTx LedgerAnswer := do
  let (root, row) ← lockOperation env input.scope operationId
  LedgerAnswer.leased <$>
    dispatchLocked host env root row input.deviceId input.leaseMs
      input.recoverLeaseToken

/-- `claimNextBridgeOperation` after its query: the first candidate that can be
dispatched ends the claim, and so does a refusal that is not retryable. -/
def claimStep (host : LedgerHost) (env : LedgerEnv) (s : LedgerState)
    (index : Nat) (claim : Claim) :
    LedgerState × Except LedgerError LedgerAnswer :=
  let ended := { s with claims := s.claims.eraseIdx index }
  match claim.candidates with
  | [] => (ended, .ok .exhausted)
  | operationId :: rest =>
    match claimCandidate host env claim.input operationId s.db with
    | .ok (answer, db) => ({ ended with db }, .ok answer)
    | .error error =>
      if isRetryable error then
        ({ s with claims := s.claims.set index ⟨claim.input, rest⟩ },
          .error error)
      else (ended, .error error)

def ledgerStep (host : LedgerHost) (s : LedgerState) :
    LedgerAction → LedgerState × Except LedgerError LedgerAnswer
  | .call call env => s.commit (call.run host env)
  | .scan input env picked =>
    if input.leaseMs < 1000 ∨ 300000 < input.leaseMs then (s, .error .schema)
    else if picked.length ≤ 20 ∧
        ∀ id ∈ picked, ∃ row ∈ s.db.operations.find? id,
          input.eligible env row = true then
      ({ s with claims := s.claims ++ [⟨input, picked⟩] }, .ok .selected)
    else (s, .error .storage)
  | .claimNext index env =>
    match s.claims[index]? with
    | none => (s, .error .storage)
    | some claim => claimStep host env s index claim

/-- The ledger of one server. -/
def ledgerMachine (host : LedgerHost) :
    Machine LedgerState LedgerAction (Except LedgerError LedgerAnswer) :=
  ⟨ledgerStep host⟩

/-- The operation whose output a call stores. -/
def LedgerCall.outputOf : LedgerCall → Option Uuid
  | .recordOutput _ operationId _ => some operationId
  | _ => none

variable {env : LedgerEnv} {s : LedgerState} {call : LedgerCall}

theorem LedgerCall.run_writes (host : LedgerHost) (env : LedgerEnv)
    (hcall : call.outputOf = none) : Keeps Writes (call.run host env) := by
  cases call with
  | createRoot => exact Keeps.map createRoot_writes
  | createOperation => exact Keeps.map createOperation_writes
  | dispatch => exact Keeps.map dispatch_writes
  | startOperation => exact Keeps.map startOperation_writes
  | heartbeat => exact Keeps.map heartbeat_writes
  | recordReceipt => exact Keeps.map recordReceipt_writes
  | recordOutput => simp [LedgerCall.outputOf] at hcall
  | exchangeLocalService => exact Keeps.map exchangeLocalService_writes
  | exchangeCloudProjectService =>
    exact Keeps.map exchangeCloudProjectService_writes
  | expireLeases => exact Keeps.map expireLeases_writes
  | settleUsage => exact Keeps.map settleUsage_writes
  | cancelRoot => exact Keeps.map cancelRoot_writes
  | cancelRuntimeRootTransaction =>
    exact Keeps.map cancelRuntimeRootTransaction_writes
  | cancelRuntimeAgentOperationsTransaction =>
    exact Keeps.map cancelRuntimeAgentOperationsTransaction_writes

theorem LedgerCall.run_changes (host : LedgerHost) (env : LedgerEnv)
    (call : LedgerCall) : Keeps Changes (call.run host env) := by
  cases hcall : call.outputOf with
  | none =>
    intro db answer next h
    exact (LedgerCall.run_writes host env hcall _ _ _ h).changes
  | some operationId =>
    cases call with
    | recordOutput => exact Keeps.map recordLedgerOutput_changes
    | _ => simp [LedgerCall.outputOf] at hcall

theorem claimCandidate_writes {host : LedgerHost} {input : ClaimInput}
    {operationId : Uuid} :
    Keeps Writes (claimCandidate host env input operationId) :=
  Keeps.bind lockOperation_writes fun _ => Keeps.map dispatchLocked_writes

theorem LedgerState.commit_keeps {R : LedgerDb → LedgerDb → Prop} [Std.Refl R]
    {action : LedgerTx LedgerAnswer} (h : Keeps R action) :
    R s.db (s.commit action).1.db := by
  unfold LedgerState.commit
  cases hrun : action s.db with
  | ok pair =>
    obtain ⟨answer, db⟩ := pair
    exact h s.db answer db hrun
  | error error => exact Std.Refl.refl s.db

theorem claimStep_writes {host : LedgerHost} {index : Nat} {claim : Claim} :
    Writes s.db (claimStep host env s index claim).1.db := by
  unfold claimStep
  cases claim.candidates with
  | nil => exact Relation.ReflTransGen.refl
  | cons operationId rest =>
    cases hrun : claimCandidate host env claim.input operationId s.db with
    | ok pair =>
      obtain ⟨answer, db⟩ := pair
      simp only [hrun]
      exact claimCandidate_writes _ _ _ hrun
    | error error =>
      simp only [hrun]
      split
      · exact Relation.ReflTransGen.refl
      · exact Relation.ReflTransGen.refl

theorem ledgerStep_changes (host : LedgerHost) (s : LedgerState)
    (action : LedgerAction) : Changes s.db (ledgerStep host s action).1.db := by
  cases action with
  | call call env => exact LedgerState.commit_keeps (call.run_changes host env)
  | scan input env picked =>
    simp only [ledgerStep]
    split
    · exact Relation.ReflTransGen.refl
    · split
      · exact Relation.ReflTransGen.refl
      · exact Relation.ReflTransGen.refl
  | claimNext index env =>
    simp only [ledgerStep]
    cases s.claims[index]? with
    | none => exact Relation.ReflTransGen.refl
    | some claim => exact claimStep_writes.changes

/-- What every change keeps holds in every reachable state. -/
theorem ledger_invariant (host : LedgerHost) {Inv : LedgerDb → Prop}
    (hwrite : ∀ {a b}, LedgerWrite a b → Inv a → Inv b)
    (houtput : ∀ {db outputs}, Inv db → Inv { db with outputs })
    (hempty : Inv .empty) (actions : List LedgerAction) :
    Inv ((ledgerMachine host).after .init actions).db := by
  refine Machine.after_invariant (fun s : LedgerState => Inv s.db) ?_ hempty actions
  intro s action hs
  exact (ledgerStep_changes host s action).keep Inv hwrite houtput hs

/-- The step of a call that commits. -/
theorem ledgerStep_call_eq_ok {host : LedgerHost} {answer : LedgerAnswer}
    (h : (ledgerStep host s (.call call env)).2 = .ok answer) :
    call.run host env s.db =
      .ok (answer, (ledgerStep host s (.call call env)).1.db) := by
  simp only [ledgerStep, LedgerState.commit] at h ⊢
  cases hrun : call.run host env s.db with
  | ok pair =>
    obtain ⟨given, db⟩ := pair
    simp only [hrun, Except.ok.injEq] at h
    rw [h]
  | error error => simp [hrun] at h

namespace LedgerWitness

def host : LedgerHost where
  hash token := token
  inputDigest _ := 1
  browserDigest _ := 2
  notExecutedDigest := 3
  receiptBytes _ := 700
  localFileResultMatchesPayload _ _ _ := true
  fileDerivationResultMatches _ _ := true
  localProjectResultMatchesPayload _ _ := true
  candidateMatches _ _ := true
  fileOrganizationResultMatches _ _ := true

/-- Quiet surroundings at one time: everything is online and admitted. -/
def envAt (time : Timestamp) : LedgerEnv where
  now _ := time
  rowTime _ := time
  occurredAt _ _ := time
  taskClock _ := none
  randomUUID n := 500 + n
  notExecuted id := ⟨600, time, 700 + id, fun _ => 800, fun _ => 900,
    fun _ => time⟩
  admission _ := .ok .admitted
  runActive _ := some true
  target _ := some ⟨.riceBridge, true⟩
  browserRegistered := true
  createReplayAuthority := .ok ⟨⟩
  persistLease := .ok ⟨⟩
  continuingServices := []
  projectServiceEstablished := false
  currentProjectService _ := .ok ⟨⟩
  projectServiceExpiresAt := none
  service _ := .ok ⟨-1, false, 10000⟩
  sourceReceipts := .ok ⟨⟩
  assertReceiptEvidence := .ok ⟨⟩
  objectStored _ := true
  cloudServiceEstablished := false
  cloudStopRecorded := false
  serviceContainer := none

def task : RuntimeTaskRef where
  scope := ⟨1, 2, none⟩
  chatSessionId := none
  runId := 3
  rootRunId := 3
  parentRunId := none
  frozenConfiguration := ⟨none, 4⟩

/-- A planned `local.git.status` on the device. -/
def planned : RuntimeOperationSnapshot where
  binding :=
    { task := task
      attempt := ⟨7, 21, 1, 0, 1⟩
      requestedBy := ⟨.user, 8⟩
      execution := ⟨30, .riceBridge, some 5, 31, 1, 32, ⟨33, .inPlace⟩⟩
      action := "local.git.status"
      inputDigest := 1
      command := none }
  stepId := none
  agentInstanceId := none
  processId := none
  cancelRequestId := none
  idempotencyKey := 40
  status := .planned
  result := none

def source : UsageSource := ⟨.bridge, "bridge"⟩

def create : CreateRuntimeOperationInput where
  snapshot := planned
  reservations := [⟨.wallTime, 60, 5⟩]
  bridgePayload := some (.command .gitStatus 0)
  localBrowserPayload := none
  bytes := 900

def createCalls : List LedgerAction :=
  [.call (.createRoot task 100000
      [⟨.wallTime, .milliseconds, none, 10, source⟩]) (envAt 0),
    .call (.createOperation create) (envAt 1)]

def start (receiptId : Uuid) : StartInput :=
  ⟨task.scope, 7, 500, receiptId, planned.binding.attempt⟩

/-- The operation is created and dispatched to the device. -/
def dispatched : List LedgerAction :=
  createCalls ++ [LedgerAction.call (.dispatch task.scope 7 5 60000) (envAt 1)]

end LedgerWitness

end Allrice
