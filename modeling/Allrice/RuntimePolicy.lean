/-
Confirmation of governed actions.  A workspace's controls decide whether an
action is denied, needs an approval of exactly its binding, or is allowed; an
approval is requested, decided, revoked and consumed in transactions of their
own.  What the transactions read from the tables of runs, employees, grants and
devices is decided by the surroundings.
-/
import Allrice.RuntimeIdentity
import Allrice.Runs
import Allrice.Table
import Allrice.Transaction

namespace Allrice.RuntimePolicy

open Tx

inductive PolicyEffect
  | deny | ask | allow
deriving DecidableEq

structure Rule where
  action : String
  effect : PolicyEffect

inductive Mode
  | execute | planOnly
deriving DecidableEq

structure Controls where
  version : Nat
  enabled : Bool
  mode : Mode
  rules : List Rule

def Controls.Valid (controls : Controls) : Prop :=
  0 < controls.version ∧ controls.rules.length ≤ 128 ∧
    ∀ rule ∈ controls.rules, 0 < JsString.lengthOf rule.action ∧
      JsString.lengthOf rule.action ≤ 160

instance (controls : Controls) : Decidable controls.Valid :=
  inferInstanceAs (Decidable (_ ∧ _ ∧ _))

structure WorkAutomation where
  cloud : Bool
  computer : Bool

/-- A binding with the frozen policy and the data that it names. -/
structure Binding extends RuntimeActionBinding where
  policySnapshotId : Uuid
  policyDigest : Checksum
  dataScope : List Nat
  baseline : List Nat
deriving DecidableEq

def Binding.operationId (binding : Binding) : Uuid := binding.attempt.operationId

structure Decision where
  effect : PolicyEffect
  reason : String

def runtimeGovernedActions : List String :=
  ["assistant.delegate", "local.fs.list", "local.fs.search", "local.fs.read",
    "local.fs.write", "local.fs.mkdir", "local.file.inspect",
    "local.file.import", "local.file.save", "local.file.open",
    "local.file.reveal", "local.file.derive", "local.process.execute",
    "local.python.execute", "local.pdf.read", "local.fs.changeset",
    "cloud.process.execute", "cloud.mcp.call", "local.mcp.discover",
    "local.mcp.call", "cloud.browser.act", "cloud.browser.observe",
    "local.browser.act", "local.browser.observe"]

def readActions : List String :=
  ["local.pdf.read", "local.fs.list", "local.fs.search", "local.fs.read",
    "local.file.inspect", "cloud.browser.observe", "local.browser.observe"]

/-- Actions that keep their exact approval when no member setting is recorded. -/
def confirmedActions : List String :=
  ["local.process.execute", "local.python.execute", "local.fs.changeset",
    "cloud.process.execute", "cloud.mcp.call", "local.mcp.discover",
    "local.mcp.call", "cloud.browser.act", "local.browser.act"]

/-- The setting of a member that an action follows. -/
def workAutomationGroup (action : String) : Option (WorkAutomation → Bool) :=
  if action ∈ ["local.fs.write", "local.fs.mkdir", "local.file.import",
      "local.file.derive", "local.file.save", "local.file.open",
      "local.file.reveal", "local.fs.changeset", "local.process.execute",
      "local.python.execute", "local.mcp.discover", "local.mcp.call",
      "local.browser.act"] then some WorkAutomation.computer
  else if action ∈ ["cloud.process.execute", "cloud.mcp.call",
      "cloud.browser.act"] then some WorkAutomation.cloud
  else none

/-- A member's choice, where an action follows one and a rule lets it. -/
def memberChoice (action : String) (rules : List Rule)
    (automation : Option WorkAutomation) : Option Bool :=
  match automation, workAutomationGroup action with
  | some settings, some group =>
    if rules.any fun rule => rule.effect == .allow || rule.effect == .ask then
      some (group settings)
    else none
  | _, _ => none

def runtimePolicyActionDecision (controls : Controls) (action : String)
    (platformDeniedActions : List String)
    (automation : Option WorkAutomation) : Decision :=
  let rules := controls.rules.filter (·.action == action)
  if ¬controls.Valid then ⟨.deny, "invalid_policy_or_binding"⟩
  else if controls.enabled = false then ⟨.deny, "runtime_policy_disabled"⟩
  else if action ∉ runtimeGovernedActions then ⟨.deny, "action_not_registered"⟩
  else if action ∈ platformDeniedActions then ⟨.deny, "platform_deny"⟩
  else if controls.mode = .planOnly ∧ action ∉ readActions then
    ⟨.deny, "plan_only"⟩
  else if rules.any (·.effect == .deny) then ⟨.deny, "tenant_deny"⟩
  else if action = "local.pdf.read" ∧ rules = [] then
    ⟨.allow, "published_document_read"⟩
  else
    match memberChoice action rules automation with
    | some true => ⟨.allow, "member_scope_automation"⟩
    | some false => ⟨.ask, "member_confirmation_required"⟩
    | none =>
      if action = "assistant.delegate" ∧ rules = [] then
        ⟨.allow, "native_delegation_default"⟩
      else if action = "assistant.delegate" ∧
          rules.any (·.effect == .ask) = true then
        ⟨.deny, "delegation_requires_explicit_allow"⟩
      else if rules.any (·.effect == .ask) then
        ⟨.ask, "exact_approval_required"⟩
      else if action ∈ confirmedActions ∧
          rules.any (·.effect == .allow) = true then
        ⟨.ask, "exact_approval_required"⟩
      else if rules.any (·.effect == .allow) then
        ⟨.allow, "explicit_policy_allow"⟩
      else ⟨.deny, "no_matching_policy"⟩

def evaluateRuntimePolicy (controls : Controls) (binding : Binding)
    (platformDeniedActions : List String)
    (automation : Option WorkAutomation) : Decision :=
  if controls.Valid ∧ binding.toRuntimeActionBinding.Valid then
    runtimePolicyActionDecision controls binding.action platformDeniedActions
      automation
  else ⟨.deny, "invalid_policy_or_binding"⟩

structure ApprovalRequest where
  requestId : Uuid
  version : Nat
  requestDigest : Checksum
  task : RuntimeTaskRef
  respondentId : Uuid
  createdAt : Timestamp
  expiresAt : Timestamp
  approvalId : Uuid
  binding : Binding

inductive Verdict
  | approved | rejected
deriving DecidableEq

structure ApprovalResponse where
  requestId : Uuid
  version : Nat
  requestDigest : Checksum
  task : RuntimeTaskRef
  responseId : Uuid
  respondedBy : Uuid
  respondedAt : Timestamp
  approvalId : Uuid
  decision : Verdict
deriving DecidableEq

/-- The trusted scope and the task of the context are those that the caller
passes. -/
structure MatchContext where
  trustedScope : RuntimeScope
  task : RuntimeTaskRef
  respondentId : Uuid
  now : Timestamp

def matchesRuntimeInteractionResponse (request : ApprovalRequest)
    (response : ApprovalResponse) (context : MatchContext) : Bool :=
  request.task.scope == context.trustedScope &&
    context.task.scope == context.trustedScope &&
    request.task == context.task &&
    response.task == request.task &&
    request.requestId == response.requestId &&
    request.version == response.version &&
    request.requestDigest == response.requestDigest &&
    request.respondentId == context.respondentId &&
    response.respondedBy == context.respondentId &&
    decide (request.createdAt ≤ context.now) &&
    decide (context.now < request.expiresAt) &&
    decide (request.createdAt ≤ response.respondedAt) &&
    decide (response.respondedAt ≤ context.now) &&
    request.approvalId == response.approvalId

/-- The caller passes the snapshot as neither consumed nor revoked. -/
def matchesRuntimeActionApproval (request : ApprovalRequest)
    (response : Option ApprovalResponse) (context : MatchContext)
    (binding : Binding) : Bool :=
  match response with
  | none => false
  | some response =>
    response.decision == .approved && request.binding == binding &&
      matchesRuntimeInteractionResponse request response context

inductive ApprovalStatus
  | pending
  | decided (verdict : Verdict)
deriving DecidableEq

structure ApprovalRow where
  id : Uuid
  organizationId : Uuid
  workspaceId : Uuid
  resourceId : Uuid
  request : ApprovalRequest
  response : Option ApprovalResponse
  bindingDigest : Checksum
  controlVersion : Nat
  expiresAt : Timestamp
  consumedAt : Option Timestamp
  revokedAt : Option Timestamp
  status : ApprovalStatus
  decidedBy : Option Uuid

structure Principal where
  actorId : Uuid
  organizationId : Uuid
  workspaceId : Uuid

/-- An admitted dispatch: for which operation, under which decision, and the
approval that it consumed. -/
structure Dispatch where
  organizationId : Uuid
  workspaceId : Uuid
  operationId : Uuid
  effect : PolicyEffect
  approval : Option Uuid
deriving DecidableEq

/-- `automation` is the member setting that an operation recorded when it was
created; `dispatches` belongs to the statements only. -/
structure Db where
  clock : Timestamp
  controls : Uuid × Uuid → Option Controls
  automation : Uuid → Option WorkAutomation
  approvals : Table Uuid ApprovalRow ApprovalRow.id
  dispatches : List Dispatch

def Db.initial (clock : Timestamp) : Db :=
  ⟨clock, fun _ => none, fun _ => none, .empty, []⟩

inductive PolicyError
  | membershipDenied
  | runtimePolicyMissingOrInvalid
  | policyVersionConflict
  | policyReasonRequired
  | policyRulesInvalid
  | bindingScopeMismatch
  | authorityDenied
  | frozenPolicyInvalid
  | executionBindingChanged
  | policyDenied (reason : String)
  | approvalBindingMismatch
  | approvalRequired
  | approvalInvalidOrStale
  | approvalNotConsumed
  | approvalAlreadyConsumed
  | approvalLifetimeInvalid
  | approvalNotApplicable
  | approvalNotFound
  | approvalActorMismatch
  | approvalResponseMismatch
  | approvalResponseConflict
  | approvalNotPending
  | rolledBack

abbrev PolicyTx := Tx PolicyError Db

/-- What a transaction finds in the tables that are not modelled, and what the
adapter of its caller answers.  `authority` is the expiry of the frozen policy
when the binding's run, employee, target and grant are in order; `current` is
the binding that the adapter resolves; `elapsed` is how far the clock has moved
on at each reading. -/
structure Surroundings where
  identityHolds : Bool
  authority : Option Timestamp
  current : Option Binding
  locks : Bool
  finalHolds : Bool
  localMcpHolds : Bool
  memberAutomation : Option WorkAutomation
  operationInserted : Bool
  elapsed : Nat → Nat
  commits : Bool

/-- The digest of a binding, and the actions that the platform denies. -/
structure Host where
  runtimePolicyDigest : Binding → Checksum
  platformDeniedActions : List String

def clockNow (elapsed : Nat) : PolicyTx Timestamp := do
  let db ← get
  set { db with clock := db.clock + elapsed }
  pure (db.clock + elapsed)

def controlsFor (ctx : Principal) : PolicyTx Controls := do
  let db ← get
  let controls ← expect (db.controls (ctx.organizationId, ctx.workspaceId))
    .runtimePolicyMissingOrInvalid
  rejectIf (¬controls.Valid) .runtimePolicyMissingOrInvalid
  pure controls

def checkBindingAuthority (ctx : Principal) (around : Surroundings)
    (binding : Binding) : PolicyTx Timestamp := do
  rejectIf (¬(binding.task.scope.organizationId = ctx.organizationId ∧
    binding.task.scope.workspaceId = ctx.workspaceId ∧
    binding.requestedBy.type = .user ∧
    binding.requestedBy.id = ctx.actorId)) .bindingScopeMismatch
  let policyExpiresAt ← expect around.authority .authorityDenied
  let now ← clockNow (around.elapsed 0)
  rejectIf (policyExpiresAt ≤ now) .frozenPolicyInvalid
  pure policyExpiresAt

def checkBinding (ctx : Principal) (around : Surroundings)
    (binding : Binding) : PolicyTx Timestamp := do
  let policyExpiresAt ← checkBindingAuthority ctx around binding
  let current ← expect around.current .executionBindingChanged
  rejectIf (binding ≠ current) .executionBindingChanged
  let now ← clockNow (around.elapsed 1)
  rejectIf (policyExpiresAt ≤ now) .frozenPolicyInvalid
  pure policyExpiresAt

/-- The approvals of an operation. -/
def rowsOf (db : Db) (ctx : Principal) (operationId : Uuid) :
    List ApprovalRow :=
  db.approvals.rows.filter fun row =>
    row.organizationId = ctx.organizationId ∧
      row.workspaceId = ctx.workspaceId ∧ row.resourceId = operationId

def recordDispatch (ctx : Principal) (binding : Binding)
    (effect : PolicyEffect) (approval : Option Uuid) : PolicyTx PUnit :=
  modify fun db =>
    { db with
      dispatches := db.dispatches ++
        [⟨ctx.organizationId, ctx.workspaceId, binding.operationId, effect,
          approval⟩] }

inductive Phase
  | create | dispatch | heartbeat
deriving DecidableEq

inductive Admission
  | admitted | waitingUser

/-- The first final admission of a creation stores the member's setting. -/
def recordAutomation (phase : Phase) (around : Surroundings)
    (operationId : Uuid) : PolicyTx PUnit :=
  match phase, around.memberAutomation with
  | .create, some settings =>
    whenever (around.operationInserted = true) <| modify fun db =>
      { db with
        automation := Function.update db.automation operationId
          ((db.automation operationId).orElse fun _ => some settings) }
  | _, _ => pure ⟨⟩

/-- An approval that does not stand for this admission. -/
def Unfit (row : ApprovalRow) (controls : Controls) (binding : Binding)
    (now : Timestamp) : Prop :=
  row.revokedAt ≠ none ∨ row.controlVersion ≠ controls.version ∨
    row.expiresAt ≤ now ∨ row.status ≠ .decided .approved ∨
    row.request.binding ≠ binding

instance (row : ApprovalRow) (controls : Controls) (binding : Binding)
    (now : Timestamp) : Decidable (Unfit row controls binding now) :=
  inferInstanceAs (Decidable (_ ∨ _ ∨ _ ∨ _ ∨ _))

/-- A pending approval that may still be decided. -/
def Awaited (row : ApprovalRow) (controls : Controls) (binding : Binding)
    (now : Timestamp) (phase : Phase) (effect : PolicyEffect) : Prop :=
  phase = .create ∧ effect = .ask ∧ row.status = .pending ∧
    row.controlVersion = controls.version ∧ row.request.binding = binding ∧
    row.revokedAt = none ∧ now < row.expiresAt

instance (row : ApprovalRow) (controls : Controls) (binding : Binding)
    (now : Timestamp) (phase : Phase) (effect : PolicyEffect) :
    Decidable (Awaited row controls binding now phase effect) :=
  inferInstanceAs (Decidable (_ ∧ _ ∧ _ ∧ _ ∧ _ ∧ _ ∧ _))

/-- The admission under the one approval of the operation. -/
def admitApproved (ctx : Principal) (around : Surroundings) (phase : Phase)
    (binding : Binding) (controls : Controls) (effect : PolicyEffect)
    (policyExpiresAt now : Timestamp) (row : ApprovalRow) :
    PolicyTx Admission := do
  if Unfit row controls binding now then
    if Awaited row controls binding now phase effect then
      pure .waitingUser
    else throw .approvalInvalidOrStale
  else
    rejectIf (matchesRuntimeActionApproval row.request row.response
      ⟨binding.task.scope, binding.task, ctx.actorId, now⟩ binding = false)
      .approvalBindingMismatch
    match phase with
    | .heartbeat =>
      rejectIf (row.consumedAt = none) .approvalNotConsumed
      pure .admitted
    | .create =>
      rejectIf (row.consumedAt ≠ none) .approvalAlreadyConsumed
      pure .admitted
    | .dispatch =>
      rejectIf (row.consumedAt ≠ none) .approvalAlreadyConsumed
      modify fun db =>
        { db with
          approvals := db.approvals.replace
            { row with consumedAt := some now } }
      recordDispatch ctx binding effect (some row.id)
      let completedAt ← clockNow (around.elapsed 3)
      rejectIf (policyExpiresAt ≤ completedAt) .frozenPolicyInvalid
      rejectIf (row.expiresAt ≤ completedAt) .approvalInvalidOrStale
      pure .admitted

def admitUnder (host : Host) (ctx : Principal) (around : Surroundings)
    (phase : Phase) (binding : Binding) : PolicyTx Admission := do
  let controls ← controlsFor ctx
  rejectIf (around.identityHolds = false) .membershipDenied
  let policyExpiresAt ← checkBinding ctx around binding
  let before ← get
  let automation :=
    match phase with
    | .create => around.memberAutomation
    | _ => before.automation binding.operationId
  let decision := evaluateRuntimePolicy controls binding
    host.platformDeniedActions automation
  rejectIf (decision.effect = .deny) (.policyDenied decision.reason)
  recordAutomation phase around binding.operationId
  let db ← get
  let rows := rowsOf db ctx binding.operationId
  rejectIf (1 < rows.length ∨ ∃ row ∈ rows.head?,
    row.bindingDigest ≠ host.runtimePolicyDigest binding)
    .approvalBindingMismatch
  let now ← clockNow (around.elapsed 2)
  rejectIf (policyExpiresAt ≤ now) .frozenPolicyInvalid
  match rows.head? with
  | none =>
    if decision.effect = .allow then
      whenever (phase = .dispatch)
        (recordDispatch ctx binding decision.effect none)
      pure .admitted
    else if phase = .create then pure .waitingUser
    else throw .approvalRequired
  | some row =>
    admitApproved ctx around phase binding controls decision.effect
      policyExpiresAt now row

/-- The admission within the transaction of its caller. -/
def createRuntimePolicyAdmission (host : Host) (ctx : Principal)
    (around : Surroundings) (phase : Phase) (binding : Binding) :
    PolicyTx Admission := do
  rejectIf (around.locks = false) .rolledBack
  let admission ← admitUnder host ctx around phase binding
  rejectIf (around.finalHolds = false) .rolledBack
  rejectIf (around.commits = false) .rolledBack
  pure admission

/-- The identifiers that a new request gets. -/
structure NewIds where
  requestId : Uuid
  approvalId : Uuid

def requestRuntimeActionApproval (host : Host) (ctx : Principal)
    (around : Surroundings) (ids : NewIds) (binding : Binding)
    (lifetimeMs : Nat) : PolicyTx ApprovalRequest := do
  rejectIf (lifetimeMs < 1000 ∨ 3600000 < lifetimeMs) .approvalLifetimeInvalid
  rejectIf (around.locks = false) .rolledBack
  let controls ← controlsFor ctx
  rejectIf (around.identityHolds = false) .membershipDenied
  let policyExpiresAt ← checkBinding ctx around binding
  let db ← get
  let decision := evaluateRuntimePolicy controls binding
    host.platformDeniedActions (db.automation binding.operationId)
  rejectIf (decision.effect ≠ .ask) .approvalNotApplicable
  let digest := host.runtimePolicyDigest binding
  let rows := rowsOf db ctx binding.operationId
  rejectIf (1 < rows.length ∨ ∃ row ∈ rows.head?, row.bindingDigest ≠ digest)
    .approvalBindingMismatch
  match rows.head? with
  | some existing =>
    rejectIf (around.finalHolds = false) .rolledBack
    pure existing.request
  | none =>
    let now ← clockNow (around.elapsed 2)
    rejectIf (policyExpiresAt ≤ now) .frozenPolicyInvalid
    let request : ApprovalRequest :=
      { requestId := ids.requestId
        version := 1
        requestDigest := digest
        task := binding.task
        respondentId := ctx.actorId
        createdAt := now
        expiresAt := now + lifetimeMs
        approvalId := ids.approvalId
        binding }
    let db ← get
    let approvals ← expect (db.approvals.insert?
      { id := ids.approvalId
        organizationId := ctx.organizationId
        workspaceId := ctx.workspaceId
        resourceId := binding.operationId
        request
        response := none
        bindingDigest := digest
        controlVersion := controls.version
        expiresAt := request.expiresAt
        consumedAt := none
        revokedAt := none
        status := .pending
        decidedBy := none }) .rolledBack
    set { db with approvals }
    let completedAt ← clockNow (around.elapsed 3)
    rejectIf (policyExpiresAt ≤ completedAt) .frozenPolicyInvalid
    rejectIf (request.expiresAt ≤ completedAt) .approvalInvalidOrStale
    rejectIf (around.finalHolds = false) .rolledBack
    pure request

def readApproval (ctx : Principal) (approvalId : Uuid) :
    PolicyTx ApprovalRow := do
  let db ← get
  let row ← expect (db.approvals.find? approvalId) .approvalNotFound
  rejectIf (¬(row.organizationId = ctx.organizationId ∧
    row.workspaceId = ctx.workspaceId)) .approvalNotFound
  rejectIf (row.request.respondentId ≠ ctx.actorId) .approvalActorMismatch
  pure row

/-- What the approval of an action still needs; a rejection needs nothing. -/
def checkVerdict (ctx : Principal) (around : Surroundings)
    (controls : Controls) (row : ApprovalRow) (verdict : Verdict) :
    PolicyTx (Option Timestamp) :=
  match verdict with
  | .rejected => pure none
  | .approved => do
      rejectIf ((evaluateRuntimePolicy controls row.request.binding []
        none).effect = .deny) (.policyDenied "policy_denied")
      let policyExpiresAt ←
        checkBindingAuthority ctx around row.request.binding
      rejectIf (row.request.binding.action ∈
        ["local.mcp.discover", "local.mcp.call"] ∧
          around.localMcpHolds = false) .authorityDenied
      let decidedAt ← clockNow (around.elapsed 3)
      rejectIf (policyExpiresAt ≤ decidedAt ∨ row.expiresAt ≤ decidedAt)
        .approvalInvalidOrStale
      pure (some policyExpiresAt)

def decideRuntimeActionApproval (ctx : Principal) (around : Surroundings)
    (approvalId : Uuid) (submitted : ApprovalResponse) :
    PolicyTx ApprovalResponse := do
  let controls ← controlsFor ctx
  rejectIf (around.identityHolds = false) .membershipDenied
  let row ← readApproval ctx approvalId
  let now ← clockNow (around.elapsed 2)
  let response : ApprovalResponse :=
    { submitted with
      respondedAt :=
        match row.response with
        | none => now
        | some response => response.respondedAt }
  rejectIf (matchesRuntimeInteractionResponse row.request response
    ⟨row.request.task.scope, row.request.task, ctx.actorId, now⟩ = false)
    .approvalResponseMismatch
  rejectIf (row.controlVersion ≠ controls.version ∨ row.revokedAt ≠ none ∨
    row.expiresAt ≤ now) .approvalInvalidOrStale
  match row.response with
  | some recorded =>
    rejectIf (recorded ≠ response) .approvalResponseConflict
    pure response
  | none =>
    rejectIf (row.status ≠ .pending) .approvalNotPending
    let policyExpiresAt ←
      checkVerdict ctx around controls row response.decision
    modify fun db =>
      { db with
        approvals := db.approvals.replace
          { row with
            status := .decided response.decision
            decidedBy := some ctx.actorId
            response := some response } }
    let completedAt ← clockNow (around.elapsed 4)
    rejectIf ((∃ expiry ∈ policyExpiresAt, expiry ≤ completedAt) ∨
      row.expiresAt ≤ completedAt) .approvalInvalidOrStale
    pure response

def revokeRuntimeActionApproval (ctx : Principal) (around : Surroundings)
    (approvalId : Uuid) : PolicyTx PUnit := do
  let _ ← controlsFor ctx
  rejectIf (around.identityHolds = false) .membershipDenied
  let row ← readApproval ctx approvalId
  whenever (row.revokedAt = none) do
    let now ← clockNow (around.elapsed 2)
    modify fun db =>
      { db with
        approvals := db.approvals.replace { row with revokedAt := some now } }

def persistPolicy (scope : Uuid × Uuid) (controls : Controls)
    (expectedVersion : Option Nat) (authorized : Bool) : PolicyTx PUnit := do
  let db ← get
  rejectIf (authorized = false) .membershipDenied
  rejectIf ((db.controls scope).map Controls.version ≠ expectedVersion)
    .policyVersionConflict
  set { db with
    controls := Function.update db.controls scope (some controls) }

/-- The version that follows the expected one. -/
def nextVersion (expectedVersion : Option Nat) : Nat :=
  match expectedVersion with
  | none => 1
  | some version => version + 1

def setRuntimePolicyControls (scope : Uuid × Uuid) (controls : Controls)
    (expectedVersion : Option Nat) (authorized : Bool) : PolicyTx PUnit := do
  rejectIf (¬controls.Valid) .policyRulesInvalid
  rejectIf (nextVersion expectedVersion ≠ controls.version)
    .policyVersionConflict
  persistPolicy scope controls expectedVersion authorized

/-- The rules are of governed actions, no two of the same one. -/
def setPlatformRuntimePolicyControls (scope : Uuid × Uuid)
    (controls : Controls) (expectedVersion : Option Nat) (reasonGiven : Bool)
    (authorized : Bool) : PolicyTx PUnit := do
  rejectIf (¬controls.Valid) .policyRulesInvalid
  rejectIf (reasonGiven = false) .policyReasonRequired
  rejectIf (nextVersion expectedVersion ≠ controls.version)
    .policyVersionConflict
  rejectIf (¬(∀ rule ∈ controls.rules, rule.action ∈ runtimeGovernedActions) ∨
    ¬(controls.rules.map Rule.action).Nodup) .policyRulesInvalid
  persistPolicy scope controls expectedVersion authorized

inductive Action
  | request (ctx : Principal) (around : Surroundings) (ids : NewIds)
      (binding : Binding) (lifetimeMs : Nat)
  | decide (ctx : Principal) (around : Surroundings) (approvalId : Uuid)
      (submitted : ApprovalResponse)
  | revoke (ctx : Principal) (around : Surroundings) (approvalId : Uuid)
  | setControls (scope : Uuid × Uuid) (controls : Controls)
      (expectedVersion : Option Nat) (authorized : Bool)
  | setPlatformControls (scope : Uuid × Uuid) (controls : Controls)
      (expectedVersion : Option Nat) (reasonGiven authorized : Bool)
  | admission (ctx : Principal) (around : Surroundings) (phase : Phase)
      (binding : Binding)

def Action.transaction (host : Host) : Action → PolicyTx PUnit
  | .request ctx around ids binding lifetimeMs => do
      let _ ← requestRuntimeActionApproval host ctx around ids binding
        lifetimeMs
  | .decide ctx around approvalId submitted => do
      let _ ← decideRuntimeActionApproval ctx around approvalId submitted
  | .revoke ctx around approvalId =>
    revokeRuntimeActionApproval ctx around approvalId
  | .setControls scope controls expectedVersion authorized =>
    setRuntimePolicyControls scope controls expectedVersion authorized
  | .setPlatformControls scope controls expectedVersion reasonGiven
      authorized =>
      setPlatformRuntimePolicyControls scope controls expectedVersion
        reasonGiven authorized
  | .admission ctx around phase binding => do
      let _ ← createRuntimePolicyAdmission host ctx around phase binding

/-- A transaction that fails leaves the tables as they were. -/
def policies (host : Host) : Machine Db Action Bool where
  step db action :=
    match action.transaction host db with
    | .ok (_, next) => (next, true)
    | .error _ => (db, false)

end Allrice.RuntimePolicy
