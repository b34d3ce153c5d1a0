/-
Which capability an employee's request is routed to.  Every capability is a
candidate with its authorization and a score, and the best authorized candidate
is taken where its score says that the request has named it.
-/
import Allrice.JsString

namespace Allrice.CapabilityRouter

inductive RouteKind
  | direct
  | knowledge
  | agentSkill
  | workflow
  | tool
deriving DecidableEq

inductive SkillCapability
  | networkOutbound
  | storageRead
  | storageWrite
  | secretUse
  | modelInvoke
  | automationWrite
deriving DecidableEq

inductive ApprovalPolicy
  | confirmSideEffects
  | confirmExternal
  | autonomous
deriving DecidableEq

inductive Risk
  | low
  | high
deriving DecidableEq

inductive RouteReasonCode
  | directNoCapabilityMatch
  | matchedExplicitIntent
  | matchedNameOrScenario
  | minimumNecessaryCapability
  | ambiguousDeterministicTiebreak
  | excludedNotEffective
  | excludedAclDenied
  | excludedCapabilityDenied
  | excludedApprovalRequired
  | excludedConnectorIdentity
  | fallbackNoAuthorizedCandidate
deriving DecidableEq

structure RouteCandidate where
  id : JsString
  kind : RouteKind
  name : JsString
  bindingId : Option JsString
  requiredCapabilities : List SkillCapability
  risk : Risk
  requiresApproval : Bool
  authorized : Bool
  exclusionReason : Option RouteReasonCode
  score : Nat
deriving DecidableEq

structure CandidateFacts where
  candidate : RouteCandidate
  terms : List JsString
  explicitTerms : List JsString

structure RouteRequest where
  organizationId : JsString
  workspaceId : JsString
  actorId : JsString
  employeeId : JsString
  prompt : JsString

structure KnowledgeBinding where
  bindingId : JsString
  effective : Bool
  effectiveAcl : List JsString
  revisionId : JsString
  name : JsString
  slug : JsString
  description : JsString
  connector : Bool

/-- The security policy of a definition of version 2. -/
structure SecurityPolicy where
  approvalPolicy : ApprovalPolicy
  connectorIdentityModes : List JsString

structure ExecutionSnapshot where
  version2 : Bool
  workflowInvocation : Bool
  organizationId : JsString
  workspaceId : JsString
  actorId : JsString
  employeeId : JsString
  securityPolicy : Option SecurityPolicy
  grantedCapabilities : List SkillCapability
  knowledge : List KnowledgeBinding

structure ToolRouteDefinition where
  name : JsString
  description : JsString
  requiredCapability : SkillCapability

/-- What is routed; `nativeScheduling` says that one of the two variables
`ALLRICE_NATIVE_ONCE_ENABLED` and `ALLRICE_NATIVE_RECURRING_ENABLED` is `1`. -/
structure RouteInput where
  request : RouteRequest
  executionSnapshot : Option ExecutionSnapshot
  tools : List ToolRouteDefinition
  nativeScheduling : Bool

structure CapabilityRoutePlan where
  candidates : List RouteCandidate
  selectedKind : RouteKind
  selectedCandidateId : JsString
  reasonCodes : List RouteReasonCode
  selectedKnowledgeRevisionIds : List JsString
  selectedToolNames : List JsString

inductive RouteError
  | requestInvalid
  | workflowRetired
  | snapshotMismatch
  | candidateInvalid
  | noAuthorizedRoute
deriving DecidableEq

/-- What the locale decides: lower case, and an order of texts. -/
structure Locale where
  toLocaleLowerCase : JsString → JsString
  localeCompare : JsString → JsString → Ordering
  compare_trans : Std.TransCmp localeCompare

def text (literal : String) : JsString := JsString.ofString literal

def familyTerms : RouteKind → List JsString
  | .direct => []
  | .knowledge =>
    [text "知识库", text "资料库", text "根据文档", text "查资料", text "knowledge",
      text "document base"]
  | .agentSkill => [text "技能", text "skill", text "专项能力"]
  | .workflow => []
  | .tool => [text "调用工具", text "使用工具", text "tool"]

def kindPriority : RouteKind → Nat
  | .direct => 0
  | .knowledge => 1
  | .agentSkill => 2
  | .tool => 3
  | .workflow => 4

/-- `value.replace(/\s+/g, ' ')`. -/
def collapse : JsString → JsString
  | [] => []
  | unit :: rest =>
    if JsString.isWhitespace unit then
      match rest with
      | next :: _ =>
        if JsString.isWhitespace next then collapse rest
        else 0x20 :: collapse rest
      | [] => [0x20]
    else unit :: collapse rest

section Local

variable (locale : Locale)

def normalize (value : JsString) : JsString :=
  JsString.trim (collapse (locale.toLocaleLowerCase value))

def containsTerm (prompt term : JsString) : Bool :=
  let normalized := normalize locale term
  2 ≤ normalized.length && decide (normalized <:+: prompt)

structure Score where
  score : Nat
  explicit : Bool
  named : Bool

def scoreCandidate (prompt : JsString) (facts : CandidateFacts) : Score :=
  let explicit := facts.explicitTerms.any (containsTerm locale prompt)
  let named := facts.terms.any (containsTerm locale prompt)
  { score := (if facts.candidate.kind = .direct then 1 else 0) +
      (if explicit then 100 else 0) + (if named then 50 else 0)
    explicit
    named }

end Local

structure AuthorizationInput where
  effective : Bool
  aclAllowed : Bool
  connectorAllowed : Bool
  requiredCapabilities : List SkillCapability
  grantedCapabilities : List SkillCapability
  requiresApproval : Bool
  approvalPolicy : ApprovalPolicy

/-- The reason of an exclusion, or none where the candidate is authorized. -/
def authorization (input : AuthorizationInput) : Option RouteReasonCode :=
  if input.effective = false then some .excludedNotEffective
  else if input.aclAllowed = false then some .excludedAclDenied
  else if input.connectorAllowed = false then some .excludedConnectorIdentity
  else if input.requiredCapabilities.all input.grantedCapabilities.contains =
      false then
    some .excludedCapabilityDenied
  else if input.requiresApproval ∧ input.approvalPolicy ≠ .autonomous then
    some .excludedApprovalRequired
  else none

def toolTerms (name description : JsString) : List JsString :=
  let specific :=
    [(text "workspace.file.list",
        [text "文件", text "文档", text "列出文件", text "list files"]),
      (text "workspace.file.read",
        [text "读取文件", text "打开文件", text "read file"]),
      (text "workspace.memory.search",
        [text "记忆", text "以前说过", text "memory"]),
      (text "workspace.memory.remember",
        [text "记住", text "记下", text "保存记忆", text "偏好", text "决定",
          text "remember", text "preference"]),
      (text "workspace.session.search",
        [text "历史对话", text "之前的对话", text "conversation"]),
      (text "automation.create",
        [text "提醒", text "定时", text "稍后", text "remind", text "schedule"])]
  [name, description] ++ ((specific.find? (·.1 = name)).map Prod.snd).getD []

namespace RouteInput

def grantedCapabilities (input : RouteInput) : List SkillCapability :=
  match input.executionSnapshot with
  | some snapshot => snapshot.grantedCapabilities
  | none => [.modelInvoke]

def approvalPolicy (input : RouteInput) : ApprovalPolicy :=
  match input.executionSnapshot.bind ExecutionSnapshot.securityPolicy with
  | some policy => policy.approvalPolicy
  | none => .confirmSideEffects

/-- A candidate with what the authorization says about it. -/
def candidate (input : RouteInput) (id : JsString) (kind : RouteKind)
    (name : JsString) (bindingId : Option JsString)
    (requiredCapability : SkillCapability) (requiresApproval : Bool)
    (effective aclAllowed connectorAllowed : Bool) (score : Nat) :
    RouteCandidate :=
  let exclusionReason := authorization
    { effective
      aclAllowed
      connectorAllowed
      requiredCapabilities := [requiredCapability]
      grantedCapabilities := input.grantedCapabilities
      requiresApproval
      approvalPolicy := input.approvalPolicy }
  { id
    kind
    name
    bindingId
    requiredCapabilities := [requiredCapability]
    risk := if requiresApproval then .high else .low
    requiresApproval
    authorized := exclusionReason.isNone
    exclusionReason
    score }

def directFacts (input : RouteInput) : CandidateFacts where
  candidate := input.candidate (text "direct") .direct (text "直接回答") none
    .modelInvoke false true true true 1
  terms := []
  explicitTerms := []

def knowledgeFacts (input : RouteInput) (snapshot : ExecutionSnapshot)
    (binding : KnowledgeBinding) : CandidateFacts where
  candidate :=
    let connectorAllowed := !binding.connector ||
      snapshot.securityPolicy.all (!·.connectorIdentityModes.isEmpty)
    input.candidate (text "knowledge:" ++ binding.revisionId) .knowledge
      binding.name (some binding.bindingId) .storageRead false
      binding.effective (!binding.effectiveAcl.isEmpty) connectorAllowed 0
  terms := [binding.name, binding.slug, binding.description]
  explicitTerms := familyTerms .knowledge

def toolFacts (input : RouteInput) (tool : ToolRouteDefinition) :
    CandidateFacts where
  candidate :=
    let humanGovernedSchedule :=
      tool.name = text "automation.create" && input.nativeScheduling
    let requiresApproval := !humanGovernedSchedule &&
      [SkillCapability.storageWrite, .secretUse, .automationWrite].contains
        tool.requiredCapability
    input.candidate (text "tool:" ++ tool.name) .tool tool.name none
      tool.requiredCapability requiresApproval true true true 0
  terms := toolTerms tool.name tool.description
  explicitTerms := tool.name :: familyTerms .tool

/-- The candidates that are not the direct answer. -/
def capabilityFacts (input : RouteInput) : List CandidateFacts :=
  (match input.executionSnapshot with
    | some snapshot =>
      if snapshot.version2 then
        snapshot.knowledge.map (input.knowledgeFacts snapshot)
      else []
    | none => []) ++
  input.tools.map input.toolFacts

end RouteInput

/-- `RouteCandidateSchema.parse`: names are trimmed and bounded. -/
def parseCandidate (candidate : RouteCandidate) :
    Except RouteError RouteCandidate :=
  let id := JsString.trim candidate.id
  let name := JsString.trim candidate.name
  if 1 ≤ id.length ∧ id.length ≤ 240 ∧ 1 ≤ name.length ∧ name.length ≤ 200 then
    .ok { candidate with id, name }
  else .error .candidateInvalid

section Local

variable (locale : Locale)

/-- The comparison that authorized candidates are sorted by. -/
def compareRoutes (left right : RouteCandidate) : Ordering :=
  (compare right.score left.score).then
    ((compare (kindPriority left.kind) (kindPriority right.kind)).then
      (locale.localeCompare left.id right.id))

/-- The candidates in their order. -/
def authorizedRoutes (candidates : List RouteCandidate) :
    List RouteCandidate :=
  (candidates.filter RouteCandidate.authorized).mergeSort fun left right =>
    (compareRoutes locale left right).isLE

/-- A candidate as it is shown, with its score. -/
def scored (prompt : JsString) (facts : CandidateFacts) :
    Except RouteError RouteCandidate := do
  let candidate ← parseCandidate facts.candidate
  parseCandidate
    { candidate with score := (scoreCandidate locale prompt facts).score }

/-- `id.split(':').slice(1).join(':')`. -/
def revisionId (id : JsString) : JsString :=
  (id.dropWhile (· != 0x3A)).drop 1

def unique {α : Type} [DecidableEq α] (values : List α) : List α :=
  values.reverse.dedup.reverse

/-- The selected candidate: the best one where its score is above that of the
direct answer, else the first one. -/
def selectRoute (candidates : List RouteCandidate) (best : RouteCandidate) :
    RouteCandidate :=
  if 1 < best.score then best else candidates.headD best

def reasonsFor (prompt : JsString) (scores : List Score)
    (authorized : List RouteCandidate) (selected : RouteCandidate) :
    List RouteReasonCode :=
  let requested := [RouteKind.knowledge, .agentSkill, .workflow, .tool].any
    fun kind => (familyTerms kind).any (containsTerm locale prompt)
  let first :=
    if selected.kind = .direct then
      [if requested then RouteReasonCode.fallbackNoAuthorizedCandidate
        else .directNoCapabilityMatch]
    else
      (if scores.any Score.explicit then
        [RouteReasonCode.matchedExplicitIntent] else []) ++
      (if scores.any Score.named then
        [RouteReasonCode.matchedNameOrScenario] else []) ++
      [RouteReasonCode.minimumNecessaryCapability]
  let tied := authorized.filter fun candidate =>
    candidate.score = selected.score && 1 < candidate.score
  unique (first ++ (if 1 < tied.length then
    [RouteReasonCode.ambiguousDeterministicTiebreak] else []))

/-- The frozen snapshot belongs to the request. -/
def snapshotMatches (request : RouteRequest) (snapshot : ExecutionSnapshot) :
    Bool :=
  snapshot.organizationId = request.organizationId &&
    snapshot.workspaceId = request.workspaceId &&
    snapshot.actorId = request.actorId &&
    snapshot.employeeId = request.employeeId

def decideCapabilityRoute (input : RouteInput) :
    Except RouteError CapabilityRoutePlan := do
  if input.request.prompt = [] ∨ 100000 < input.request.prompt.length then
    throw .requestInvalid
  let prompt := normalize locale input.request.prompt
  if input.executionSnapshot.any fun snapshot =>
      snapshot.version2 && snapshot.workflowInvocation then
    throw .workflowRetired
  if input.executionSnapshot.any fun snapshot =>
      !snapshotMatches input.request snapshot then
    throw .snapshotMismatch
  let facts := input.directFacts :: input.capabilityFacts
  let candidates ← facts.mapM (scored locale prompt)
  let authorized := authorizedRoutes locale candidates
  match authorized with
  | [] => throw .noAuthorizedRoute
  | best :: _ =>
    let selected := selectRoute candidates best
    pure
      { candidates
        selectedKind := selected.kind
        selectedCandidateId := selected.id
        reasonCodes := reasonsFor locale prompt
          (facts.map (scoreCandidate locale prompt)) authorized selected
        selectedKnowledgeRevisionIds :=
          if selected.kind = .knowledge then [revisionId selected.id] else []
        selectedToolNames :=
          if selected.kind = .tool then [revisionId selected.id] else [] }

end Local

end Allrice.CapabilityRouter
