/-
The check of a reply before it is delivered: its links against the artifacts
and ordinary files of a snapshot, the requirements of the run against the
artifacts, and the checks of the artifacts against their receipts.
-/
import Allrice.DeliveryLinks

namespace Allrice

namespace FinalDelivery

section Host

variable (host : DeliveryHost)

/-- What was found so far. -/
structure IssueLog where
  issues : List DeliveryIssue
  evidenceUnavailable : Bool

def IssueLog.empty : IssueLog := ⟨[], false⟩

/-- `issue(value, evidence)`. -/
def IssueLog.issue (log : IssueLog) (value : DeliveryIssue)
    (evidence : Bool) : IssueLog :=
  if maxIssues ≤ log.issues.length then
    ⟨log.issues.set (maxIssues - 1) {
      code := .responseUnverifiable
      reason := "delivery_issue_limit" }, true⟩
  else ⟨log.issues ++ [value], log.evidenceUnavailable || evidence⟩

/-- An issue about the evidence. -/
def IssueLog.incomplete (log : IssueLog) (reason : String) : IssueLog :=
  log.issue { code := .deliveryEvidenceIncomplete, reason := reason } true

structure CatalogEntry where
  identity : ArtifactIdentity
  artifact : DeliveryArtifact

def CatalogEntry.key (entry : CatalogEntry) : JsString :=
  FinalDelivery.key entry.identity

/-- The artifacts by their identity, and the identities by object and by
version. -/
structure Catalog where
  artifacts : Table JsString CatalogEntry CatalogEntry.key
  byObject : Table JsString (JsString × JsString) Prod.fst
  byVersion : Table JsString (JsString × JsString) Prod.fst

def Catalog.empty : Catalog := ⟨Table.empty, Table.empty, Table.empty⟩

/-- `ownedRuns.has(…)`. -/
def ownsRun (snapshot : DeliverySnapshot) (runId : Option JsString) : Bool :=
  runId.any fun id => (snapshot.ownedRunIds.map (toLowerCase host)).contains
    (toLowerCase host id)

/-- `references.has(…)`. -/
def isReference (snapshot : DeliverySnapshot) (versionId : JsString) : Bool :=
  (snapshot.explicitReferenceVersionIds.map (toLowerCase host)).contains
    versionId

/-- An artifact that may be delivered. -/
def isDeliverable (snapshot : DeliverySnapshot) (now : Int)
    (artifact : DeliveryArtifact) (identity : ArtifactIdentity) : Bool :=
  sameScope host artifact.scope snapshot.scope.toArtifactScope &&
    (ownsRun host snapshot artifact.originRunId ||
      isReference host snapshot identity.versionId) &&
    artifact.state = .ready && artifact.immutable &&
    artifact.deletedAt = none &&
    validUntil host artifact.retentionUntil now &&
    JsString.trim artifact.fileName ≠ []

/-- Another artifact of the catalog has a part of this identity. -/
def conflicts (catalog : Catalog) (artifact : DeliveryArtifact)
    (identity : ArtifactIdentity) : Bool :=
  ((catalog.artifacts.find? (key identity)).any fun prior =>
      stable prior.artifact.fact ≠ stable artifact.fact) ||
    ((catalog.byObject.find? identity.objectId).any fun row =>
      row.2 ≠ key identity) ||
    ((catalog.byVersion.find? identity.versionId).any fun row =>
      row.2 ≠ key identity)

def Catalog.add (catalog : Catalog) (artifact : DeliveryArtifact)
    (identity : ArtifactIdentity) : Catalog where
  artifacts := catalog.artifacts.put ⟨identity, artifact⟩
  byObject := catalog.byObject.put (identity.objectId, key identity)
  byVersion := catalog.byVersion.put (identity.versionId, key identity)

/-- One round of the loop over the artifacts. -/
def registerArtifact (snapshot : DeliverySnapshot) (now : Int)
    (state : IssueLog × Catalog) (artifact : DeliveryArtifact) :
    IssueLog × Catalog :=
  match normalizedIdentity host artifact.toArtifactIdentity with
  | none => (state.1.incomplete "unavailable_or_unbound_artifact", state.2)
  | some identity =>
    if isDeliverable host snapshot now artifact identity = false then
      (state.1.incomplete "unavailable_or_unbound_artifact", state.2)
    else if conflicts state.2 artifact identity then
      (state.1.incomplete "conflicting_artifact_identity", state.2)
    else (state.1, state.2.add artifact identity)

/-- An ordinary file that may be cited. -/
def isCitable (now : Int) (catalog : Catalog)
    (citation : OrdinaryFileCitation) : Bool :=
  isUuid citation.objectId && validUntil host citation.retentionUntil now &&
    (catalog.byObject.find? (toLowerCase host citation.objectId)).isNone

/-- One round of the loop over the citations. -/
def registerCitation (now : Int) (catalog : Catalog)
    (state : IssueLog × List JsString) (citation : OrdinaryFileCitation) :
    IssueLog × List JsString :=
  if isCitable host now catalog citation = false then
    (state.1.incomplete "ordinary_citation_identity_or_availability", state.2)
  else (state.1, state.2 ++ [toLowerCase host citation.objectId])

def managedOrigin (origin : JsString) : Option JsString :=
  match host.parseUrl origin none with
  | none => none
  | some url =>
    if (url.protocol ≠ JsString.ofString "http:" ∧
        url.protocol ≠ JsString.ofString "https:") ∨
        url.username ≠ [] ∨ url.password ≠ [] ∨
        url.pathname ≠ JsString.ofString "/" ∨ url.search ≠ [] ∨
        url.hash ≠ [] then none
    else some url.origin

/-- The part of the check that may throw: the origins and the links. -/
def candidateLinks (input : DeliveryInput) :
    Option (List JsString × List CandidateLink) :=
  if maxTextBytes < JsString.byteLength input.candidate then none
  else
    match input.managedOrigins.mapM (managedOrigin host) with
    | none => none
    | some origins =>
      (readLinks host input.candidate).map fun links => (origins, links)

abbrev Linked := Table JsString ArtifactIdentity key

/-- The issue about a link. -/
def linkIssue (reason : String) (link : CandidateLink) : DeliveryIssue where
  code := .invalidDeliveryLink
  reason := reason
  offset := link.offset
  destinationDigest := some (host.hash link.href)

/-- One round of the loop over the links. -/
def checkLink (origins : List JsString) (catalog : Catalog)
    (ordinary : List JsString) (state : IssueLog × Linked)
    (link : CandidateLink) : IssueLog × Linked :=
  match managedTarget host link.href origins with
  | .external => state
  | .invalid reason => (state.1.issue (linkIssue host reason link) false, state.2)
  | .managed objectId =>
    if ordinary.contains objectId then state
    else
      match (catalog.byObject.find? objectId).bind fun row =>
          catalog.artifacts.find? row.2 with
      | none =>
        (state.1.issue (linkIssue host
          "artifact_not_in_authorized_snapshot" link) false, state.2)
      | some entry => (state.1, state.2.put entry.identity)

/-- What a requirement has to be, apart from having an id of its own. -/
def isFormed (required : DeliveryRequirement) : Bool :=
  required.id ≠ [] &&
    (required.source = .currentRun ||
      required.source = .explicitReference) &&
    required.whenLinked ≠ some false &&
    !(required.whenLinked = some true &&
      (required.requireLink || required.source ≠ .currentRun)) &&
    required.requiredChecks.length ≤ 100 &&
    decide required.requiredChecks.Nodup

/-- The artifact that a requirement asks for. -/
def requiredEntry (snapshot : DeliverySnapshot) (catalog : Catalog)
    (required : DeliveryRequirement) : Option CatalogEntry :=
  match (required.expected.bind (normalizedIdentity host)).bind fun expected =>
      catalog.artifacts.find? (key expected) with
  | none => none
  | some entry =>
    let sourceMatches :=
      if required.source = .currentRun then
        ownsRun host snapshot entry.artifact.originRunId
      else isReference host snapshot entry.identity.versionId
    if sourceMatches then some entry else none

/-- Whether a receipt is about a check of an artifact. -/
def concerns (snapshot : DeliverySnapshot) (entry : CatalogEntry)
    (checkId : JsString) (check : DeliveryCheck) : Bool :=
  check.checkId = checkId &&
    (normalizedIdentity host check.toArtifactIdentity).any (fun identity =>
      key identity = key entry.identity) &&
    sameScope host check.scope snapshot.scope.toArtifactScope &&
    check.originRunId.map (toLowerCase host) =
      entry.artifact.originRunId.map (toLowerCase host)

/-- Whether a required check has receipts and all are passed. -/
def isChecked (snapshot : DeliverySnapshot) (entry : CatalogEntry)
    (checkId : JsString) : Bool :=
  let receipts := snapshot.checks.filter (concerns host snapshot entry checkId)
  checkId ≠ [] && receipts.length ≠ 0 &&
    !receipts.any (fun check => check.status ≠ .passed)

/-- The issues of a well-formed requirement, in their order. -/
def requirementIssues (snapshot : DeliverySnapshot) (catalog : Catalog)
    (linked : Linked) (required : DeliveryRequirement) :
    List DeliveryIssue :=
  match requiredEntry host snapshot catalog required with
  | none => [{
      code := .missingRequestedArtifact
      reason := "exact_required_version_not_delivered"
      requirementId := some required.id }]
  | some entry =>
    let isLinked := (linked.find? (key entry.identity)).isSome
    if required.whenLinked = some true ∧ isLinked = false then []
    else
      (if required.requireLink = true ∧ isLinked = false then [{
          code := .missingDeliveryLink
          reason := "required_version_not_linked"
          requirementId := some required.id }]
        else []) ++
      (required.requiredChecks.filter fun checkId =>
        !isChecked host snapshot entry checkId).map fun _ => {
          code := .requiredCheckIncomplete
          reason := "exact_artifact_check_not_passed"
          requirementId := some required.id }

/-- One round of the loop over the requirements. -/
def checkRequirement (snapshot : DeliverySnapshot) (catalog : Catalog)
    (linked : Linked) (state : IssueLog × List JsString)
    (required : DeliveryRequirement) : IssueLog × List JsString :=
  if isFormed required = false ∨ required.id ∈ state.2 then
    (state.1.incomplete "malformed_requirement", state.2)
  else
    ((requirementIssues host snapshot catalog linked required).foldl
      (fun log issue => log.issue issue false) state.1,
      state.2 ++ [required.id])

/-- The decision that the issues lead to. -/
def decision (input : DeliveryInput) (log : IssueLog) (linked : Linked) :
    DeliveryDecision where
  status :=
    if log.evidenceUnavailable then .evidenceUnavailable
    else if log.issues.isEmpty then .valid
    else .invalidResponse
  candidateDigest := host.hash input.candidate
  factSetDigest := host.hash (input.snapshot.factsText.getD
    (JsString.ofString "final-delivery-facts-unavailable/v1"))
  issues := log.issues
  linked := linked.rows.insertionSort fun a b =>
    host.localeCompare (key a) (key b) ≤ 0
  textRepairEligible :=
    !log.evidenceUnavailable && !log.issues.isEmpty &&
      log.issues.all fun item =>
        item.code = .invalidDeliveryLink || item.code = .missingDeliveryLink ||
          item.code = .emptyResponse

/-- The time of the snapshot, where its scope, authority and completeness allow
a decision. -/
def admittedTime (input : DeliveryInput) : Option Int :=
  let snapshot := input.snapshot
  match host.parseDate snapshot.now with
  | none => none
  | some now =>
    if snapshot.factsText.isSome &&
        validScope input.expectedScope && validScope snapshot.scope &&
        sameScope host input.expectedScope.toArtifactScope
          snapshot.scope.toArtifactScope &&
        toLowerCase host input.expectedScope.runId =
          toLowerCase host snapshot.scope.runId &&
        snapshot.authorization = JsString.ofString "current" &&
        snapshot.complete &&
        snapshot.artifacts.length ≤ maxArtifacts &&
        snapshot.checks.length ≤ maxChecks &&
        snapshot.requirements.length ≤ maxRequirements &&
        snapshot.ownedRunIds.length ≤ 200 &&
        snapshot.explicitReferenceVersionIds.length ≤ maxArtifacts &&
        snapshot.ownedRunIds.all isUuid &&
        snapshot.explicitReferenceVersionIds.all isUuid &&
        snapshot.ownedRunIds.any (fun id =>
          toLowerCase host id = toLowerCase host snapshot.scope.runId) then
      some now
    else none

/-- The `try` block: links first, requirements after them. -/
def checkReply (input : DeliveryInput) (catalog : Catalog)
    (ordinary : List JsString) (log : IssueLog) : IssueLog × Linked :=
  let log :=
    if JsString.trim input.candidate = [] then
      log.issue { code := .emptyResponse, reason := "empty_candidate" } false
    else log
  match candidateLinks host input with
  | none =>
    let unverifiable : DeliveryIssue := {
      code := .responseUnverifiable
      reason := "markup_or_policy_limit" }
    (log.issue unverifiable true, Table.empty)
  | some (origins, links) =>
    let checked := links.foldl (checkLink host origins catalog ordinary)
      (log, Table.empty)
    ((input.snapshot.requirements.foldl
      (checkRequirement host input.snapshot catalog checked.2)
      (checked.1, [])).1, checked.2)

def checkFinalDelivery (input : DeliveryInput) : DeliveryDecision :=
  let snapshot := input.snapshot
  match admittedTime host input with
  | none =>
    decision host input (IssueLog.empty.incomplete
      "snapshot_scope_authority_or_completeness") Table.empty
  | some now =>
    let registered := snapshot.artifacts.foldl
      (registerArtifact host snapshot now) (IssueLog.empty, Catalog.empty)
    if registered.1.evidenceUnavailable then
      decision host input registered.1 Table.empty
    else if maxLinks < snapshot.ordinaryFileCitations.length then
      decision host input (registered.1.incomplete "ordinary_citation_limit")
        Table.empty
    else
      let cited := snapshot.ordinaryFileCitations.foldl
        (registerCitation host now registered.2) (registered.1, [])
      if cited.1.evidenceUnavailable then
        decision host input cited.1 Table.empty
      else
        let replied := checkReply host input registered.2 cited.2 cited.1
        decision host input replied.1 replied.2

end Host

namespace DeliveryWitness

def uuid (digit : UInt16) : JsString :=
  JsString.ofString "00000000-0000-4000-8000-00000000000" ++ [digit]

def filePath (digit : UInt16) : JsString :=
  JsString.ofString "/api/v1/files/" ++ uuid digit

/-- A tree with one link, and URLs as they are for paths. -/
def host : DeliveryHost where
  markdown _ := some (.node (JsString.ofString "root") none none none
    [.node (JsString.ofString "link") (some (filePath 0x31)) none none []
      (some 4)] (some 0))
  html _ := none
  parseUrl input _ := some {
    origin := JsString.ofString "https://managed-link.invalid"
    protocol := JsString.ofString "https:"
    username := []
    password := []
    pathname := input
    search := []
    hash := []
    searchNames := [] }
  parseDate _ := some 0
  lowerCase text := text
  localeCompare left right :=
    if JsValue.codeUnitsLe left right then
      if left = right then 0 else -1
    else 1
  hash text := text

def scope : DeliveryScope where
  organizationId := uuid 0x41
  workspaceId := uuid 0x42
  ownerId := uuid 0x43
  sessionId := uuid 0x44
  runId := uuid 0x45

def artifact (digit : UInt16) : DeliveryArtifact where
  objectId := uuid digit
  versionId := uuid digit
  checksum := List.replicate 64 digit
  scope := scope.toArtifactScope
  originRunId := some (uuid 0x45)
  fileName := JsString.ofString "a.txt"
  state := .ready
  immutable := true
  deletedAt := none
  retentionUntil := none

def snapshot (artifacts : List DeliveryArtifact) : DeliverySnapshot where
  scope := scope
  complete := true
  authorization := JsString.ofString "current"
  now := JsString.ofString "1970-01-01T00:00:00Z"
  ownedRunIds := [uuid 0x45]
  explicitReferenceVersionIds := []
  artifacts := artifacts
  checks := [{
    objectId := uuid 0x31
    versionId := uuid 0x31
    checksum := List.replicate 64 0x31
    scope := scope.toArtifactScope
    originRunId := some (uuid 0x45)
    checkId := JsString.ofString "lint"
    status := .passed }]
  requirements := [{
    id := JsString.ofString "report"
    expected := some (artifact 0x31).toArtifactIdentity
    source := .currentRun
    requireLink := true
    requiredChecks := [JsString.ofString "lint"]
    whenLinked := none }]
  qualityReceipts := []
  ordinaryFileCitations := []

def input (artifacts : List DeliveryArtifact) : DeliveryInput where
  candidate := JsString.ofString "see the report"
  expectedScope := scope
  snapshot := snapshot artifacts
  managedOrigins := []

end DeliveryWitness

end FinalDelivery

end Allrice
