/-
The facts that a reply is checked against before it is delivered, their
digest, and the decision about the reply.
-/
import Allrice.FinalDeliveryFacts
import Allrice.Pattern
import Allrice.Table
import Allrice.Utf8Text

namespace Allrice

namespace FinalDelivery

open FactText (FactRecord serializeFinalDeliveryFacts sortTexts)
open JsonText
open Pattern (matchesWhole)

structure ArtifactScope where
  organizationId : JsString
  workspaceId : JsString
  ownerId : JsString
  sessionId : JsString

structure DeliveryScope extends ArtifactScope where
  runId : JsString

structure ArtifactIdentity where
  objectId : JsString
  versionId : JsString
  checksum : JsString

inductive ArtifactState where
  | ready
  | pending
  | failed
  deriving DecidableEq

structure DeliveryArtifact extends ArtifactIdentity where
  scope : ArtifactScope
  originRunId : Option JsString
  fileName : JsString
  state : ArtifactState
  immutable : Bool
  deletedAt : Option JsString
  retentionUntil : Option JsString

inductive CheckStatus where
  | passed
  | failed
  | unavailable
  | notChecked
  deriving DecidableEq

structure DeliveryCheck extends ArtifactIdentity where
  scope : ArtifactScope
  originRunId : Option JsString
  checkId : JsString
  status : CheckStatus

/-- The sources that a requirement may name, and any other text. -/
inductive RequirementSource where
  | currentRun
  | explicitReference
  | other (text : JsString)
  deriving DecidableEq

structure DeliveryRequirement where
  id : JsString
  expected : Option ArtifactIdentity
  source : RequirementSource
  requireLink : Bool
  requiredChecks : List JsString
  whenLinked : Option Bool

structure OrdinaryFileCitation where
  objectId : JsString
  retentionUntil : Option JsString

structure DeliverySnapshot where
  scope : DeliveryScope
  complete : Bool
  authorization : JsString
  now : JsString
  ownedRunIds : List JsString
  explicitReferenceVersionIds : List JsString
  artifacts : List DeliveryArtifact
  checks : List DeliveryCheck
  requirements : List DeliveryRequirement
  qualityReceipts : List JsValue
  ordinaryFileCitations : List OrdinaryFileCitation

/-- A node of a Markdown tree. -/
inductive MarkdownNode where
  | node (type : JsString) (url identifier value : Option JsString)
      (children : List MarkdownNode) (offset : Option Nat)

structure Url where
  origin : JsString
  protocol : JsString
  username : JsString
  password : JsString
  pathname : JsString
  search : JsString
  hash : JsString
  /-- `searchParams.keys()`. -/
  searchNames : List JsString

structure HtmlFragment where
  complete : Bool
  links : List JsString

/-- The parsers that are bound to the check, and what JavaScript brings. -/
structure DeliveryHost where
  markdown : JsString → Option MarkdownNode
  html : JsString → Option HtmlFragment
  /-- `new URL(input, base)`. -/
  parseUrl : JsString → Option JsString → Option Url
  /-- `Date.parse`, where it gives a number. -/
  parseDate : JsString → Option Int
  /-- `toLowerCase()` of a text that is not ASCII. -/
  lowerCase : JsString → JsString
  localeCompare : JsString → JsString → Int
  hash : JsString → JsString

inductive DeliveryIssueCode where
  | invalidDeliveryLink
  | missingDeliveryLink
  | missingRequestedArtifact
  | requiredCheckIncomplete
  | emptyResponse
  | deliveryEvidenceIncomplete
  | responseUnverifiable
  deriving DecidableEq

structure DeliveryIssue where
  code : DeliveryIssueCode
  reason : String
  requirementId : Option JsString := none
  offset : Option Nat := none
  destinationDigest : Option JsString := none

inductive DeliveryStatus where
  | valid
  | invalidResponse
  | evidenceUnavailable
  deriving DecidableEq

structure DeliveryDecision where
  status : DeliveryStatus
  candidateDigest : JsString
  factSetDigest : JsString
  issues : List DeliveryIssue
  linked : List ArtifactIdentity
  textRepairEligible : Bool

structure DeliveryInput where
  candidate : JsString
  expectedScope : DeliveryScope
  snapshot : DeliverySnapshot
  managedOrigins : List JsString

def isHex (unit : UInt16) : Bool :=
  Pattern.isDigit unit || Pattern.among "abcdefABCDEF" unit

def hexRun (count : Nat) : Pattern :=
  Pattern.sequence (List.replicate count (.one isHex))

/-- `UUID`. -/
def uuidPattern : Pattern :=
  Pattern.sequence [hexRun 8, Pattern.literal "-", hexRun 4,
    Pattern.literal "-", hexRun 4, Pattern.literal "-", hexRun 4,
    Pattern.literal "-", hexRun 12]

def isUuid (text : JsString) : Bool := matchesWhole uuidPattern text

/-- `CHECKSUM`. -/
def checksumPattern : Pattern :=
  .both (.either (Pattern.literalIgnoringCase "sha256:") .empty) (hexRun 64)

/-- The digits of a checksum. -/
def checksumDigits (text : JsString) : Option JsString :=
  if matchesWhole checksumPattern text then some (text.drop (text.length - 64))
  else none

def maxTextBytes : Nat := 256000
def maxArtifacts : Nat := 1000
def maxChecks : Nat := 10000
def maxRequirements : Nat := 1000
def maxNodes : Nat := 20000
def maxLinks : Nat := 1000
def maxIssues : Nat := 100

def textFact (text : JsString) : JsValue := .string text

def nullableFact (text : Option JsString) : JsValue :=
  (text.map JsValue.string).getD .null

def record (members : List (String × JsValue)) : JsValue :=
  .object .object
    (members.map fun (key, value) => (JsString.ofString key, value))

def ArtifactScope.fact (scope : ArtifactScope) : JsValue :=
  record [("organizationId", textFact scope.organizationId),
    ("workspaceId", textFact scope.workspaceId),
    ("ownerId", textFact scope.ownerId),
    ("sessionId", textFact scope.sessionId)]

def DeliveryScope.fact (scope : DeliveryScope) : JsValue :=
  record [("organizationId", textFact scope.organizationId),
    ("workspaceId", textFact scope.workspaceId),
    ("ownerId", textFact scope.ownerId),
    ("sessionId", textFact scope.sessionId),
    ("runId", textFact scope.runId)]

def ArtifactState.text : ArtifactState → JsString
  | .ready => JsString.ofString "ready"
  | .pending => JsString.ofString "pending"
  | .failed => JsString.ofString "failed"

def CheckStatus.text : CheckStatus → JsString
  | .passed => JsString.ofString "passed"
  | .failed => JsString.ofString "failed"
  | .unavailable => JsString.ofString "unavailable"
  | .notChecked => JsString.ofString "not_checked"

def RequirementSource.text : RequirementSource → JsString
  | .currentRun => JsString.ofString "current_run"
  | .explicitReference => JsString.ofString "explicit_reference"
  | .other text => text

def DeliveryArtifact.fact (artifact : DeliveryArtifact) : JsValue :=
  record [("objectId", textFact artifact.objectId),
    ("versionId", textFact artifact.versionId),
    ("checksum", textFact artifact.checksum),
    ("scope", artifact.scope.fact),
    ("originRunId", nullableFact artifact.originRunId),
    ("fileName", textFact artifact.fileName),
    ("state", textFact artifact.state.text),
    ("immutable", .boolean artifact.immutable),
    ("deletedAt", nullableFact artifact.deletedAt),
    ("retentionUntil", nullableFact artifact.retentionUntil)]

def DeliveryCheck.fact (check : DeliveryCheck) : JsValue :=
  record [("objectId", textFact check.objectId),
    ("versionId", textFact check.versionId),
    ("checksum", textFact check.checksum),
    ("scope", check.scope.fact),
    ("originRunId", nullableFact check.originRunId),
    ("checkId", textFact check.checkId),
    ("status", textFact check.status.text)]

def ArtifactIdentity.fact (identity : ArtifactIdentity) : JsValue :=
  record [("objectId", textFact identity.objectId),
    ("versionId", textFact identity.versionId),
    ("checksum", textFact identity.checksum)]

def DeliveryRequirement.fact (required : DeliveryRequirement) : JsValue :=
  record ([("id", textFact required.id),
    ("expected", (required.expected.map ArtifactIdentity.fact).getD .null),
    ("source", textFact required.source.text),
    ("requireLink", JsValue.boolean required.requireLink),
    ("requiredChecks",
      JsValue.array (required.requiredChecks.map fun id => some (.string id)))]
    ++ (required.whenLinked.map fun value =>
      ("whenLinked", JsValue.boolean value)).toList)

def OrdinaryFileCitation.fact (citation : OrdinaryFileCitation) : JsValue :=
  record [("objectId", textFact citation.objectId),
    ("retentionUntil", nullableFact citation.retentionUntil)]

/-- The snapshot as the facts that are serialized. -/
def DeliverySnapshot.facts (snapshot : DeliverySnapshot) : FactRecord where
  scope := snapshot.scope.fact
  complete := .boolean snapshot.complete
  authorization := textFact snapshot.authorization
  now := textFact snapshot.now
  ownedRunIds := snapshot.ownedRunIds.map fun id => some (textFact id)
  explicitReferenceVersionIds :=
    snapshot.explicitReferenceVersionIds.map fun id => some (textFact id)
  artifacts := snapshot.artifacts.map fun artifact => some artifact.fact
  checks := snapshot.checks.map fun check => some check.fact
  requirements := snapshot.requirements.map fun required => some required.fact
  qualityReceipts := some (snapshot.qualityReceipts.map some)
  ordinaryFileCitations :=
    some (snapshot.ordinaryFileCitations.map fun citation => some citation.fact)

/-- `serializeFinalDeliveryFacts(snapshot)`, where it does not throw. -/
def DeliverySnapshot.factsText (snapshot : DeliverySnapshot) :
    Option JsString :=
  (serializeFinalDeliveryFacts snapshot.facts).toOption

mutual

/-- Snapshot arrays are sets of facts; pagination order is not identity. -/
def stable : JsValue → JsString
  | .null => nullText
  | .string text => quote text
  | .boolean value => booleanText value
  | .number value => if value.isFinite then NumberText.toText value else nullText
  | .array elements =>
    bracketed (sortTexts (stableElements elements) ++
      (elements.filter Option.isNone).map fun _ => [])
  | .object _ members => braced (stableMembers members)
  | .undefined => nullText
  | .other => nullText

/-- `sort` puts the holes last. -/
def stableElements : List (Option JsValue) → List JsString
  | [] => []
  | none :: rest => stableElements rest
  | some value :: rest => stable value :: stableElements rest

def stableMembers : List (JsString × JsValue) → List (JsString × JsString)
  | [] => []
  | (key, value) :: rest => (key, stable value) :: stableMembers rest

end

section Host

variable (host : DeliveryHost)

/-- `text.toLowerCase()`. -/
def toLowerCase (text : JsString) : JsString :=
  if text.all (fun unit => unit.toNat < 0x80) then text.map Pattern.fold
  else host.lowerCase text

def normalizedIdentity (value : ArtifactIdentity) : Option ArtifactIdentity :=
  match checksumDigits value.checksum with
  | none => none
  | some digits =>
    if isUuid value.objectId && isUuid value.versionId then
      some {
        objectId := toLowerCase host value.objectId
        versionId := toLowerCase host value.versionId
        checksum := JsString.ofString "sha256:" ++ toLowerCase host digits }
    else none

def key (identity : ArtifactIdentity) : JsString :=
  identity.objectId ++ [0x2F] ++ identity.versionId ++ [0x2F] ++
    identity.checksum

def sameScope (a b : ArtifactScope) : Bool :=
  [(a.organizationId, b.organizationId), (a.workspaceId, b.workspaceId),
    (a.ownerId, b.ownerId), (a.sessionId, b.sessionId)].all
    fun (left, right) => toLowerCase host left = toLowerCase host right

def validScope (scope : DeliveryScope) : Bool :=
  [scope.organizationId, scope.workspaceId, scope.ownerId, scope.sessionId,
    scope.runId].all isUuid

def validUntil (until_ : Option JsString) (now : Int) : Bool :=
  match until_ with
  | none => true
  | some date => (host.parseDate date).any fun time => now < time

end Host

end FinalDelivery

end Allrice
