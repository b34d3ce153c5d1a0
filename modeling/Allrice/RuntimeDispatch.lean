/-
What the server dispatches to a Bridge and what the Bridge reports back: the
payload of an operation, its receipts, its output chunks and the per-file
results of a changeset.  A value of these types stands for one that its schema
has parsed; the cross-field conditions of the schemas are the `Valid`
predicates.
-/
import Allrice.RuntimeOperation
import Mathlib

namespace Allrice

/-- The capabilities of ordinary Bridge commands. -/
inductive BridgeCapability where
  | fsList
  | fsSearch
  | fsRead
  | fsWrite
  | fsMkdir
  | gitStatus
  | gitDiff
  | fileInspect
  | fileImport
  | fileSave
  | fileOpen
  | fileReveal
  | fileSelect
  | fileDerive
deriving DecidableEq

def BridgeCapability.name : BridgeCapability → String
  | .fsList => "local.fs.list"
  | .fsSearch => "local.fs.search"
  | .fsRead => "local.fs.read"
  | .fsWrite => "local.fs.write"
  | .fsMkdir => "local.fs.mkdir"
  | .gitStatus => "local.git.status"
  | .gitDiff => "local.git.diff"
  | .fileInspect => "local.file.inspect"
  | .fileImport => "local.file.import"
  | .fileSave => "local.file.save"
  | .fileOpen => "local.file.open"
  | .fileReveal => "local.file.reveal"
  | .fileSelect => "local.file.select"
  | .fileDerive => "local.file.derive"

/-- `capability.startsWith('local.file.')`. -/
def BridgeCapability.isLocalFile : BridgeCapability → Bool
  | .fileInspect | .fileImport | .fileSave | .fileOpen | .fileReveal
  | .fileSelect | .fileDerive => true
  | _ => false

/-- One side of a text change. -/
structure ChangesetText where
  text : JsString
  checksum : Checksum
deriving DecidableEq

inductive FileOrganizationOperation where
  | copy
  | move
  | rename
deriving DecidableEq

structure NativeFileVersion where
  checksum : Checksum
  sizeBytes : Nat
  version : Checksum
deriving DecidableEq

structure FileOrganizationItem where
  path : String
  operation : FileOrganizationOperation
  target : String
  source : NativeFileVersion
deriving DecidableEq

/-- One file of a changeset; text changes carry no `organization`. -/
structure ChangesetFile where
  path : String
  before : Option ChangesetText
  after : Option ChangesetText
  organization : Option FileOrganizationItem
deriving DecidableEq

structure ChangesetFileChecksums where
  beforeChecksum : Option Checksum
  afterChecksum : Option Checksum

def changesetFileChecksums (file : ChangesetFile) : ChangesetFileChecksums :=
  match file.organization with
  | some item => ⟨some item.source.checksum, some item.source.checksum⟩
  | none => ⟨file.before.map (·.checksum), file.after.map (·.checksum)⟩

inductive ChangesetDirection where
  | apply
  | restore
deriving DecidableEq

structure ChangesetArguments where
  artifactId : Uuid
  checksum : Checksum
  direction : ChangesetDirection
  /-- `comparisonScope === 'file_organization'`. -/
  fileOrganization : Bool
  files : List ChangesetFile
deriving DecidableEq

/-- The files are nonempty and bounded in number, their paths are distinct
and none lies below another, every text change names at least one side, and
binary operations occur exactly in file organizations. -/
def ChangesetArguments.Valid (arguments : ChangesetArguments) : Prop :=
  0 < arguments.files.length ∧ arguments.files.length ≤ 32 ∧
    (arguments.files.map (·.path)).Nodup ∧
    (∀ p ∈ arguments.files.map (·.path), ∀ q ∈ arguments.files.map (·.path),
      ¬(q ++ "/").toList.isPrefixOf p.toList) ∧
    (∀ file ∈ arguments.files,
      file.before.isSome ∨ file.after.isSome ∨ file.organization.isSome) ∧
    (∀ file ∈ arguments.files,
      file.organization.isSome = arguments.fileOrganization)

instance ChangesetArguments.decidableValid (arguments : ChangesetArguments) :
    Decidable arguments.Valid :=
  inferInstanceAs (Decidable (_ ∧ _ ∧ _ ∧ _ ∧ _ ∧ _))

inductive ChangesetFileStatus where
  | pending
  | prepared
  | applied
  | conflict
  | canceled
  | failed
  | unknown
deriving DecidableEq

structure OrganizationRecovery where
  path : String
  checksum : Option Checksum
deriving DecidableEq

structure OrganizationResult where
  target : String
  operation : FileOrganizationOperation
  stage : String
  sourceRemoved : Bool
  file : Option NativeFileVersion
  recovery : Option OrganizationRecovery
deriving DecidableEq

structure ChangesetFileResult where
  path : String
  status : ChangesetFileStatus
  beforeChecksum : Option Checksum
  afterChecksum : Option Checksum
  errorCode : Option String
  organization : Option OrganizationResult
deriving DecidableEq

def ChangesetFileResult.Valid (result : ChangesetFileResult) : Prop :=
  0 < JsString.lengthOf result.path ∧ JsString.lengthOf result.path ≤ 1024 ∧
    ∀ code ∈ result.errorCode, JsString.lengthOf code ≤ 120

instance ChangesetFileResult.decidableValid (result : ChangesetFileResult) :
    Decidable result.Valid :=
  inferInstanceAs (Decidable (_ ∧ _ ∧ _))

/-- Receipt bytes and paths must match the exact reviewed operation. -/
def changesetFileAppliedMatches (file : ChangesetFile)
    (result : ChangesetFileResult) : Bool :=
  let sums := changesetFileChecksums file
  result.status = .applied && result.path = file.path &&
    result.beforeChecksum = sums.beforeChecksum &&
    result.afterChecksum = sums.afterChecksum &&
    match file.organization, result.organization with
    | none, organization => organization = none
    | some _, none => false
    | some item, some detail =>
      detail.operation = item.operation && detail.target = item.target &&
        detail.stage = "complete" &&
        detail.sourceRemoved = (item.operation != .copy) &&
        detail.file.map (·.checksum) = some item.source.checksum &&
        detail.file.map (·.sizeBytes) = some item.source.sizeBytes &&
        detail.recovery.map (·.path) = some item.target &&
        detail.recovery.bind (·.checksum) = some item.source.checksum

/-- The report of a changeset before anything was done to its files. -/
def initialChangesetResult (file : ChangesetFile) : ChangesetFileResult :=
  let sums := changesetFileChecksums file
  { path := file.path
    status := .pending
    beforeChecksum := sums.beforeChecksum
    afterChecksum := sums.afterChecksum
    errorCode := none
    organization := file.organization.map fun item =>
      { target := item.target
        operation := item.operation
        stage := "pending"
        sourceRemoved := false
        file := none
        recovery := none } }

def initialChangesetResults (arguments : ChangesetArguments) :
    List ChangesetFileResult :=
  arguments.files.map initialChangesetResult

/-- The network setting of a sandboxed execution. -/
inductive SandboxNetwork where
  | none
  | controlledHttps (origins : List String)
deriving DecidableEq

structure LocalCommandArguments where
  /-- `arguments.background` is present. -/
  background : Bool
  /-- `arguments.projectPreparation` is present. -/
  projectPreparation : Bool
  /-- `arguments.candidate` is present. -/
  candidate : Bool
  imageDigest : Checksum
  network : SandboxNetwork
deriving DecidableEq

inductive ManagedPythonPurpose where
  | office
  | pythonCharts
deriving DecidableEq

inductive Architecture where
  | amd64
  | arm64
deriving DecidableEq

inductive LocalPythonFormat where
  | docx
  | xlsx
  | pptx
  | png
  | txt
  | md
  | json
  | csv
deriving DecidableEq

structure LocalPythonOutput where
  path : String
  fileName : String
  format : LocalPythonFormat
  mediaType : String
  objectId : Uuid
deriving DecidableEq

structure LocalPythonArguments where
  purpose : ManagedPythonPurpose
  profileVersion : Nat
  imageId : Checksum
  architecture : Architecture
  network : SandboxNetwork
  artifactBytes : Nat
  outputs : List LocalPythonOutput
deriving DecidableEq

structure LocalPdfOrigin where
  callId : String
  argumentsDigest : Checksum
deriving DecidableEq

structure LocalPdfSource where
  objectId : Uuid
  checksum : Checksum
  sizeBytes : Nat
  mediaType : String
  artifactVersionId : Option Uuid
  artifactVersion : Option Nat
deriving DecidableEq

structure LocalPdfPins where
  resourceManifestChecksum : Checksum
  policyChecksum : Checksum
deriving DecidableEq

structure LocalPdfArguments where
  origin : LocalPdfOrigin
  source : LocalPdfSource
  pins : LocalPdfPins
  profileVersion : Nat
  pages : Option (List Nat)
deriving DecidableEq

/-- The body of an operation.  The arguments of commands that the journal and
the ledger never read are kept as an identity. -/
inductive RuntimeBridgePayload where
  | command (capability : BridgeCapability) (arguments : Nat)
  | process (arguments : LocalCommandArguments)
  | changeset (arguments : ChangesetArguments)
  | mcpDiscover (arguments : Nat)
  | mcpCall (arguments : Nat)
  | python (arguments : LocalPythonArguments)
  | pdf (arguments : LocalPdfArguments)
deriving DecidableEq

def RuntimeBridgePayload.capability : RuntimeBridgePayload → String
  | .command capability _ => capability.name
  | .process _ => "local.process.execute"
  | .changeset _ => "local.fs.changeset"
  | .mcpDiscover _ => "local.mcp.discover"
  | .mcpCall _ => "local.mcp.call"
  | .python _ => "local.python.execute"
  | .pdf _ => "local.pdf.read"

def RuntimeBridgePayload.Valid : RuntimeBridgePayload → Prop
  | .changeset arguments => arguments.Valid
  | .process arguments =>
    ¬(arguments.network ≠ .none ∧ arguments.background = true)
  | _ => True

instance RuntimeBridgePayload.decidableValid :
    (payload : RuntimeBridgePayload) → Decidable payload.Valid
  | .changeset arguments => inferInstanceAs (Decidable arguments.Valid)
  | .process _ => inferInstanceAs (Decidable (¬_))
  | .command _ _ | .mcpDiscover _ | .mcpCall _ | .python _ | .pdf _ =>
    inferInstanceAs (Decidable True)

/-- A payload that starts a background service. -/
def RuntimeBridgePayload.isService : RuntimeBridgePayload → Bool
  | .process arguments => arguments.background
  | _ => false

structure RuntimeBridgeDispatch where
  snapshot : RuntimeOperationSnapshot
  payload : RuntimeBridgePayload
  leaseToken : Uuid
  leaseExpiresAt : Timestamp
  grantRootFingerprint : Checksum
deriving DecidableEq

def RuntimeBridgeDispatch.operationId (dispatch : RuntimeBridgeDispatch) :
    Uuid :=
  dispatch.snapshot.binding.attempt.operationId

/-- A dispatch is for a device, names the action of its payload and carries a
snapshot that has just been dispatched. -/
structure RuntimeBridgeDispatch.Valid (dispatch : RuntimeBridgeDispatch) :
    Prop where
  snapshot : dispatch.snapshot.Valid
  payload : dispatch.payload.Valid
  kind : dispatch.snapshot.binding.execution.targetKind = .riceBridge
  device : dispatch.snapshot.binding.execution.deviceId ≠ none
  scope : dispatch.snapshot.binding.execution.scopeDigest =
    dispatch.grantRootFingerprint
  action : dispatch.snapshot.binding.action = dispatch.payload.capability
  status : dispatch.snapshot.status = .dispatched
  process : dispatch.snapshot.processId = none
  intent : dispatch.snapshot.cancelRequestId = none

inductive LocalCommandReason where
  | exited
  | canceled
  | timeout
  | outputLimit
  | cacheLimit
  | memoryLimit
  | leaseLost
  | supervisorFailed
  | readinessTimeout
  | portConflict
  | inputExpired
  | inputProtocolError
deriving DecidableEq

structure LocalCommandResult where
  containerId : Nat
  imageDigest : Checksum
  exitCode : Nat
  reason : LocalCommandReason
  stdout : JsString
  stderr : JsString
  truncated : Bool
deriving DecidableEq

inductive LocalPythonReason where
  | exited
  | canceled
  | timeout
  | outputLimit
  | artifactLimit
  | memoryLimit
  | leaseLost
  | supervisorFailed
  | validationFailed
  | inputChanged
deriving DecidableEq

inductive LocalPythonValidation where
  | dshOffice
  | trustedPng
  | utf8
deriving DecidableEq

structure LocalPythonArtifact where
  output : LocalPythonOutput
  sizeBytes : Nat
  checksum : Checksum
  validation : LocalPythonValidation
deriving DecidableEq

structure LocalPythonResult where
  purpose : ManagedPythonPurpose
  profileVersion : Nat
  imageId : Checksum
  architecture : Architecture
  containerId : Nat
  exitCode : Nat
  reason : LocalPythonReason
  artifacts : List LocalPythonArtifact
deriving DecidableEq

/-- The checker that a purpose and a format require. -/
def requiredValidation (purpose : ManagedPythonPurpose)
    (format : LocalPythonFormat) : LocalPythonValidation :=
  match purpose, format with
  | .office, _ => .dshOffice
  | .pythonCharts, .png => .trustedPng
  | .pythonCharts, _ => .utf8

def localPythonResultMatchesPayload (a : LocalPythonArguments)
    (result : LocalPythonResult) : Bool :=
  if result.purpose ≠ a.purpose ∨ result.profileVersion ≠ a.profileVersion ∨
      result.imageId ≠ a.imageId ∨ result.architecture ≠ a.architecture ∨
      a.artifactBytes < (result.artifacts.map (·.sizeBytes)).sum ∨
      ¬(result.artifacts.map (·.output.objectId)).Nodup then
    false
  else
    result.artifacts.all (fun file =>
      file.validation = requiredValidation a.purpose file.output.format &&
        a.outputs.any (· = file.output)) &&
      (result.exitCode != 0 || result.reason != .exited ||
        result.artifacts.length = a.outputs.length)

inductive LocalPdfReason where
  | completed
  | parseFailed
  | canceled
  | timeout
  | memoryLimit
  | outputLimit
  | inputInvalid
  | processUnknown
deriving DecidableEq

structure PdfReadDocument where
  totalPages : Nat
  requestedPages : List Nat
deriving DecidableEq

structure LocalPdfProcess where
  stopped : Bool
  exitCode : Option Int
  reason : LocalPdfReason
deriving DecidableEq

structure LocalPdfResult where
  origin : LocalPdfOrigin
  source : LocalPdfSource
  pins : LocalPdfPins
  profileVersion : Nat
  document : Option PdfReadDocument
  /-- `error !== null`. -/
  hasError : Bool
  process : LocalPdfProcess
deriving DecidableEq

/-- Content requires a physically stopped successful parser, and missing
content an explicit failure. -/
def LocalPdfResult.Valid (result : LocalPdfResult) : Prop :=
  (result.document.isSome →
    result.hasError = false ∧ result.process.stopped = true ∧
      result.process.exitCode = some 0 ∧
      result.process.reason = .completed) ∧
    (result.document = none → result.hasError = true)

instance LocalPdfResult.decidableValid (result : LocalPdfResult) :
    Decidable result.Valid :=
  inferInstanceAs (Decidable (_ ∧ _))

/-- `[...new Set(pages)].sort((a, b) => a - b)`, or the first ten pages. -/
def expectedPages (pages : Option (List Nat)) (totalPages : Nat) : List Nat :=
  match pages with
  | some pages => pages.dedup.mergeSort
  | none => (List.range (min 10 totalPages)).map (· + 1)

/-- The result carries the original call and exact source. -/
def pdfResultMatchesPayload (a : LocalPdfArguments) (result : LocalPdfResult) :
    Bool :=
  if result.origin ≠ a.origin ∨ result.source ≠ a.source ∨
      result.pins ≠ a.pins ∨ result.profileVersion ≠ a.profileVersion then
    false
  else
    match result.document with
    | none => true
    | some document =>
      document.requestedPages = expectedPages a.pages document.totalPages

inductive LocalFileStatus where
  | inspected
  | uploaded
  | saved
  | opened
  | revealed
deriving DecidableEq

/-- The result of a `local.file.*` command; what is compared with the payload
field by field is kept as an identity. -/
structure LocalFileResult where
  status : LocalFileStatus
  content : Nat
  object : Option Uuid
deriving DecidableEq

structure FileDerivationResult where
  /-- `status === 'listed'`. -/
  listed : Bool
  content : Nat
  object : Option Uuid
deriving DecidableEq

/-- What a receipt's evidence may carry beside its summary. -/
inductive EvidenceOutput where
  | command (result : LocalCommandResult)
  | python (result : LocalPythonResult)
  | pdf (result : LocalPdfResult)
  | changeset (files : List ChangesetFileResult)
  | file (result : LocalFileResult)
  | derivation (result : FileDerivationResult)
  | reason (text : String)
  | errorCode (code : String)
  | notExecuted
  | other (value : Nat)
deriving DecidableEq

structure ReceiptEvidence where
  summary : JsString
  output : Option EvidenceOutput
  errorCode : Option String
deriving DecidableEq

def ReceiptEvidence.Valid (evidence : ReceiptEvidence) : Prop :=
  0 < evidence.summary.length ∧ evidence.summary.length ≤ 500 ∧
    ∀ code ∈ evidence.errorCode,
      0 < JsString.lengthOf code ∧ JsString.lengthOf code ≤ 120

instance ReceiptEvidence.decidableValid (evidence : ReceiptEvidence) :
    Decidable evidence.Valid :=
  inferInstanceAs (Decidable (_ ∧ _ ∧ _))

structure RuntimeBridgeReceipt where
  receiptId : Uuid
  attempt : RuntimeAttemptRef
  leaseToken : Uuid
  signal : RuntimeOperationSignal
  evidence : Option ReceiptEvidence
deriving DecidableEq

/-- A device reports starts and terminal facts, never scheduling. -/
def isDeviceSignal : RuntimeOperationSignal → Bool
  | .started _ | .uncertain _ | .outcome _ | .stopped _ _ => true
  | _ => false

/-- An outcome or a stop: the facts that end an operation. -/
def isFinalSignal : RuntimeOperationSignal → Bool
  | .outcome _ | .stopped _ _ => true
  | _ => false

def isUncertainSignal : RuntimeOperationSignal → Bool
  | .uncertain _ => true
  | _ => false

def RuntimeBridgeReceipt.Valid (receipt : RuntimeBridgeReceipt) : Prop :=
  receipt.attempt.Valid ∧ receipt.signal.Valid ∧
    (∀ evidence ∈ receipt.evidence, evidence.Valid) ∧
    isDeviceSignal receipt.signal = true ∧
    (isFinalSignal receipt.signal = true → receipt.evidence.isSome)

instance RuntimeBridgeReceipt.decidableValid (receipt : RuntimeBridgeReceipt) :
    Decidable receipt.Valid :=
  inferInstanceAs (Decidable (_ ∧ _ ∧ _ ∧ _ ∧ _))

inductive OutputStream where
  | stdout
  | stderr
deriving DecidableEq

structure RuntimeBridgeOutput where
  attempt : RuntimeAttemptRef
  leaseToken : Uuid
  sequence : Nat
  stream : OutputStream
  content : JsString
deriving DecidableEq

def RuntimeBridgeOutput.Valid (output : RuntimeBridgeOutput) : Prop :=
  output.attempt.Valid ∧ output.sequence ≤ 255 ∧
    output.content.length ≤ 65536

instance RuntimeBridgeOutput.decidableValid (output : RuntimeBridgeOutput) :
    Decidable output.Valid :=
  inferInstanceAs (Decidable (_ ∧ _ ∧ _))

/-- `coalesce(max(sequence)+1,0)`. -/
def nextSequence (sequences : List Nat) : Nat :=
  sequences.foldl (fun next sequence => max next (sequence + 1)) 0

end Allrice
