/-
Rules that fire when files of a granted folder change: which paths a rule
watches, the scope it stands for, and the one event that a version of a file
gives in a scope.
-/
import Allrice.FileOrganization
import Allrice.JsValue

namespace Allrice

structure FolderTriggerRule where
  automationId : Uuid
  revision : Int
  deviceId : Uuid
  folderGrantId : Uuid
  folderGrantVersion : Int
  relativePath : JsString
  extensions : List JsString
  ignorePaths : List JsString
  admissionExpiresAt : JsString
deriving DecidableEq

structure FolderTriggerRootIdentity where
  path : JsString
  dev : Int
  ino : Int
  directoryDev : Int
  directoryIno : Int
deriving DecidableEq

/-- `LocalFileVersionSchema`. -/
structure LocalFileVersion where
  checksum : Checksum
  sizeBytes : Int
  version : Checksum
  mediaType : JsString
deriving DecidableEq

structure FolderTriggerFile where
  path : JsString
  expected : LocalFileVersion
deriving DecidableEq

structure FolderTriggerScan where
  files : List FolderTriggerFile
  complete : Bool
  truncated : Bool
deriving DecidableEq

structure FolderTriggerEvent where
  eventId : Uuid
  ruleId : Uuid
  revision : Int
  grantId : Uuid
  grantVersion : Int
  path : JsString
  expected : LocalFileVersion
  observedAt : JsString
deriving DecidableEq

def folderTriggerMaximumFiles : Nat := 2000

def folderTriggerMaximumSnapshotBytes : Nat := 1000000

/-- The device, its dates, its Unicode operations, digests and encoded sizes,
and the order of texts in its database. -/
structure FolderTriggerHost where
  deviceId : Uuid
  parseDate : JsString → Option Int
  lowerCase : JsString → JsString
  normalizeNfc : JsString → JsString
  digestKey : Uuid → Int → Uuid → Uuid → Int → Checksum
  digestRule : Checksum → JsString → List JsString → List JsString → Checksum
  digestEvent : Checksum → JsString → LocalFileVersion → Uuid
  digestFile : JsString → LocalFileVersion → Checksum
  snapshotBytes : List FolderTriggerFile → Nat
  eventBytes : FolderTriggerEvent → Nat
  pathLe : JsString → JsString → Bool

section Host

variable (host : FolderTriggerHost)

def maximumSafeInteger : Int := 2 ^ 53 - 1

def isSafePositive (value : Int) : Bool :=
  0 < value && value ≤ maximumSafeInteger

def isSafe (value : Int) : Bool :=
  -maximumSafeInteger ≤ value && value ≤ maximumSafeInteger

/-- `/^[a-z0-9]{1,16}$/`. -/
def isFileExtension (text : JsString) : Bool :=
  0 < text.length && text.length ≤ 16 && text.all fun unit =>
    (0x61 ≤ unit.toNat && unit.toNat ≤ 0x7A) ||
      (0x30 ≤ unit.toNat && unit.toNat ≤ 0x39)

/-- `FolderTriggerRuleSchema`. -/
def FolderTriggerRule.isValid (rule : FolderTriggerRule) : Bool :=
  isSafePositive rule.revision && isSafePositive rule.folderGrantVersion &&
    (rule.relativePath == JsString.ofString "." ||
      localFilePath rule.relativePath) &&
    0 < rule.extensions.length && rule.extensions.length ≤ 16 &&
    rule.extensions.all isFileExtension && rule.ignorePaths.length ≤ 32 &&
    rule.ignorePaths.all localFilePath &&
    (host.parseDate rule.admissionExpiresAt).isSome

/-- `FolderTriggerRootIdentitySchema`. -/
def FolderTriggerRootIdentity.isValid (root : FolderTriggerRootIdentity) :
    Bool :=
  0 < root.path.length && root.path.length ≤ 4096 && isSafe root.dev &&
    isSafe root.ino && isSafe root.directoryDev && isSafe root.directoryIno

/-- `FolderTriggerFileSchema`. -/
def FolderTriggerFile.isValid (file : FolderTriggerFile) : Bool :=
  localFilePath file.path && 0 ≤ file.expected.sizeBytes &&
    file.expected.sizeBytes ≤ 9000000 &&
    0 < file.expected.mediaType.length &&
    file.expected.mediaType.length ≤ 255

/-- `FolderTriggerScanSchema`. -/
def FolderTriggerScan.isValid (scan : FolderTriggerScan) : Bool :=
  scan.files.length ≤ folderTriggerMaximumFiles &&
    scan.files.all FolderTriggerFile.isValid

def folderTriggerRuleKey (rule : FolderTriggerRule) : Checksum :=
  host.digestKey rule.automationId rule.revision rule.deviceId
    rule.folderGrantId rule.folderGrantVersion

/-- `[...new Set(texts)].sort()`. -/
def sortedSet (texts : List JsString) : List JsString :=
  texts.dedup.insertionSort fun left right =>
    JsValue.codeUnitsLe left right = true

def normalizeFolderTriggerRule (rule : FolderTriggerRule) :
    FolderTriggerRule :=
  { rule with
    extensions := sortedSet rule.extensions
    ignorePaths := sortedSet rule.ignorePaths }

def folderTriggerRuleFingerprint (rule : FolderTriggerRule) : Checksum :=
  let normal := normalizeFolderTriggerRule rule
  host.digestRule (folderTriggerRuleKey host normal) normal.relativePath
    normal.extensions normal.ignorePaths

def folderTriggerEventId (rule : FolderTriggerRule)
    (file : FolderTriggerFile) : Uuid :=
  host.digestEvent (folderTriggerRuleKey host rule) file.path file.expected

def blockedNames : List JsString :=
  [".git", ".ssh", ".aws", ".gnupg", ".codex", ".kube", ".azure", ".docker",
    ".config", ".cache", ".npm", ".yarn", ".pnpm-store", "cache", "caches",
    "node_modules", ".next", "dist", "build", "__pycache__", ".venv", "venv",
    ".secrets", "secrets", "secret", ".npmrc", ".netrc", "id_rsa",
    "id_ed25519", "credentials", "credentials.json", ".ds_store"].map
      JsString.ofString

/-- `/\.(part|tmp|swp|swo|crdownload|pem|key|p12)$/`. -/
def blockedSuffixes : List JsString :=
  [".part", ".tmp", ".swp", ".swo", ".crdownload", ".pem", ".key", ".p12"].map
    JsString.ofString

def isBlockedPart (part : JsString) : Bool :=
  blockedNames.contains part || part == JsString.ofString ".env" ||
    (JsString.ofString ".env.").isPrefixOf part ||
    (JsString.ofString ".allrice-").isPrefixOf part ||
    (JsString.ofString "~$").isPrefixOf part ||
    blockedSuffixes.any fun suffix => suffix.isSuffixOf part

def folderTriggerIgnores (rule : FolderTriggerRule) (path : JsString) :
    Bool :=
  let lower := host.lowerCase (host.normalizeNfc path)
  (splitPath lower).any isBlockedPart ||
    rule.ignorePaths.any fun ignored =>
      let value := host.lowerCase (host.normalizeNfc ignored)
      lower == value || (value ++ [0x2F]).isPrefixOf lower

/-- `posix.extname(path).slice(1)`. -/
def extensionOf (path : JsString) : JsString :=
  let base := (splitPath path).getLastD []
  let last := (base.splitOn 0x2E).getLastD []
  let stem := base.take (base.length - last.length - 1)
  if last.length = base.length || stem == [] || base == [0x2E, 0x2E] then []
  else last

def folderTriggerMatches (rule : FolderTriggerRule) (path : JsString) : Bool :=
  localFilePath path &&
    (rule.relativePath == JsString.ofString "." ||
      (rule.relativePath ++ [0x2F]).isPrefixOf path) &&
    !folderTriggerIgnores host rule path &&
    rule.extensions.contains (host.lowerCase (extensionOf path))

end Host

end Allrice
