/-
Identities and bindings shared by the server and the Bridge.  UUIDs and
checksums are compared for equality and never taken apart, so they are numbers
here; a value of these types stands for one that its schema has parsed.
-/
import Allrice.JsString

namespace Allrice

/-- `Number.MAX_SAFE_INTEGER`. -/
def maxSafeInteger : Nat := 9007199254740991

abbrev Uuid := Nat

/-- A `sha256:` checksum. -/
abbrev Checksum := Nat

/-- Milliseconds since the epoch. -/
abbrev Timestamp := Int

inductive ExecutionTargetKind where
  | cloudSandbox
  | riceBridge
  | cloudMcp
deriving DecidableEq

structure RuntimeScope where
  organizationId : Uuid
  workspaceId : Uuid
  projectId : Option Uuid
deriving DecidableEq

structure FrozenConfiguration where
  employeeVersionId : Option Uuid
  digest : Checksum
deriving DecidableEq

/-- References an existing Run and its frozen configuration. -/
structure RuntimeTaskRef where
  scope : RuntimeScope
  chatSessionId : Option Uuid
  runId : Uuid
  rootRunId : Uuid
  parentRunId : Option Uuid
  frozenConfiguration : FrozenConfiguration
deriving DecidableEq

/-- A root Run has no parent, every other Run has one, and never itself. -/
def RuntimeTaskRef.Valid (task : RuntimeTaskRef) : Prop :=
  (task.runId = task.rootRunId ↔ task.parentRunId = none) ∧
    task.parentRunId ≠ some task.runId

instance RuntimeTaskRef.decidableValid (task : RuntimeTaskRef) :
    Decidable task.Valid :=
  inferInstanceAs (Decidable (_ ∧ _))

/-- Public fencing numbers of one attempt. -/
structure RuntimeAttemptRef where
  operationId : Uuid
  attemptId : Uuid
  attemptNumber : Nat
  generation : Nat
  fence : Nat
deriving DecidableEq

def RuntimeAttemptRef.Valid (attempt : RuntimeAttemptRef) : Prop :=
  0 < attempt.attemptNumber ∧ 0 < attempt.fence

instance RuntimeAttemptRef.decidableValid (attempt : RuntimeAttemptRef) :
    Decidable attempt.Valid :=
  inferInstanceAs (Decidable (_ ∧ _))

inductive WorkCopyKind where
  | inPlace
  | gitWorktree
  | cloudCopy
  | localCopy
  | remoteService
deriving DecidableEq

structure WorkCopy where
  id : Uuid
  kind : WorkCopyKind
deriving DecidableEq

structure RuntimeExecutionScope where
  targetId : Uuid
  targetKind : ExecutionTargetKind
  deviceId : Option Uuid
  grantId : Uuid
  grantVersion : Nat
  scopeDigest : Checksum
  workCopy : WorkCopy
deriving DecidableEq

/-- Only Bridge scopes carry a device. -/
def RuntimeExecutionScope.Valid (scope : RuntimeExecutionScope) : Prop :=
  0 < scope.grantVersion ∧
    (scope.targetKind = .riceBridge ↔ scope.deviceId.isSome)

instance RuntimeExecutionScope.decidableValid (scope : RuntimeExecutionScope) :
    Decidable scope.Valid :=
  inferInstanceAs (Decidable (_ ∧ _))

inductive RequesterType where
  | user
  | service
deriving DecidableEq

structure RuntimeRequester where
  type : RequesterType
  id : Uuid
deriving DecidableEq

structure RuntimeCommandBinding where
  executableDigest : Checksum
  argumentsDigest : Checksum
  workingDirectoryDigest : Checksum
  effectiveEnvironmentDigest : Checksum
  networkPolicyDigest : Checksum
  toolchainDigest : Checksum
  budgetDigest : Checksum
deriving DecidableEq

/-- What one action attempt is bound to. -/
structure RuntimeActionBinding where
  task : RuntimeTaskRef
  attempt : RuntimeAttemptRef
  requestedBy : RuntimeRequester
  execution : RuntimeExecutionScope
  action : String
  inputDigest : Checksum
  command : Option RuntimeCommandBinding
deriving DecidableEq

def RuntimeActionBinding.Valid (binding : RuntimeActionBinding) : Prop :=
  binding.task.Valid ∧ binding.attempt.Valid ∧ binding.execution.Valid ∧
    0 < JsString.lengthOf binding.action ∧
    JsString.lengthOf binding.action ≤ 160

instance RuntimeActionBinding.decidableValid (binding : RuntimeActionBinding) :
    Decidable binding.Valid :=
  inferInstanceAs (Decidable (_ ∧ _ ∧ _ ∧ _ ∧ _))

structure RuntimeEvidenceRef where
  id : Uuid
  recordedAt : Timestamp
  digest : Checksum
deriving DecidableEq

end Allrice
