/-
The last look of a worker at its native processes, before it says that they have
ended.  Three views of them are put together: what the worker still holds, what
it has seen of their closing, and what the database has recorded.
-/
import Allrice.JsValue
import Allrice.RuntimeIdentity

namespace InsertionSet

variable {α : Type} [DecidableEq α] {s : List α} {a b : α}

def insert (s : List α) (a : α) : List α :=
  if a ∈ s then s else s ++ [a]

def erase (s : List α) (a : α) : List α := s.filter (· ≠ a)

def ofList (items : List α) : List α := items.foldl insert []

@[simp] theorem mem_insert : b ∈ insert s a ↔ b ∈ s ∨ b = a := by
  rw [insert]
  split
  · rename_i hmem
    refine (or_iff_left_of_imp fun hb => ?_).symm
    rw [hb]
    exact hmem
  · rw [List.mem_append, List.mem_singleton]

@[simp] theorem mem_erase : b ∈ erase s a ↔ b ∈ s ∧ b ≠ a := by
  rw [erase, List.mem_filter, decide_eq_true_eq]

theorem mem_foldl_insert (items : List α) :
    b ∈ items.foldl insert s ↔ b ∈ s ∨ b ∈ items := by
  induction items generalizing s with
  | nil => simp
  | cons item items ih =>
    rw [List.foldl_cons, ih, mem_insert, List.mem_cons, or_assoc]

@[simp] theorem mem_ofList {items : List α} : b ∈ ofList items ↔ b ∈ items := by
  rw [ofList, mem_foldl_insert]
  exact or_iff_right List.not_mem_nil

end InsertionSet

namespace Allrice.DshWorkerClose

open InsertionSet

inductive ContextKind
  | chat
  | platformTechnical
  | experienceConsolidation
  | platformEmployeeTest
deriving DecidableEq

inductive DshCloseContext
  | context (contextKind : ContextKind)
      (contextId organizationId workspaceId ownerId : JsString)
  | provider
deriving DecidableEq

structure OwnedObservation where
  runtimeId : JsString
  workerBootId : JsString
  workerId : JsString
  serviceManifestDigest : JsString
  artifactId : JsString
  context : DshCloseContext
deriving DecidableEq

structure Wrapper where
  version : Nat
  sdkShutdown : Bool
  rootDisposed : Bool
  priorFramesFlushed : Bool
deriving DecidableEq

structure CloseRequest where
  acknowledged : Bool
  wrapper : Option Wrapper
deriving DecidableEq

inductive ClosedFact
  | childClose (exitCode : Option Int) (signal : Option JsString)
      (terminationAttempted : Option JsString)
  | neverSpawned
deriving DecidableEq

inductive Physical
  | unknown
  | neverSpawned
  | exited
deriving DecidableEq

inductive PublicClose
  | confirmed
  | notStarted
  | unconfirmed
deriving DecidableEq

/-- What the database has recorded of one runtime. -/
structure Coverage where
  owner : OwnedObservation
  closeStarted : Bool
  request : Option CloseRequest
  closed : Option ClosedFact
deriving DecidableEq

namespace Coverage

def physical (item : Coverage) : Physical :=
  match item.closed with
  | none => .unknown
  | some .neverSpawned => .neverSpawned
  | some (.childClose ..) => .exited

def requestConfirmed (item : Coverage) : Bool :=
  match item.request with
  | some request =>
    request.acknowledged &&
      request.wrapper.any fun wrapper =>
        wrapper.version == 1 && wrapper.sdkShutdown &&
          wrapper.rootDisposed && wrapper.priorFramesFlushed
  | none => false

def publicCloseConfirmed (item : Coverage) : Bool :=
  item.physical == .exited && item.closeStarted && item.requestConfirmed &&
    item.closed == some (.childClose (some 0) none none)

def publicClose (item : Coverage) : PublicClose :=
  if item.publicCloseConfirmed then .confirmed
  else if item.physical = .neverSpawned then .notStarted
  else .unconfirmed

theorem exited_of_confirmed {item : Coverage}
    (h : item.publicClose = .confirmed) : item.physical = .exited := by
  rw [publicClose] at h
  split at h
  · rename_i hconfirmed
    rw [publicCloseConfirmed, Bool.and_eq_true, Bool.and_eq_true,
      Bool.and_eq_true, beq_iff_eq] at hconfirmed
    exact hconfirmed.1.1.1
  split at h
  · cases h
  · cases h

end Coverage

inductive ProcessState
  | running
  | exited
  | unknown
deriving DecidableEq

/-- A process that the worker has seen closing. -/
structure ClosureSnapshot where
  id : JsString
  nativeArtifactId : Option JsString
  processState : ProcessState
  stdioClosed : Bool

/-- A process that the worker still holds. -/
structure ProcessSnapshot where
  id : JsString
  organizationId : JsString
  workspaceId : JsString
  sessionId : Option JsString
  ownerId : JsString

structure Worker where
  workerId : JsString
  workerBootId : JsString
  serviceManifestDigest : JsString

/-- The reads, none of which may have failed, and whether the registry takes
what it is given. -/
structure Views where
  live : Option (List ProcessSnapshot)
  closure : Option (List ClosureSnapshot)
  coverage : Option (List Coverage)
  registryAccepts : Bool

inductive CloseFault
  | readFailed
  | bootIdentityMismatch
  | physicalOwnerMismatch
  | physicalEvidenceConflict
  | registryFailed
  | bootUnconfirmed

def Worker.owns (worker : Worker) (owner : OwnedObservation) : Bool :=
  owner.workerBootId == worker.workerBootId &&
    owner.workerId == worker.workerId &&
      owner.serviceManifestDigest == worker.serviceManifestDigest

structure Matching where
  rows : List Coverage
  errors : List CloseFault

def matchRow (worker : Worker) (m : Matching) (item : Coverage) : Matching :=
  if worker.owns item.owner = false ∨
      item.owner.runtimeId ∈ m.rows.map (·.owner.runtimeId) then
    { m with errors := m.errors ++ [.bootIdentityMismatch] }
  else { m with rows := m.rows ++ [item] }

/-- `byId.get(id)`. -/
def rowOf (rows : List Coverage) (id : JsString) : Option Coverage :=
  rows.find? (·.owner.runtimeId = id)

structure Review where
  exited : List JsString
  registryExited : List JsString
  unconfirmed : List JsString
  valid : Bool
  errors : List CloseFault

/-- A context is that of a live process. -/
def DshCloseContext.isOf (item : ProcessSnapshot) : DshCloseContext → Bool
  | .context kind contextId organizationId workspaceId ownerId =>
    organizationId == item.organizationId &&
      workspaceId == item.workspaceId && ownerId == item.ownerId &&
        !(kind == .chat && some contextId != item.sessionId)
  | .provider => false

def holds (row : Option Coverage) (item : ProcessSnapshot) : Bool :=
  row.any (·.owner.context.isOf item)

def checkLive (rows : List Coverage) (r : Review) (item : ProcessSnapshot) :
    Review :=
  if holds (rowOf rows item.id) item then r
  else
    { r with
      valid := false
      unconfirmed := insert r.unconfirmed item.id
      errors := r.errors ++ [.physicalOwnerMismatch] }

/-- The row of a closed process names the same artifact. -/
def accepts (row : Option Coverage) (item : ClosureSnapshot) : Bool :=
  row.any (some ·.owner.artifactId == item.nativeArtifactId) &&
    !(item.processState == .exited && !item.stdioClosed)

def hasEnded (row : Option Coverage) (item : ClosureSnapshot) : Bool :=
  row.any (·.physical == .exited) && item.stdioClosed &&
    item.processState == .exited

def Review.withhold (r : Review) (id : JsString) : Review :=
  { r with
    registryExited := erase r.registryExited id
    unconfirmed := insert r.unconfirmed id }

def checkClosure (rows : List Coverage) (r : Review)
    (item : ClosureSnapshot) : Review :=
  let row := rowOf rows item.id
  let r :=
    if accepts row item then r
    else
      { r.withhold item.id with
        valid := false
        errors := r.errors ++ [.physicalOwnerMismatch] }
  if hasEnded row item then r else r.withhold item.id

def checkActive (r : Review) (id : JsString) : Review :=
  { exited := erase r.exited id
    registryExited := erase r.registryExited id
    unconfirmed := insert r.unconfirmed id
    valid := r.valid
    errors :=
      if id ∈ r.exited then r.errors ++ [.physicalEvidenceConflict]
      else r.errors }

def sorted (ids : List JsString) : List JsString :=
  ids.mergeSort JsValue.codeUnitsLe

structure Summary where
  observedRuntimes : Nat
  confirmed : Nat
  neverSpawned : Nat
  physicalExited : List JsString
  liveOrUnknown : List JsString
  unconfirmed : List JsString
  readbackConfirmed : Bool
  physicalRegistryUpdated : Bool

/-- What `finalizeWorkerDshRuntimeInventory` is called with. -/
structure RegistryWrite where
  runtimes : List ProcessSnapshot
  exitedRuntimeIds : List JsString

/-- It throws its summary and its errors unless there are none. -/
structure Verified where
  summary : Summary
  errors : List CloseFault
  registry : Option RegistryWrite

namespace Views

def readError {α : Type} (read : Option α) : List CloseFault :=
  if read.isSome then [] else [.readFailed]

variable (worker : Worker) (views : Views)

def readErrors : List CloseFault :=
  readError views.live ++ readError views.closure ++ readError views.coverage

def matching : Matching :=
  (views.coverage.getD []).foldl (matchRow worker) ⟨[], views.readErrors⟩

def active : List JsString :=
  (views.closure.getD []).foldl
    (fun active item =>
      if item.processState = .exited then active else insert active item.id)
    (ofList ((views.live.getD []).map (·.id)))

/-- Before the views are gone through. -/
def started (m : Matching) : Review :=
  let recorded := ofList ((m.rows.filter (·.physical = .exited)).map
    (·.owner.runtimeId))
  { exited := (views.closure.getD []).foldl
      (fun exited item =>
        if item.processState = .exited then insert exited item.id else exited)
      recorded
    registryExited := recorded
    unconfirmed := ofList ((m.rows.filter fun item =>
      item.physical ≠ .neverSpawned ∧ item.publicClose ≠ .confirmed).map
        (·.owner.runtimeId))
    valid := true
    errors := m.errors }

def reviewed (m : Matching) : Review :=
  views.active.foldl checkActive
    ((views.closure.getD []).foldl (checkClosure m.rows)
      ((views.live.getD []).foldl (checkLive m.rows) (views.started m)))

def liveOrUnknown (m : Matching) (r : Review) : List JsString :=
  (m.rows.filter fun item =>
    item.physical = .unknown ∧ item.owner.runtimeId ∉ r.exited).foldl
      (fun ids item => insert ids item.owner.runtimeId) views.active

def summary (m : Matching) (r : Review) : Summary where
  observedRuntimes := m.rows.length
  confirmed := (m.rows.filter (·.publicClose = .confirmed)).length
  neverSpawned := (m.rows.filter (·.physical = .neverSpawned)).length
  physicalExited := sorted r.exited
  liveOrUnknown := sorted (views.liveOrUnknown m r)
  unconfirmed := sorted r.unconfirmed
  readbackConfirmed := views.coverage.any (·.length = m.rows.length)
  physicalRegistryUpdated := false

end Views

/-- The write to the registry, unless something read was missing or did not
match. -/
def registryWrite (views : Views) (summary : Summary) (r : Review) :
    Option RegistryWrite :=
  match views.live with
  | some live =>
    if views.closure.isSome ∧ summary.readbackConfirmed ∧ r.valid then
      some
        { runtimes := live.filter (·.sessionId.isSome)
          exitedRuntimeIds := sorted r.registryExited }
    else none
  | none => none

def verifyWorkerDshRuntimeClosure (worker : Worker) (views : Views) :
    Verified :=
  let m := views.matching worker
  let r := views.reviewed m
  let summary := views.summary m r
  let write := registryWrite views summary r
  { summary :=
      { summary with
        physicalRegistryUpdated := write.isSome && views.registryAccepts }
    errors := r.errors ++
      (if write.isSome ∧ views.registryAccepts = false then [.registryFailed]
        else []) ++
      (if summary.unconfirmed = [] then [] else [.bootUnconfirmed])
    registry := write }

end Allrice.DshWorkerClose
