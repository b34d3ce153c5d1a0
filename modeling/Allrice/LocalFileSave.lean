/-
Saving an object of the platform as a new file of an authorized folder.  The
bytes go to a temporary name first, one hard link commits them, and the
temporary name is removed; any step may fail, and others may create the target
between any two steps.
-/
import Allrice.Interruptible
import Allrice.JsString
import Allrice.RuntimeIdentity

namespace Program

variable {ε σ α : Type}

/-- `try { … } finally { … }`; an exception of the cleanup takes the place of
an earlier one. -/
def ensure (body : Program ε σ α) (cleanup : Program ε σ Unit) :
    Program ε σ α := do
  let result ← attempt body fun error => do
    cleanup
    raise error
  cleanup
  return result

theorem Triple.ensure {P : σ → Prop} {Q R : α → σ → Prop}
    {E F : Halt ε → σ → Prop} {body : Program ε σ α}
    {cleanup : Program ε σ Unit} (hbody : Triple P body Q E)
    (hreturned : ∀ a, Triple (Q a) cleanup (fun _ => R a) F)
    (hthrown : ∀ error, Triple (E (.thrown error)) cleanup
      (fun _ => F (.thrown error)) F)
    (hcrash : ∀ s, E .crashed s → F .crashed s) :
    Triple P (body.ensure cleanup) R F := by
  refine .bind Q (.attempt E (hbody.conseq (fun _ => id) (fun _ _ => id)
    fun _ _ => id) ?_ hcrash) ?_
  · intro error
    exact .bind _ (hthrown error) fun _ => .raise fun _ => id
  · intro a
    exact .bind _ (hreturned a) fun _ => .pure fun _ => id

/-- A fact that does not depend on the state. -/
theorem Triple.fact {fact : Prop} {P : σ → Prop} {Q : α → σ → Prop}
    {E : Halt ε → σ → Prop} {action : Program ε σ α}
    (h : fact → Triple P action Q E) :
    Triple (fun s => fact ∧ P s) action Q E :=
  fun s hs => h hs.1 s hs.2

end Program

namespace Allrice.LocalFiles

open Program

def localFileMaximumBytes : Nat := 9000000

def chunkBytes : Nat := 64 * 1024

/-- `details` is an identity of the members that no check here reads. -/
structure LocalFileObject where
  checksum : Checksum
  sizeBytes : Nat
  mediaType : JsString
  details : Nat
deriving DecidableEq

structure LocalFileVersion where
  checksum : Checksum
  sizeBytes : Nat
  version : Checksum
  mediaType : JsString
deriving DecidableEq

inductive LocalFileStatus where
  | inspected
  | uploaded
  | saved
  | opened
  | revealed
deriving DecidableEq

structure LocalFileResult where
  status : LocalFileStatus
  path : JsString
  file : LocalFileVersion
  object : Option LocalFileObject
  platformUploaded : Bool
  localSaved : Bool
deriving DecidableEq

/-- The arguments of `local.file.save`. -/
structure SaveArguments where
  path : JsString
  object : LocalFileObject
deriving DecidableEq

/-- A `LocalFileError` with its mark, or any other error. -/
inductive Failure where
  | file (code : String) (unknown : Bool)
  | other
deriving DecidableEq

def Failure.isUnknown : Failure → Bool
  | .file _ unknown => unknown
  | .other => false

def fileError (code : String) : Failure := .file code false

/-- What stands under the target's name: the file that this call opened, or a
file of others. -/
inductive Entry where
  | own
  | others (bytes : List UInt8)
deriving DecidableEq

/-- The folder, the local variable `committed` and the steps so far; `own` is
the content of the file that this call opened.  `seen` is what others saw under
the target's name at each step, the last one first. -/
structure World where
  own : List UInt8
  temporary : Bool
  target : Option Entry
  committed : Bool
  ticks : Nat
  seen : List (Option (List UInt8))
deriving DecidableEq

/-- The content under the target's name; both names of the file that this call
opened show the same bytes. -/
def World.content (world : World) : Option (List UInt8) :=
  match world.target with
  | none => none
  | some .own => some world.own
  | some (.others bytes) => some bytes

structure FileIdentity where
  dev : Int
  ino : Int
deriving DecidableEq

/-- What the surroundings decide: whether the process ends before the n-th
step, what others create before it and how it ends. -/
structure SaveHost where
  crashes : Nat → Bool
  creates : Nat → Option (List UInt8)
  fails : Nat → Option Failure
  aborted : Nat → Bool
  authorize : Nat → Bool
  realpath : Nat → JsString → JsString
  lstat : Nat → JsString → FileIdentity
  isSymbolicLink : Nat → Bool
  isFile : Nat → Bool
  sameFile : Nat → Bool
  resolve : JsString → JsString → JsString
  dirname : JsString → JsString
  isSensitivePath : JsString → Bool
  isWriteProtectedPath : JsString → Bool
  localFilePath : JsString → Bool
  localFileMediaType : JsString → JsString
  chunks : List (List UInt8)
  written : Nat → Nat
  read : Nat → Nat
  version : Nat → Checksum
  sha256 : List UInt8 → Checksum

abbrev Save := Program Failure World

/-- The folder at the next step, after what others did. -/
def World.observe (host : SaveHost) (world : World) : World :=
  let next := { world with
    target := world.target.orElse fun _ =>
      (host.creates world.ticks).map .others
    ticks := world.ticks + 1 }
  { next with seen := next.content :: world.seen }

section Steps

variable (host : SaveHost)

/-- One `await`, unless the process ends before it. -/
def now : Save Nat := fun world =>
  if host.crashes world.ticks then (.error .crashed, world)
  else (.ok world.ticks, world.observe host)

def failAt (n : Nat) : Save Unit :=
  match host.fails n with
  | some failure => raise failure
  | none => return ()

/-- One `await` that may fail, with nothing of it staying. -/
def step : Save Nat := do
  let n ← now host
  failAt host n
  return n

/-- `.catch(() => undefined)`. -/
def ignoring (action : Save Unit) : Save Unit :=
  attempt action fun _ => return ()

def permission : Save Unit := do
  let world ← Program.read
  if host.aborted world.ticks then raise (fileError "FILE_CANCELED")
  else
    let n ← step host
    if host.authorize n then return ()
    else raise (fileError "FILE_CANCELED")

/-- `path === root || path.startsWith(root + sep)`. -/
def isInside (root path : JsString) : Bool :=
  path = root || (root ++ JsString.ofString "/").isPrefixOf path

/-- `resolveAuthorizedWriteTarget`, up to the look at the target. -/
def resolveAuthorizedWriteTarget (root path : JsString) :
    Save (JsString × JsString × Bool) := do
  let n ← step host
  let rootReal := host.realpath n root
  let candidate := host.resolve rootReal path
  if !isInside rootReal candidate || host.isSensitivePath candidate ||
      host.isWriteProtectedPath path then raise .other
  else
    let n ← step host
    if !isInside rootReal (host.realpath n (host.dirname candidate)) then
      raise .other
    else
      let n ← step host
      let world ← Program.read
      if world.target.isSome && host.isSymbolicLink n then raise .other
      else return (candidate, rootReal, world.target.isSome)

/-- `open(temporary, O_WRONLY | O_CREAT | O_EXCL | O_NOFOLLOW)`. -/
def openTemporary : Save Unit := do
  let _ ← step host
  update fun world => { world with own := [], temporary := true }

/-- The loop of `handle.write`, which may write a part before it fails; every
turn writes at least one byte, so `turns` is the number of bytes. -/
def writeChunk : Nat → List UInt8 → Save Unit
  | 0, _ => return ()
  | turns + 1, bytes =>
    if bytes = [] then return ()
    else do
      let n ← now host
      let written := min (host.written n) bytes.length
      update fun world =>
        { world with own := world.own ++ bytes.take written }
      failAt host n
      if written = 0 then raise (fileError "FILE_WRITE_FAILED")
      else writeChunk turns (bytes.drop written)

/-- The loop over the chunks of the stream; the answer is the size and what
was hashed. -/
def copyChunks (object : LocalFileObject) :
    List (List UInt8) → Nat → List UInt8 → Save (Nat × List UInt8)
  | [], size, hashed => do
      permission host
      let _ ← step host
      return (size, hashed)
  | chunk :: rest, size, hashed => do
      permission host
      let _ ← step host
      if object.sizeBytes < size + chunk.length ∨
          localFileMaximumBytes < size + chunk.length then
        raise (fileError "FILE_TOO_LARGE")
      else
        writeChunk host chunk.length chunk
        copyChunks object rest (size + chunk.length) (hashed ++ chunk)

/-- The download, with the reader canceled at its end. -/
def download (object : LocalFileObject) : Save (Nat × List UInt8) := do
  let _ ← step host
  ensure (copyChunks host object host.chunks 0 [])
    (ignoring do let _ ← step host)

/-- `link(temporary, candidate)`, which never replaces a file. -/
def linkTemporary : Save Unit := do
  let n ← now host
  let world ← Program.read
  if world.target.isSome then raise (fileError "PATH_ALREADY_EXISTS")
  else
    failAt host n
    update fun world => { world with target := some .own }

/-- `unlink(temporary)`. -/
def unlinkTemporary : Save Unit := do
  let n ← now host
  failAt host n
  let world ← Program.read
  if world.temporary then
    update fun world => { world with temporary := false }
  else raise .other

/-- The download and the checks up to the commit, and the commit. -/
def stage (root : JsString) (input : SaveArguments)
    (candidate rootReal : JsString) (identity : FileIdentity) : Save Unit := do
  let (size, hashed) ← download host input.object
  if size ≠ input.object.sizeBytes ∨
      host.sha256 hashed ≠ input.object.checksum then
    raise (fileError "FILE_CHECKSUM_MISMATCH")
  else
    let _ ← step host
    permission host
    let parent := host.dirname candidate
    let n ← step host
    if host.lstat n parent ≠ identity then raise (fileError "FOLDER_CHANGED")
    else
      let n ← step host
      if host.realpath n parent ≠ parent then
        raise (fileError "FOLDER_CHANGED")
      else
        let n ← step host
        if host.realpath n root ≠ rootReal then
          raise (fileError "FOLDER_CHANGED")
        else
          linkTemporary host
          update fun world => { world with committed := true }

/-- `hashFile`'s loop; a turn that does not end it reads at least one byte, so
`turns` is one more than the size. -/
def hashLoop (size : Nat) : Nat → Nat → List UInt8 → Save (Nat × List UInt8)
  | 0, position, hashed => return (position, hashed)
  | turns + 1, position, hashed =>
    if size < position then return (position, hashed)
    else do
      let n ← step host
      let world ← Program.read
      let left := (world.content.getD []).drop position
      let bytes := left.take (min (host.read n)
        (min chunkBytes (size - position + 1)))
      if bytes = [] then return (position, hashed)
      else if localFileMaximumBytes < position + bytes.length ∨
          size < position + bytes.length then
        raise (fileError "FILE_CHANGED")
      else
        hashLoop size turns (position + bytes.length) (hashed ++ bytes)

def hashFile (size : Nat) (path : JsString) : Save LocalFileVersion := do
  let (position, hashed) ← hashLoop host size (size + 1) 0 []
  if position ≠ size then raise (fileError "FILE_CHANGED")
  else
    let n ← step host
    if host.sameFile n then
      return ⟨host.sha256 hashed, size, host.version n,
        host.localFileMediaType path⟩
    else raise (fileError "FILE_CHANGED")

/-- `authorizedFile`: the answer is the size of the opened file. -/
def authorizedFile (root path : JsString) : Save Nat := do
  if !host.localFilePath path then raise .other
  else
    let n ← step host
    let rootReal := host.realpath n root
    let m ← step host
    let candidateReal := host.realpath m (host.resolve rootReal path)
    if !isInside rootReal candidateReal ||
        host.isSensitivePath candidateReal then raise .other
    else
      let n ← step host
      if host.isSymbolicLink n then raise (fileError "FILE_SYMLINK")
      else
        let _ ← step host
        let opened ← Program.read
        if opened.content = none then raise .other
        else
          attempt
            (do
              let n ← step host
              let world ← Program.read
              let size := (world.content.getD []).length
              if !host.isFile n then raise (fileError "FILE_TYPE_UNSUPPORTED")
              else if localFileMaximumBytes < size then
                raise (fileError "FILE_TOO_LARGE")
              else return size)
            (fun failure => do
              let _ ← step host
              raise failure)

def inspectLocalFile (root path : JsString) : Save LocalFileVersion := do
  let size ← authorizedFile host root path
  ensure (hashFile host size path) (do let _ ← step host)

/-- What `LocalFileResultSchema` says of a result. -/
def LocalFileResult.isValid (result : LocalFileResult) : Bool :=
  host.localFilePath result.path &&
    result.file.sizeBytes ≤ localFileMaximumBytes &&
    1 ≤ result.file.mediaType.length && result.file.mediaType.length ≤ 255 &&
    (result.platformUploaded == (result.status == .uploaded)) &&
    (result.localSaved == (result.status == .saved)) &&
    !(result.status == .uploaded && result.object.isNone) &&
    !(result.status == .saved && result.object.isNone) &&
    match result.object with
    | none => true
    | some object => result.file.checksum = object.checksum &&
        result.file.sizeBytes = object.sizeBytes

/-- `result(status, path, file, object)`. -/
def makeResult (status : LocalFileStatus) (path : JsString)
    (file : LocalFileVersion) (object : Option LocalFileObject) :
    Save LocalFileResult :=
  let result : LocalFileResult :=
    ⟨status, path, file, object, status == .uploaded, status == .saved⟩
  if result.isValid host then return result else raise .other

def checkpoint (_result : LocalFileResult) : Save Unit :=
  attempt (do let _ ← step host)
    fun _ => raise (.file "FILE_RESULT_UNKNOWN" true)

/-- What follows the commit. -/
def settle (root : JsString) (input : SaveArguments) :
    Save LocalFileResult := do
  unlinkTemporary host
  let _ ← step host
  ensure (do let _ ← step host) (do let _ ← step host)
  let inspected ← inspectLocalFile host root input.path
  let output ← makeResult host .saved input.path
    { inspected with mediaType := input.object.mediaType } (some input.object)
  checkpoint host output
  return output

/-- The `try` of the save: an error after the commit is an unknown result. -/
def commitSave (root : JsString) (input : SaveArguments)
    (candidate rootReal : JsString) (identity : FileIdentity) :
    Save LocalFileResult :=
  attempt
    (do
      stage host root input candidate rootReal identity
      settle host root input)
    (fun failure => do
      let world ← Program.read
      if world.committed then raise (.file "FILE_SAVE_UNKNOWN" true)
      else raise failure)

/-- The `finally` of the save. -/
def cleanUp : Save Unit := do
  ignoring do let _ ← step host
  ignoring (unlinkTemporary host)

/-- `executeLocalFile` for `local.file.save`. -/
def executeLocalFile (root : JsString) (input : SaveArguments) :
    Save LocalFileResult := do
  permission host
  let (candidate, rootReal, present) ←
    resolveAuthorizedWriteTarget host root input.path
  if present then raise (fileError "PATH_ALREADY_EXISTS")
  else
    let n ← step host
    let identity := host.lstat n (host.dirname candidate)
    openTemporary host
    ensure (commitSave host root input candidate rootReal identity)
      (cleanUp host)

end Steps

/-- The folder when the call begins. -/
def World.initial (target : Option (List UInt8)) : World :=
  ⟨[], false, target.map .others, false, 0, []⟩

end Allrice.LocalFiles
