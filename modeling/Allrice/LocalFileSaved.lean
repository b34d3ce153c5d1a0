/-
What a save leaves behind, whichever step fails and whatever others create.
The phase of a call says whether its link stands, and every step that is not
the link keeps the phase.
-/
import Allrice.LocalFileSave

namespace Allrice.LocalFiles

open Program

variable {host : SaveHost}

/-- Once bytes are seen under the target's name, the same bytes are seen
later. -/
def Unaltered (sightings : List (Option (List UInt8))) : Prop :=
  sightings.Pairwise fun later earlier =>
    ∀ bytes, earlier = some bytes → later = some bytes

/-- Where the call stands: whether it is committed, and what the file that it
opened holds. -/
structure Phase (committed : Bool) (bytes : List UInt8) (world : World) :
    Prop where
  unaltered : Unaltered (world.content :: world.seen)
  linked : world.target = some .own ↔ committed = true
  committed : world.committed = committed
  own : world.own = bytes

/-- Before the temporary file is opened. -/
structure Fresh (world : World) : Prop where
  phase : Phase false [] world
  temporary : world.temporary = false

/-- A removal of the temporary file that did not fail leaves none. -/
def Removed (host : SaveHost) (world : World) : Prop :=
  world.temporary = true → host.fails (world.ticks - 1) ≠ none

/-- An assertion that others cannot break by creating the target. -/
def Stable (host : SaveHost) (P : World → Prop) : Prop :=
  ∀ world, P world → P (world.observe host)

theorem World.observe_target (host : SaveHost) (world : World) :
    (world.observe host).target = world.target ∨
      ∃ bytes, world.target = none ∧
        (world.observe host).target = some (.others bytes) := by
  cases htarget : world.target with
  | some entry => exact .inl (by simp [World.observe, htarget])
  | none =>
    cases hcreates : host.creates world.ticks with
    | none => exact .inl (by simp [World.observe, htarget, hcreates])
    | some bytes =>
      exact .inr ⟨bytes, rfl, by simp [World.observe, htarget, hcreates]⟩

theorem World.observe_seen (host : SaveHost) (world : World) :
    (world.observe host).seen = (world.observe host).content :: world.seen :=
  rfl

/-- What was seen stays seen through a step. -/
theorem World.observe_content (host : SaveHost) (world : World)
    (bytes : List UInt8) (h : world.content = some bytes) :
    (world.observe host).content = some bytes := by
  rcases World.observe_target host world with hsame | ⟨others, hnone, _⟩
  · unfold World.content at h ⊢
    rw [hsame]
    exact h
  · unfold World.content at h
    rw [hnone] at h
    cases h

variable {world : World} {bytes : List UInt8} {P : World → Prop}
  {halt : Halt Failure}

theorem Unaltered.observe (h : Unaltered (world.content :: world.seen)) :
    Unaltered ((world.observe host).content :: (world.observe host).seen) := by
  have hnext : Unaltered ((world.observe host).content :: world.seen) := by
    obtain ⟨hhead, htail⟩ := List.pairwise_cons.1 h
    apply List.pairwise_cons.2
    refine ⟨?_, htail⟩
    intro earlier hearlier bytes hbytes
    exact World.observe_content host world bytes
      (hhead earlier hearlier bytes hbytes)
  rw [World.observe_seen]
  apply List.pairwise_cons.2
  refine ⟨?_, hnext⟩
  intro earlier hearlier bytes hbytes
  rcases List.mem_cons.1 hearlier with rfl | hmem
  · exact hbytes
  · exact (List.pairwise_cons.1 hnext).1 earlier hmem bytes hbytes

theorem Phase.stable (committed : Bool) (bytes : List UInt8) :
    Stable host (Phase committed bytes) := by
  intro world h
  refine ⟨h.unaltered.observe, ?_, h.committed, h.own⟩
  rw [← h.linked]
  rcases World.observe_target host world with hsame | ⟨others, hnone, hnew⟩
  · rw [hsame]
  · rw [hnone, hnew]
    constructor
    · nofun
    · nofun

theorem Fresh.stable : Stable host Fresh := by
  intro world h
  exact ⟨Phase.stable false [] world h.phase, h.temporary⟩

/-- The program keeps the assertion, whichever way it ends. -/
abbrev Keeps {α : Type} (P : World → Prop) (action : Save α) : Prop :=
  Triple P action (fun _ => P) (fun _ => P)

section Keeps

variable {P : World → Prop} {α β : Type}

theorem Keeps.bind {action : Save α} {rest : α → Save β}
    (haction : Keeps P action) (hrest : ∀ a, Keeps P (rest a)) :
    Keeps P (action >>= rest) :=
  Triple.bind _ haction hrest

theorem Keeps.pure {a : α} : Keeps P (Pure.pure a : Save α) :=
  Triple.pure fun _ => id

theorem Keeps.raise {failure : Failure} :
    Keeps P (Program.raise failure : Save α) :=
  Triple.raise fun _ => id

theorem Keeps.read : Keeps P (Program.read : Save World) :=
  Triple.read fun _ => id

theorem Keeps.ite {c : Prop} [Decidable c] {x y : Save α} (hx : Keeps P x)
    (hy : Keeps P y) : Keeps P (if c then x else y) :=
  Triple.ite (fun _ => hx) fun _ => hy

variable {body : Save α}

theorem Keeps.attempt {handler : Failure → Save α} (hbody : Keeps P body)
    (hhandler : ∀ failure, Keeps P (handler failure)) :
    Keeps P (Program.attempt body handler) :=
  Triple.attempt _ hbody hhandler fun _ => id

theorem Keeps.ensure {cleanup : Save Unit} (hbody : Keeps P body)
    (hcleanup : Keeps P cleanup) : Keeps P (Program.ensure body cleanup) :=
  Triple.ensure hbody (fun _ => hcleanup) (fun _ => hcleanup) fun _ => id

theorem Keeps.failAt (n : Nat) : Keeps P (failAt host n) := by
  unfold LocalFiles.failAt
  cases host.fails n with
  | none => exact .pure
  | some failure => exact .raise

theorem now_spec {Q : Nat → World → Prop} {E : Halt Failure → World → Prop}
    (hgoes : ∀ world, P world → Q world.ticks (world.observe host))
    (hcrashes : ∀ world, P world → E .crashed world) :
    Triple P (now host) Q E := by
  intro world h
  unfold LocalFiles.now
  by_cases hcrash : host.crashes world.ticks = true
  · rw [if_pos hcrash]
    exact hcrashes world h
  · rw [if_neg hcrash]
    exact hgoes world h

theorem Keeps.now (hP : Stable host P) : Keeps P (now host) :=
  now_spec hP fun _ => id

theorem Keeps.step (hP : Stable host P) : Keeps P (step host) :=
  (Keeps.now hP).bind fun n => (Keeps.failAt n).bind fun _ => .pure

theorem Keeps.ignoring {action : Save Unit} (h : Keeps P action) :
    Keeps P (ignoring action) :=
  h.attempt fun _ => .pure

theorem Keeps.permission (hP : Stable host P) : Keeps P (permission host) := by
  refine Keeps.read.bind fun world => ?_
  refine .ite .raise ?_
  refine (Keeps.step hP).bind fun n => ?_
  exact .ite .pure .raise

theorem Keeps.resolveAuthorizedWriteTarget (hP : Stable host P)
    (root path : JsString) :
    Keeps P (resolveAuthorizedWriteTarget host root path) := by
  refine (Keeps.step hP).bind fun n => ?_
  refine .ite .raise ?_
  refine (Keeps.step hP).bind fun m => ?_
  refine .ite .raise ?_
  refine (Keeps.step hP).bind fun k => ?_
  refine Keeps.read.bind fun world => ?_
  exact .ite .raise .pure

end Keeps

/-- The link does not stand. -/
def Uncommitted (world : World) : Prop := ∃ bytes, Phase false bytes world

theorem Uncommitted.stable : Stable host Uncommitted := by
  rintro world ⟨bytes, h⟩
  exact ⟨bytes, Phase.stable false bytes world h⟩

theorem Phase.not_own (h : Phase false bytes world) :
    world.target ≠ some .own := by
  intro hown
  have hcommitted := h.linked.1 hown
  cases hcommitted

/-- What is written to the temporary file does not show under the target's
name. -/
theorem Phase.write (h : Phase false bytes world) (next : List UInt8)
    (temporary : Bool) :
    Phase false next { world with own := next, temporary } := by
  have hcontent : World.content { world with own := next, temporary } =
      world.content := by
    unfold World.content
    cases htarget : world.target with
    | none => rfl
    | some entry =>
      cases entry with
      | own => exact absurd htarget h.not_own
      | others others => rfl
  refine ⟨?_, h.linked, h.committed, rfl⟩
  rw [hcontent]
  exact h.unaltered

/-- A program that needs no more than that the link does not stand. -/
theorem Keeps.uncommitted {α : Type} {action : Save α} (h : Keeps P action)
    (hP : ∀ world, P world → Uncommitted world) :
    Triple P action (fun _ => P) (fun _ => Uncommitted) :=
  h.conseq (fun _ => id) (fun _ _ => id) fun _ => hP

theorem Phase.uncommitted :
    ∀ world, Phase false bytes world → Uncommitted world :=
  fun _ h => ⟨bytes, h⟩

theorem writeChunk_spec (turns : Nat) (written bytes : List UInt8)
    (hturns : bytes.length ≤ turns) :
    Triple (Phase false written) (writeChunk host turns bytes)
      (fun _ => Phase false (written ++ bytes)) (fun _ => Uncommitted) := by
  induction turns generalizing written bytes with
  | zero =>
    have hnil : bytes = [] := List.length_eq_zero_iff.1 (by omega)
    subst hnil
    rw [List.append_nil]
    exact .pure fun _ => id
  | succ turns ih =>
    rw [writeChunk]
    refine .ite (fun hnil => ?_) fun hbytes => ?_
    · rw [hnil, List.append_nil]
      exact .pure fun _ => id
    · refine .bind _ ((Keeps.now (Phase.stable false written)).uncommitted
        Phase.uncommitted) fun n => ?_
      generalize hcount : min (host.written n) bytes.length = count
      refine .bind (fun _ => Phase false (written ++ bytes.take count))
        (.update ?_) fun _ => ?_
      · intro world h
        have hnext := h.write (written ++ bytes.take count) world.temporary
        rw [← h.own] at hnext ⊢
        exact hnext
      refine .bind _ ((Keeps.failAt n).uncommitted Phase.uncommitted)
        fun _ => ?_
      refine .ite (fun _ => ?_) fun hpositive => ?_
      · exact .raise fun world h => ⟨_, h⟩
      · have hlength : (bytes.drop count).length ≤ turns := by
          rw [List.length_drop]
          have hle : count ≤ bytes.length := by omega
          omega
        have hrest := ih (written ++ bytes.take count) (bytes.drop count)
          hlength
        rwa [List.append_assoc, List.take_append_drop] at hrest

theorem copyChunks_spec (object : LocalFileObject)
    (chunks : List (List UInt8)) (hashed : List UInt8) :
    Triple (Phase false hashed)
      (copyChunks host object chunks hashed.length hashed)
      (fun copied world => copied.1 = copied.2.length ∧
        copied.2 = hashed ++ chunks.flatten ∧ Phase false copied.2 world)
      (fun _ => Uncommitted) := by
  induction chunks generalizing hashed with
  | nil =>
    rw [copyChunks]
    refine .bind _ ((Keeps.permission (Phase.stable false hashed)).uncommitted
      Phase.uncommitted) fun _ => ?_
    refine .bind _ ((Keeps.step (Phase.stable false hashed)).uncommitted
      Phase.uncommitted) fun _ => ?_
    exact .pure fun world h => ⟨rfl, (List.append_nil _).symm, h⟩
  | cons chunk rest ih =>
    rw [copyChunks]
    refine .bind _ ((Keeps.permission (Phase.stable false hashed)).uncommitted
      Phase.uncommitted) fun _ => ?_
    refine .bind _ ((Keeps.step (Phase.stable false hashed)).uncommitted
      Phase.uncommitted) fun _ => ?_
    refine .ite (fun _ => .raise fun world h => ⟨_, h⟩) fun _ => ?_
    refine .bind _ (writeChunk_spec chunk.length hashed chunk (le_refl _))
      fun _ => ?_
    have hrest := ih (hashed ++ chunk)
    rw [List.length_append, List.append_assoc] at hrest
    exact hrest

theorem download_spec (object : LocalFileObject) :
    Triple (Phase false []) (download host object)
      (fun copied world => copied.1 = copied.2.length ∧
        copied.2 = host.chunks.flatten ∧ Phase false copied.2 world)
      (fun _ => Uncommitted) := by
  refine .bind _ ((Keeps.step (Phase.stable false [])).uncommitted
    Phase.uncommitted) fun _ => ?_
  refine .ensure (copyChunks_spec object host.chunks []) ?_ ?_ fun _ => id
  · intro copied
    refine .fact fun hsize => .fact fun hhashed => ?_
    refine .post (.conseq (Keeps.ignoring ((Keeps.step
      (Phase.stable false copied.2)).bind fun _ => .pure)) (fun _ => id)
        (fun _ _ => id) fun _ => Phase.uncommitted) ?_
    intro _ world h
    exact ⟨hsize, hhashed, h⟩
  · intro failure
    exact Keeps.ignoring ((Keeps.step Uncommitted.stable).bind fun _ => .pure)

/-- The link stands, and the local variable does not say so yet. -/
structure Linked (bytes : List UInt8) (world : World) : Prop where
  unaltered : Unaltered (world.content :: world.seen)
  target : world.target = some .own
  own : world.own = bytes

theorem Phase.link (h : Phase false bytes world) (hnone : world.target = none) :
    Linked bytes { world with target := some .own } := by
  have hcontent : world.content = none := by
    unfold World.content
    rw [hnone]
  obtain ⟨hhead, htail⟩ := List.pairwise_cons.1 h.unaltered
  refine ⟨?_, rfl, h.own⟩
  apply List.pairwise_cons.2
  refine ⟨?_, htail⟩
  intro earlier hearlier seen hseen
  have hnow := hhead earlier hearlier seen hseen
  rw [hcontent] at hnow
  cases hnow

theorem linkTemporary_spec (bytes : List UInt8) :
    Triple (Phase false bytes) (linkTemporary host)
      (fun _ => Linked bytes) (fun _ => Uncommitted) := by
  refine .bind _ ((Keeps.now (Phase.stable false bytes)).uncommitted
    Phase.uncommitted) fun n => ?_
  refine .bind (fun seen world => Phase false bytes world ∧ seen = world)
    (.read fun world h => ⟨h, rfl⟩) fun seen => ?_
  refine .ite (fun _ => .raise fun world h => ⟨_, h.1⟩) fun hfree => ?_
  refine .bind (fun _ world => Phase false bytes world ∧ seen = world)
    ?_ fun _ => ?_
  · unfold failAt
    cases host.fails n with
    | none => exact .pure fun _ => id
    | some failure => exact .raise fun world h => ⟨_, h.1⟩
  · refine .update fun world h => ?_
    obtain ⟨hphase, rfl⟩ := h
    apply hphase.link
    cases htarget : seen.target with
    | none => rfl
    | some entry =>
      rw [htarget] at hfree
      exact absurd rfl hfree

/-- The commit: the declared bytes are linked to the target, or nothing is. -/
theorem stage_spec (root : JsString) (input : SaveArguments)
    (candidate rootReal : JsString) (identity : FileIdentity) :
    Triple (Phase false [])
      (stage host root input candidate rootReal identity)
      (fun _ world => ∃ bytes, Phase true bytes world ∧
        bytes = host.chunks.flatten ∧
        bytes.length = input.object.sizeBytes ∧
        host.sha256 bytes = input.object.checksum)
      (fun _ => Uncommitted) := by
  refine .bind _ (download_spec input.object) fun copied => ?_
  obtain ⟨size, hashed⟩ := copied
  refine .ite (fun _ => .raise fun world h => ⟨_, h.2.2⟩) fun hdeclared => ?_
  obtain ⟨hsize, hchecksum⟩ := not_or.1 hdeclared
  refine .fact fun hlength => .fact fun hflatten => ?_
  refine .bind _ ((Keeps.step (Phase.stable false hashed)).uncommitted
    Phase.uncommitted) fun _ => ?_
  refine .bind _ ((Keeps.permission (Phase.stable false hashed)).uncommitted
    Phase.uncommitted) fun _ => ?_
  refine .bind _ ((Keeps.step (Phase.stable false hashed)).uncommitted
    Phase.uncommitted) fun n => ?_
  refine .ite (fun _ => .raise Phase.uncommitted) fun _ => ?_
  refine .bind _ ((Keeps.step (Phase.stable false hashed)).uncommitted
    Phase.uncommitted) fun m => ?_
  refine .ite (fun _ => .raise Phase.uncommitted) fun _ => ?_
  refine .bind _ ((Keeps.step (Phase.stable false hashed)).uncommitted
    Phase.uncommitted) fun k => ?_
  refine .ite (fun _ => .raise Phase.uncommitted) fun _ => ?_
  refine .bind _ (linkTemporary_spec hashed) fun _ => ?_
  refine .update fun world h => ⟨hashed, ?_, hflatten, ?_, ?_⟩
  · exact ⟨h.unaltered, ⟨fun _ => rfl, fun _ => h.target⟩, rfl, h.own⟩
  · exact hlength.symm.trans (not_not.1 hsize)
  · exact not_not.1 hchecksum

theorem Phase.content (h : Phase true bytes world) :
    world.content = some bytes := by
  unfold World.content
  rw [h.linked.2 rfl, h.own]

/-- Removing the temporary name leaves the target alone. -/
theorem Phase.unlink {committed : Bool} (h : Phase committed bytes world) :
    Phase committed bytes { world with temporary := false } :=
  ⟨h.unaltered, h.linked, h.committed, h.own⟩

theorem unlinkTemporary_keeps (hP : Stable host P)
    (hunlink : ∀ world, P world → P { world with temporary := false }) :
    Keeps P (unlinkTemporary host) := by
  refine (Keeps.now hP).bind fun n => ?_
  refine (Keeps.failAt n).bind fun _ => ?_
  refine Keeps.read.bind fun world => ?_
  exact .ite (.update hunlink) .raise

/-- The bytes that were hashed are the first bytes of the target. -/
theorem hashLoop_spec (bytes : List UInt8) (size turns position : Nat)
    (hashed : List UInt8) (hposition : position ≤ bytes.length)
    (hhashed : hashed = bytes.take position) :
    Triple (Phase true bytes) (hashLoop host size turns position hashed)
      (fun read world => read.2 = bytes.take read.1 ∧
        read.1 ≤ bytes.length ∧ Phase true bytes world)
      (fun _ => Phase true bytes) := by
  induction turns generalizing position hashed with
  | zero => exact .pure fun world h => ⟨hhashed, hposition, h⟩
  | succ turns ih =>
    rw [hashLoop]
    refine .ite (fun _ => .pure fun world h => ⟨hhashed, hposition, h⟩)
      fun _ => ?_
    refine .bind _ (Keeps.step (Phase.stable true bytes)) fun n => ?_
    refine .bind (fun seen world => seen.content = some bytes ∧
      Phase true bytes world) (.read fun world h => ⟨h.content, h⟩)
      fun seen => ?_
    refine .fact fun hcontent => ?_
    simp only [hcontent, Option.getD_some]
    refine .ite (fun _ => .pure fun world h => ⟨hhashed, hposition, h⟩)
      fun _ => ?_
    refine .ite (fun _ => .raise fun _ => id) fun _ => ?_
    generalize min (host.read n) (min chunkBytes (size - position + 1)) =
      count
    have hlength : ((bytes.drop position).take count).length =
        min count (bytes.length - position) := by
      rw [List.length_take, List.length_drop]
    apply ih
    · omega
    · rw [hhashed, List.take_add, hlength]
      congr 1
      rw [← List.length_drop, ← List.take_eq_take_min]

theorem hashFile_spec (bytes : List UInt8) (path : JsString) :
    Triple (Phase true bytes) (hashFile host bytes.length path)
      (fun version world => version.checksum = host.sha256 bytes ∧
        version.sizeBytes = bytes.length ∧ Phase true bytes world)
      (fun _ => Phase true bytes) := by
  refine .bind _ (hashLoop_spec bytes bytes.length (bytes.length + 1) 0 []
    (Nat.zero_le _) rfl) fun read => ?_
  obtain ⟨position, hashed⟩ := read
  refine .fact fun hhashed => .fact fun _ => ?_
  refine .ite (fun _ => .raise fun _ => id) fun hposition => ?_
  have hwhole : hashed = bytes := by
    have hend : position = bytes.length := not_not.1 hposition
    rw [show hashed = bytes.take position from hhashed, hend, List.take_length]
  refine .bind _ (Keeps.step (Phase.stable true bytes)) fun n => ?_
  refine .ite (fun _ => .pure fun world h => ⟨?_, rfl, h⟩)
    fun _ => .raise fun _ => id
  rw [hwhole]

theorem authorizedFile_spec (bytes : List UInt8) (root path : JsString) :
    Triple (Phase true bytes) (authorizedFile host root path)
      (fun size world => size = bytes.length ∧ Phase true bytes world)
      (fun _ => Phase true bytes) := by
  have hstable : Stable host (Phase true bytes) := Phase.stable true bytes
  refine .ite (fun _ => .raise fun _ => id) fun _ => ?_
  refine .bind _ (Keeps.step hstable) fun n => ?_
  refine .bind _ (Keeps.step hstable) fun m => ?_
  refine .ite (fun _ => .raise fun _ => id) fun _ => ?_
  refine .bind _ (Keeps.step hstable) fun k => ?_
  refine .ite (fun _ => .raise fun _ => id) fun _ => ?_
  refine .bind _ (Keeps.step hstable) fun _ => ?_
  refine .bind _ Keeps.read fun opened => ?_
  refine .ite (fun _ => .raise fun _ => id) fun _ => ?_
  refine .attempt (fun _ => Phase true bytes) ?_ ?_ fun _ => id
  · refine .bind _ (Keeps.step hstable) fun l => ?_
    refine .bind (fun seen world => seen.content = some bytes ∧
      Phase true bytes world) (.read fun world h => ⟨h.content, h⟩)
      fun seen => ?_
    refine .fact fun hcontent => ?_
    simp only [hcontent, Option.getD_some]
    refine .ite (fun _ => .raise fun _ => id) fun _ => ?_
    refine .ite (fun _ => .raise fun _ => id) fun _ => ?_
    exact .pure fun world h => ⟨rfl, h⟩
  · intro failure
    exact .bind _ (Keeps.step hstable) fun _ => .raise fun _ => id

theorem inspectLocalFile_spec (bytes : List UInt8) (root path : JsString) :
    Triple (Phase true bytes) (inspectLocalFile host root path)
      (fun version world => version.checksum = host.sha256 bytes ∧
        version.sizeBytes = bytes.length ∧ Phase true bytes world)
      (fun _ => Phase true bytes) := by
  refine .bind _ (authorizedFile_spec bytes root path) fun size => ?_
  refine .fact fun hsize => ?_
  subst hsize
  have hclose : Keeps (Phase true bytes) (do let _ ← step host : Save Unit) :=
    (Keeps.step (Phase.stable true bytes)).bind fun _ => .pure
  refine .ensure (hashFile_spec bytes path) ?_ (fun _ => hclose) fun _ => id
  intro version
  refine .fact fun hchecksum => .fact fun hsize => ?_
  exact hclose.post fun _ world h => ⟨hchecksum, hsize, h⟩

/-- What a saved result says. -/
structure SavedResult (input : SaveArguments) (bytes : List UInt8)
    (host : SaveHost) (result : LocalFileResult) : Prop where
  status : result.status = .saved
  object : result.object = some input.object
  checksum : result.file.checksum = host.sha256 bytes
  sizeBytes : result.file.sizeBytes = bytes.length
  declared : host.sha256 bytes = input.object.checksum ∧
    bytes.length = input.object.sizeBytes

theorem settle_spec (bytes : List UInt8) (root : JsString)
    (input : SaveArguments) :
    Triple (Phase true bytes) (settle host root input)
      (fun result world => SavedResult input bytes host result ∧
        Phase true bytes world)
      (fun _ => Phase true bytes) := by
  have hstable : Stable host (Phase true bytes) := Phase.stable true bytes
  have hstep : Keeps (Phase true bytes) (do let _ ← step host : Save Unit) :=
    (Keeps.step hstable).bind fun _ => .pure
  refine .bind _ (unlinkTemporary_keeps hstable fun world h => h.unlink)
    fun _ => ?_
  refine .bind _ (Keeps.step hstable) fun _ => ?_
  refine .bind _ (hstep.ensure hstep) fun _ => ?_
  refine .bind _ (inspectLocalFile_spec bytes root input.path)
    fun inspected => ?_
  refine .fact fun hchecksum => .fact fun hsize => ?_
  refine .bind (fun result world => SavedResult input bytes host result ∧
    Phase true bytes world) ?_ fun output => ?_
  · refine .ite (fun hvalid => .pure fun world h => ⟨?_, h⟩)
      fun _ => .raise fun _ => id
    simp only [LocalFileResult.isValid, Bool.and_eq_true,
      decide_eq_true_eq] at hvalid
    obtain ⟨_, hsum, hbytes⟩ := hvalid
    rw [hchecksum] at hsum
    rw [hsize] at hbytes
    exact ⟨rfl, rfl, hchecksum, hsize, hsum, hbytes⟩
  · refine .fact fun hresult => ?_
    refine .bind _ (hstep.attempt fun _ => .raise) fun _ => ?_
    exact .pure fun world h => ⟨hresult, h⟩

/-- The call returned the result: the target holds the declared bytes. -/
def Saved (host : SaveHost) (input : SaveArguments)
    (result : LocalFileResult) (world : World) : Prop :=
  ∃ bytes, SavedResult input bytes host result ∧
    bytes = host.chunks.flatten ∧ Phase true bytes world

/-- The call was cut short: the error is marked unless the link does not
stand. -/
def Failed (halt : Halt Failure) (world : World) : Prop :=
  ∃ committed bytes, Phase committed bytes world ∧
    ∀ failure, halt = .thrown failure → committed = true →
      failure.isUnknown = true

theorem Uncommitted.failed (h : Uncommitted world) : Failed halt world := by
  obtain ⟨bytes, hphase⟩ := h
  refine ⟨false, bytes, hphase, ?_⟩
  intro failure _ hcommitted
  cases hcommitted

theorem commitSave_spec (root : JsString) (input : SaveArguments)
    (candidate rootReal : JsString) (identity : FileIdentity) :
    Triple (Phase false [])
      (commitSave host root input candidate rootReal identity)
      (Saved host input) Failed := by
  refine .attempt (fun _ world => ∃ committed bytes,
    Phase committed bytes world) ?_ ?_ ?_
  · refine .bind _ (.conseq
      (stage_spec root input candidate rootReal identity) (fun _ => id)
      (fun _ _ => id) ?_) fun _ => ?_
    · intro _ world hopen
      exact ⟨false, hopen⟩
    · intro world h
      obtain ⟨bytes, hphase, hflatten, _⟩ := h
      refine Triple.conseq (settle_spec bytes root input) (fun _ => id) ?_ ?_
        world hphase
      · intro result next hnext
        exact ⟨bytes, hnext.1, hflatten, hnext.2⟩
      · intro _ next hnext
        exact ⟨true, bytes, hnext⟩
  · intro failure
    refine .bind (fun seen world => seen = world ∧
      ∃ committed bytes, Phase committed bytes world)
      (.read fun world h => ⟨rfl, h⟩) fun seen => ?_
    refine .ite (fun hcommitted => .raise ?_) fun hopen => .raise ?_
    · intro world h
      obtain ⟨rfl, committed, bytes, hphase⟩ := h
      refine ⟨committed, bytes, hphase, ?_⟩
      intro raised hraised _
      cases hraised
      rfl
    · intro world h
      obtain ⟨rfl, committed, bytes, hphase⟩ := h
      refine ⟨committed, bytes, hphase, ?_⟩
      intro raised _ hcommitted
      rw [hphase.committed] at hopen
      exact absurd hcommitted hopen
  · intro world h
    obtain ⟨committed, bytes, hphase⟩ := h
    refine ⟨committed, bytes, hphase, ?_⟩
    intro failure hthrown
    cases hthrown

variable {result : LocalFileResult}

theorem Saved.stable {input : SaveArguments} :
    Stable host (Saved host input result) := by
  rintro world ⟨bytes, hresult, hflatten, hphase⟩
  exact ⟨bytes, hresult, hflatten, Phase.stable true bytes world hphase⟩

theorem Failed.stable : Stable host (Failed halt) := by
  rintro world ⟨committed, bytes, hphase, hmarked⟩
  exact ⟨committed, bytes, Phase.stable committed bytes world hphase, hmarked⟩

/-- An error of a step is caught. -/
theorem ignoring_step (hP : Stable host P) :
    Triple P (ignoring do let _ ← step host) (fun _ => P)
      (fun halt world => halt = .crashed ∧ P world) := by
  refine .attempt (fun _ => P) ?_ ?_ ?_
  · exact (Keeps.step hP).bind fun _ => .pure
  · intro failure
    exact .pure fun _ => id
  · intro world h
    exact ⟨rfl, h⟩

/-- The last step removes the temporary name, or fails. -/
theorem unlinkTemporary_removes (hP : Stable host P)
    (hunlink : ∀ world, P world → P { world with temporary := false }) :
    Triple P (ignoring (unlinkTemporary host))
      (fun _ world => P world ∧ Removed host world)
      (fun halt world => halt = .crashed ∧ P world) := by
  refine .attempt (fun halt world => P world ∧
    (halt ≠ .crashed → Removed host world)) ?_ ?_ ?_
  · refine .bind (fun n world => world.ticks = n + 1 ∧ P world)
      (now_spec (fun world h => ⟨rfl, hP world h⟩)
        fun world h => ⟨h, fun hne => absurd rfl hne⟩) fun n => ?_
    refine .bind (fun _ world => world.ticks = n + 1 ∧ P world) ?_
      fun _ => ?_
    · unfold failAt
      cases hfails : host.fails n with
      | none => exact .pure fun _ => id
      | some failure =>
        refine .raise fun world h => ⟨h.2, fun _ _ => ?_⟩
        have hlast : world.ticks - 1 = n := by
          rw [h.1]
          rfl
        rw [hlast, hfails]
        nofun
    · refine .bind (fun seen world => seen = world ∧ P world)
        (.read fun world h => ⟨rfl, h.2⟩) fun seen => ?_
      refine .ite (fun _ => .update ?_) fun hgone => .raise ?_
      · intro world h
        refine ⟨hunlink world h.2, ?_⟩
        nofun
      · intro world h
        obtain ⟨rfl, hworld⟩ := h
        refine ⟨hworld, ?_⟩
        intro _ htemporary
        exact absurd htemporary hgone
  · intro failure
    exact .pure fun world h => ⟨h.1, h.2 fun hcrashed => by cases hcrashed⟩
  · intro world h
    exact ⟨rfl, h.1⟩

theorem cleanUp_spec (hP : Stable host P)
    (hunlink : ∀ world, P world → P { world with temporary := false }) :
    Triple P (cleanUp host) (fun _ world => P world ∧ Removed host world)
      (fun halt world => halt = .crashed ∧ P world) :=
  .bind _ (ignoring_step hP) fun _ => unlinkTemporary_removes hP hunlink

theorem Saved.unlink {input : SaveArguments} (world : World)
    (h : Saved host input result world) :
    Saved host input result { world with temporary := false } := by
  obtain ⟨bytes, hresult, hflatten, hphase⟩ := h
  exact ⟨bytes, hresult, hflatten, hphase.unlink⟩

theorem Failed.unlink (world : World) (h : Failed halt world) :
    Failed halt { world with temporary := false } := by
  obtain ⟨committed, bytes, hphase, hmarked⟩ := h
  exact ⟨committed, bytes, hphase.unlink, hmarked⟩

/-- A process that ended has thrown no error. -/
theorem Failed.crashed (h : Failed halt world) : Failed .crashed world := by
  obtain ⟨committed, bytes, hphase, _⟩ := h
  refine ⟨committed, bytes, hphase, ?_⟩
  intro failure hthrown
  cases hthrown

/-- How a call ends that was cut short. -/
def CutShort (host : SaveHost) (halt : Halt Failure) (world : World) : Prop :=
  Failed halt world ∧ (halt ≠ .crashed → Removed host world)

/-- A call that ends before it opens the temporary file has none. -/
theorem Fresh.cutShort (h : Fresh world) : CutShort host halt world := by
  refine ⟨Uncommitted.failed ⟨[], h.phase⟩, ?_⟩
  intro _ htemporary
  rw [h.temporary] at htemporary
  cases htemporary

theorem executeLocalFile_spec (root : JsString) (input : SaveArguments) :
    Triple Fresh (executeLocalFile host root input)
      (fun result world => Saved host input result world ∧
        Removed host world) (CutShort host) := by
  have hfresh : ∀ {α : Type} {action : Save α}, Keeps Fresh action →
      Triple Fresh action (fun _ => Fresh) (CutShort host) :=
    fun h => h.conseq (fun _ => id) (fun _ _ => id) fun _ _ => Fresh.cutShort
  refine .bind _ (hfresh (Keeps.permission Fresh.stable)) fun _ => ?_
  refine .bind _ (hfresh (Keeps.resolveAuthorizedWriteTarget Fresh.stable
    root input.path)) fun resolved => ?_
  obtain ⟨candidate, rootReal, present⟩ := resolved
  refine .ite (fun _ => .raise fun world => Fresh.cutShort) fun _ => ?_
  refine .bind _ (hfresh (Keeps.step Fresh.stable)) fun n => ?_
  refine .bind (fun _ => Phase false []) ?_ fun _ => ?_
  · refine .bind _ (hfresh (Keeps.step Fresh.stable)) fun _ => ?_
    exact .update fun world h => h.phase.write [] true
  · refine .ensure (commitSave_spec root input candidate rootReal
      (host.lstat n (host.dirname candidate))) ?_ ?_ ?_
    · intro result
      refine (cleanUp_spec Saved.stable Saved.unlink).conseq (fun _ => id)
        (fun _ _ => id) ?_
      rintro halt world ⟨rfl, bytes, _, _, hphase⟩
      refine ⟨⟨true, bytes, hphase, ?_⟩, fun hne => absurd rfl hne⟩
      intro failure hthrown
      cases hthrown
    · intro failure
      refine (cleanUp_spec Failed.stable Failed.unlink).conseq (fun _ => id)
        (fun _ world h => ⟨h.1, fun _ => h.2⟩) ?_
      rintro halt world ⟨rfl, hfailed⟩
      exact ⟨hfailed.crashed, fun hne => absurd rfl hne⟩
    · intro world hfailed
      exact ⟨hfailed, fun hne => absurd rfl hne⟩

theorem initial_fresh (target : Option (List UInt8)) :
    Fresh (World.initial target) := by
  refine ⟨⟨List.pairwise_singleton _ _, ?_, rfl, rfl⟩, rfl⟩
  cases target with
  | none | some bytes => exact ⟨fun h => (by cases h), fun h => (by cases h)⟩

/-- How a save ended. -/
structure AllOrNothing (host : SaveHost) (input : SaveArguments)
    (ended : Except (Halt Failure) LocalFileResult × World) : Prop where
  /-- Whatever stood under the target's name stood there unchanged from then
  on. -/
  unaltered : Unaltered (ended.2.content :: ended.2.seen)
  /-- A saved target holds the declared bytes. -/
  saved : ∀ result, ended.1 = .ok result → result.status = .saved ∧
    ∃ bytes, ended.2.content = some bytes ∧
      bytes = host.chunks.flatten ∧
      bytes.length = input.object.sizeBytes ∧
      host.sha256 bytes = input.object.checksum
  /-- After an error without the unknown mark this call created no target. -/
  failed : ∀ failure, ended.1 = .error (.thrown failure) →
    failure.isUnknown = false → ended.2.target ≠ some .own
  /-- A temporary file remains only if its removal failed. -/
  temporary : ended.1 ≠ .error .crashed → ended.2.temporary = true →
    host.fails (ended.2.ticks - 1) ≠ none

/-- A save is all or nothing, whichever step fails, whenever it is aborted and
whatever others create meanwhile. -/
theorem save_all_or_nothing (host : SaveHost) (root : JsString)
    (input : SaveArguments) (target : Option (List UInt8)) :
    AllOrNothing host input
      (executeLocalFile host root input (World.initial target)) := by
  have hrun := @executeLocalFile_spec host root input
    (World.initial target) (initial_fresh target)
  generalize executeLocalFile host root input (World.initial target) = ended
    at hrun ⊢
  obtain ⟨answer, world⟩ := ended
  cases answer with
  | ok result =>
    obtain ⟨⟨bytes, hresult, hflatten, hphase⟩, hremoved⟩ := hrun
    refine ⟨hphase.unaltered, ?_, ?_, fun _ => hremoved⟩
    · intro returned hreturned
      cases hreturned
      exact ⟨hresult.status, bytes, hphase.content, hflatten,
        hresult.declared.2, hresult.declared.1⟩
    · intro failure hthrown
      cases hthrown
  | error halt =>
    obtain ⟨⟨committed, bytes, hphase, hmarked⟩, hremoved⟩ := hrun
    refine ⟨hphase.unaltered, ?_, ?_, ?_⟩
    · intro returned hreturned
      cases hreturned
    · intro failure hthrown hplain hown
      cases hthrown
      have hunknown := hmarked failure rfl (hphase.linked.1 hown)
      rw [hplain] at hunknown
      cases hunknown
    · intro hcrashed
      apply hremoved
      rintro rfl
      exact hcrashed rfl

namespace SaveExamples

/-- A folder in which the step `failing` fails, if any. -/
def folder (failing : Option Nat) : SaveHost where
  crashes := fun _ => false
  creates := fun _ => none
  fails := fun n => if failing = some n then some .other else none
  aborted := fun _ => false
  authorize := fun _ => true
  realpath := fun _ path => path
  lstat := fun _ _ => ⟨1, 2⟩
  isSymbolicLink := fun _ => false
  isFile := fun _ => true
  sameFile := fun _ => true
  resolve := fun root path => root ++ JsString.ofString "/" ++ path
  dirname := fun _ => JsString.ofString "/r"
  isSensitivePath := fun _ => false
  isWriteProtectedPath := fun _ => false
  localFilePath := fun _ => true
  localFileMediaType := fun _ => JsString.ofString "text/plain"
  chunks := [[1, 2], [3]]
  written := fun _ => 2
  read := fun _ => 3
  version := fun _ => 0
  sha256 := fun bytes => bytes.length

def input : SaveArguments :=
  ⟨JsString.ofString "a", ⟨3, 3, JsString.ofString "text/plain", 0⟩⟩

/-- Without a failure the file is saved; after the link an error is marked. -/
example :
    let run := fun failing =>
      (executeLocalFile (folder failing) (JsString.ofString "/r") input
        (World.initial none))
    (run none).1.toOption.map (·.status) = some .saved ∧
      (run none).2.content = some [1, 2, 3] ∧
      (run (some 26)).1 =
        .error (.thrown (.file "FILE_SAVE_UNKNOWN" true)) := by
  decide

end SaveExamples

end Allrice.LocalFiles
