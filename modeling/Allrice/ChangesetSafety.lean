/-
What a changeset's per-file report says about the files.  The checkpoints that
stand in the journal and the side effects that began are kept in step at every
point of an execution, so the report is the same function of the checkpoints
whether the execution returned or a restart rebuilt it.
-/
import Allrice.ChangesetExecutor
import Allrice.JournalRun

namespace Allrice

open Tx Program

/-- The checkpoint that the journal holds for one file. -/
def savedResult (disk : JournalDisk) (operationId : Uuid) (index : Nat) :
    Option ChangesetFileResult :=
  (disk.changesetFiles.find? (operationId, index)).map (·.result)

def savedStatus (disk : JournalDisk) (operationId : Uuid) (index : Nat) :
    Option ChangesetFileStatus :=
  (savedResult disk operationId index).map (·.status)

theorem foldl_set_getElem? {ρ α : Type} (index : ρ → Nat) (value : ρ → α)
    (rows : List ρ) (hunique : (rows.map index).Nodup) (initial : List α)
    (j : Nat) :
    (rows.foldl (fun list row => list.set (index row) (value row))
        initial)[j]? =
      match rows.find? (fun row => index row = j) with
      | some row => initial[j]?.map fun _ => value row
      | none => initial[j]? := by
  induction rows generalizing initial with
  | nil => rfl
  | cons head tail ih =>
    simp only [List.map_cons, List.nodup_cons] at hunique
    rw [List.foldl_cons, ih hunique.2]
    by_cases hhead : index head = j
    · have hnone : tail.find? (fun row => index row = j) = none := by
        rw [List.find?_eq_none]
        intro row hrow heq
        simp only [decide_eq_true_eq] at heq
        exact hunique.1 (hhead ▸ heq ▸ List.mem_map_of_mem hrow)
      simp only [hnone, List.find?_cons, hhead, decide_true]
      rw [← hhead, List.getElem?_set]
      simp only [↓reduceIte]
      split
      · rename_i hlt
        simp [hlt]
      · rename_i hge
        simp [hge]
    · have hset : (initial.set (index head) (value head))[j]? =
          initial[j]? := List.getElem?_set_ne hhead
      simp only [List.find?_cons, hhead, decide_false, hset]

/-- The checkpoints of one operation have distinct file indices. -/
theorem savedRows_nodup (disk : JournalDisk) (operationId : Uuid) :
    ((disk.changesetFiles.rows.filter (·.operationId = operationId)).map
      (·.fileIndex)).Nodup := by
  have hkeys := disk.changesetFiles.unique
  refine List.Nodup.map_on ?_ ?_
  · intro a ha b hb hindex
    simp only [List.mem_filter, decide_eq_true_eq] at ha hb
    have hkey : ChangesetFileRow.key a = ChangesetFileRow.key b := by
      simp [ChangesetFileRow.key, ha.2, hb.2, hindex]
    have hfound := Table.find?_of_mem ha.1
    rw [hkey, Table.find?_of_mem hb.1] at hfound
    exact (Option.some.inj hfound).symm
  · exact (List.Nodup.of_map _ hkeys).filter _

/-- The recovered report, file by file. -/
theorem recoveredFiles_getElem? (disk : JournalDisk) (operationId : Uuid)
    (arguments : ChangesetArguments) (j : Nat) :
    (recoveredFiles disk operationId arguments)[j]? =
      arguments.files[j]?.map fun file =>
        ((savedResult disk operationId j).map settledResult).getD
          (initialChangesetResult file) := by
  have hfind : (disk.changesetFiles.rows.filter
        (·.operationId = operationId)).find? (fun row => row.fileIndex = j) =
      disk.changesetFiles.find? (operationId, j) := by
    rw [List.find?_filter, Table.find?]
    congr 1
    funext row
    simp [ChangesetFileRow.key, Prod.ext_iff]
  have hfold := foldl_set_getElem? ChangesetFileRow.fileIndex
    (fun saved => settledResult saved.result) _
    (savedRows_nodup disk operationId) (initialChangesetResults arguments) j
  rw [hfind] at hfold
  rw [recoveredFiles, hfold, savedResult]
  cases disk.changesetFiles.find? (operationId, j) with
  | none => simp [initialChangesetResults]
  | some row =>
    simp only [initialChangesetResults, List.getElem?_map, Option.map_map,
      Option.map_some, Option.getD_some]
    rfl

/-- Nothing but the clock has moved. -/
structure SameFiles (before after : ChangesetWorld) : Prop where
  disk : after.disk = before.disk
  results : after.results = before.results
  effects : after.effects = before.effects

/-- At most the side effect of one file has moved. -/
structure Touched (index : Nat) (before after : ChangesetWorld) : Prop where
  disk : after.disk = before.disk
  results : after.results = before.results
  others : ∀ j, j ≠ index → after.effects j = before.effects j

/-- The program was not cut short by a precondition failure. -/
def NotLocal (halt : Halt FileError) : Prop :=
  ∀ code, halt ≠ .thrown (.localExecution code)

variable {index : Nat} {before after : ChangesetWorld}

theorem SameFiles.touched (h : SameFiles before after) :
    Touched index before after :=
  ⟨h.disk, h.results, fun j _ => congrFun h.effects j⟩

theorem Touched.same {middle : ChangesetWorld} (h : Touched index before middle)
    (hsame : SameFiles middle after) : Touched index before after := by
  refine ⟨hsame.disk.trans h.disk, hsame.results.trans h.results, ?_⟩
  intro j hj
  rw [hsame.effects, h.others j hj]

theorem Touched.setEffect {index : Nat} {before after : ChangesetWorld}
    (h : Touched index before after) (effect : FileEffect) :
    Touched index before
      { after with effects := Function.update after.effects index effect } := by
  refine ⟨h.disk, h.results, fun j hj => ?_⟩
  simp only [Function.update_of_ne hj]
  exact h.others j hj

/-- An assertion that does not look at the clock. -/
def Steady (P : ChangesetWorld → Prop) : Prop :=
  ∀ before after, SameFiles before after → P before → P after

theorem SameFiles.steady (start : ChangesetWorld) : Steady (SameFiles start) :=
  fun _ _ hsame h => ⟨hsame.disk.trans h.disk, hsame.results.trans h.results,
    hsame.effects.trans h.effects⟩

section Steps

variable {host : ChangesetHost} {start : ChangesetWorld}
  {P : ChangesetWorld → Prop}

theorem tick_spec (hP : Steady P) :
    Triple P (tick host) (fun _ => P)
      (fun halt world => halt = .crashed ∧ P world) := by
  intro world hworld
  unfold tick
  by_cases hcrash : host.crashes world.ticks = true
  · rw [if_pos hcrash]
    exact ⟨rfl, hworld⟩
  · rw [if_neg hcrash]
    exact hP world _ ⟨rfl, rfl, rfl⟩ hworld

theorem tick_quiet (hP : Steady P) :
    Triple P (tick host) (fun _ => P) (fun _ => P) :=
  (tick_spec hP).conseq (fun _ => id) (fun _ _ => id) (fun _ _ h => h.2)

theorem authorize_spec (hP : Steady P) :
    Triple P (authorize host) (fun _ => P) (fun _ => P) := by
  refine Triple.bind (fun _ => P) (tick_quiet hP) fun n => ?_
  cases host.authorize n with
  | granted | refused => exact Triple.pure fun _ => id
  | throws error => exact Triple.raise fun _ => id

theorem inspectFile_spec (hP : Steady P) :
    Triple P (inspectFile host) (fun _ => P) (fun _ => P) := by
  refine Triple.bind (fun _ => P) (tick_quiet hP) fun n => ?_
  cases host.inspect n with
  | none => exact Triple.pure fun _ => id
  | some error => exact Triple.raise fun _ => id

variable {file : ChangesetFile} {operationId : Uuid}

theorem verifyFile_spec (hP : Steady P) :
    Triple P (verifyFile host file) (fun _ => P) (fun _ => P) :=
  Triple.ite (fun _ => inspectFile_spec hP) fun _ => Triple.raise fun _ => id

theorem beforeCommit_spec (hP : Steady P) :
    Triple P (beforeCommit host) (fun _ => P) (fun _ => P) := by
  refine Triple.bind (fun _ => P) (authorize_spec hP) fun granted => ?_
  refine Triple.ite (fun _ => Triple.pure fun _ => id) fun _ => ?_
  exact Triple.raise fun _ => id

/-- A journal method either commits or changes nothing. -/
theorem journalTx_spec {α : Type} {method : JournalTx α} :
    Triple (SameFiles start) (journalTx host method)
      (fun a world => method start.disk = .ok (a, world.disk) ∧
        world.results = start.results ∧ world.effects = start.effects)
      (fun halt world => SameFiles start world ∧ NotLocal halt) := by
  refine Triple.bind (fun _ => SameFiles start)
    ((tick_spec (SameFiles.steady start)).conseq (fun _ => id)
      (fun _ _ => id) ?_) fun n => ?_
  · rintro halt world ⟨rfl, hworld⟩
    exact ⟨hworld, fun _ => by simp⟩
  · refine Triple.ite (fun _ => Triple.raise fun world hworld => ?_) fun _ => ?_
    · exact ⟨hworld, fun _ => by simp⟩
    · intro world hworld
      simp only [hworld.disk]
      cases hmethod : method start.disk with
      | ok pair =>
        obtain ⟨a, disk⟩ := pair
        exact ⟨rfl, hworld.results, hworld.effects⟩
      | error failure => exact ⟨hworld, fun _ => by simp⟩

theorem touched_steady (index : Nat) : Steady (Touched index start) :=
  fun _ _ hsame h => h.same hsame

variable {index : Nat}

/-- A file that may be half changed is never reported as a precondition
failure. -/
theorem commitFile_spec :
    Triple (SameFiles start) (commitFile host index)
      (fun _ world => Touched index start world ∧
        world.effects index = .completed)
      (fun halt world => Touched index start world ∧ NotLocal halt) := by
  have hcrash : ∀ halt world, halt = .crashed ∧ Touched index start world →
      Touched index start world ∧ NotLocal halt := by
    rintro halt world ⟨rfl, hworld⟩
    exact ⟨hworld, fun _ => by simp⟩
  have hfail : Triple (Touched index start)
      (raise FileError.other : Exec Unit)
      (fun _ world => Touched index start world ∧
        world.effects index = .completed)
      (fun halt world => Touched index start world ∧ NotLocal halt) :=
    Triple.raise fun _ hworld => ⟨hworld, fun _ => by simp⟩
  refine Triple.bind (fun _ => Touched index start)
    (Triple.update fun world hworld => hworld.touched.setEffect .begun)
    fun _ => ?_
  refine Triple.bind (fun _ => Touched index start)
    ((tick_spec (touched_steady index)).conseq (fun _ => id) (fun _ _ => id)
      hcrash) fun n => ?_
  refine Triple.ite (fun _ => hfail) fun _ => ?_
  let done (world : ChangesetWorld) :=
    Touched index start world ∧ world.effects index = .completed
  have hdone : Steady done := fun before after hsame h =>
    ⟨h.1.same hsame, by rw [hsame.effects, h.2]⟩
  refine Triple.bind (fun _ => done) (Triple.update fun world hworld => ?_)
    fun _ => ?_
  · exact ⟨hworld.setEffect .completed, by simp⟩
  · refine Triple.bind (fun _ => done)
      ((tick_spec hdone).conseq (fun _ => id) (fun _ _ => id) ?_) fun m => ?_
    · rintro halt world ⟨hhalt, hworld⟩
      exact hcrash halt world ⟨hhalt, hworld.1⟩
    · refine Triple.ite (fun _ => hfail.pre fun _ h => h.1) fun _ => ?_
      exact Triple.pure fun _ => id

/-- Changing a file: a precondition failure leaves it untouched. -/
theorem changeFile_spec :
    Triple (SameFiles start) (changeFile host index file)
      (fun _ world => Touched index start world ∧
        world.effects index = .completed)
      (fun halt world => Touched index start world ∧
        (NotLocal halt ∨ SameFiles start world)) := by
  have hsteady := SameFiles.steady start
  have hquiet : ∀ (halt : Halt FileError) world, SameFiles start world →
      Touched index start world ∧ (NotLocal halt ∨ SameFiles start world) :=
    fun _ _ h => ⟨h.touched, .inr h⟩
  have hremove : Triple (SameFiles start) (removeChangesetFile host index)
      (fun _ world => Touched index start world ∧
        world.effects index = .completed)
      (fun halt world => Touched index start world ∧
        (NotLocal halt ∨ SameFiles start world)) := by
    refine Triple.bind (fun _ => SameFiles start)
      ((inspectFile_spec hsteady).conseq (fun _ => id) (fun _ _ => id) hquiet)
      fun _ => ?_
    refine Triple.bind (fun _ => SameFiles start)
      ((beforeCommit_spec hsteady).conseq (fun _ => id) (fun _ _ => id) hquiet)
      fun _ => ?_
    refine Triple.bind (fun _ => SameFiles start)
      ((inspectFile_spec hsteady).conseq (fun _ => id) (fun _ _ => id) hquiet)
      fun _ => ?_
    exact commitFile_spec.conseq (fun _ => id) (fun _ _ => id)
      fun _ _ h => ⟨h.1, .inl h.2⟩
  unfold changeFile
  cases file.after with
  | none => exact hremove
  | some text =>
    refine Triple.ite (fun _ => Triple.raise fun world hworld => ?_)
      fun _ => hremove
    exact hquiet _ world hworld

/-- One successful `report`: the checkpoint is in the journal and the result
in memory is the same one. -/
structure Reported (operationId : Uuid) (index : Nat)
    (status : ChangesetFileStatus) (before after : ChangesetWorld) : Prop where
  entries : after.disk.entries = before.disk.entries
  outbox : after.disk.outbox = before.disk.outbox
  effects : after.effects = before.effects
  unsettled : savedStatus before.disk operationId index = none ∨
    savedStatus before.disk operationId index = some .prepared
  saved : ∃ result, result.status = status ∧
    after.results = before.results.set index result ∧
    index < before.results.length ∧
    ∀ j, savedResult after.disk operationId j =
      if j = index then some result else savedResult before.disk operationId j

theorem find?_putChangesetFile (disk : JournalDisk) (row : ChangesetFileRow)
    (key : Uuid × Nat) :
    (putChangesetFile disk row).changesetFiles.find? key =
      if row.key = key then some row else disk.changesetFiles.find? key := by
  unfold putChangesetFile
  split
  · rename_i next hinsert
    exact Table.find?_insert? hinsert key
  · rename_i hinsert
    rw [Table.find?_replace]
    by_cases hkey : row.key = key
    · subst hkey
      have hsome : (disk.changesetFiles.find? row.key).isSome := by
        rw [Option.isSome_iff_ne_none]
        intro hnone
        rw [Table.find?_eq_none_iff] at hnone
        simp only [Table.insert?] at hinsert
        split at hinsert
        · rename_i hmem
          obtain ⟨old, hold, hkey⟩ := List.mem_map.1 hmem
          exact hnone old hold hkey
        · simp at hinsert
      obtain ⟨old, hold⟩ := Option.isSome_iff_exists.1 hsome
      simp [hold]
    · simp [hkey]

theorem savedResult_put (disk : JournalDisk) (operationId : Uuid)
    (index : Nat) (result : ChangesetFileResult) (j : Nat) :
    savedResult (putChangesetFile disk ⟨operationId, index, result⟩)
        operationId j =
      if j = index then some result else savedResult disk operationId j := by
  unfold savedResult
  rw [find?_putChangesetFile]
  by_cases hj : j = index
  · simp [ChangesetFileRow.key, hj]
  · have hne : ¬index = j := fun h => hj h.symm
    simp [ChangesetFileRow.key, hj, hne]

theorem savedResult_put_ne (disk : JournalDisk) {target : Uuid}
    (hne : operationId ≠ target) (index : Nat) (result : ChangesetFileResult)
    (j : Nat) :
    savedResult (putChangesetFile disk ⟨target, index, result⟩)
        operationId j = savedResult disk operationId j := by
  have hkey : ¬(target = operationId ∧ index = j) := fun h => hne h.1.symm
  unfold savedResult
  rw [find?_putChangesetFile]
  simp [ChangesetFileRow.key, hkey]

theorem report_spec {status : ChangesetFileStatus} {errorCode : Option String} :
    Triple (SameFiles start) (report host operationId index status errorCode)
      (fun _ => Reported operationId index status start)
      (fun halt world => SameFiles start world ∧ NotLocal halt) := by
  refine Triple.bind
    (fun read world => SameFiles start world ∧ read.results = start.results)
    (Triple.read fun world hworld => ⟨hworld, hworld.results⟩) fun read => ?_
  intro world hworld
  obtain ⟨hsame, hresults⟩ := hworld
  rw [hresults]
  cases hold : start.results[index]? with
  | none => exact ⟨hsame, fun _ => by simp⟩
  | some old =>
    simp only
    revert world
    let result : ChangesetFileResult := { old with
      status, errorCode := errorCode.orElse fun _ => old.errorCode }
    have hcheckpoint : Triple (SameFiles start)
        (checkpoint host operationId index result)
        (fun u world =>
          changesetCheckpoint operationId index result start.disk =
              .ok (u, world.disk) ∧
            world.results = start.results ∧ world.effects = start.effects)
        (fun halt world => SameFiles start world ∧ NotLocal halt) :=
      Triple.ite (fun _ => journalTx_spec)
        fun _ => Triple.raise fun _ h => ⟨h, fun _ => by simp⟩
    intro world hsame
    refine (Triple.bind _ hcheckpoint fun _ => Triple.update ?_) world hsame
    rintro after ⟨hmethod, hafter, heffects⟩
    obtain ⟨_, _, _, _, _, hprepared, hdisk⟩ :=
      changesetCheckpoint_eq_ok hmethod
    obtain ⟨_, hput⟩ := putChangesetFile_eq start.disk
      ⟨operationId, index, result⟩
    have hdisk' := hdisk.trans hput
    refine ⟨by rw [hdisk'], by rw [hdisk'], heffects, ?_, result, rfl, ?_, ?_,
      ?_⟩
    · unfold savedStatus savedResult
      cases hfind : start.disk.changesetFiles.find? (operationId, index) with
      | none => exact .inl rfl
      | some previous =>
        right
        simp [hprepared previous hfind]
    · simp only [hafter]
      rfl
    · exact (List.getElem?_eq_some_iff.1 hold).1
    · intro j
      rw [hdisk]
      exact savedResult_put start.disk operationId index result j

end Steps

/-- What may have happened to a file with a given checkpoint. -/
def FileAllowed : Option ChangesetFileStatus → FileEffect → Prop
  | none, effect | some .conflict, effect | some .canceled, effect =>
    effect = .untouched
  | some .applied, effect => effect = .completed
  | some .prepared, _ | some .unknown, _ => True
  | some .pending, _ | some .failed, _ => False

/-- All files before `k` were applied and all files after it were never
looked at by the apply loop. -/
structure Progress (saved : Nat → Option ChangesetFileStatus)
    (effects : Nat → FileEffect) (k : Nat) : Prop where
  before : ∀ j, j < k → saved j = some .applied
  after : ∀ j, k < j → saved j = none
  allowed : ∀ j, FileAllowed (saved j) (effects j)

/-- The preflight found a conflict before anything was touched. -/
structure Refused (saved : Nat → Option ChangesetFileStatus)
    (effects : Nat → FileEffect) (k : Nat) : Prop where
  conflict : saved k = some .conflict
  others : ∀ j, j ≠ k → saved j = none
  untouched : ∀ j, effects j = .untouched

def InOrder (saved : Nat → Option ChangesetFileStatus)
    (effects : Nat → FileEffect) : Prop :=
  (∃ k, Progress saved effects k) ∨ ∃ k, Refused saved effects k

/-- The operation belongs to this execution and has no receipt yet. -/
structure Owned (operationId : Uuid) (row : EntryRow) (disk : JournalDisk) :
    Prop where
  entry : disk.entries.find? operationId = some row
  receipts : receiptsOf disk operationId = []

/-- The results in memory are the checkpoints over the initial report. -/
def InMemory (operationId : Uuid) (arguments : ChangesetArguments)
    (world : ChangesetWorld) : Prop :=
  ∀ j, world.results[j]? = arguments.files[j]?.map fun file =>
    (savedResult world.disk operationId j).getD (initialChangesetResult file)

section Execution

variable (operationId : Uuid) (row : EntryRow) (arguments : ChangesetArguments)

/-- The apply loop stands at file `k`. -/
structure AtFile (k : Nat) (world : ChangesetWorld) : Prop where
  owned : Owned operationId row world.disk
  memory : InMemory operationId arguments world
  progress : Progress (savedStatus world.disk operationId) world.effects k

/-- Wherever an execution is cut short. -/
def Interrupted (world : ChangesetWorld) : Prop :=
  Owned operationId row world.disk ∧
    InOrder (savedStatus world.disk operationId) world.effects

/-- An execution that ran to its end. -/
structure Finished (world : ChangesetWorld) : Prop where
  owned : Owned operationId row world.disk
  memory : InMemory operationId arguments world
  order : InOrder (savedStatus world.disk operationId) world.effects
  settled : ∀ j, savedStatus world.disk operationId j ≠ some .prepared

variable {operationId row arguments} {k index : Nat}
  {world before after : ChangesetWorld} {host : ChangesetHost}

theorem AtFile.interrupted (h : AtFile operationId row arguments k world) :
    Interrupted operationId row world :=
  ⟨h.owned, .inl ⟨k, h.progress⟩⟩

theorem AtFile.same (h : AtFile operationId row arguments k before)
    (hsame : SameFiles before after) :
    AtFile operationId row arguments k after := by
  refine ⟨?_, ?_, ?_⟩
  · rw [hsame.disk]
    exact h.owned
  · intro j
    rw [hsame.results, hsame.disk]
    exact h.memory j
  · rw [hsame.disk, hsame.effects]
    exact h.progress

theorem Reported.owned {status : ChangesetFileStatus}
    (h : Reported operationId index status before after)
    (howned : Owned operationId row before.disk) :
    Owned operationId row after.disk := by
  refine ⟨?_, ?_⟩
  · rw [h.entries]
    exact howned.entry
  · simpa [receiptsOf, h.outbox] using howned.receipts

theorem Reported.status {status : ChangesetFileStatus}
    (h : Reported operationId index status before after) (j : Nat) :
    savedStatus after.disk operationId j =
      if j = index then some status
      else savedStatus before.disk operationId j := by
  obtain ⟨result, hstatus, _, _, hsaved⟩ := h.saved
  unfold savedStatus
  rw [hsaved j]
  by_cases hj : j = index
  · simp [hj, hstatus]
  · simp [hj]

theorem Reported.memory {status : ChangesetFileStatus}
    (h : Reported operationId index status before after)
    (hmemory : InMemory operationId arguments before) :
    InMemory operationId arguments after := by
  obtain ⟨result, _, hresults, hlt, hsaved⟩ := h.saved
  intro j
  rw [hresults, hsaved j, List.getElem?_set]
  by_cases hj : j = index
  · subst hj
    have hold := hmemory j
    rw [List.getElem?_eq_getElem hlt] at hold
    have hfile : ∃ file, arguments.files[j]? = some file := by
      cases hf : arguments.files[j]? with
      | none => simp [hf] at hold
      | some file => exact ⟨file, rfl⟩
    obtain ⟨file, hfile⟩ := hfile
    simp [hlt, hfile]
  · have hne : ¬index = j := fun heq => hj heq.symm
    simp only [hne, ↓reduceIte, hj]
    exact hmemory j

/-- A report about the file at which the loop stands keeps its place. -/
theorem AtFile.report {status : ChangesetFileStatus}
    (h : AtFile operationId row arguments k before)
    (hreported : Reported operationId k status before after)
    (hallowed : FileAllowed (some status) (before.effects k)) :
    AtFile operationId row arguments k after := by
  refine ⟨hreported.owned h.owned, hreported.memory h.memory, ?_, ?_, ?_⟩
  · intro j hj
    rw [hreported.status j, if_neg (Nat.ne_of_lt hj)]
    exact h.progress.before j hj
  · intro j hj
    rw [hreported.status j, if_neg (Nat.ne_of_gt hj)]
    exact h.progress.after j hj
  · intro j
    rw [hreported.status j, hreported.effects]
    by_cases hj : j = k
    · subst hj
      simpa using hallowed
    · simpa [hj] using h.progress.allowed j

/-- After the file was applied the loop stands at the next one. -/
theorem AtFile.advance (h : AtFile operationId row arguments k world)
    (happlied : savedStatus world.disk operationId k = some .applied) :
    AtFile operationId row arguments (k + 1) world ∧
      savedStatus world.disk operationId (k + 1) = none := by
  refine ⟨⟨h.owned, h.memory, ?_, ?_, h.progress.allowed⟩,
    h.progress.after (k + 1) (Nat.lt_succ_self k)⟩
  · intro j hj
    rcases Nat.lt_succ_iff_lt_or_eq.1 hj with hlt | rfl
    · exact h.progress.before j hlt
    · exact happlied
  · intro j hj
    exact h.progress.after j (Nat.lt_of_succ_lt hj)

/-- A side effect of the file at which the loop stands, after its `prepared`
checkpoint. -/
theorem AtFile.touched (h : AtFile operationId row arguments k before)
    (hprepared : savedStatus before.disk operationId k = some .prepared)
    (htouched : Touched k before after) :
    AtFile operationId row arguments k after := by
  refine ⟨?_, ?_, ?_⟩
  · rw [htouched.disk]
    exact h.owned
  · intro j
    rw [htouched.results, htouched.disk]
    exact h.memory j
  · rw [htouched.disk]
    refine ⟨h.progress.before, h.progress.after, fun j => ?_⟩
    by_cases hj : j = k
    · subst hj
      rw [hprepared]
      trivial
    · rw [htouched.others j hj]
      exact h.progress.allowed j

/-- The statuses with which the apply loop ends at a file. -/
def isStop (status : ChangesetFileStatus) : Prop :=
  status = .conflict ∨ status = .canceled ∨ status = .unknown

/-- The loop ended at file `k`. -/
def StoppedAt (operationId : Uuid) (row : EntryRow)
    (arguments : ChangesetArguments) (k : Nat) (world : ChangesetWorld) :
    Prop :=
  AtFile operationId row arguments k world ∧
    ∃ status, isStop status ∧
      savedStatus world.disk operationId k = some status

variable {P : ChangesetWorld → Prop} {file : ChangesetFile}

/-- A spec for every start is a spec for an assertion. -/
theorem ofStart {α : Type} {action : Exec α} {Q : α → ChangesetWorld → Prop}
    {E : Halt FileError → ChangesetWorld → Prop}
    (h : ∀ start, P start → Triple (SameFiles start) action Q E) :
    Triple P action Q E :=
  fun start hstart => h start hstart start ⟨rfl, rfl, rfl⟩

/-- The file at `k` is reported with a status that its effect allows. -/
theorem report_at {status : ChangesetFileStatus} {errorCode : Option String}
    (hP : ∀ world, P world → AtFile operationId row arguments k world ∧
      FileAllowed (some status) (world.effects k)) :
    Triple P (report host operationId k status errorCode)
      (fun _ world => AtFile operationId row arguments k world ∧
        savedStatus world.disk operationId k = some status ∧
        ∃ before, P before ∧ world.effects = before.effects)
      (fun halt world => (∃ before, P before ∧ SameFiles before world) ∧
        NotLocal halt) := by
  refine ofStart fun start hstart => report_spec.conseq (fun _ => id) ?_ ?_
  · intro _ world hreported
    obtain ⟨hat, hallowed⟩ := hP start hstart
    refine ⟨hat.report hreported hallowed, ?_, start, hstart,
      hreported.effects⟩
    rw [hreported.status k, if_pos rfl]
  · rintro halt world ⟨hsame, hnot⟩
    exact ⟨⟨start, hstart, hsame⟩, hnot⟩

/-- The loop stands at a file that no checkpoint speaks about. -/
def Waiting (operationId : Uuid) (row : EntryRow)
    (arguments : ChangesetArguments) (k : Nat) (world : ChangesetWorld) :
    Prop :=
  AtFile operationId row arguments k world ∧
    savedStatus world.disk operationId k = none

/-- The file has its `prepared` checkpoint and a known effect. -/
def Prepared (operationId : Uuid) (row : EntryRow)
    (arguments : ChangesetArguments) (k : Nat) (effect : FileEffect)
    (world : ChangesetWorld) : Prop :=
  AtFile operationId row arguments k world ∧
    savedStatus world.disk operationId k = some .prepared ∧
    world.effects k = effect

/-- Where the body of the apply loop throws to its handler. -/
def Thrown (operationId : Uuid) (row : EntryRow)
    (arguments : ChangesetArguments) (k : Nat) (halt : Halt FileError)
    (world : ChangesetWorld) : Prop :=
  AtFile operationId row arguments k world ∧
    (NotLocal halt ∨ world.effects k = .untouched)

theorem Waiting.steady (k : Nat) :
    Steady (Waiting operationId row arguments k) := by
  intro before after hsame h
  refine ⟨h.1.same hsame, ?_⟩
  rw [hsame.disk]
  exact h.2

theorem Waiting.untouched (h : Waiting operationId row arguments k world) :
    world.effects k = .untouched := by
  have hallowed := h.1.progress.allowed k
  rw [h.2] at hallowed
  exact hallowed

theorem Waiting.thrown (h : Waiting operationId row arguments k world)
    (halt : Halt FileError) : Thrown operationId row arguments k halt world :=
  ⟨h.1, .inr h.untouched⟩

/-- What `applyFile` answers: go on with the next file, or stop here. -/
def Applied (operationId : Uuid) (row : EntryRow)
    (arguments : ChangesetArguments) (k : Nat) (goOn : Bool)
    (world : ChangesetWorld) : Prop :=
  if goOn then Waiting operationId row arguments (k + 1) world
  else StoppedAt operationId row arguments k world

theorem applyBody_spec :
    Triple (Prepared operationId row arguments k .untouched)
      (do
        changeFile host k file
        report host operationId k .applied none
        return true)
      (Applied operationId row arguments k)
      (Thrown operationId row arguments k) := by
  have hchange : Triple (Prepared operationId row arguments k .untouched)
      (changeFile host k file)
      (fun _ => Prepared operationId row arguments k .completed)
      (Thrown operationId row arguments k) := by
    refine ofStart fun start hstart =>
      changeFile_spec.conseq (fun _ => id) ?_ ?_
    · rintro _ world ⟨htouched, hcompleted⟩
      refine ⟨hstart.1.touched hstart.2.1 htouched, ?_, hcompleted⟩
      rw [htouched.disk]
      exact hstart.2.1
    · rintro halt world ⟨htouched, hnot⟩
      refine ⟨hstart.1.touched hstart.2.1 htouched, hnot.imp_right ?_⟩
      intro hsame
      rw [hsame.effects]
      exact hstart.2.2
  refine Triple.bind _ hchange fun _ => ?_
  refine Triple.bind _ (Triple.conseq
    (report_at fun world (h : Prepared operationId row arguments k .completed
      world) => ⟨h.1, h.2.2⟩) (fun _ => id) (fun _ _ => id) ?_) fun _ => ?_
  · rintro halt world ⟨⟨before, hbefore, hsame⟩, hnot⟩
    exact ⟨hbefore.1.same hsame, .inl hnot⟩
  · refine Triple.pure ?_
    rintro world ⟨hat, happlied, _⟩
    exact hat.advance happlied

theorem applyFile_spec :
    Triple (Waiting operationId row arguments k)
      (applyFile host operationId file k)
      (Applied operationId row arguments k)
      (fun _ => Interrupted operationId row) := by
  refine Triple.attempt (Thrown operationId row arguments k) ?body ?handler
    fun world h => h.1.interrupted
  case body =>
    refine Triple.bind (fun _ => Waiting operationId row arguments k)
      ((authorize_spec (Waiting.steady k)).conseq (fun _ => id)
        (fun _ _ => id) fun halt world h => h.thrown halt) fun granted => ?_
    refine Triple.ite (fun _ => ?_) fun _ => ?_
    · refine Triple.bind
        (fun _ => Prepared operationId row arguments k .untouched)
        (Triple.conseq (report_at fun world
          (h : Waiting operationId row arguments k world) => ⟨h.1, trivial⟩)
          (fun _ => id) ?_ ?_) fun _ => applyBody_spec
      · rintro _ world ⟨hat, hprepared, before, hbefore, heffects⟩
        refine ⟨hat, hprepared, ?_⟩
        rw [heffects]
        exact hbefore.untouched
      · rintro halt world ⟨⟨before, hbefore, hsame⟩, _⟩
        exact (Waiting.steady k before world hsame hbefore).thrown halt
    · refine Triple.bind _ (Triple.conseq (report_at fun world
          (h : Waiting operationId row arguments k world) =>
            ⟨h.1, h.untouched⟩) (fun _ => id) (fun _ _ => id) ?_)
        fun _ => Triple.pure ?_
      · rintro halt world ⟨⟨before, hbefore, hsame⟩, _⟩
        exact (Waiting.steady k before world hsame hbefore).thrown halt
      · rintro world ⟨hat, hcanceled, _⟩
        exact ⟨hat, .canceled, .inr (.inl rfl), hcanceled⟩
  case handler =>
    intro error
    have hinterrupted : ∀ (halt : Halt FileError) world,
        (∃ before, Thrown operationId row arguments k (.thrown error) before ∧
          SameFiles before world) ∧ NotLocal halt →
        Interrupted operationId row world := by
      rintro halt world ⟨⟨before, hbefore, hsame⟩, _⟩
      exact (hbefore.1.same hsame).interrupted
    cases error with
    | localExecution code =>
      refine Triple.bind _ (Triple.conseq (report_at fun world
          (h : Thrown operationId row arguments k
            (.thrown (.localExecution code)) world) =>
          ⟨h.1, h.2.resolve_left fun hnot => hnot code rfl⟩)
          (fun _ => id) (fun _ _ => id) hinterrupted)
        fun _ => Triple.pure ?_
      rintro world ⟨hat, hconflict, _⟩
      exact ⟨hat, .conflict, .inl rfl, hconflict⟩
    | other =>
      refine Triple.bind _ (Triple.conseq (report_at fun world
          (h : Thrown operationId row arguments k (.thrown .other) world) =>
          ⟨h.1, trivial⟩) (fun _ => id) (fun _ _ => id) hinterrupted)
        fun _ => Triple.pure ?_
      rintro world ⟨hat, hunknown, _⟩
      exact ⟨hat, .unknown, .inr (.inr rfl), hunknown⟩

theorem Waiting.finished (h : Waiting operationId row arguments k world) :
    Finished operationId row arguments world := by
  refine ⟨h.1.owned, h.1.memory, .inl ⟨k, h.1.progress⟩, fun j => ?_⟩
  rcases Nat.lt_trichotomy j k with hlt | rfl | hgt
  · simp [h.1.progress.before j hlt]
  · simp [h.2]
  · simp [h.1.progress.after j hgt]

theorem StoppedAt.finished (h : StoppedAt operationId row arguments k world) :
    Finished operationId row arguments world := by
  obtain ⟨hat, status, hstop, hstatus⟩ := h
  refine ⟨hat.owned, hat.memory, .inl ⟨k, hat.progress⟩, fun j => ?_⟩
  rcases Nat.lt_trichotomy j k with hlt | rfl | hgt
  · simp [hat.progress.before j hlt]
  · rcases hstop with rfl | rfl | rfl <;> simp [hstatus]
  · simp [hat.progress.after j hgt]

theorem applyFiles_spec (files : List ChangesetFile) (k : Nat) :
    Triple (Waiting operationId row arguments k)
      (applyFiles host operationId files k)
      (fun _ => Finished operationId row arguments)
      (fun _ => Interrupted operationId row) := by
  induction files generalizing k with
  | nil => exact Triple.pure fun world h => h.finished
  | cons file rest ih =>
    refine Triple.bind _ applyFile_spec fun goOn => ?_
    refine Triple.ite (fun h => ?_) fun h => ?_
    · refine (ih (k + 1)).pre fun world happlied => ?_
      simpa [Applied, h] using happlied
    · refine Triple.pure fun world happlied => ?_
      have hstopped : StoppedAt operationId row arguments k world := by
        simpa [Applied, h] using happlied
      exact hstopped.finished

/-- A preflight conflict is the only checkpoint of its operation. -/
theorem Waiting.refuse (h : Waiting operationId row arguments 0 before)
    (hreported : Reported operationId k .conflict before after) :
    Finished operationId row arguments after := by
  have hnone : ∀ j, savedStatus before.disk operationId j = none := by
    intro j
    rcases Nat.eq_zero_or_pos j with rfl | hpos
    · exact h.2
    · exact h.1.progress.after j hpos
  refine ⟨hreported.owned h.1.owned, hreported.memory h.1.memory,
    Or.inr ⟨k, ?_, ?_, ?_⟩, fun j => ?_⟩
  · rw [hreported.status k, if_pos rfl]
  · intro j hj
    rw [hreported.status j, if_neg hj]
    exact hnone j
  · intro j
    rw [hreported.effects]
    have hallowed := h.1.progress.allowed j
    rw [hnone j] at hallowed
    exact hallowed
  · rw [hreported.status j]
    by_cases hj : j = k
    · simp [hj]
    · simp [hj, hnone j]

theorem preflight_spec (files : List ChangesetFile) (k : Nat) :
    Triple (Waiting operationId row arguments 0)
      (preflight host operationId files k)
      (fun verified world =>
        if verified then Waiting operationId row arguments 0 world
        else Finished operationId row arguments world)
      (fun _ => Interrupted operationId row) := by
  have hsteady := @Waiting.steady operationId row arguments 0
  have hrefuse : ∀ {host : ChangesetHost} (j : Nat) (code : String),
      Triple (Waiting operationId row arguments 0)
        (do
          report host operationId j .conflict (some code)
          return false)
        (fun verified world =>
          if verified then Waiting operationId row arguments 0 world
          else Finished operationId row arguments world)
        (fun _ => Interrupted operationId row) := by
    intro host j code
    refine Triple.bind (fun _ => Finished operationId row arguments)
      (ofStart fun start hstart => report_spec.conseq (fun _ => id) ?_ ?_)
      fun _ => Triple.pure fun world h => by simpa using h
    · exact fun _ world hreported => hstart.refuse hreported
    · rintro halt world ⟨hsame, _⟩
      exact (hsteady start world hsame hstart).1.interrupted
  induction files generalizing k with
  | nil => exact Triple.pure fun world h => by simpa using h
  | cons file rest ih =>
    have hverify : Triple (Waiting operationId row arguments 0)
        (attempt (do verifyFile host file; return none)
          fun error => return some error)
        (fun _ => Waiting operationId row arguments 0)
        (fun _ => Interrupted operationId row) := by
      refine Triple.attempt (fun _ => Waiting operationId row arguments 0)
        (Triple.bind _ (verifyFile_spec hsteady)
          fun _ => Triple.pure fun _ => id)
        (fun error => Triple.pure fun _ => id) fun world h => h.1.interrupted
    refine Triple.bind _ hverify fun failure => ?_
    match failure with
    | none => exact ih (k + 1)
    | some (.localExecution code) => exact hrefuse k code
    | some .other => exact hrefuse k "PREFLIGHT_FAILED"

/-- Before an execution: the operation was just begun. -/
structure Unstarted (operationId : Uuid) (row : EntryRow)
    (world : ChangesetWorld) : Prop where
  owned : Owned operationId row world.disk
  unsaved : ∀ j, savedResult world.disk operationId j = none
  untouched : ∀ j, world.effects j = .untouched

theorem Unstarted.waiting (h : Unstarted operationId row world) :
    Waiting operationId row arguments 0
      { world with results := initialChangesetResults arguments } := by
  have hnone : ∀ j, savedStatus world.disk operationId j = none := by
    intro j
    simp [savedStatus, h.unsaved j]
  refine ⟨⟨h.owned, fun j => ?_, ?_, ?_, fun j => ?_⟩, hnone 0⟩
  · simp [initialChangesetResults, h.unsaved j]
  · intro j hj
    exact absurd hj (Nat.not_lt_zero j)
  · exact fun j _ => hnone j
  · simp only [hnone j]
    exact h.untouched j

theorem executeChangeset_spec (htext : arguments.fileOrganization = false) :
    Triple (Unstarted operationId row)
      (executeChangeset host operationId arguments)
      (fun files world => Finished operationId row arguments world ∧
        files = world.results)
      (fun _ => Interrupted operationId row) := by
  refine Triple.bind (fun _ => Waiting operationId row arguments 0)
    (Triple.update fun world h => h.waiting) fun _ => ?_
  refine Triple.ite (fun h => by simp [htext] at h) fun _ => ?_
  refine Triple.bind _ (preflight_spec arguments.files 0) fun verified => ?_
  refine Triple.bind (fun _ => Finished operationId row arguments)
    (Triple.ite (fun h => ?_) fun h => ?_) fun _ => ?_
  · refine (applyFiles_spec arguments.files 0).pre fun world hworld => ?_
    simpa [h] using hworld
  · refine Triple.pure fun world hworld => ?_
    simpa [h] using hworld
  · refine Triple.bind
      (fun read world => Finished operationId row arguments world ∧
        read.results = world.results)
      (Triple.read fun world h => ⟨h, rfl⟩) fun read => ?_
    exact Triple.pure fun world h => h

/-- A finished execution reports what a restart would have rebuilt. -/
theorem Finished.results_eq (h : Finished operationId row arguments world) :
    world.results = recoveredFiles world.disk operationId arguments := by
  refine List.ext_getElem? fun j => ?_
  rw [h.memory j, recoveredFiles_getElem?]
  cases hsaved : savedResult world.disk operationId j with
  | none => rfl
  | some result =>
    have hstatus := h.settled j
    simp only [savedStatus, hsaved, Option.map_some, ne_eq,
      Option.some.injEq] at hstatus
    simp [settledResult, hstatus]

end Execution

end Allrice
