/-
A text changeset from `begin` to its final report.  A new operation has no
checkpoint, so the execution starts where its specification wants it; after it
ended, however it ended, any number of restarts leads to the one report that
the checkpoints justify.
-/
import Allrice.ChangesetReport
import Allrice.JournalWrites

namespace Allrice

open Tx Program

variable {disk next : JournalDisk} {row : EntryRow} {operationId : Uuid}
  {receipt : RuntimeBridgeReceipt}

theorem savedResult_congr (h : next.changesetFiles = disk.changesetFiles)
    (j : Nat) :
    savedResult next operationId j = savedResult disk operationId j := by
  simp [savedResult, h]

theorem checkpointFile?_executing {index : Nat} {file : ChangesetFile}
    (h : checkpointFile? row index = some file) : row.state = .executing := by
  unfold checkpointFile? at h
  split at h
  · rename_i hstate _
    exact hstate
  · simp at h

variable {receiptId : Uuid} {signal : RuntimeOperationSignal}
  {evidence : Option ReceiptEvidence} {state : EntryState}

theorem settle_checkpoints {host : JournalHost}
    (h : settle host row receiptId signal evidence state disk =
      .ok (receipt, next)) : next.changesetFiles = disk.changesetFiles := by
  obtain ⟨_, _, _, _, _, rfl⟩ := settle_eq_ok h
  rfl

/-- No write but a checkpoint touches the checkpoints. -/
theorem JournalWrite.checkpoints {call : JournalCall}
    (h : JournalWrite call disk next) :
    next.changesetFiles = disk.changesetFiles ∨
      ∃ operationId index file,
        (disk.record operationId).state = some .executing ∧
          next = putChangesetFile disk ⟨operationId, index, file⟩ := by
  cases h with
  | checkpoint hrow hfile hput =>
    refine .inr ⟨_, _, _, ?_, hput.symm⟩
    rw [record_state hrow, checkpointFile?_executing hfile]
  | _ => exact .inl rfl

/-- What the recovery of one operation leaves alone. -/
structure RecoversOnly (target : Uuid) (disk next : JournalDisk) : Prop where
  checkpoints : next.changesetFiles = disk.changesetFiles
  active : ∃ row, disk.entries.find? target = some row ∧ isActive row = true
  entries : ∀ operationId, operationId ≠ target →
    next.entries.find? operationId = disk.entries.find? operationId
  receipts : ∀ operationId, operationId ≠ target →
    receiptsOf next operationId = receiptsOf disk operationId

theorem settle_recoversOnly {host : JournalHost}
    (hrow : disk.entries.find? operationId = some row)
    (hactive : isActive row = true)
    (h : settle host row receiptId signal evidence state disk =
      .ok (receipt, next)) : RecoversOnly operationId disk next := by
  have hframe := (settle_record hrow h).2
  have hcheckpoints := settle_checkpoints h
  refine ⟨hcheckpoints, ⟨row, hrow, hactive⟩, ?_, ?_⟩
  · intro other hother
    obtain ⟨_, _, _, _, _, rfl⟩ := settle_eq_ok h
    have hkey := Table.key_of_find? hrow
    have hne : row.operationId ≠ other := fun heq => hother (heq ▸ hkey)
    rw [Table.find?_replace, if_neg hne]
  · intro other hother
    exact congrArg OperationRecord.receipts (hframe other hother)

theorem recoverEntry_recoversOnly {host : JournalHost} {inputs : ReceiptInputs}
    (h : recoverEntry host row inputs disk = .ok (receipt, next)) :
    RecoversOnly row.operationId disk next := by
  rcases recoverEntry_eq_ok h with ⟨_, hcall⟩ | ⟨_, hcall⟩
  · obtain ⟨_, hrow, hactive, _, _, hsettle, _⟩ := outcome_eq_ok hcall
    exact settle_recoversOnly hrow hactive hsettle
  · obtain ⟨_, hrow, hactive, hsettle⟩ := uncertain_eq_ok hcall
    exact settle_recoversOnly hrow hactive hsettle

/-- What one step does to the checkpoints. -/
theorem step_checkpoints (host : JournalHost) (s : JournalState)
    (action : JournalAction) :
    ((journalMachine host).step s action).1.disk.changesetFiles =
        s.disk.changesetFiles ∨
      ∃ operationId index file,
        (s.disk.record operationId).state = some .executing ∧
          ((journalMachine host).step s action).1.disk =
            putChangesetFile s.disk ⟨operationId, index, file⟩ := by
  obtain ⟨_, hwrite, _⟩ := (journalStep_writes host s action).disk
  exact hwrite.checkpoints

/-- An operation with a checkpoint has been started. -/
def SavedStarted (s : JournalState) : Prop :=
  ∀ operationId j, savedResult s.disk operationId j ≠ none →
    isStarted (s.disk.record operationId).state = true

theorem step_savedStarted (host : JournalHost) (s : JournalState)
    (action : JournalAction) (h : SavedStarted s) :
    SavedStarted ((journalMachine host).step s action).1 := by
  intro operationId j hsaved
  refine (step_makes host s action).started ?_
  rcases step_checkpoints host s action with
    hsame | ⟨target, index, file, hexecuting, hput⟩
  · rw [savedResult_congr hsame] at hsaved
    exact h operationId j hsaved
  · by_cases htarget : operationId = target
    · subst htarget
      rw [hexecuting]
      rfl
    · obtain ⟨files, hfiles⟩ := putChangesetFile_eq s.disk
        ⟨target, index, file⟩
      have hother : savedResult (putChangesetFile s.disk
          ⟨target, index, file⟩) operationId j =
          savedResult s.disk operationId j :=
        savedResult_put_ne s.disk htarget index file j
      rw [hput, hother] at hsaved
      exact h operationId j hsaved

theorem reachable_savedStarted (host : JournalHost)
    (actions : List JournalAction) :
    SavedStarted ((journalMachine host).after .initial actions) := by
  refine Machine.after_invariant SavedStarted (step_savedStarted host) ?_
    actions
  intro operationId j hsaved
  exact absurd rfl hsaved

/-- `begin` leaves an operation that nothing was done for yet. -/
theorem begin_unstarted {host : JournalHost} {past : List JournalAction}
    {world : ChangesetWorld}
    (hbegin : begin operationId
      ((journalMachine host).after .initial past).disk =
        .ok (receiptId, world.disk))
    (hrow : world.disk.entries.find? operationId = some row)
    (heffects : ∀ j, world.effects j = .untouched) :
    row.state = .executing ∧ Unstarted operationId row world := by
  have hagree := reachable_receiptsAgree host past operationId
  have hsaved := reachable_savedStarted host past operationId
  generalize ((journalMachine host).after .initial past).disk = disk at *
  obtain ⟨old, hold, hstate, _, hnext⟩ := begin_eq_ok hbegin
  have hkey := Table.key_of_find? hold
  rw [hnext, Table.find?_replace, if_pos hkey, hold] at hrow
  simp only [Option.map_some, Option.some.injEq] at hrow
  have hrecord : (disk.record operationId).state = some .received := by
    rw [record_state hold, hstate]
  refine ⟨by rw [← hrow], ⟨?_, ?_⟩, ?_, heffects⟩
  · rw [hnext, Table.find?_replace, if_pos hkey, hold, ← hrow]
    rfl
  · have hreceipts : receiptsOf disk operationId = [] := by
      rw [ReceiptsAgree, hrecord] at hagree
      exact hagree
    rw [hnext]
    exact hreceipts
  · intro j
    have hsame : savedResult world.disk operationId j =
        savedResult disk operationId j := savedResult_congr (by rw [hnext]) j
    rw [hsame]
    by_contra hsome
    have hstarted := hsaved j hsome
    rw [hrecord] at hstarted
    simp [isStarted] at hstarted

/-- What happens to a journal until it is usable again. -/
def isRestart : JournalAction → Bool
  | .openJournal | .recover _ _ _ | .close | .crash => true
  | .enter _ _ | .perform _ _ => false

section Restart

variable (operationId : Uuid) (row : EntryRow) (arguments : ChangesetArguments)

/-- A journal between the end of an execution and its next use. -/
structure Restarted (ended : JournalDisk) (s : JournalState) : Prop where
  checkpoints : s.disk.changesetFiles = ended.changesetFiles
  stands : Ended operationId row arguments s.disk
  process : match s.process with
    | .down => True
    | .recovering rows =>
      (∀ other ∈ rows, other.operationId = operationId → other = row) ∧
        (Owned operationId row s.disk → row ∈ rows)
    | .live _ => FinallyReported operationId arguments s.disk

variable {operationId row arguments} {disk ended : JournalDisk}

theorem Owned.not_reported (howned : Owned operationId row disk)
    (h : FinallyReported operationId arguments disk) : False := by
  obtain ⟨receipt, hreceipts, _⟩ := h.report
  rw [howned.receipts] at hreceipts
  simp at hreceipts

variable {target : Uuid}

theorem RecoversOnly.owned_iff (h : RecoversOnly target disk next)
    (hne : operationId ≠ target) :
    Owned operationId row next ↔ Owned operationId row disk := by
  have hentries := h.entries operationId hne
  have hreceipts := h.receipts operationId hne
  constructor
  · rintro ⟨hrow, hnil⟩
    exact ⟨hentries ▸ hrow, hreceipts ▸ hnil⟩
  · rintro ⟨hrow, hnil⟩
    exact ⟨hentries ▸ hrow, hreceipts ▸ hnil⟩

theorem RecoversOnly.reported (h : RecoversOnly target disk next)
    (hne : operationId ≠ target)
    (hreported : FinallyReported operationId arguments disk) :
    FinallyReported operationId arguments next := by
  obtain ⟨⟨receipt, hreceipts, hreport⟩, hclosed⟩ := hreported
  refine ⟨⟨receipt, ?_, ?_⟩, fun row hrow => hclosed row ?_⟩
  · rw [h.receipts operationId hne, hreceipts]
  · rwa [recoveredFiles_congr h.checkpoints]
  · rwa [h.entries operationId hne] at hrow

/-- Recovering one row keeps the invariant. -/
theorem recoverNext_restarted {host : JournalHost} {rows : List EntryRow}
    {inputs : ReceiptInputs} {path : PathCheck} {fault : Bool}
    (hexecuting : row.state = .executing)
    (hpayload : row.dispatch.payload = .changeset arguments)
    (h : Restarted operationId row arguments ended ⟨disk, .recovering rows⟩) :
    Restarted operationId row arguments ended
      (recoverNext host disk rows inputs path fault).1 := by
  obtain ⟨hcheckpoints, hstands, hsame, hleft⟩ := h
  have hdown : Restarted operationId row arguments ended ⟨disk, .down⟩ :=
    ⟨hcheckpoints, hstands, trivial⟩
  unfold recoverNext
  split
  · refine ⟨hcheckpoints, hstands, hstands.resolve_left fun howned => ?_⟩
    exact absurd (hleft howned) List.not_mem_nil
  · rename_i head rest
    split
    · exact hdown
    · exact hdown
    · exact hdown
    · rename_i next _ hrecover
      have honly := recoverEntry_recoversOnly hrecover
      have hnext : next.changesetFiles = ended.changesetFiles :=
        honly.checkpoints.trans hcheckpoints
      have hrest : ∀ other ∈ rest, other.operationId = operationId →
          other = row := fun other hother =>
        hsame other (List.mem_cons_of_mem head hother)
      by_cases htarget : operationId = head.operationId
      · have hhead : head = row := hsame head List.mem_cons_self htarget.symm
        subst hhead
        obtain ⟨found, hfound, hactive⟩ := honly.active
        rw [← htarget] at hfound
        rcases hstands with howned | hreported
        · obtain ⟨hconcluded, hreport⟩ :=
            recoverEntry_report hexecuting hpayload hrecover
          rw [← htarget] at hconcluded hreport
          have hreported := hconcluded.reported howned hreport
          refine ⟨hnext, .inr hreported, hrest, fun hagain => ?_⟩
          exact absurd hreported fun hr => hagain.not_reported hr
        · have hclosed := hreported.closed found hfound
          simp [hactive] at hclosed
      · refine ⟨hnext, ?_, hrest, fun howned => ?_⟩
        · rcases hstands with howned | hreported
          · exact .inl ((honly.owned_iff htarget).2 howned)
          · exact .inr (honly.reported htarget hreported)
        · have hmem := hleft ((honly.owned_iff htarget).1 howned)
          rcases List.mem_cons.1 hmem with hhead | hrest
          · have hkey := Table.key_of_find?
              ((honly.owned_iff htarget).1 howned).entry
            exact absurd (hhead ▸ hkey.symm) htarget
          · exact hrest

theorem step_restarted {host : JournalHost}
    (hexecuting : row.state = .executing)
    (hpayload : row.dispatch.payload = .changeset arguments) (s : JournalState)
    (action : JournalAction) (hrestart : isRestart action = true)
    (h : Restarted operationId row arguments ended s) :
    Restarted operationId row arguments ended
      ((journalMachine host).step s action).1 := by
  obtain ⟨disk, process⟩ := s
  have hactive : isActive row = true := isActive_iff.2 (.inr hexecuting)
  cases action with
  | openJournal =>
    simp only [journalMachine, journalStep]
    split
    · refine ⟨h.checkpoints, h.stands, ?_, fun howned => ?_⟩
      · intro other hother hid
        obtain ⟨hmem, hother⟩ := List.mem_filter.1 hother
        have hfound := Table.find?_of_mem hmem
        rw [hid] at hfound
        rcases h.stands with howned | hreported
        · rw [howned.entry] at hfound
          exact (Option.some.inj hfound).symm
        · have hclosed := hreported.closed other hfound
          simp [hother] at hclosed
      · exact List.mem_filter.2 ⟨Table.mem_of_find? howned.entry, hactive⟩
    · exact h
  | recover inputs path fault =>
    cases process with
    | recovering rows => exact recoverNext_restarted hexecuting hpayload h
    | _ => exact h
  | close =>
    cases process with
    | live journal => exact ⟨h.checkpoints, h.stands, h.process⟩
    | _ => exact h
  | crash => exact ⟨h.checkpoints, h.stands, trivial⟩
  | enter call path | perform index fault => simp [isRestart] at hrestart

theorem run_restarted {host : JournalHost} (hexecuting : row.state = .executing)
    (hpayload : row.dispatch.payload = .changeset arguments)
    (restarts : List JournalAction)
    (hrestarts : ∀ action ∈ restarts, isRestart action = true)
    {s : JournalState} (h : Restarted operationId row arguments ended s) :
    Restarted operationId row arguments ended
      ((journalMachine host).after s restarts) := by
  induction restarts generalizing s with
  | nil => exact h
  | cons action rest ih =>
    have hhead := hrestarts action List.mem_cons_self
    refine ih (fun next hnext => ?_)
      (step_restarted hexecuting hpayload s action hhead h)
    exact hrestarts next (List.mem_cons_of_mem action hnext)

end Restart

/-- For every text changeset, every behaviour of the file system, of the
authorization callback and of the journal, and every crash: an execution and
the restarts after it lead to at most one report, a journal that is usable again
has it, and it says of every file only what its side effect and its checkpoint
justify. -/
theorem changeset_report_sound (host : ChangesetHost)
    (past : List JournalAction) (operationId receiptId : Uuid)
    (row : EntryRow) (arguments : ChangesetArguments) (world : ChangesetWorld)
    (hbegin : begin operationId
      ((journalMachine host.journal).after .initial past).disk =
        .ok (receiptId, world.disk))
    (hrow : world.disk.entries.find? operationId = some row)
    (hpayload : row.dispatch.payload = .changeset arguments)
    (htext : arguments.fileOrganization = false)
    (heffects : ∀ i, world.effects i = .untouched)
    (inputs : ReceiptInputs) (restarts : List JournalAction)
    (hrestarts : ∀ action ∈ restarts, isRestart action = true) :
    let ended := (handleChangeset host operationId arguments inputs world).2
    let final := (journalMachine host.journal).after ⟨ended.disk, .down⟩
      restarts
    (∀ receipt ∈ receiptsOf final.disk operationId,
      receiptsOf final.disk operationId = [receipt] ∧
        ∃ files, files.length = arguments.files.length ∧
          IsReportOf receipt files ∧
          FilesSound ended.effects (savedStatus ended.disk operationId)
            files) ∧
      ((∃ journal, final.process = .live journal) →
        receiptsOf final.disk operationId ≠ []) := by
  intro ended final
  obtain ⟨hexecuting, hunstarted⟩ := begin_unstarted hbegin hrow heffects
  have hended : Ended operationId row arguments ended.disk ∧
      InOrder (savedStatus ended.disk operationId) ended.effects :=
    (handleChangeset_spec htext).either hunstarted
  have hfinal : Restarted operationId row arguments ended.disk final :=
    run_restarted hexecuting hpayload restarts hrestarts
      ⟨rfl, hended.1, trivial⟩
  refine ⟨fun receipt hreceipt => ?_, ?_⟩
  · rcases hfinal.stands with howned | hreported
    · rw [howned.receipts] at hreceipt
      exact absurd hreceipt List.not_mem_nil
    · obtain ⟨only, honly, hreport⟩ := hreported.report
      rw [honly, List.mem_singleton] at hreceipt
      subst hreceipt
      rw [recoveredFiles_congr hfinal.checkpoints] at hreport
      exact ⟨honly, _, recoveredFiles_length, hreport,
        recoveredFiles_sound hended.2⟩
  · rintro ⟨journal, hlive⟩ hnil
    have hprocess := hfinal.process
    rw [hlive] at hprocess
    obtain ⟨only, honly, _⟩ := hprocess.report
    rw [hnil] at honly
    simp at honly

namespace ChangesetRestartWitness

open JournalRunWitness

/-- One file is replaced and another one is created. -/
def arguments : ChangesetArguments where
  artifactId := 70
  checksum := 71
  direction := .apply
  fileOrganization := false
  files := [
    ⟨"a.txt", some ⟨[97], 80⟩, some ⟨[98], 80⟩, none⟩,
    ⟨"b.txt", none, some ⟨[99], 80⟩, none⟩]

def dispatch : RuntimeBridgeDispatch := dispatchOf 7 (.changeset arguments)

def past : List JournalAction := session 0 [.receive dispatch 60 4096]

/-- The process ends in the middle of changing the second file. -/
def crashing : ChangesetHost where
  journal := host
  crashes n := n = 15
  journalFaults _ := false
  authorize _ := .granted
  inspect _ := none
  commitFails _ := false
  sha256 _ := 80
  executeFileOrganization _ := raise .other

def begun : JournalDisk :=
  match begin 7 ((journalMachine crashing.journal).after .initial past).disk with
  | .ok (_, disk) => disk
  | .error _ => .empty

def world : ChangesetWorld := ⟨begun, [], fun _ => .untouched, 0⟩

def executing : EntryRow where
  operationId := 7
  fingerprint := 2
  dispatch := dispatch
  state := .executing
  startReceiptId := 60

theorem begin_begun :
    begin 7 ((journalMachine crashing.journal).after .initial past).disk =
      .ok (60, begun) := by
  have hid : (begin 7 ((journalMachine crashing.journal).after .initial past).disk).map
      (·.1) = .ok 60 := by decide
  unfold begun
  cases hbegin : begin 7 ((journalMachine crashing.journal).after .initial past).disk with
  | error failure => simp [hbegin, Except.map] at hid
  | ok pair =>
    rw [hbegin] at hid
    simp only [Except.map, Except.ok.injEq] at hid
    simp [← hid]

def restarts : List JournalAction :=
  [.openJournal, .recover ⟨92, 93, 0⟩ .unchanged false, .crash]

theorem changeset_report_sound_crashed :
    let ended := (handleChangeset crashing 7 arguments ⟨90, 91, 0⟩ world).2
    let final := (journalMachine crashing.journal).after ⟨ended.disk, .down⟩
      restarts
    ended.effects 1 = .begun ∧
      ∃ receipt, receiptsOf final.disk 7 = [receipt] ∧
        ∃ files, files.length = arguments.files.length ∧
          IsReportOf receipt files ∧
          FilesSound ended.effects (savedStatus ended.disk 7) files := by
  have hsound := (changeset_report_sound crashing past 7 60 executing arguments
    world begin_begun (by decide +kernel) rfl rfl (fun _ => rfl) ⟨90, 91, 0⟩
    restarts (by decide)).1
  have hone : (receiptsOf ((journalMachine crashing.journal).after
      ⟨(handleChangeset crashing 7 arguments ⟨90, 91, 0⟩ world).2.disk, .down⟩
      restarts).disk 7).length = 1 := by decide +kernel
  obtain ⟨receipt, hreceipt⟩ := List.length_eq_one_iff.1 hone
  refine ⟨by decide +kernel, receipt, hsound receipt ?_⟩
  rw [hreceipt]
  exact List.mem_singleton_self receipt

end ChangesetRestartWitness

end Allrice
