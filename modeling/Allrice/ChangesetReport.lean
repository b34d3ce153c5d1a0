/-
The final report of a text changeset.  It is produced by the execution itself
or by the recovery of a later start of the Bridge; either way it is the same
function of the checkpoints, so one argument covers every crash.
-/
import Allrice.ChangesetSafety

namespace Allrice

open Tx Program

/-- A report and the status of its operation tell the same story. -/
def ReportAgrees (signal : RuntimeOperationSignal)
    (files : List ChangesetFileResult) : Prop :=
  match signal with
  | .uncertain _ => ∃ file ∈ files, file.status = .unknown
  | .stopped _ effects =>
    effects = .none ∧ appliedCount files = 0 ∧
      (∀ file ∈ files, file.status ≠ .unknown) ∧
      ∃ file ∈ files, file.status = .canceled
  | .outcome result =>
    (∀ file ∈ files, file.status ≠ .unknown) ∧
      result.status =
        (changesetStatus (appliedCount files) files.length).toResult ∧
      result.effects = changesetEffects (appliedCount files) files.length
  | _ => False

/-- The receipt carries the per-file report and agrees with it. -/
def IsReportOf (receipt : RuntimeBridgeReceipt)
    (files : List ChangesetFileResult) : Prop :=
  receipt.evidence.bind (·.output) = some (.changeset files) ∧
    ReportAgrees receipt.signal files

/-- What a per-file report may say about the files. -/
structure FilesSound (effects : Nat → FileEffect)
    (saved : Nat → Option ChangesetFileStatus)
    (files : List ChangesetFileResult) : Prop where
  untouched : ∀ (i : Nat) (file : ChangesetFileResult), files[i]? = some file →
    file.status = .pending ∨ file.status = .canceled →
    effects i = .untouched
  applied : ∀ (i : Nat) (file : ChangesetFileResult), files[i]? = some file →
    file.status = .applied →
    effects i = .completed ∧ saved i = some .applied
  ordered : ∀ (i : Nat) (file : ChangesetFileResult),
    files[i + 1]? = some file → file.status ≠ .pending →
    (∃ previous : ChangesetFileResult,
      files[i]? = some previous ∧ previous.status = .applied) ∨
      (file.status = .conflict ∧ (∀ j, effects j = .untouched) ∧
        ∀ (j : Nat) (other : ChangesetFileResult), j ≠ i + 1 →
          files[j]? = some other → other.status = .pending)

/-- The status that a report shows for a checkpoint. -/
def shownStatus : Option ChangesetFileStatus → ChangesetFileStatus
  | none => .pending
  | some .prepared => .unknown
  | some status => status

variable {disk next : JournalDisk} {operationId : Uuid}
  {arguments : ChangesetArguments} {host : JournalHost}
  {receipt : RuntimeBridgeReceipt} {files : List ChangesetFileResult}
  {inputs : ReceiptInputs} {i : Nat} {file : ChangesetFileResult}
  {row : EntryRow} {summary : JsString}

theorem recoveredFiles_status
    (h : (recoveredFiles disk operationId arguments)[i]? = some file) :
    file.status = shownStatus (savedStatus disk operationId i) := by
  rw [recoveredFiles_getElem?] at h
  obtain ⟨payload, _, hfile⟩ := Option.map_eq_some_iff.1 h
  unfold savedStatus
  cases hsaved : savedResult disk operationId i with
  | none =>
    simp only [hsaved, Option.map_none, Option.getD_none] at hfile
    subst hfile
    rfl
  | some result =>
    simp only [hsaved, Option.map_some, Option.getD_some] at hfile
    subst hfile
    unfold settledResult
    cases hstatus : result.status <;> simp [shownStatus, hstatus]

theorem recoveredFiles_length :
    (recoveredFiles disk operationId arguments).length =
      arguments.files.length := by
  unfold recoveredFiles
  generalize disk.changesetFiles.rows.filter (·.operationId = operationId) =
    rows
  have hinitial : (initialChangesetResults arguments).length =
      arguments.files.length := List.length_map _
  rw [← hinitial]
  generalize initialChangesetResults arguments = files
  induction rows generalizing files with
  | nil => rfl
  | cons head tail ih =>
    rw [List.foldl_cons, ih, List.length_set]

theorem recoveredFiles_previous
    (h : (recoveredFiles disk operationId arguments)[i + 1]? = some file) :
    ∃ previous,
      (recoveredFiles disk operationId arguments)[i]? = some previous := by
  have hlt := (List.getElem?_eq_some_iff.1 h).1
  exact ⟨_, List.getElem?_eq_getElem (Nat.lt_of_succ_lt hlt)⟩

theorem recoveredFiles_sound {effects : Nat → FileEffect}
    (h : InOrder (savedStatus disk operationId) effects) :
    FilesSound effects (savedStatus disk operationId)
      (recoveredFiles disk operationId arguments) := by
  rcases h with ⟨k, hprogress⟩ | ⟨k, hrefused⟩
  · refine ⟨?_, ?_, ?_⟩
    · intro i file hfile hstatus
      rw [recoveredFiles_status hfile] at hstatus
      have hallowed := hprogress.allowed i
      cases hsaved : savedStatus disk operationId i with
      | none =>
        rw [hsaved] at hallowed
        exact hallowed
      | some status =>
        rw [hsaved] at hallowed hstatus
        cases status <;> simp_all [shownStatus, FileAllowed]
    · intro i file hfile hstatus
      rw [recoveredFiles_status hfile] at hstatus
      have hallowed := hprogress.allowed i
      cases hsaved : savedStatus disk operationId i with
      | none => simp [hsaved, shownStatus] at hstatus
      | some status =>
        rw [hsaved] at hallowed hstatus
        cases status <;> simp_all [shownStatus, FileAllowed]
    · intro i file hfile hstatus
      left
      obtain ⟨previous, hprevious⟩ := recoveredFiles_previous hfile
      refine ⟨previous, hprevious, ?_⟩
      have hreached : i + 1 ≤ k := by
        by_contra hlt
        rw [recoveredFiles_status hfile,
          hprogress.after (i + 1) (Nat.lt_of_not_le hlt)] at hstatus
        exact hstatus rfl
      rw [recoveredFiles_status hprevious, hprogress.before i hreached]
      rfl
  · have hpending : ∀ j other, j ≠ k →
        (recoveredFiles disk operationId arguments)[j]? = some other →
        other.status = .pending := by
      intro j other hj hother
      rw [recoveredFiles_status hother, hrefused.others j hj]
      rfl
    refine ⟨fun i _ _ _ => hrefused.untouched i, ?_, ?_⟩
    · intro i file hfile hstatus
      by_cases hi : i = k
      · rw [recoveredFiles_status hfile, hi, hrefused.conflict] at hstatus
        simp [shownStatus] at hstatus
      · simp [hpending i file hi hfile] at hstatus
    · intro i file hfile hstatus
      right
      have hk : i + 1 = k := by
        by_contra hne
        exact hstatus (hpending (i + 1) file hne hfile)
      refine ⟨?_, hrefused.untouched, fun j other hj => ?_⟩
      · rw [recoveredFiles_status hfile, hk, hrefused.conflict]
        rfl
      · exact hpending j other (hk ▸ hj)

/-- What a report through `settle` leaves: its receipt is the newest one of
the operation, which is not active any more, and the checkpoints stay. -/
structure Concluded (operationId : Uuid) (disk next : JournalDisk)
    (receipt : RuntimeBridgeReceipt) : Prop where
  receipts : receiptsOf next operationId =
    receiptsOf disk operationId ++ [receipt]
  checkpoints : next.changesetFiles = disk.changesetFiles
  closed : ∀ row, next.entries.find? operationId = some row →
    isActive row = false

theorem settle_concluded {receiptId : Uuid} {signal : RuntimeOperationSignal}
    {evidence : Option ReceiptEvidence} {state : EntryState}
    (hrow : disk.entries.find? operationId = some row)
    (hstate : state = .completed ∨ state = .unknown)
    (h : settle host row receiptId signal evidence state disk =
      .ok (receipt, next)) : Concluded operationId disk next receipt := by
  have hrecord := (settle_record hrow h).1
  obtain ⟨_, _, _, _, _, rfl⟩ := settle_eq_ok h
  refine ⟨congrArg OperationRecord.receipts hrecord, rfl, fun final hfinal => ?_⟩
  have hkey := Table.key_of_find? hrow
  rw [Table.find?_replace, if_pos hkey, hrow] at hfinal
  simp only [Option.map_some, Option.some.injEq] at hfinal
  subst hfinal
  rcases hstate with rfl | rfl <;> rfl

theorem any_unknown_iff :
    files.any (·.status = .unknown) = true ↔
      ∃ file ∈ files, file.status = .unknown := by
  simp

theorem uncertain_report {reason : UncertainReason}
    (hunknown : files.any (·.status = .unknown) = true)
    (h : uncertain host operationId reason
      (some ⟨summary, some (.changeset files), none⟩) inputs disk =
        .ok (receipt, next)) :
    Concluded operationId disk next receipt ∧ IsReportOf receipt files := by
  obtain ⟨row, hrow, _, hsettle⟩ := uncertain_eq_ok h
  obtain ⟨hsignal, hevidence, _⟩ := settle_eq_ok hsettle
  refine ⟨settle_concluded hrow (.inr rfl) hsettle, ?_, ?_⟩
  · rw [hevidence]
    rfl
  · rw [hsignal]
    exact any_unknown_iff.1 hunknown

theorem outcome_report (hknown : ¬files.any (·.status = .unknown) = true)
    (h : outcome host operationId
      { status := changesetStatus (appliedCount files) files.length
        effects := changesetEffects (appliedCount files) files.length
        summary
        output := some (.changeset files)
        errorCode := none } inputs disk = .ok (receipt, next)) :
    Concluded operationId disk next receipt ∧ IsReportOf receipt files := by
  obtain ⟨row, hrow, _, ref, evidence, hsettle, houtput⟩ := outcome_eq_ok h
  obtain ⟨hsignal, hevidence, _⟩ := settle_eq_ok hsettle
  refine ⟨settle_concluded hrow (.inl rfl) hsettle, ?_, ?_⟩
  · rw [hevidence]
    exact houtput
  · rw [hsignal]
    refine ⟨fun file hfile hstatus => ?_, rfl, rfl⟩
    exact hknown (any_unknown_iff.2 ⟨file, hfile, hstatus⟩)

theorem reportChangeset_report
    (h : reportChangeset host operationId files inputs disk =
      .ok (receipt, next)) :
    Concluded operationId disk next receipt ∧ IsReportOf receipt files := by
  unfold reportChangeset at h
  rcases ite_eq_ok.1 h with ⟨hunknown, huncertain⟩ | ⟨hknown, h⟩
  · exact uncertain_report hunknown huncertain
  rcases ite_eq_ok.1 h with ⟨⟨hnone, hcanceled⟩, hstopped⟩ | ⟨_, houtcome⟩
  · obtain ⟨row, hrow, _, ref, evidence, hsettle, houtput⟩ :=
      stopped_eq_ok hstopped
    obtain ⟨hsignal, hevidence, _⟩ := settle_eq_ok hsettle
    refine ⟨settle_concluded hrow (.inl rfl) hsettle, ?_, ?_⟩
    · rw [hevidence]
      exact houtput
    · rw [hsignal]
      refine ⟨rfl, hnone, fun file hfile hstatus => ?_, by simpa using hcanceled⟩
      exact hknown (any_unknown_iff.2 ⟨file, hfile, hstatus⟩)
  · exact outcome_report hknown houtcome

theorem recoverEntry_report (hstate : row.state = .executing)
    (hpayload : row.dispatch.payload = .changeset arguments)
    (h : recoverEntry host row inputs disk = .ok (receipt, next)) :
    Concluded row.operationId disk next receipt ∧
      IsReportOf receipt (recoveredFiles disk row.operationId arguments) := by
  simp only [recoverEntry, hstate, hpayload, get_bind_eq_ok] at h
  rcases ite_eq_ok.1 h with ⟨hunknown, huncertain⟩ | ⟨hknown, houtcome⟩
  · exact uncertain_report hunknown huncertain
  · exact outcome_report hknown houtcome

section Report

variable (operationId : Uuid) (row : EntryRow) (arguments : ChangesetArguments)

/-- The operation carries its one report. -/
structure FinallyReported (disk : JournalDisk) : Prop where
  report : ∃ receipt, receiptsOf disk operationId = [receipt] ∧
    IsReportOf receipt (recoveredFiles disk operationId arguments)
  closed : ∀ row, disk.entries.find? operationId = some row →
    isActive row = false

/-- Where an execution leaves the journal, however it ends. -/
def Ended (disk : JournalDisk) : Prop :=
  Owned operationId row disk ∨ FinallyReported operationId arguments disk

variable {operationId row arguments} {disk next : JournalDisk}

theorem recoveredFiles_congr (h : next.changesetFiles = disk.changesetFiles) :
    recoveredFiles next operationId arguments =
      recoveredFiles disk operationId arguments := by
  simp [recoveredFiles, h]

theorem savedStatus_congr (h : next.changesetFiles = disk.changesetFiles) :
    savedStatus next operationId = savedStatus disk operationId := by
  funext j
  simp [savedStatus, savedResult, h]

theorem Concluded.reported (h : Concluded operationId disk next receipt)
    (howned : Owned operationId row disk)
    (hreport : IsReportOf receipt (recoveredFiles disk operationId arguments)) :
    FinallyReported operationId arguments next := by
  refine ⟨⟨receipt, ?_, ?_⟩, h.closed⟩
  · rw [h.receipts, howned.receipts]
    rfl
  · rwa [recoveredFiles_congr h.checkpoints]

/-- However the client's branch ends, the checkpoints are in order, and either
the operation has no receipt or the one that reports the checkpoints. -/
theorem handleChangeset_spec {host : ChangesetHost}
    (htext : arguments.fileOrganization = false) :
    Triple (Unstarted operationId row)
      (handleChangeset host operationId arguments inputs)
      (fun _ world => Ended operationId row arguments world.disk ∧
        InOrder (savedStatus world.disk operationId) world.effects)
      (fun _ world => Ended operationId row arguments world.disk ∧
        InOrder (savedStatus world.disk operationId) world.effects) := by
  have hinterrupted : ∀ (halt : Halt FileError) world,
      Interrupted operationId row world →
      Ended operationId row arguments world.disk ∧
        InOrder (savedStatus world.disk operationId) world.effects :=
    fun _ _ h => ⟨.inl h.1, h.2⟩
  refine Triple.bind _ (Triple.conseq (executeChangeset_spec htext)
    (fun _ => id) (fun _ _ => id) hinterrupted) fun files => ?_
  refine ofStart fun start hstart =>
    Triple.conseq journalTx_spec (fun _ => id) ?_ ?_
  · rintro receipt world ⟨hmethod, _, heffects⟩
    obtain ⟨hfinished, hfiles⟩ := hstart
    obtain ⟨hconcluded, hreport⟩ := reportChangeset_report hmethod
    rw [hfiles, hfinished.results_eq] at hreport
    refine ⟨.inr (hconcluded.reported hfinished.owned hreport), ?_⟩
    rw [savedStatus_congr hconcluded.checkpoints, heffects]
    exact hfinished.order
  · rintro halt world ⟨hsame, _⟩
    rw [hsame.disk, hsame.effects]
    exact ⟨.inl hstart.1.owned, hstart.1.order⟩

end Report

end Allrice
