/-
What an accepted write of a recurring schedule emits.  Every occurrence belongs
to the applied revision, whose rule the task that was put matches; it is pending
just when the automation may run it; and a write that changes the applied rule
emits nothing.
-/
import Allrice.NativeRecurring

namespace Allrice.NativeRecurring

open ByteReader
open Except (bind_eq_ok)

namespace Host

variable {ω : Type} {host : Host ω}

/-- The watermark of a resume, where it is a date. -/
def resumePoint (host : Host ω) (a : Admission) : Option Int :=
  match a.resumeAfter with
  | some resumeAfter =>
    if resumeAfter.isEmpty then none else host.parseDate resumeAfter
  | none => none

/-- The automation may run a target of a revision. -/
def Runs (host : Host ω) (admission : Option Admission) (revision : Int)
    (scheduledAt : JsString) : Prop :=
  ∃ a, admission = some a ∧ a.allowed = true ∧ a.status = .enabled ∧
    a.currentRevision = revision ∧
    ∃ target, host.parseDate scheduledAt = some target ∧
      ∀ point, host.resumePoint a = some point → point < target

variable {c : Control} {input : Input ω} {target : Int}
  {admission : Option Admission} {version : Revision} {added : List Receipt}
  {occurrences : List Occurrence} {previous : Option Task}
  {scheduledAt : JsString} {task : Task} {raw : ω}

theorem not_heldByResume_iff {a : Admission}
    (htarget : host.parseDate scheduledAt = some target) :
    host.heldByResume a scheduledAt = false ↔
      ∀ point, host.resumePoint a = some point → point < target := by
  unfold heldByResume resumePoint
  cases a.resumeAfter with
  | none => simp
  | some resumeAfter =>
    by_cases hempty : resumeAfter.isEmpty = true
    · simp [hempty]
    · cases hpoint : host.parseDate resumeAfter <;>
        simp [hempty, hpoint, htarget, atLeast]

theorem reasonOf_eq_none_iff
    (htarget : host.parseDate scheduledAt = some target) :
    host.reasonOf admission version scheduledAt = none ↔
      host.Runs admission version.revision scheduledAt := by
  cases admission with
  | none => simp [reasonOf, Runs]
  | some a =>
    have hheld := not_heldByResume_iff (a := a) htarget
    simp only [Runs, htarget, Option.some.injEq, exists_eq_left', ← hheld]
    unfold reasonOf
    by_cases hallowed : a.allowed = true <;>
      by_cases hstatus : a.status = .enabled <;>
        by_cases hrevision : a.currentRevision = version.revision <;>
          by_cases held : host.heldByResume a scheduledAt = true <;>
            simp [hallowed, hstatus, hrevision, held]

/-- An occurrence as it is made of a receipt. -/
structure Emitted (host : Host ω) (admission : Option Admission)
    (version : Revision) (taskId : JsString) (receipt : Receipt)
    (o : Occurrence) : Prop where
  made : o.payload.receipt = receipt
  taskId : o.payload.nativeTaskId = taskId
  revision : o.payload.revision.revision = version.revision
  rule : o.payload.revision.rule = version.rule
  state : o.state = .pending ↔
    host.Runs admission version.revision receipt.scheduledAt

theorem occurrenceOf_emitted {taskId : JsString} {receipt : Receipt}
    {o : Occurrence}
    (htarget : host.parseDate receipt.scheduledAt = some target)
    (h : host.occurrenceOf c admission version taskId receipt = .ok o) :
    host.Emitted admission version taskId receipt o := by
  unfold occurrenceOf at h
  obtain ⟨key, -, h⟩ := bind_eq_ok.mp h
  obtain ⟨payloadDigest, -, h⟩ := bind_eq_ok.mp h
  cases h
  have hreason : host.reasonOf admission version receipt.scheduledAt = none ↔
      host.Runs admission version.revision receipt.scheduledAt :=
    reasonOf_eq_none_iff htarget
  refine ⟨rfl, rfl, rfl, rfl, ?_⟩
  rw [← hreason]
  cases host.reasonOf admission version receipt.scheduledAt <;> simp

theorem deliver_emitted {record : TaskRecord} {floor : Option Int}
    (h : host.deliver c admission version record floor added =
      .ok occurrences) :
    List.Forall₂ (host.Emitted admission version record.id) added
      occurrences := by
  induction added generalizing floor occurrences with
  | nil =>
    cases h
    exact .nil
  | cons receipt rest ih =>
    unfold deliver at h
    obtain ⟨_, htarget, h⟩ := bind_eq_ok.mp h
    obtain ⟨o, ho, h⟩ := bind_eq_ok.mp h
    obtain ⟨others, hothers, h⟩ := bind_eq_ok.mp h
    cases h
    have hnew := need_eq_ok.mp htarget
    cases hdate : host.parseDate receipt.scheduledAt with
    | none => simp [hdate, before] at hnew
    | some target =>
      exact .cons (occurrenceOf_emitted hdate ho) (ih hothers)

/-- New receipts are only accepted under the applied rule. -/
theorem occurrencesOf_ok
    (h : host.occurrencesOf input c previous task added = .ok occurrences) :
    (added = [] ∧ occurrences = []) ∨
      ∃ rule revision version, c.appliedRule = some rule ∧
        c.appliedRevision = some revision ∧ previous.isSome ∧
        host.recurringRecordMatches task.record rule = true ∧
        version.revision = revision ∧ version.rule = rule ∧
        List.Forall₂ (host.Emitted input.admission version task.record.id)
          added occurrences := by
  unfold occurrencesOf at h
  split at h
  next hadded =>
    cases h
    exact .inl ⟨List.isEmpty_iff.mp hadded, rfl⟩
  next hadded =>
    right
    split at h
    next previous' rule revision hrule hrevision =>
      obtain ⟨_, hmatch, h⟩ := bind_eq_ok.mp h
      split at h
      next => cases h
      next version hversion =>
        obtain ⟨_, hsame, h⟩ := bind_eq_ok.mp h
        exact ⟨rule, revision, version, hrule, hrevision, rfl,
          need_eq_ok.mp hmatch, input.revisions.keyed _ _ hversion,
          need_eq_ok.mp hsame, deliver_emitted h⟩
    next => cases h

variable [DecidableEq ω]

/-- What a checked task says about its rule and its binding. -/
structure Checked (host : Host ω) (c : Control) (raw value : ω) : Prop where
  same : value = raw
  rule : host.appliedMatches (host.read value).record c = true ∨
    (c.command.status = .pending ∧ c.command.kind ∈ [.create, .update] ∧
      host.recurringRecordMatches (host.read value).record c.rule = true)

theorem validateRecurringTask_ok {value : ω}
    (h : host.validateRecurringTask c raw = .ok value) :
    host.Checked c raw value := by
  unfold validateRecurringTask at h
  obtain ⟨decoded, -, h⟩ := bind_eq_ok.mp h
  obtain ⟨digest, -, h⟩ := bind_eq_ok.mp h
  obtain ⟨_, hvalid, h⟩ := bind_eq_ok.mp h
  obtain ⟨_, -, h⟩ := bind_eq_ok.mp h
  obtain ⟨_, hrule, h⟩ := bind_eq_ok.mp h
  obtain ⟨_, -, h⟩ := bind_eq_ok.mp h
  obtain ⟨_, -, h⟩ := bind_eq_ok.mp h
  obtain ⟨_, -, h⟩ := bind_eq_ok.mp h
  cases h
  exact ⟨(need_eq_ok.mp hvalid).1, need_eq_ok.mp hrule⟩

theorem previousTask_ok (h : host.previousTask input c = .ok previous) :
    (input.before.task = none ∧ previous = none) ∨
      ∃ stored, input.before.task = some stored ∧
        previous = some (host.read stored) := by
  unfold previousTask at h
  split at h
  next hnone =>
    cases h
    exact .inl ⟨hnone, rfl⟩
  next stored hstored =>
    obtain ⟨value, hvalue, h⟩ := bind_eq_ok.mp h
    cases h
    rw [(validateRecurringTask_ok hvalue).same]
    exact .inr ⟨stored, hstored, rfl⟩

omit [DecidableEq ω] in
/-- A task that is put brings its rule into force, or keeps the one there. -/
theorem controlAfterPut_ok {control : Control}
    (h : host.controlAfterPut c previous task added = .ok control) :
    (added = [] ∧ (∀ p, previous = some p → host.bringsUpdate c p task) ∧
        control = { c with appliedRule := some c.rule
                           appliedRevision := some c.revision
                           nativeTaskId := some task.record.id }) ∨
      ∃ p, previous = some p ∧ host.bringsUpdate c p task = false ∧
        control = { c with nativeTaskId := some task.record.id } := by
  unfold controlAfterPut at h
  cases previous with
  | none =>
    obtain ⟨_, hadded, h⟩ := bind_eq_ok.mp h
    cases h
    exact .inl ⟨need_eq_ok.mp hadded, by simp, rfl⟩
  | some p =>
    dsimp only at h
    split at h
    next hupdate =>
      obtain ⟨_, hadded, h⟩ := bind_eq_ok.mp h
      cases h
      exact .inl ⟨need_eq_ok.mp hadded, by simpa using hupdate, rfl⟩
    next hupdate =>
      obtain ⟨_, -, h⟩ := bind_eq_ok.mp h
      cases h
      exact .inr ⟨p, rfl, by simpa using hupdate, rfl⟩

/-- The receipts of a task which the one before has not. -/
def newReceipts (previous : Option Task) (task : Task) : List Receipt :=
  (receipts (some task)).filter fun r =>
    ((receipts previous).find? fun old => receiptKey old == receiptKey r).isNone

theorem putTask_once {after : Snapshot ω}
    (h : host.putTask input c raw = .ok (after, occurrences)) :
    host.Checked c raw raw ∧ c.taskDeleted = false ∧ ∃ previous,
      host.previousTask input c = .ok previous ∧
      (previous = none → c.appliedRevision = none) ∧
      host.occurrencesOf input c previous (host.read raw)
        (newReceipts previous (host.read raw)) = .ok occurrences ∧
      host.controlAfterPut c previous (host.read raw)
        (newReceipts previous (host.read raw)) = .ok after.control ∧
      after.task = some raw := by
  unfold putTask at h
  obtain ⟨value, hvalue, h⟩ := bind_eq_ok.mp h
  obtain ⟨previous, hprevious, h⟩ := bind_eq_ok.mp h
  obtain ⟨_, -, h⟩ := bind_eq_ok.mp h
  obtain ⟨_, -, h⟩ := bind_eq_ok.mp h
  obtain ⟨_, -, h⟩ := bind_eq_ok.mp h
  obtain ⟨_, -, h⟩ := bind_eq_ok.mp h
  obtain ⟨_, hfirst, h⟩ := bind_eq_ok.mp h
  obtain ⟨found, hfound, h⟩ := bind_eq_ok.mp h
  obtain ⟨control, hcontrol, h⟩ := bind_eq_ok.mp h
  cases h
  have hchecked := validateRecurringTask_ok hvalue
  cases hchecked.same
  refine ⟨hchecked, ?_, previous, hprevious, ?_, hfound, hcontrol, rfl⟩
  · obtain ⟨_, -, hvalue⟩ := bind_eq_ok.mp hvalue
    obtain ⟨_, -, hvalue⟩ := bind_eq_ok.mp hvalue
    obtain ⟨_, hlive, -⟩ := bind_eq_ok.mp hvalue
    simpa using (need_eq_ok.mp hlive).2.2.2.2.2.2.2.2
  · intro hnone
    have hfirst := need_eq_ok.mp hfirst
    simp only [hnone, Option.isSome_none, Bool.false_eq_true, false_or]
      at hfirst
    exact hfirst.2

/-- The parts of an accepted put: the task that stood there before and the new
receipts. -/
def Put (host : Host ω) (input : Input ω) (c : Control) (raw : ω)
    (after : Snapshot ω) (occurrences : List Occurrence) : Prop :=
  ∃ previous added, host.Checked c raw raw ∧
    host.previousTask input c = .ok previous ∧
    (∀ r ∈ added, r ∈ receipts (some (host.read raw)) ∧
      receiptKey r ∉ (receipts previous).map receiptKey) ∧
    (previous = none → c.appliedRevision = none) ∧
    host.occurrencesOf input c previous (host.read raw) added =
      .ok occurrences ∧
    host.controlAfterPut c previous (host.read raw) added =
      .ok after.control ∧
    after.task = some raw

theorem putTask_ok {after : Snapshot ω}
    (h : host.putTask input c raw = .ok (after, occurrences)) :
    host.Put input c raw after occurrences := by
  obtain ⟨hchecked, -, previous, hprevious, hfirst, hfound, hcontrol, htask⟩ :=
    putTask_once h
  refine ⟨previous, _, hchecked, hprevious, ?_, hfirst, hfound, hcontrol,
    htask⟩
  intro r hr
  simp only [newReceipts, List.mem_filter, Option.isNone_iff_eq_none,
    List.find?_eq_none] at hr
  refine ⟨hr.1, ?_⟩
  intro hmem
  obtain ⟨stored, hstored, hkey⟩ := List.mem_map.mp hmem
  exact hr.2 stored hstored (by simp [hkey])

theorem prepare_ok {result : Result ω}
    (h : host.prepareNativeRecurringMutation input = .ok result) :
    host.isControl input.before.control = true ∧
      host.mutate input input.before.control =
        .ok (result.after, result.occurrences) := by
  unfold prepareNativeRecurringMutation at h
  obtain ⟨_, -, h⟩ := bind_eq_ok.mp h
  obtain ⟨remaining, -, h⟩ := bind_eq_ok.mp h
  obtain ⟨_, -, h⟩ := bind_eq_ok.mp h
  obtain ⟨_, hcontrol, h⟩ := bind_eq_ok.mp h
  obtain ⟨_, -, h⟩ := bind_eq_ok.mp h
  obtain ⟨written, -, h⟩ := bind_eq_ok.mp h
  obtain ⟨_, -, h⟩ := bind_eq_ok.mp h
  obtain ⟨beforeDigest, -, h⟩ := bind_eq_ok.mp h
  split at h
  next => cases h
  next desired hdesired =>
    obtain ⟨_, -, h⟩ := bind_eq_ok.mp h
    obtain ⟨_, -, h⟩ := bind_eq_ok.mp h
    obtain ⟨⟨after, occurrences⟩, hmutate, h⟩ := bind_eq_ok.mp h
    obtain ⟨_, -, h⟩ := bind_eq_ok.mp h
    obtain ⟨afterDigest, -, h⟩ := bind_eq_ok.mp h
    obtain ⟨tokenDigest, -, h⟩ := bind_eq_ok.mp h
    cases h
    exact ⟨need_eq_ok.mp hcontrol, hmutate⟩

end Host

end Allrice.NativeRecurring
