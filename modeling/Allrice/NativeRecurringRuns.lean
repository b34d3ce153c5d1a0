/-
The runs of a recurring control.  Its stored task always matches the applied
rule, whatever writes, edits and deletions have come before, so a delivery is
never taken for one of another rule.
-/
import Allrice.NativeRecurringSound
import Mathlib.Logic.Relation

namespace Allrice.NativeRecurring

open ByteReader
open Except (bind_eq_ok)

namespace Host

variable {ω : Type} {host : Host ω}

theorem sameClock_iff {record : TaskRecord} {time timezone : JsString} :
    host.sameClock record time timezone = true ↔
      record.time = some (time ++ JsString.ofString ".000") ∧
        ∃ timeZone zone, record.timeZone = some timeZone ∧
          host.resolveZone timeZone = some zone ∧
          host.resolveZone timezone = some zone := by
  unfold sameClock
  cases record.timeZone with
  | none => simp
  | some timeZone =>
    cases hzone : host.resolveZone timeZone with
    | none => simp [hzone]
    | some zone =>
      cases hzone' : host.resolveZone timezone with
      | none => simp
      | some zone' =>
        simp only [Bool.and_eq_true, beq_iff_eq, Option.some.injEq,
          exists_and_left, exists_eq_left', hzone]
        exact and_congr_right fun _ => eq_comm

theorem sameClock_congr {a b : TaskRecord} {time timezone time' timezone' :
    JsString} (h : host.sameClock a time timezone = true)
    (h' : host.sameClock a time' timezone' = true)
    (hb : host.sameClock b time timezone = true) :
    host.sameClock b time' timezone' = true := by
  rw [sameClock_iff] at h h' hb ⊢
  obtain ⟨htime, timeZone, zone, hrecord, hzone, hrule⟩ := h
  obtain ⟨htime', timeZone', zone', hrecord', hzone', hrule'⟩ := h'
  obtain ⟨hbtime, bzone, z, hbrecord, hbz, hbrule⟩ := hb
  have heq : time = time' := by
    rw [htime] at htime'
    exact List.append_cancel_right (Option.some.inj htime')
  rw [hrecord] at hrecord'
  cases hrecord'
  rw [hzone] at hzone'
  cases hzone'
  rw [hrule] at hbrule
  cases hbrule
  exact ⟨by rw [hbtime, heq], bzone, zone, hbrecord, hbz, hrule'⟩

theorem recurringRecordMatches_congr {a b : TaskRecord} {rule rule' : Rule}
    (h : host.recurringRecordMatches a rule = true)
    (h' : host.recurringRecordMatches a rule' = true)
    (hb : host.recurringRecordMatches b rule = true) :
    host.recurringRecordMatches b rule' = true := by
  unfold recurringRecordMatches at h h' hb ⊢
  cases hkind : a.kind <;> cases rule <;> simp_all <;>
    cases rule' <;> simp_all <;> cases hkind' : b.kind <;> simp_all
  · exact sameClock_congr h h' hb
  · exact sameClock_congr h.2 h'.2 hb.2

variable [DecidableEq ω]

/-- What holds of a stored snapshot. -/
structure Held (host : Host ω) (s : Snapshot ω) : Prop where
  rule : ∀ raw, s.task = some raw →
    host.appliedMatches (host.read raw).record s.control = true
  unbound : s.control.nativeTaskId = none →
    s.task = none ∧ s.control.appliedRule = none
  create : s.control.command.kind = .create →
    ∀ rule, s.control.appliedRule = some rule → rule = s.control.rule

variable {input : Input ω} {occurrences : List Occurrence} {after : Snapshot ω}
  {raw : ω} {o : Occurrence} {c : Control}

omit [DecidableEq ω] in
theorem isControl_applied (h : host.isControl c = true)
    (hnone : c.appliedRevision = none) : c.appliedRule = none := by
  unfold isControl at h
  simp only [hnone, Bool.and_eq_true, beq_iff_eq] at h
  have hrule := h.1.1.2
  simpa using hrule

/-- The rule that a put brings into force, or keeps, is one the task matches. -/
theorem appliedMatches_afterPut (hs : host.Held input.before)
    (hvalid : host.isControl input.before.control = true)
    (h : host.Put input input.before.control raw after occurrences) :
    host.appliedMatches (host.read raw).record after.control = true := by
  obtain ⟨previous, added, hchecked, hprevious, -, hfirst, -, hcontrol, -⟩ := h
  -- A task that is not bound to the applied rule is one of a pending command.
  have hbrings : (∀ p, previous = some p →
      host.bringsUpdate input.before.control p (host.read raw)) →
      host.recurringRecordMatches (host.read raw).record
        input.before.control.rule = true := by
    intro hall
    cases previous with
    | none =>
      have hnone := isControl_applied hvalid (hfirst rfl)
      rcases hchecked.rule with happlied | ⟨-, -, hmatch⟩
      · simp [appliedMatches, hnone] at happlied
      · exact hmatch
    | some p =>
      have hp := hall p rfl
      unfold bringsUpdate at hp
      simp only [Bool.and_eq_true] at hp
      exact hp.1.2
  rcases controlAfterPut_ok hcontrol with ⟨-, hall, hafter⟩ | ⟨p, hp, hkeep,
    hafter⟩
  · rw [hafter]
    simpa [appliedMatches] using hbrings hall
  · rw [hafter]
    change host.appliedMatches (host.read raw).record input.before.control
    rcases hchecked.rule with happlied | ⟨hpending, hkind, hmatch⟩
    · exact happlied
    · rcases previousTask_ok hprevious with ⟨-, hnone⟩ | ⟨stored, hstored, hread⟩
      · rw [hp] at hnone
        cases hnone
      · rw [hp] at hread
        cases hread
        have hold := hs.rule stored hstored
        unfold appliedMatches at hold ⊢
        cases happlied : input.before.control.appliedRule with
        | none => simp [happlied] at hold
        | some rule =>
          simp only [happlied, Option.any_some] at hold ⊢
          simp only [List.mem_cons, List.not_mem_nil, or_false] at hkind
          rcases hkind with hcreate | hupdate
          · rw [hs.create hcreate rule happlied]
            exact hmatch
          · have hsame : host.recurringRecordMatches (host.read stored).record
                input.before.control.rule = true := by
              simpa [bringsUpdate, hpending, hupdate, hmatch] using hkeep
            exact recurringRecordMatches_congr hsame hold hmatch

theorem held_afterPut (hs : host.Held input.before)
    (hvalid : host.isControl input.before.control = true)
    (h : host.Put input input.before.control raw after occurrences) :
    host.Held after := by
  have hmatch := appliedMatches_afterPut hs hvalid h
  obtain ⟨previous, added, -, -, -, -, -, hcontrol, htask⟩ := h
  constructor
  · intro stored hstored
    rw [htask] at hstored
    cases hstored
    exact hmatch
  · intro hnone
    rcases controlAfterPut_ok hcontrol with ⟨-, -, hafter⟩ | ⟨p, -, -, hafter⟩
    · simp [hafter] at hnone
    · simp [hafter] at hnone
  · intro hkind rule hrule
    rcases controlAfterPut_ok hcontrol with ⟨-, -, hafter⟩ | ⟨p, -, -, hafter⟩
    · rw [hafter] at hrule ⊢
      exact (Option.some.inj hrule).symm
    · rw [hafter] at hkind hrule ⊢
      exact hs.create hkind rule hrule

theorem mutate_held (hs : host.Held input.before)
    (hvalid : host.isControl input.before.control = true)
    (h : host.mutate input input.before.control = .ok (after, occurrences)) :
    host.Held after := by
  unfold mutate at h
  split at h
  next =>
    obtain ⟨_, -, h⟩ := bind_eq_ok.mp h
    cases h
    exact ⟨hs.rule, hs.unbound, hs.create⟩
  next =>
    obtain ⟨_, -, h⟩ := bind_eq_ok.mp h
    cases h
    exact ⟨hs.rule, hs.unbound, hs.create⟩
  next => exact held_afterPut hs hvalid (putTask_ok h)
  next id =>
    obtain ⟨_, hbinding, h⟩ := bind_eq_ok.mp h
    cases h
    have hid := (need_eq_ok.mp hbinding).2.2
    exact ⟨by simp, by simp [hid], hs.create⟩
  next =>
    obtain ⟨_, -, h⟩ := bind_eq_ok.mp h
    split at h
    next =>
      obtain ⟨_, -, h⟩ := bind_eq_ok.mp h
      cases h
      exact ⟨hs.rule, hs.unbound, hs.create⟩
    next =>
      split at h
      next => cases h
      next stored hstored =>
        obtain ⟨value, hvalue, h⟩ := bind_eq_ok.mp h
        obtain ⟨_, hmatch, h⟩ := bind_eq_ok.mp h
        cases h
        have hmatch := need_eq_ok.mp hmatch
        rw [(validateRecurringTask_ok hvalue).same] at hmatch
        constructor
        · intro raw hraw
          rw [hstored] at hraw
          cases hraw
          simpa [appliedMatches] using hmatch
        · intro hnone
          have htask := (hs.unbound hnone).1
          rw [hstored] at htask
          cases htask
        · intro hkind rule hrule
          exact (Option.some.inj hrule).symm

/-- A snapshot with another command for its control. -/
def withCommand (s : Snapshot ω) (command : Command) : Snapshot ω :=
  { s with control := { s.control with command := command } }

/-- A snapshot whose automation has a further revision. -/
def withRevision (s : Snapshot ω) (revision : Int) (rule : Rule)
    (command : Command) : Snapshot ω :=
  { s with control :=
      { s.control with revision := revision, rule := rule
                       command := command } }

/-- A stored snapshot moves by a write of the host, by an edit or a deletion of
the task by its owner, or by those of the platform quality schedule. -/
inductive Step (host : Host ω) : Snapshot ω → Snapshot ω → Prop
  | write (input : Input ω) (result : Result ω)
      (h : host.prepareNativeRecurringMutation input = .ok result) :
      Step host input.before result.after
  | changeRecurringTask (s : Snapshot ω) (nextRevision : Int) (rule : Rule)
      (id : Uuid) (hidle : s.control.command.status ≠ .pending) :
      Step host s (withRevision s nextRevision rule ⟨id, .update, .pending⟩)
  | deleteRecurringTask (s : Snapshot ω) (id : Uuid)
      (hidle : s.control.command.status ≠ .pending) :
      Step host s (withCommand s ⟨id, .delete, .pending⟩)
  | changeQuality (s : Snapshot ω) (revision : Int) (rule : Rule) (id : Uuid)
      (hnewer : s.control.revision < revision)
      (hopen : s.control.taskDeleted = false ∧
        s.control.command.kind ≠ .delete) :
      Step host s (withRevision s revision rule
        ⟨id, if s.control.nativeTaskId.isSome then .update else .create,
          .pending⟩)
  | deleteQuality (s : Snapshot ω) (id : Uuid)
      (hopen : s.control.command.kind ≠ .delete) :
      Step host s (withCommand s ⟨id, .delete, .pending⟩)

/-- The snapshot a control is created with. -/
structure Created (s : Snapshot ω) : Prop where
  appliedRevision : s.control.appliedRevision = none
  appliedRule : s.control.appliedRule = none
  sessionState : s.control.sessionState = .reserved
  nativeTaskId : s.control.nativeTaskId = none
  taskDeleted : s.control.taskDeleted = false
  command : s.control.command.kind = .create ∧
    s.control.command.status = .pending
  task : s.task = none

/-- What the steps can make of a created snapshot. -/
def Reachable (host : Host ω) (s : Snapshot ω) : Prop :=
  ∃ s₀, Created s₀ ∧ Relation.ReflTransGen (Step host) s₀ s

theorem step_held {s t : Snapshot ω} (hs : host.Held s) (h : Step host s t) :
    host.Held t := by
  induction h with
  | write input result h =>
    obtain ⟨hvalid, hmutate⟩ := prepare_ok h
    exact mutate_held hs hvalid hmutate
  | changeRecurringTask s nextRevision rule id hidle =>
    exact ⟨hs.rule, hs.unbound, by simp [withRevision]⟩
  | deleteRecurringTask s id hidle =>
    exact ⟨hs.rule, hs.unbound, by simp [withCommand]⟩
  | changeQuality s revision rule id hnewer hopen =>
    refine ⟨hs.rule, hs.unbound, ?_⟩
    intro hkind old hold
    cases hbound : s.control.nativeTaskId with
    | none =>
      have hnone := (hs.unbound hbound).2
      simp [withRevision, hnone] at hold
    | some taskId => simp [withRevision, hbound] at hkind
  | deleteQuality s id hopen =>
    exact ⟨hs.rule, hs.unbound, by simp [withCommand]⟩

theorem reachable_held {s : Snapshot ω} (h : host.Reachable s) :
    host.Held s := by
  obtain ⟨s₀, hcreated, hsteps⟩ := h
  induction hsteps with
  | refl =>
    exact ⟨by simp [hcreated.task],
      fun _ => ⟨hcreated.task, hcreated.appliedRule⟩,
      by simp [hcreated.appliedRule]⟩
  | tail _ hstep ih => exact step_held ih hstep

/-- An occurrence as an accepted write should give it. -/
structure Attributed (host : Host ω) (input : Input ω) (o : Occurrence) :
    Prop where
  pending : o.state = .pending ↔
    host.Runs input.admission o.payload.revision.revision
      o.payload.receipt.scheduledAt
  revision : input.before.control.appliedRevision =
    some o.payload.revision.revision
  rule : input.before.control.appliedRule = some o.payload.revision.rule
  task : ∃ raw, input.write.mutation.kind = .putTask raw ∧
    o.payload.receipt ∈ receipts (some (host.read raw)) ∧
    host.recurringRecordMatches (host.read raw).record
      o.payload.revision.rule = true

theorem mutate_put (h : host.mutate input c = .ok (after, occurrences))
    (ho : o ∈ occurrences) :
    ∃ raw, input.write.mutation.kind = .putTask raw ∧
      host.Put input c raw after occurrences := by
  unfold mutate at h
  split at h
  next =>
    obtain ⟨_, -, h⟩ := bind_eq_ok.mp h
    cases h
    cases ho
  next =>
    obtain ⟨_, -, h⟩ := bind_eq_ok.mp h
    cases h
    cases ho
  next raw hraw => exact ⟨raw, hraw, putTask_ok h⟩
  next =>
    obtain ⟨_, -, h⟩ := bind_eq_ok.mp h
    cases h
    cases ho
  next =>
    obtain ⟨_, -, h⟩ := bind_eq_ok.mp h
    split at h
    next =>
      obtain ⟨_, -, h⟩ := bind_eq_ok.mp h
      cases h
      cases ho
    next =>
      split at h
      next => cases h
      next =>
        obtain ⟨_, -, h⟩ := bind_eq_ok.mp h
        obtain ⟨_, -, h⟩ := bind_eq_ok.mp h
        cases h
        cases ho

omit [DecidableEq ω] in
theorem mem_of_emitted {admission : Option Admission} {version : Revision}
    {taskId : JsString} {added : List Receipt}
    (h : List.Forall₂ (host.Emitted admission version taskId) added
      occurrences) (ho : o ∈ occurrences) :
    ∃ r ∈ added, host.Emitted admission version taskId r o := by
  induction h with
  | nil => cases ho
  | cons hhead _ ih =>
    rcases List.mem_cons.mp ho with rfl | hrest
    · exact ⟨_, List.mem_cons_self, hhead⟩
    · obtain ⟨r, hr, hemitted⟩ := ih hrest
      exact ⟨r, List.mem_cons_of_mem _ hr, hemitted⟩

theorem put_attributed (hkind : input.write.mutation.kind = .putTask raw)
    (h : host.Put input input.before.control raw after occurrences)
    (ho : o ∈ occurrences) : host.Attributed input o := by
  obtain ⟨previous, added, -, -, hnew, -, hemits, -, -⟩ := h
  rcases occurrencesOf_ok hemits with ⟨-, hnone⟩ | ⟨rule, revision, version,
    hrule, hrevision, -, hmatch, hnumber, hsame, hall⟩
  · rw [hnone] at ho
    cases ho
  · obtain ⟨r, hr, hemitted⟩ := mem_of_emitted hall ho
    constructor
    · rw [hemitted.revision, hemitted.made]
      exact hemitted.state
    · rw [hrevision, hemitted.revision, hnumber]
    · rw [hrule, hemitted.rule, hsame]
    · refine ⟨raw, hkind, ?_, ?_⟩
      · rw [hemitted.made]
        exact (hnew r hr).1
      · rw [hemitted.rule, hsame]
        exact hmatch

/-- A put that emits keeps the applied rule, and brings no update. -/
theorem put_keeps (h : host.Put input c raw after occurrences)
    (ho : o ∈ occurrences) :
    (after.control.appliedRevision = c.appliedRevision ∧
        after.control.appliedRule = c.appliedRule) ∧
      ∃ stored, input.before.task = some stored ∧
        host.bringsUpdate c (host.read stored) (host.read raw) = false := by
  obtain ⟨previous, added, -, hprevious, -, -, hemits, hcontrol, -⟩ := h
  have hadded : added ≠ [] := by
    rintro rfl
    rcases occurrencesOf_ok hemits with ⟨-, hnone⟩ | ⟨_, _, _, -, -, -, -, -, -,
      hall⟩
    · rw [hnone] at ho
      cases ho
    · cases hall
      cases ho
  rcases controlAfterPut_ok hcontrol with ⟨hnone, -, -⟩ | ⟨p, hp, hkeep, hafter⟩
  · exact absurd hnone hadded
  · rcases previousTask_ok hprevious with ⟨-, hnone⟩ | ⟨stored, hstored, hread⟩
    · rw [hp] at hnone
      cases hnone
    · rw [hp] at hread
      cases hread
      exact ⟨by simp [hafter], stored, hstored, hkeep⟩

/-- What an accepted write gives: occurrences that are pending just when the
automation may run them, of the applied revision and the rule of the task that
is put; none where the write changes what is applied or brings an update. -/
structure Classified (host : Host ω) (input : Input ω) (result : Result ω) :
    Prop where
  attributed : ∀ o ∈ result.occurrences, host.Attributed input o
  change : (result.after.control.appliedRevision,
        result.after.control.appliedRule) ≠
      (input.before.control.appliedRevision,
        input.before.control.appliedRule) → result.occurrences = []
  update : ∀ raw stored, input.write.mutation.kind = .putTask raw →
    input.before.task = some stored →
    host.bringsUpdate input.before.control (host.read stored)
      (host.read raw) = true → result.occurrences = []

theorem prepare_classified {result : Result ω}
    (h : host.prepareNativeRecurringMutation input = .ok result) :
    host.Classified input result := by
  obtain ⟨-, hmutate⟩ := prepare_ok h
  constructor
  · intro o ho
    obtain ⟨raw, hkind, hput⟩ := mutate_put hmutate ho
    exact put_attributed hkind hput ho
  · intro hchange
    apply List.eq_nil_iff_forall_not_mem.mpr
    intro o ho
    obtain ⟨raw, -, hput⟩ := mutate_put hmutate ho
    obtain ⟨⟨hrevision, hrule⟩, -⟩ := put_keeps hput ho
    exact hchange (by rw [hrevision, hrule])
  · intro raw stored hkind hstored hupdate
    apply List.eq_nil_iff_forall_not_mem.mpr
    intro o ho
    obtain ⟨raw', hkind', hput⟩ := mutate_put hmutate ho
    rw [hkind] at hkind'
    cases hkind'
    obtain ⟨-, stored', hstored', hkeep⟩ := put_keeps hput ho
    rw [hstored] at hstored'
    cases hstored'
    rw [hkeep] at hupdate
    cases hupdate

/-- Every accepted write classifies its occurrences; and from a snapshot that
can be reached, the task that stood there when the delivery was made matches
the rule of the occurrence too. -/
theorem occurrences_classified (host : Host ω) :
    (∀ input result,
      host.prepareNativeRecurringMutation input = .ok result →
        host.Classified input result) ∧
      ∀ input result, host.Reachable input.before →
        host.prepareNativeRecurringMutation input = .ok result →
          ∀ o ∈ result.occurrences, ∃ stored,
            input.before.task = some stored ∧
              host.recurringRecordMatches (host.read stored).record
                o.payload.revision.rule = true := by
  constructor
  · intro input result h
    exact prepare_classified h
  · intro input result hreachable h o ho
    obtain ⟨-, hmutate⟩ := prepare_ok h
    obtain ⟨raw, -, hput⟩ := mutate_put hmutate ho
    obtain ⟨-, stored, hstored, -⟩ := put_keeps hput ho
    have hmatch := (reachable_held hreachable).rule stored hstored
    have hrule := ((prepare_classified h).attributed o ho).rule
    unfold appliedMatches at hmatch
    rw [hrule] at hmatch
    exact ⟨stored, hstored, hmatch⟩

namespace Delivering

def instant (minute : Nat) : JsString :=
  JsString.ofString "2026-01-01T00:0" ++ [0x30 + UInt16.ofNat minute] ++
    JsString.ofString ":00.000Z"

def receipt (minute : Nat) : Receipt :=
  ⟨⟨instant minute, instant minute, [0x6D]⟩, none⟩

/-- The task after so many deliveries, one in each minute. -/
def task (delivered : Nat) : Task :=
  let records := (List.range delivered).map fun k => receipt (k + 1)
  { sessionId := [0x73]
    record :=
      ⟨[0x69], .every, title, prompt, instant (delivered + 1), some 60, none,
        none, none⟩
    status := JsString.ofString "active"
    lastDelivery := records.getLast?.map receiptKey
    deliveryHistory := some ⟨records, false, none⟩ }

def midnight : Int := 1767225600000

def runtime : Host Nat where
  decode := some
  read := task
  parseDate text :=
    ((List.range 10).find? fun minute => instant minute == text).map
      fun minute => midnight + 60000 * minute
  toISOString ms := instant ((ms - midnight) / 60000).toNat
  resolveZone _ := none
  digest
    | .slot _ _ scheduledAt => some scheduledAt
    | .payload payload => some payload.receipt.scheduledAt
    | _ => some []
  stableUuid := List.flatten

def version : Revision :=
  ⟨1, [0x6E], [0x70], .every 60,
    JsString.ofString "sha256:" ++ List.replicate 64 0x30, instant 0, none⟩

def created : Snapshot Nat where
  control :=
    ⟨[0x70], 1, 2, 3, 4, 5, 1, [0x73], .every 60, none, none, .reserved, none,
      false, ⟨6, .create, .pending⟩, .platformQuality⟩
  task := none

def ready : Readiness := ⟨some true, some true, some true, some true⟩

def reference : Reference := ⟨[], [], [], []⟩

def asks (before : Snapshot Nat) (kind : MutationKind Nat) : Input Nat where
  readiness := ready
  reference := reference
  writerRow := ⟨[0x70], some [0x61], 1, some [], some 1000, false, reference⟩
  writer := ⟨[0x70], [0x61], 1, [0x61]⟩
  dbNowMs := 0
  before := before
  write := ⟨[0x77], [], ⟨1, kind⟩⟩
  revisions := ⟨fun number => if number = 1 then some version else none, by
    intro number version h
    split_ifs at h with hnumber
    cases h
    exact hnumber.symm⟩
  admission := some ⟨true, 1, .enabled, none⟩

theorem asks_before (before : Snapshot Nat) (kind : MutationKind Nat) :
    (asks before kind).before = before := rfl

/-- A write; a refused one leaves the snapshot. -/
def written (past : Snapshot Nat × List Occurrence) (kind : MutationKind Nat) :
    Snapshot Nat × List Occurrence :=
  match runtime.prepareNativeRecurringMutation (asks past.1 kind) with
  | .ok result => (result.after, past.2 ++ result.occurrences)
  | .error _ => past

def writes : List (MutationKind Nat) → Snapshot Nat × List Occurrence :=
  List.foldl written (created, [])

def served : List (MutationKind Nat) :=
  [.sessionInitializing, .sessionReady, .putTask 0,
    .confirmCommand 6 (some [0x69]), .putTask 1]

theorem created_created : Created created :=
  ⟨rfl, rfl, rfl, rfl, rfl, ⟨rfl, rfl⟩, rfl⟩

theorem written_reachable {past : Snapshot Nat × List Occurrence}
    (h : runtime.Reachable past.1) (kind : MutationKind Nat) :
    runtime.Reachable (written past kind).1 := by
  unfold written
  split
  · rename_i result hresult
    obtain ⟨s₀, hcreated, hsteps⟩ := h
    exact ⟨s₀, hcreated, hsteps.tail (.write (asks past.1 kind) result hresult)⟩
  · exact h

theorem writes_reachable (kinds : List (MutationKind Nat)) :
    runtime.Reachable (writes kinds).1 := by
  induction kinds using List.reverseRecOn with
  | nil => exact ⟨created, created_created, .refl⟩
  | append_singleton kinds kind ih =>
    rw [writes, List.foldl_append]
    exact written_reachable ih kind

/-- The second put brings two receipts, which become two occurrences. -/
theorem occurrences_classified_delivering :
    ∃ result, runtime.prepareNativeRecurringMutation
        (asks (writes served).1 (.putTask 3)) = .ok result ∧
      result.occurrences.map (·.payload.receipt) = [receipt 2, receipt 3] ∧
      runtime.Classified (asks (writes served).1 (.putTask 3)) result ∧
      ∀ o ∈ result.occurrences, ∃ stored,
        (writes served).1.task = some stored ∧
          runtime.recurringRecordMatches (runtime.read stored).record
            o.payload.revision.rule = true := by
  have hreceipts : (runtime.prepareNativeRecurringMutation
      (asks (writes served).1 (.putTask 3))).toOption.map
        (fun result => result.occurrences.map (·.payload.receipt)) =
      some [receipt 2, receipt 3] := by decide +kernel
  cases h : runtime.prepareNativeRecurringMutation
      (asks (writes served).1 (.putTask 3)) with
  | error fault =>
    rw [h] at hreceipts
    cases hreceipts
  | ok result =>
    rw [h] at hreceipts
    obtain ⟨hclassified, hstored⟩ := occurrences_classified runtime
    have hfound := hstored (asks (writes served).1 (.putTask 3)) result
    rw [asks_before] at hfound
    exact ⟨result, rfl, Option.some.inj hreceipts, hclassified _ _ h,
      hfound (writes_reachable served) h⟩

end Delivering

end Host

end Allrice.NativeRecurring
