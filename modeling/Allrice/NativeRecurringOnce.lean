/-
The occurrences of a recurring control over its whole life.  They come in the
order of their revisions and, within one, of their targets, so that no slot is
filled twice; a put emits one for each receipt that is new.
-/
import Allrice.NativeRecurringRuns

namespace Allrice.NativeRecurring.Host

open ByteReader
open Except (bind_eq_ok)

variable {ω : Type} {host : Host ω}

def target (host : Host ω) (o : Occurrence) : Option Int :=
  host.parseDate o.payload.receipt.scheduledAt

/-- By the revision first, then by the target. -/
def Precedes (host : Host ω) (a b : Occurrence) : Prop :=
  a.payload.revision.revision < b.payload.revision.revision ∨
    (a.payload.revision.revision = b.payload.revision.revision ∧
      before (host.target a) (host.target b) = true)

theorem before_of_atLeast {a b c : Option Int} (hab : before a b = true)
    (hbc : atLeast c b = true) : before a c = true := by
  cases a <;> cases b <;> cases c <;> simp [before, atLeast] at *
  omega

theorem atLeast_of_before {a b : Option Int} (h : before a b = true) :
    atLeast b a = true := by
  cases a <;> cases b <;> simp [before, atLeast] at *
  omega

theorem atLeast_of_next {a b c : Option Int} (hab : atLeast a b = true)
    (hbc : atLeast c (a.map (· + 1)) = true) :
    atLeast c b = true ∧ before a c = true := by
  cases a <;> cases b <;> cases c <;> simp [before, atLeast] at *
  omega

variable {input : Input ω} {c : Control} {s t after : Snapshot ω}
  {occurrences emitted : List Occurrence} {previous : Option Task}
  {task p : Task} {added : List Receipt} {raw : ω}

theorem deliver_slots {admission : Option Admission} {version : Revision}
    {record : TaskRecord} {floor : Option Int}
    (h : host.deliver c admission version record floor added =
      .ok occurrences) :
    occurrences.map (·.payload.receipt) = added ∧
      occurrences.Pairwise host.Precedes ∧
      ∀ o ∈ occurrences, o.payload.revision.revision = version.revision ∧
        atLeast (host.target o) floor = true ∧
        before (host.target o) (host.parseDate record.scheduledAt) = true := by
  induction added generalizing floor occurrences with
  | nil =>
    cases h
    exact ⟨rfl, .nil, by simp⟩
  | cons receipt rest ih =>
    unfold deliver at h
    obtain ⟨_, hneed, h⟩ := bind_eq_ok.mp h
    obtain ⟨o, ho, h⟩ := bind_eq_ok.mp h
    obtain ⟨others, hothers, h⟩ := bind_eq_ok.mp h
    cases h
    obtain ⟨hreceipts, hsorted, hall⟩ := ih hothers
    have hneed := need_eq_ok.mp hneed
    simp only [Bool.and_eq_true] at hneed
    obtain ⟨key, -, ho⟩ := bind_eq_ok.mp ho
    obtain ⟨payloadDigest, -, ho⟩ := bind_eq_ok.mp ho
    cases ho
    refine ⟨by simp [hreceipts], List.pairwise_cons.mpr ⟨?_, hsorted⟩, ?_⟩
    · intro other hother
      obtain ⟨hrevision, hfloor, -⟩ := hall other hother
      exact .inr ⟨hrevision.symm, (atLeast_of_next hneed.1 hfloor).2⟩
    · intro other hother
      rcases List.mem_cons.mp hother with rfl | hother
      · exact ⟨rfl, hneed⟩
      · obtain ⟨hrevision, hfloor, hbefore⟩ := hall other hother
        exact ⟨hrevision, (atLeast_of_next hneed.1 hfloor).1, hbefore⟩

theorem occurrencesOf_slots
    (h : host.occurrencesOf input c previous task added = .ok occurrences) :
    occurrences.map (·.payload.receipt) = added ∧
      occurrences.Pairwise host.Precedes ∧
      ∀ o ∈ occurrences, ∃ p, previous = some p ∧
        c.appliedRevision = some o.payload.revision.revision ∧
        atLeast (host.target o) (host.parseDate p.record.scheduledAt) = true ∧
        before (host.target o) (host.parseDate task.record.scheduledAt) =
          true := by
  unfold occurrencesOf at h
  split at h
  next hadded =>
    cases h
    exact ⟨(List.isEmpty_iff.mp hadded).symm, .nil, by simp⟩
  next hadded =>
    split at h
    next p rule revision hrule hrevision =>
      obtain ⟨_, -, h⟩ := bind_eq_ok.mp h
      split at h
      next => cases h
      next version hversion =>
        obtain ⟨_, -, h⟩ := bind_eq_ok.mp h
        obtain ⟨hreceipts, hsorted, hall⟩ := deliver_slots h
        refine ⟨hreceipts, hsorted, ?_⟩
        intro o ho
        obtain ⟨hnumber, hslot⟩ := hall o ho
        rw [hnumber, input.revisions.keyed _ _ hversion]
        exact ⟨p, rfl, hrevision, hslot⟩
    next => cases h

/-- Without an update a target moves only by a receipt. -/
theorem controlAfterPut_target {control : Control}
    (h : host.controlAfterPut c (some p) task added = .ok control)
    (hkeep : host.bringsUpdate c p task = false) :
    added ≠ [] ∨ task.record.scheduledAt = p.record.scheduledAt := by
  simp only [controlAfterPut, hkeep, Bool.false_eq_true, ↓reduceIte] at h
  obtain ⟨_, hproved, -⟩ := bind_eq_ok.mp h
  exact need_eq_ok.mp hproved

/-- The last occurrences of a control lie before the target of its task. -/
structure Ordered (host : Host ω) (s : Snapshot ω)
    (emitted : List Occurrence) : Prop where
  applied : ∀ r ∈ s.control.appliedRevision, r ≤ s.control.revision
  rule : s.control.appliedRevision = some s.control.revision →
    s.control.appliedRule = some s.control.rule
  sorted : emitted.Pairwise host.Precedes
  last : ∀ o ∈ emitted, ∃ r, s.control.appliedRevision = some r ∧
    o.payload.revision.revision ≤ r ∧
    (o.payload.revision.revision = r → ∀ stored ∈ s.task,
      before (host.target o)
        (host.parseDate (host.read stored).record.scheduledAt) = true)

theorem Ordered.keep (h : host.Ordered s emitted)
    (happlied : t.control.appliedRevision = s.control.appliedRevision)
    (hrule : t.control.appliedRule = s.control.appliedRule)
    (hrevision : s.control.revision < t.control.revision ∨
      (t.control.revision = s.control.revision ∧
        t.control.rule = s.control.rule))
    (htask : ∀ stored ∈ t.task, stored ∈ s.task) : host.Ordered t emitted := by
  constructor
  · intro r hr
    rw [happlied] at hr
    have := h.applied r hr
    omega
  · intro hsame
    rw [happlied] at hsame
    have hle := h.applied _ hsame
    rcases hrevision with hlt | ⟨heq, hrules⟩
    · omega
    · rw [hrule, hrules]
      exact h.rule (by rw [hsame, heq])
  · exact h.sorted
  · intro o ho
    obtain ⟨r, hr, hle, hlast⟩ := h.last o ho
    exact ⟨r, by rw [happlied, hr], hle,
      fun heq stored hstored => hlast heq stored (htask stored hstored)⟩

/-- The revision comes into force. -/
theorem Ordered.apply (h : host.Ordered s emitted)
    (happlied : t.control.appliedRevision = some s.control.revision)
    (hrule : t.control.appliedRule = some s.control.rule)
    (hrevision : t.control.revision = s.control.revision)
    (hrules : t.control.rule = s.control.rule)
    (htask : s.control.appliedRevision = some s.control.revision →
      t.task = s.task) : host.Ordered t emitted := by
  constructor
  · intro r hr
    rw [happlied] at hr
    cases hr
    omega
  · intro _
    rw [hrule, hrules]
  · exact h.sorted
  · intro o ho
    obtain ⟨r, hr, hle, hlast⟩ := h.last o ho
    have hbound := h.applied r hr
    refine ⟨_, happlied, by omega, ?_⟩
    intro heq
    obtain rfl : r = s.control.revision := by omega
    rw [htask hr]
    exact hlast heq

variable [DecidableEq ω]

/-- An applied revision is not brought once more. -/
theorem not_bringsUpdate (h : host.Ordered input.before emitted)
    (hprior : host.previousTask input input.before.control = .ok (some p))
    (hsame : input.before.control.appliedRevision =
      some input.before.control.revision) :
    host.bringsUpdate input.before.control p task = false := by
  have hrule := h.rule hsame
  unfold previousTask at hprior
  split at hprior
  next => cases hprior
  next stored hstored =>
    obtain ⟨value, hvalue, hprior⟩ := bind_eq_ok.mp hprior
    cases hprior
    have hmatch : host.recurringRecordMatches (host.read value).record
        input.before.control.rule = true := by
      rcases (validateRecurringTask_ok hvalue).rule with happlied | hpending
      · simpa [appliedMatches, hrule] using happlied
      · exact hpending.2.2
    simp [bringsUpdate, hmatch]

theorem Ordered.put (h : host.Ordered input.before emitted)
    (hput : host.putTask input input.before.control raw =
      .ok (after, occurrences)) :
    host.Ordered after (emitted ++ occurrences) := by
  obtain ⟨-, -, previous, hprior, hfirst, hemits, hcontrol, htask⟩ :=
    putTask_once hput
  obtain ⟨hreceipts, hsorted, hslots⟩ := occurrencesOf_slots hemits
  rcases controlAfterPut_ok hcontrol with ⟨hnone, hupdate, hafter⟩ |
    ⟨p, rfl, hkeep, hafter⟩
  · -- the revision comes into force, and nothing is emitted
    rw [hnone, List.map_eq_nil_iff] at hreceipts
    rw [hreceipts, List.append_nil]
    refine h.apply (by rw [hafter]) (by rw [hafter]) (by rw [hafter])
      (by rw [hafter]) ?_
    intro hsame
    cases previous with
    | none =>
      rw [hfirst rfl] at hsame
      cases hsame
    | some p =>
      have hbrings := hupdate p rfl
      rw [not_bringsUpdate h hprior hsame] at hbrings
      cases hbrings
  · -- the new targets lie from the old target up to the new one
    obtain ⟨stored, hstored, rfl⟩ : ∃ stored,
        input.before.task = some stored ∧ p = host.read stored := by
      rcases previousTask_ok hprior with ⟨-, hnone⟩ | ⟨stored, hs, hp⟩
      · cases hnone
      · exact ⟨stored, hs, Option.some.inj hp⟩
    have happlied : after.control.appliedRevision =
        input.before.control.appliedRevision := by rw [hafter]
    have hlater : ∀ a ∈ emitted,
        some a.payload.revision.revision = after.control.appliedRevision →
        before (host.target a)
          (host.parseDate (host.read stored).record.scheduledAt) = true := by
      intro a ha heq
      obtain ⟨r, hr, -, hlast⟩ := h.last a ha
      rw [happlied, hr] at heq
      exact hlast (Option.some.inj heq) stored hstored
    constructor
    · rw [hafter]
      exact h.applied
    · rw [hafter]
      exact h.rule
    · refine List.pairwise_append.mpr ⟨h.sorted, hsorted, ?_⟩
      intro a ha b hb
      obtain ⟨_, ⟨⟩, hb, hfloor, -⟩ := hslots b hb
      obtain ⟨r, hr, hle, -⟩ := h.last a ha
      rw [hb] at hr
      cases hr
      rcases hle.lt_or_eq with hlt | heq
      · exact .inl hlt
      · have ha := hlater a ha (by rw [happlied, hb, heq])
        exact .inr ⟨heq, before_of_atLeast ha hfloor⟩
    · intro o ho
      rw [htask]
      rcases List.mem_append.mp ho with ho | ho
      · obtain ⟨r, hr, hle, -⟩ := h.last o ho
        refine ⟨r, by rw [happlied, hr], hle, ?_⟩
        rintro rfl _ ⟨⟩
        have hbefore := hlater o ho (by rw [happlied, hr])
        rcases controlAfterPut_target hcontrol hkeep with hadded | hstays
        · obtain ⟨b, hmem⟩ := List.exists_mem_of_ne_nil occurrences
            (by rintro rfl; exact hadded hreceipts.symm)
          obtain ⟨_, ⟨⟩, -, hfloor, hnext⟩ := hslots b hmem
          exact before_of_atLeast (before_of_atLeast hbefore hfloor)
            (atLeast_of_before hnext)
        · rw [hstays]
          exact hbefore
      · obtain ⟨_, ⟨⟩, hb, -, hbefore⟩ := hslots o ho
        refine ⟨_, by rw [happlied, hb], le_refl _, ?_⟩
        rintro - _ ⟨⟩
        exact hbefore

theorem Ordered.mutate (h : host.Ordered input.before emitted)
    (hmutate : host.mutate input input.before.control =
      .ok (after, occurrences)) :
    host.Ordered after (emitted ++ occurrences) := by
  unfold Host.mutate at hmutate
  split at hmutate
  case h_3 => exact h.put hmutate
  all_goals obtain ⟨_, -, hmutate⟩ := bind_eq_ok.mp hmutate
  case h_5 =>
    split at hmutate
    next =>
      obtain ⟨_, -, hmutate⟩ := bind_eq_ok.mp hmutate
      cases hmutate
      rw [List.append_nil]
      exact h.keep rfl rfl (.inr ⟨rfl, rfl⟩) fun _ => id
    next =>
      split at hmutate
      next => cases hmutate
      next =>
        obtain ⟨_, -, hmutate⟩ := bind_eq_ok.mp hmutate
        obtain ⟨_, -, hmutate⟩ := bind_eq_ok.mp hmutate
        cases hmutate
        rw [List.append_nil]
        exact h.apply rfl rfl rfl rfl fun _ => rfl
  -- the session moves on, or the task is deleted
  all_goals
    cases hmutate
    rw [List.append_nil]
    exact h.keep rfl rfl (.inr ⟨rfl, rfl⟩) (by simp)

/-- Hosts write a control, and the product changes its command, with a later
revision or without one. -/
inductive Life (host : Host ω) : Snapshot ω → List Occurrence → Prop
  | created {s : Snapshot ω} (h : Created s) : Life host s []
  | write {input : Input ω} {result : Result ω} {emitted : List Occurrence}
      (before : Life host input.before emitted)
      (h : host.prepareNativeRecurringMutation input = .ok result) :
      Life host result.after (emitted ++ result.occurrences)
  | command {s : Snapshot ω} {emitted : List Occurrence} (command : Command)
      (before : Life host s emitted) : Life host (withCommand s command) emitted
  | revision {s : Snapshot ω} {emitted : List Occurrence} (revision : Int)
      (rule : Rule) (command : Command) (before : Life host s emitted)
      (h : s.control.revision < revision) :
      Life host (withRevision s revision rule command) emitted

theorem Life.ordered (h : host.Life s emitted) : host.Ordered s emitted := by
  induction h with
  | created h =>
    exact ⟨by simp [h.appliedRevision], by simp [h.appliedRevision], .nil,
      by simp⟩
  | write before h ih => exact ih.mutate (prepare_ok h).2
  | command _ before ih => exact ih.keep rfl rfl (.inr ⟨rfl, rfl⟩) fun _ => id
  | revision _ _ _ before h ih => exact ih.keep rfl rfl (.inl h) fun _ => id

/-- No slot is filled twice, and a put finds its task not deleted and emits
exactly what is new in it. -/
theorem slots_filled_once (h : host.Life s emitted) :
    emitted.Pairwise host.Precedes ∧
      ∀ input result, input.before = s →
        host.prepareNativeRecurringMutation input = .ok result →
          ∀ raw, input.write.mutation.kind = .putTask raw →
            s.control.taskDeleted = false ∧
              result.occurrences.map (·.payload.receipt) =
                newReceipts (s.task.map host.read) (host.read raw) := by
  refine ⟨h.ordered.sorted, ?_⟩
  rintro input result rfl hok raw hkind
  have hmutate := (prepare_ok hok).2
  simp only [Host.mutate, hkind] at hmutate
  obtain ⟨-, hlive, previous, hprior, -, hemits, -, -⟩ := putTask_once hmutate
  refine ⟨hlive, ?_⟩
  rw [(occurrencesOf_slots hemits).1]
  rcases previousTask_ok hprior with ⟨hnone, rfl⟩ | ⟨stored, hs, rfl⟩
  · rw [hnone]
    rfl
  · rw [hs]
    rfl

namespace Delivering

theorem written_life {past : Snapshot Nat × List Occurrence}
    (h : runtime.Life past.1 past.2) (kind : MutationKind Nat) :
    runtime.Life (written past kind).1 (written past kind).2 := by
  unfold written
  split
  · rename_i result hresult
    exact .write h hresult
  · exact h

theorem writes_life (kinds : List (MutationKind Nat)) :
    runtime.Life (writes kinds).1 (writes kinds).2 := by
  induction kinds using List.reverseRecOn with
  | nil => exact .created created_created
  | append_singleton kinds kind ih =>
    rw [writes, List.foldl_append]
    exact written_life ih kind

/-- Two puts have brought three receipts, and a third one brings the next. -/
theorem slots_filled_once_delivering :
    (writes (served ++ [MutationKind.putTask 3])).2.map (·.payload.receipt) =
        [receipt 1, receipt 2, receipt 3] ∧
      (writes (served ++ [MutationKind.putTask 3])).2.Pairwise runtime.Precedes ∧
      ∃ result, runtime.prepareNativeRecurringMutation
          (asks (writes (served ++ [MutationKind.putTask 3])).1 (.putTask 4)) =
            .ok result ∧
        result.occurrences.map (·.payload.receipt) = [receipt 4] := by
  have hlife := writes_life (served ++ [MutationKind.putTask 3])
  obtain ⟨hsorted, hputs⟩ := slots_filled_once hlife
  refine ⟨by decide +kernel, hsorted, ?_⟩
  have hnew : newReceipts
      ((writes (served ++ [MutationKind.putTask 3])).1.task.map runtime.read)
      (runtime.read 4) = [receipt 4] := by decide +kernel
  have haccepted : (runtime.prepareNativeRecurringMutation
      (asks (writes (served ++ [MutationKind.putTask 3])).1
        (.putTask 4))).isOk = true := by
    decide +kernel
  cases h : runtime.prepareNativeRecurringMutation
      (asks (writes (served ++ [MutationKind.putTask 3])).1 (.putTask 4)) with
  | error fault =>
    rw [h] at haccepted
    cases haccepted
  | ok result =>
    refine ⟨result, rfl, ?_⟩
    rw [← hnew]
    exact (hputs _ result (asks_before _ (.putTask 4)) h 4 rfl).2

end Delivering

end Allrice.NativeRecurring.Host
