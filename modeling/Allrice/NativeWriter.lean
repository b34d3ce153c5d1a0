/-
The writer of a schedule partition.  An owner acquires the row once the last
writer is closed, renews its lease, and is closed itself; the writes of a host
are decided on the same row.
-/
import Allrice.NativeRecurringOnce

namespace Allrice.NativeWriter

open NativeRecurring NativeRecurring.Host ByteReader
open Except (bind_eq_ok)

inductive PlanFault
  | once (fault : Fault)
  | referenceChanged

variable {ω : Type} (host : Host ω)

def planNativeOnceAcquire (readiness : Readiness) (row : WriterRow)
    (ownerId token : JsString) (expectedReference : Reference)
    (dbNowMs ttlMs : Int) : Except PlanFault (Option (Writer × WriterRow)) :=
  if nativeOnceReady readiness = false then .ok none
  else if ¬(safeTime dbNowMs = true ∧ 1 ≤ ttlMs ∧ ttlMs ≤ ttlMax ∧
      0 ≤ row.epoch ∧ row.epoch < maxSafeInteger) then
    .error (.once .writerInvalid)
  else if row.reference ≠ expectedReference then .error .referenceChanged
  -- a Host that lost its lease may still own native sessions
  else if row.closed = false then .ok none
  else
    let writer : Writer :=
      { partitionId := row.partitionId
        ownerId := ownerId
        epoch := row.epoch + 1
        token := token }
    match host.fence writer with
    | .error fault => .error (.once fault)
    | .ok tokenDigest =>
      if safeTime (dbNowMs + ttlMs) = false then .error (.once .writerInvalid)
      else
        .ok (some (writer,
          { row with
            ownerId := some ownerId
            epoch := writer.epoch
            tokenDigest := some tokenDigest
            expiresAtMs := some (dbNowMs + ttlMs)
            closed := false }))

def planNativeOnceRenew (row : WriterRow) (writer : Writer)
    (dbNowMs ttlMs : Int) : Except PlanFault (Option WriterRow) :=
  match host.nativeOnceWriterRemaining row writer dbNowMs with
  | .error fault => .error (.once fault)
  | .ok remaining =>
    if remaining = 0 then .ok none
    else if ¬(1 ≤ ttlMs ∧ ttlMs ≤ ttlMax ∧
        safeTime (dbNowMs + ttlMs) = true) then .error (.once .writerInvalid)
    else .ok (some { row with expiresAtMs := some (dbNowMs + ttlMs) })

/-- An expired lease is closed too; a later epoch never is. -/
def planNativeOnceClosed (row : WriterRow) (writer : Writer) :
    Except PlanFault (Option WriterRow) :=
  match host.sameWriter row writer with
  | .error fault => .error (.once fault)
  | .ok same => .ok (if same then some { row with closed := true } else none)

/-- A plan that was carried out; any other changes nothing. -/
inductive Event
  | acquired (writer : Writer)
  | renewed (writer : Writer)
  | closed (writer : Writer)

inductive Step (host : Host ω) (row : WriterRow) : Event → WriterRow → Prop
  | acquire {readiness ownerId token reference now ttl w next}
      (h : planNativeOnceAcquire host readiness row ownerId token reference now
        ttl = .ok (some (w, next))) : Step host row (.acquired w) next
  | renew {w now ttl next}
      (h : planNativeOnceRenew host row w now ttl = .ok (some next)) :
      Step host row (.renewed w) next
  | close {w next}
      (h : planNativeOnceClosed host row w = .ok (some next)) :
      Step host row (.closed w) next

inductive Steps (host : Host ω) : WriterRow → List Event → WriterRow → Prop
  | refl (row : WriterRow) : Steps host row [] row
  | step {row next last event events}
      (h : Step host row event next) (rest : Steps host next events last) :
      Steps host row (event :: events) last

variable {host} {row next last : WriterRow} {w : Writer} {now ttl : Int}
  {events : List Event}

theorem sameWriter_epoch (h : host.sameWriter row w = .ok true) :
    row.epoch = w.epoch := by
  obtain ⟨digest, hdigest, h⟩ := bind_eq_ok.mp h
  have h := Except.ok.inj h
  simp only [Bool.and_eq_true, beq_iff_eq] at h
  exact h.1.2

theorem remaining_pos {remaining : Int}
    (h : host.nativeOnceWriterRemaining row w now = .ok remaining)
    (hpos : remaining ≠ 0) :
    host.sameWriter row w = .ok true ∧ row.closed = false := by
  unfold nativeOnceWriterRemaining at h
  split at h
  next => exact absurd (Except.ok.inj h).symm hpos
  next =>
    obtain ⟨same, hsame, h⟩ := bind_eq_ok.mp h
    cases same <;> cases hclosed : row.closed <;> simp [hclosed] at h
    case true.false => exact ⟨hsame, rfl⟩
    all_goals exact absurd (Except.ok.inj h).symm hpos

theorem acquire_ok {readiness : Readiness} {ownerId token : JsString}
    {reference : Reference}
    (h : planNativeOnceAcquire host readiness row ownerId token reference now
      ttl = .ok (some (w, next))) :
    row.closed = true ∧ w.epoch = row.epoch + 1 ∧ next.epoch = w.epoch ∧
      next.closed = false ∧ host.sameWriter next w = .ok true := by
  unfold planNativeOnceAcquire at h
  split_ifs at h with _ _ _ hclosed
  · cases h
  · cases h
  all_goals
    dsimp only at h
    split at h <;> cases h
  rename_i digest hdigest
  refine ⟨by simpa using hclosed, rfl, rfl, rfl, ?_⟩
  simp [sameWriter, hdigest]

theorem renew_ok
    (h : planNativeOnceRenew host row w now ttl = .ok (some next)) :
    host.sameWriter row w = .ok true ∧
      ∃ expiresAtMs, next = { row with expiresAtMs } := by
  unfold planNativeOnceRenew at h
  split at h
  next => cases h
  next remaining hremaining =>
    split_ifs at h with hzero
    · cases h
    · cases h
      exact ⟨(remaining_pos hremaining hzero).1, _, rfl⟩

theorem closed_ok
    (h : planNativeOnceClosed host row w = .ok (some next)) :
    host.sameWriter row w = .ok true ∧ next = { row with closed := true } := by
  unfold planNativeOnceClosed at h
  split at h
  next => cases h
  next same hsame =>
    cases same <;> cases h
    exact ⟨hsame, rfl⟩

theorem epoch_mono (h : Steps host row events last) :
    row.epoch ≤ last.epoch := by
  induction h with
  | refl => exact le_refl _
  | step h rest ih =>
    refine le_trans ?_ ih
    cases h with
    | acquire h =>
      obtain ⟨-, hepoch, hnext, -, -⟩ := acquire_ok h
      omega
    | renew h =>
      obtain ⟨-, _, rfl⟩ := renew_ok h
      exact le_refl _
    | close h =>
      obtain ⟨-, rfl⟩ := closed_ok h
      exact le_refl _

/-- A row stays with its writer until it is closed. -/
theorem held_until_closed (h : Steps host row events last)
    (hopen : row.closed = false) (hlast : last.closed = true) :
    ∃ w, .closed w ∈ events ∧ host.sameWriter row w = .ok true := by
  induction h with
  | refl =>
    rw [hopen] at hlast
    cases hlast
  | step h rest ih =>
    cases h with
    | acquire h =>
      have hclosed := (acquire_ok h).1
      rw [hopen] at hclosed
      cases hclosed
    | renew h =>
      obtain ⟨-, _, rfl⟩ := renew_ok h
      obtain ⟨w, hmem, hsame⟩ := ih hopen hlast
      exact ⟨w, List.mem_cons_of_mem _ hmem, hsame⟩
    | close h => exact ⟨_, List.mem_cons_self, (closed_ok h).1⟩

/-- No renewal, no close, and no write of a schedule host is accepted. -/
structure Refuses [DecidableEq ω] (host : Host ω) (row : WriterRow)
    (w : Writer) : Prop where
  renew : ∀ now ttl next,
    planNativeOnceRenew host row w now ttl ≠ .ok (some next)
  close : ∀ next, planNativeOnceClosed host row w ≠ .ok (some next)
  write : ∀ input : Input ω, input.writerRow = row → input.writer = w →
    ∀ result, host.prepareNativeRecurringMutation input ≠ .ok result

theorem refuses_of_epoch [DecidableEq ω] (h : w.epoch < row.epoch) :
    Refuses host row w := by
  have hother : host.sameWriter row w ≠ .ok true := by
    intro hsame
    have hepoch := sameWriter_epoch hsame
    omega
  constructor
  · intro now ttl next h
    exact hother (renew_ok h).1
  · intro next h
    exact hother (closed_ok h).1
  · rintro input rfl rfl result h
    unfold prepareNativeRecurringMutation at h
    obtain ⟨_, -, h⟩ := bind_eq_ok.mp h
    obtain ⟨remaining, hremaining, h⟩ := bind_eq_ok.mp h
    obtain ⟨_, hfence, -⟩ := bind_eq_ok.mp h
    have hpos := (need_eq_ok.mp hfence).1
    exact hother (remaining_pos hremaining hpos.ne').1

/-- A writer acquires a row with the next epoch.  Before another one can, it is
closed under its own fence, an expired lease is not enough; and from then on the
row refuses it. -/
theorem writers_fenced [DecidableEq ω] {w' : Writer}
    {first between second : WriterRow} {later : List Event}
    (hfirst : Step host row (.acquired w) first)
    (hevents : Steps host first events between)
    (hsecond : Step host between (.acquired w') second)
    (hlater : Steps host second later last) :
    row.epoch < w.epoch ∧ w.epoch < w'.epoch ∧
      host.sameWriter first w = .ok true ∧
      (∃ closer, .closed closer ∈ events ∧
        host.sameWriter first closer = .ok true) ∧
      Refuses host last w := by
  cases hfirst with
  | acquire hfirst =>
    cases hsecond with
    | acquire hsecond =>
      obtain ⟨-, hepoch, hnext, hopen, hsame⟩ := acquire_ok hfirst
      obtain ⟨hclosed, hepoch', hnext', -, -⟩ := acquire_ok hsecond
      have hmono := epoch_mono hevents
      have hmono' := epoch_mono hlater
      exact ⟨by omega, by omega, hsame, held_until_closed hevents hopen hclosed,
        refuses_of_epoch (by omega)⟩

namespace TakeOver

open Delivering

def held (name : JsString) (epoch expiresAtMs : Int) (closed : Bool) :
    WriterRow :=
  ⟨[0x70], some name, epoch, some [], some expiresAtMs, closed, reference⟩

def writer (name : JsString) (epoch : Int) : Writer :=
  ⟨[0x70], name, epoch, name⟩

/-- The lease of the first writer has long run out. -/
theorem writers_fenced_after_close :
    (writer [0x61] 1).epoch < (writer [0x62] 2).epoch ∧
      Refuses runtime (held [0x62] 2 6000 false) (writer [0x61] 1) := by
  have hfirst : Step runtime
      ⟨[0x70], none, 0, none, none, true, reference⟩
      (.acquired (writer [0x61] 1)) (held [0x61] 1 1000 false) :=
    .acquire (show planNativeOnceAcquire runtime ready _ [0x61]
      [0x61] reference 0 1000 = _ from rfl)
  have hclose : Step runtime (held [0x61] 1 1000 false)
      (.closed (writer [0x61] 1)) (held [0x61] 1 1000 true) := .close rfl
  have hsecond : Step runtime (held [0x61] 1 1000 true)
      (.acquired (writer [0x62] 2)) (held [0x62] 2 6000 false) :=
    .acquire (show planNativeOnceAcquire runtime ready _ [0x62]
      [0x62] reference 5000 1000 = _ from rfl)
  have h := writers_fenced hfirst (.step hclose (.refl _)) hsecond (.refl _)
  exact ⟨h.2.1, h.2.2.2.2⟩

end TakeOver

end Allrice.NativeWriter
