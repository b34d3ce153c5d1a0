/-
A transaction of a worker that has run into a lock timeout is run again, but
only while the database still shows the lease of that worker.  What the
transaction and the lease read come to, and the moment of an abort, are actions;
the log tells the attempts and what was known before each.
-/
import Allrice.EventLog
import Allrice.Runs
import Allrice.RuntimeIdentity

namespace Allrice.LeaseLockRetry

inductive JobStatus
  | queued
  | claimed
  | running
  | waitingApproval
  | retryWait
  | succeeded
  | failed
  | deadLetter
  | canceled
deriving DecidableEq

inductive DrainReason
  | cancel
  | timeout

/-- Whether a committed cancel or drain ends the retries. -/
inductive Mode
  | stop
  | receipt
deriving DecidableEq

structure LeaseIdentity where
  workerId : Uuid
  jobId : Uuid
  leaseToken : Uuid

/-- A row of the lease read, with the clock of the database. -/
structure JobRow where
  status : JobStatus
  workerId : Option Uuid
  leaseToken : Option Uuid
  leaseExpiresAt : Option Int
  drainDeadlineAt : Option Int
  drainReason : Option DrainReason
  cancelRequestedAt : Option Int
  now : Int

/-- Something that was thrown, with its `code` where that is a text. -/
structure Thrown where
  id : Nat
  code : Option JsString

def leaseLockWaitMs : Int := 5000

def leaseRetryReserveMs : Int := 1500

def contendedLockWaits : Int := 3

def minimumRetryLockWaitMs : Int := 500

def maxLeaseLockAttempts : Nat := 4

def isUpper (unit : UInt16) : Bool := 0x41 ≤ unit && unit ≤ 0x5A

def isDigit (unit : UInt16) : Bool := 0x30 ≤ unit && unit ≤ 0x39

/-- `/^[0-9A-Z]{5}$/` or `/^[A-Z][A-Z_]{2,39}$/`. -/
def isErrorCode (code : JsString) : Bool :=
  (code.length == 5 && code.all fun unit => isDigit unit || isUpper unit) ||
    (3 ≤ code.length && code.length ≤ 40 &&
      (code.head?.any isUpper) &&
        (code.drop 1).all fun unit => isUpper unit || unit == 0x5F)

def databaseErrorCode (error : Thrown) : Option JsString :=
  error.code.filter isErrorCode

/-- PostgreSQL has rolled the transaction back. -/
def isLockTimeout (error : Thrown) : Bool :=
  databaseErrorCode error == some (JsString.ofString "55P03")

inductive Next
  | leaseLost
  | stopped
  | exhausted
  | aborted
  | wait (ms : Int)

section

variable (lease : LeaseIdentity) (mode : Mode)

/-- The lock wait for the next attempt. -/
def nextLeaseLockWait : Option JobRow → Next
  | none => .leaseLost
  | some job =>
    match job.leaseExpiresAt with
    | none => .leaseLost
    | some expires =>
      if job.status ≠ .running ∨ job.workerId ≠ some lease.workerId ∨
          job.leaseToken ≠ some lease.leaseToken ∨ expires ≤ job.now ∨
          job.drainDeadlineAt.any (· ≤ job.now) then .leaseLost
      else if mode = .stop ∧
          (job.cancelRequestedAt.isSome ∨ job.drainReason.isSome) then
        .stopped
      else
        let until_ := (job.drainDeadlineAt.map (min expires)).getD expires
        let wait := min leaseLockWaitMs
          ((until_ - job.now - leaseRetryReserveMs) / contendedLockWaits)
        if minimumRetryLockWaitMs ≤ wait then .wait wait else .exhausted

end

variable {α : Type}

inductive Result (α : Type)
  | returned (value : α)
  | threwLeaseLost
  | threw (error : Thrown)

/-- What the loop waits for; behind a lock timeout it keeps the error. -/
inductive Phase (α : Type)
  | running
  | backingOff (error : Thrown)
  | reading (error : Thrown)
  | settled (result : Result α)

inductive Event (α : Type)
  | started (lockWaitMs : Int)
  | succeeded (value : α)
  | failed (error : Thrown)
  | rolledBack (error : Thrown)
  | read (row : Option JobRow)
  | unreadable
  | aborted
  | ended (result : Result α)

structure Retry (α : Type) where
  attempt : Nat
  aborted : Bool
  phase : Phase α
  log : List (Event α)

inductive Action (α : Type)
  | ran (outcome : Except Thrown α)
  | waited
  | read (answer : Except Thrown (Option JobRow))
  | abort

namespace Retry

/-- `run` is called at once. -/
def initial : Retry α where
  attempt := 1
  aborted := false
  phase := .running
  log := [.started leaseLockWaitMs]

def record (s : Retry α) (event : Event α) : Retry α :=
  { s with log := s.log ++ [event] }

def settle (s : Retry α) (result : Result α) : Retry α :=
  { s with phase := .settled result }.record (.ended result)

/-- Behind what was read, or was not. -/
def conclude (s : Retry α) (error : Thrown) (next : Next) : Retry α :=
  match (if s.aborted then .aborted else next) with
  | .leaseLost => s.settle .threwLeaseLost
  | .wait ms =>
    { s with attempt := s.attempt + 1, phase := .running }.record
      (.started ms)
  | _ => s.settle (.threw error)

def ran (s : Retry α) (outcome : Except Thrown α) : Retry α :=
  match s.phase, outcome with
  | .running, .ok value =>
    (s.record (.succeeded value)).settle (.returned value)
  | .running, .error error =>
    if isLockTimeout error = false then
      (s.record (.failed error)).settle (.threw error)
    else if s.attempt < maxLeaseLockAttempts ∧ s.aborted = false then
      { s with phase := .backingOff error }.record (.rolledBack error)
    else (s.record (.rolledBack error)).conclude error .exhausted
  | _, _ => s

def waited (s : Retry α) : Retry α :=
  match s.phase with
  | .backingOff error =>
    if s.aborted then s.conclude error .exhausted
    else { s with phase := .reading error }
  | _ => s

def read (lease : LeaseIdentity) (mode : Mode) (s : Retry α)
    (answer : Except Thrown (Option JobRow)) : Retry α :=
  match s.phase, answer with
  | .reading error, .error _ =>
    (s.record .unreadable).conclude error .exhausted
  | .reading error, .ok row =>
    (s.record (.read row)).conclude error (nextLeaseLockWait lease mode row)
  | _, _ => s

def abort (s : Retry α) : Retry α :=
  if s.aborted then s else { s with aborted := true }.record .aborted

end Retry

def retryLeaseLockTimeout (lease : LeaseIdentity) (mode : Mode) :
    Machine (Retry α) (Action α) Unit where
  step s action :=
    (match action with
      | .ran outcome => s.ran outcome
      | .waited => s.waited
      | .read answer => s.read lease mode answer
      | .abort => s.abort, ())

/-- The job is running under this lease, which has time for three lock waits and
what follows them. -/
structure Confirmed (lease : LeaseIdentity) (mode : Mode) (job : JobRow)
    (wait : Int) : Prop where
  status : job.status = .running
  worker : job.workerId = some lease.workerId
  token : job.leaseToken = some lease.leaseToken
  lease : ∃ expires, job.leaseExpiresAt = some expires ∧ job.now < expires ∧
    3 * wait + 1500 ≤ expires - job.now
  drain : ∀ deadline, job.drainDeadlineAt = some deadline →
    job.now < deadline ∧ 3 * wait + 1500 ≤ deadline - job.now
  going : mode = .stop →
    job.cancelRequestedAt = none ∧ job.drainReason = none
  least : 500 ≤ wait
  most : wait ≤ 5000

/-- The job is gone, or no longer runs under this lease. -/
def LeaseGone (lease : LeaseIdentity) : Option JobRow → Prop
  | none => True
  | some job =>
    job.status ≠ .running ∨ job.workerId ≠ some lease.workerId ∨
      job.leaseToken ≠ some lease.leaseToken ∨
      (∀ expires, job.leaseExpiresAt = some expires → expires ≤ job.now) ∨
      ∃ deadline, job.drainDeadlineAt = some deadline ∧ deadline ≤ job.now

section

variable {lease : LeaseIdentity} {mode : Mode} {row : Option JobRow}

theorem nextLeaseLockWait_leaseLost
    (h : nextLeaseLockWait lease mode row = .leaseLost) :
    LeaseGone lease row := by
  cases row with
  | none => trivial
  | some job =>
    rw [nextLeaseLockWait] at h
    split at h
    · rename_i hnone
      refine .inr (.inr (.inr (.inl fun expires hexpires => ?_)))
      rw [hnone] at hexpires
      cases hexpires
    rename_i expires hexpires
    split at h
    · rename_i hgone
      rcases hgone with hstatus | hworker | htoken | hpast | hdrained
      · exact .inl hstatus
      · exact .inr (.inl hworker)
      · exact .inr (.inr (.inl htoken))
      · refine .inr (.inr (.inr (.inl fun other hother => ?_)))
        obtain rfl := Option.some.inj (hexpires.symm.trans hother)
        exact hpast
      · obtain ⟨deadline, hdeadline, hpast⟩ :=
          (Option.any_eq_true _ _).1 hdrained
        exact .inr (.inr (.inr (.inr
          ⟨deadline, hdeadline, of_decide_eq_true hpast⟩)))
    split at h
    · cases h
    · simp only at h
      split at h
      · cases h
      · cases h

theorem three_waits {n wait : Int} (h : wait ≤ (n - 1500) / 3) :
    3 * wait + 1500 ≤ n := by
  omega

theorem nextLeaseLockWait_wait {ms : Int}
    (h : nextLeaseLockWait lease mode row = .wait ms) :
    ∃ job, row = some job ∧ Confirmed lease mode job ms := by
  cases row with
  | none => cases h
  | some job =>
    refine ⟨job, rfl, ?_⟩
    rw [nextLeaseLockWait] at h
    split at h
    · cases h
    rename_i expires hexpires
    split at h
    · cases h
    rename_i hheld
    rw [not_or, not_or, not_or, not_or, not_not, not_not, not_not] at hheld
    obtain ⟨hstatus, hworker, htoken, hcurrent, hdrain⟩ := hheld
    split at h
    · cases h
    rename_i hgoing
    simp only at h
    split at h
    · rename_i hleast
      have hwait := Next.wait.inj h
      have hend : 3 * ms + 1500 ≤
          (job.drainDeadlineAt.map (min expires)).getD expires - job.now := by
        apply three_waits
        rw [← hwait]
        exact min_le_right _ _
      exact
        { status := hstatus
          worker := hworker
          token := htoken
          lease := by
            refine ⟨expires, hexpires, Int.not_le.1 hcurrent, ?_⟩
            cases hdeadline : job.drainDeadlineAt with
            | none =>
              rw [hdeadline] at hend
              exact hend
            | some deadline =>
              rw [hdeadline] at hend
              exact hend.trans
                (Int.sub_le_sub_right (min_le_left _ _) _)
          drain := by
            intro deadline hdeadline
            rw [hdeadline] at hend hdrain
            refine ⟨Int.not_le.1 fun hpast => ?_, hend.trans
              (Int.sub_le_sub_right (min_le_right _ _) _)⟩
            exact hdrain (decide_eq_true hpast)
          going := by
            intro hstop
            have hnone : ¬(job.cancelRequestedAt.isSome ∨
                job.drainReason.isSome) := fun hsome => hgoing ⟨hstop, hsome⟩
            rw [not_or, Option.not_isSome_iff_eq_none,
              Option.not_isSome_iff_eq_none] at hnone
            exact hnone
          least := by
            rw [← hwait]
            exact hleast
          most := by
            rw [← hwait]
            exact min_le_left _ _ }
    · cases h

end

def Event.isAborted : Event α → Bool
  | .aborted => true
  | _ => false

def Event.isStarted : Event α → Bool
  | .started _ => true
  | _ => false

/-- The log without the abort, which may come between any two events. -/
def calm (log : List (Event α)) : List (Event α) :=
  log.filter (!·.isAborted)

/-- What each event presupposes of those before it. -/
def Allowed (lease : LeaseIdentity) (mode : Mode) (before : List (Event α)) :
    Event α → Prop
  | .started ms =>
    before = [] ∨
      (∃ earlier error job,
        before = earlier ++ [.rolledBack error, .read (some job)] ∧
          isLockTimeout error = true ∧ Confirmed lease mode job ms) ∧
        .aborted ∉ before ∧
        before.countP Event.isStarted < maxLeaseLockAttempts
  | .succeeded _ | .failed _ =>
    ∃ ms, [.started ms] <:+ calm before
  | .rolledBack error =>
    isLockTimeout error = true ∧ ∃ ms, [.started ms] <:+ calm before
  | .read _ | .unreadable => ∃ error, [.rolledBack error] <:+ calm before
  | .aborted => .aborted ∉ before
  | .ended (.returned value) => [.succeeded value] <:+ calm before
  | .ended .threwLeaseLost =>
    ∃ error row, [.rolledBack error, .read row] <:+ calm before ∧
      LeaseGone lease row
  | .ended (.threw error) =>
    [.failed error] <:+ calm before ∨ [.rolledBack error] <:+ calm before ∨
      (∃ row, [.rolledBack error, .read row] <:+ calm before) ∨
        [.rolledBack error, .unreadable] <:+ calm before

/-- What the phase says about the log. -/
def Tells (log : List (Event α)) : Phase α → Prop
  | .running => ∃ ms, [.started ms] <:+ calm log
  | .backingOff error | .reading error =>
    isLockTimeout error = true ∧ [.rolledBack error] <:+ calm log
  | .settled result => .ended result ∈ log

/-- What holds of every log, whatever the loop waits for. -/
structure Sound (lease : LeaseIdentity) (mode : Mode) (s : Retry α) :
    Prop where
  history : EachEntry (Allowed lease mode) s.log
  aborted : s.aborted = true ↔ .aborted ∈ s.log
  attempts : s.log.countP Event.isStarted = s.attempt
  few : s.attempt ≤ maxLeaseLockAttempts

structure Kept (lease : LeaseIdentity) (mode : Mode) (s : Retry α) : Prop where
  sound : Sound lease mode s
  tells : Tells s.log s.phase
  again : ∀ error, s.phase = .backingOff error ∨ s.phase = .reading error →
    s.attempt < maxLeaseLockAttempts

section

variable {lease : LeaseIdentity} {mode : Mode} {s : Retry α} {event : Event α}
  {log : List (Event α)}

theorem calm_concat (log : List (Event α)) (h : event.isAborted = false) :
    calm (log ++ [event]) = calm log ++ [event] := by
  rw [calm, List.filter_append, List.filter_cons, h]
  rfl

theorem calm_aborted (log : List (Event α)) :
    calm (log ++ [Event.aborted]) = calm log := by
  rw [calm, List.filter_append]
  exact List.append_nil _

theorem suffix_calm (log : List (Event α)) (h : event.isAborted = false) :
    [event] <:+ calm (log ++ [event]) := by
  rw [calm_concat log h]
  exact List.suffix_append ..

theorem suffix_calm_pair {first second : Event α}
    (hfirst : [first] <:+ calm log) (h : second.isAborted = false) :
    [first, second] <:+ calm (log ++ [second]) := by
  obtain ⟨earlier, hearlier⟩ := hfirst
  rw [calm_concat log h, ← hearlier, List.append_assoc]
  exact List.suffix_append ..

/-- Without an abort the log is as it is. -/
theorem calm_eq (h : .aborted ∉ log) : calm log = log := by
  rw [calm, List.filter_eq_self]
  intro event hmem
  cases event with
  | aborted => exact absurd hmem h
  | _ => rfl

theorem Sound.record (h : Sound lease mode s)
    (hallowed : Allowed lease mode s.log event)
    (hcalm : event.isAborted = false) (hstarted : event.isStarted = false) :
    Sound lease mode (s.record event) where
  history := h.history.concat hallowed
  aborted := by
    rw [show (s.record event).aborted = s.aborted from rfl, h.aborted]
    show _ ↔ .aborted ∈ s.log ++ [event]
    rw [List.mem_append, List.mem_singleton]
    refine (or_iff_left fun hevent => ?_).symm
    rw [← hevent] at hcalm
    cases hcalm
  attempts := by
    show (s.log ++ [event]).countP Event.isStarted = s.attempt
    rw [List.countP_append, List.countP_singleton, hstarted,
      if_neg Bool.false_ne_true]
    exact h.attempts
  few := h.few

theorem Sound.phase (h : Sound lease mode s) (phase : Phase α) :
    Sound lease mode { s with phase } :=
  ⟨h.history, h.aborted, h.attempts, h.few⟩

theorem Sound.settle (h : Sound lease mode s) {result : Result α}
    (hallowed : Allowed lease mode s.log (.ended result)) :
    Kept lease mode (s.settle result) where
  sound := (h.phase (.settled result)).record hallowed rfl rfl
  tells := List.mem_concat_self
  again error hphase := by
    rcases hphase with hphase | hphase
    · cases hphase
    · cases hphase

/-- The next attempt. -/
theorem Sound.start (h : Sound lease mode s) {ms : Int}
    (hallowed : Allowed lease mode s.log (.started ms))
    (hfew : s.attempt < maxLeaseLockAttempts) :
    Kept lease mode
      (({ s with
        attempt := s.attempt + 1
        phase := .running } : Retry α).record (.started ms)) where
  sound :=
    { history := h.history.concat hallowed
      aborted := by
        show s.aborted = true ↔ Event.aborted ∈ s.log ++ [Event.started ms]
        rw [h.aborted, List.mem_append, List.mem_singleton]
        refine (or_iff_left fun hevent => ?_).symm
        cases hevent
      attempts := by
        show (s.log ++ [Event.started ms]).countP Event.isStarted =
          s.attempt + 1
        rw [List.countP_append, h.attempts]
        rfl
      few := hfew }
  tells := ⟨ms, suffix_calm s.log rfl⟩
  again error hphase := by
    rcases hphase with hphase | hphase
    · cases hphase
    · cases hphase

/-- Whatever was read, or was not, the loop ends with the error of its last
attempt unless the read says something else. -/
theorem Sound.conclude (h : Sound lease mode s) {error : Thrown} {next : Next}
    (hthrew : Allowed lease mode s.log (.ended (.threw error)))
    (hlost : next = .leaseLost →
      Allowed lease mode s.log (.ended .threwLeaseLost))
    (hwait : ∀ ms, next = .wait ms → s.aborted = false →
      Allowed lease mode s.log (.started ms) ∧
        s.attempt < maxLeaseLockAttempts) :
    Kept lease mode (s.conclude error next) := by
  rw [Retry.conclude]
  by_cases haborted : s.aborted = true
  · rw [if_pos haborted]
    exact h.settle hthrew
  · rw [if_neg haborted]
    cases next with
    | leaseLost => exact h.settle (hlost rfl)
    | wait ms =>
      obtain ⟨hallowed, hfew⟩ := hwait ms rfl (Bool.not_eq_true _ ▸ haborted)
      exact h.start hallowed hfew
    | stopped | exhausted | aborted => exact h.settle hthrew

theorem Kept.ran (h : Kept lease mode s) (outcome : Except Thrown α) :
    Kept lease mode (s.ran outcome) := by
  cases hphase : s.phase with
  | running =>
    have hrunning : ∃ ms, [.started ms] <:+ calm s.log := by
      have htells := h.tells
      rw [hphase] at htells
      exact htells
    cases outcome with
    | ok value =>
      simp only [Retry.ran, hphase]
      have hrecord : Sound lease mode (s.record (.succeeded value)) :=
        h.sound.record hrunning rfl rfl
      exact hrecord.settle (suffix_calm s.log rfl)
    | error error =>
      simp only [Retry.ran, hphase]
      split
      · have hrecord : Sound lease mode (s.record (.failed error)) :=
          h.sound.record hrunning rfl rfl
        exact hrecord.settle (.inl (suffix_calm s.log rfl))
      rename_i htimeout
      rw [Bool.not_eq_false] at htimeout
      have hrecord : ∀ phase,
          Sound lease mode
            (({ s with phase } : Retry α).record (.rolledBack error)) :=
        fun phase =>
          (h.sound.phase phase).record ⟨htimeout, hrunning⟩ rfl rfl
      split
      · rename_i hagain
        exact
          { sound := hrecord _
            tells := ⟨htimeout, suffix_calm s.log rfl⟩
            again := fun _ _ => hagain.1 }
      · apply (hrecord s.phase).conclude
        · exact .inr (.inl (suffix_calm s.log rfl))
        · nofun
        · intro ms hwait
          cases hwait
  | backingOff error | reading error | settled result =>
    simp only [Retry.ran, hphase]
    exact h

theorem Kept.waited (h : Kept lease mode s) : Kept lease mode s.waited := by
  cases hphase : s.phase with
  | backingOff error =>
    have htells := h.tells
    rw [hphase] at htells
    simp only [Retry.waited, hphase]
    split
    · apply h.sound.conclude
      · exact .inr (.inl htells.2)
      · nofun
      · intro ms hwait
        cases hwait
    · exact
        { sound := h.sound.phase _
          tells := htells
          again := fun other _ => h.again error (.inl hphase) }
  | running | reading error | settled result =>
    simp only [Retry.waited, hphase]
    exact h

theorem Kept.read (h : Kept lease mode s)
    (answer : Except Thrown (Option JobRow)) :
    Kept lease mode (s.read lease mode answer) := by
  cases hphase : s.phase with
  | reading error =>
    have htells := h.tells
    rw [hphase] at htells
    have hagain := h.again error (.inr hphase)
    cases answer with
    | error failure =>
      simp only [Retry.read, hphase]
      have hrecord : Sound lease mode (s.record .unreadable) :=
        h.sound.record ⟨error, htells.2⟩ rfl rfl
      apply hrecord.conclude
      · exact .inr (.inr (.inr (suffix_calm_pair htells.2 rfl)))
      · nofun
      · intro ms hwait
        cases hwait
    | ok row =>
      simp only [Retry.read, hphase]
      have hrecord : Sound lease mode (s.record (.read row)) :=
        h.sound.record ⟨error, htells.2⟩ rfl rfl
      have hpair : [.rolledBack error, .read row] <:+
          calm (s.record (.read row)).log :=
        suffix_calm_pair htells.2 rfl
      apply hrecord.conclude
      · exact .inr (.inr (.inl ⟨row, hpair⟩))
      · intro hlost
        exact ⟨error, row, hpair, nextLeaseLockWait_leaseLost hlost⟩
      · intro ms hwait haborted
        obtain ⟨job, rfl, hconfirmed⟩ := nextLeaseLockWait_wait hwait
        have hcalm : .aborted ∉ (s.record (.read (some job))).log := by
          rw [← hrecord.aborted, haborted]
          exact Bool.false_ne_true
        rw [calm_eq hcalm] at hpair
        obtain ⟨earlier, hearlier⟩ := hpair
        refine ⟨.inr ⟨⟨earlier, error, job, hearlier.symm, htells.1,
          hconfirmed⟩, hcalm, ?_⟩, hagain⟩
        rw [hrecord.attempts]
        exact hagain
  | running | backingOff error | settled result =>
    simp only [Retry.read, hphase]
    exact h

theorem Tells.aborted {phase : Phase α} (h : Tells log phase) :
    Tells (log ++ [Event.aborted]) phase := by
  cases phase with
  | running | backingOff error | reading error =>
    rw [Tells, calm_aborted]
    exact h
  | settled result => exact List.mem_append_left _ h

theorem Kept.abort (h : Kept lease mode s) : Kept lease mode s.abort := by
  rw [Retry.abort]
  split
  · exact h
  · rename_i hnot
    rw [Bool.not_eq_true] at hnot
    have hnever : Event.aborted ∉ s.log := by
      rw [← h.sound.aborted, hnot]
      exact Bool.false_ne_true
    exact
      { sound :=
          { history := h.sound.history.concat hnever
            aborted := iff_of_true rfl List.mem_concat_self
            attempts := by
              show (s.log ++ [Event.aborted]).countP Event.isStarted = s.attempt
              rw [List.countP_append, h.sound.attempts]
              rfl
            few := h.sound.few }
        tells := h.tells.aborted
        again := h.again }

theorem Kept.step (h : Kept lease mode s) (action : Action α) :
    Kept lease mode ((retryLeaseLockTimeout lease mode).step s action).1 := by
  cases action with
  | ran outcome => exact h.ran outcome
  | waited => exact h.waited
  | read answer => exact h.read answer
  | abort => exact h.abort

end

theorem Kept.initial (lease : LeaseIdentity) (mode : Mode) :
    Kept lease mode (.initial : Retry α) where
  sound :=
    { history := EachEntry.nil.concat (.inl rfl)
      aborted := by
        refine iff_of_false Bool.false_ne_true fun hmem => ?_
        cases List.mem_singleton.1 hmem
      attempts := rfl
      few := by
        show 1 ≤ maxLeaseLockAttempts
        decide }
  tells := ⟨_, List.suffix_refl _⟩
  again error hphase := by
    rcases hphase with hphase | hphase
    · cases hphase
    · cases hphase

/-- What the loop has done so far, and what it ended with. -/
structure Disciplined (lease : LeaseIdentity) (mode : Mode) (s : Retry α) :
    Prop where
  history : EachEntry (Allowed lease mode) s.log
  attempts : s.log.countP Event.isStarted ≤ 4
  result : ∀ result, s.phase = .settled result → .ended result ∈ s.log

/-- Whatever comes of the attempts and the lease reads, and whenever the abort
comes, an attempt is made again only under a lease that a read has proved. -/
theorem retries_only_under_lease (lease : LeaseIdentity) (mode : Mode)
    (actions : List (Action α)) :
    Disciplined lease mode
      ((retryLeaseLockTimeout lease mode).after .initial actions) := by
  have hkept : Kept lease mode
      ((retryLeaseLockTimeout lease mode).after .initial actions) :=
    Machine.after_invariant (Kept lease mode) (fun _ action h => h.step action)
      (.initial lease mode) actions
  exact
    { history := hkept.sound.history
      attempts := by
        rw [hkept.sound.attempts]
        exact hkept.sound.few
      result := fun result hphase => by
        have htells := hkept.tells
        rw [hphase] at htells
        exact htells }

end Allrice.LeaseLockRetry
