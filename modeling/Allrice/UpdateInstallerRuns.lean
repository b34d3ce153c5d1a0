/-
The installer over whole runs.  At every point where the process may crash the
directory has one of a few shapes, and `recover` brings each of them back to the
app from before, except the one that an interrupted recovery leaves when it has
restored the app without a failed candidate, and those whose state file is too
long to be read.
-/
import Allrice.UpdateInstaller

namespace Allrice.UpdateInstaller

variable {Bundle : Type}

/-- The app of before is still in place, or is in place again without a failed
candidate. -/
def Untouched (before : Option Bundle) (d : Directory Bundle)
    (id : TransactionId) : Prop :=
  d.app = before ∧ d.rollback id = none ∧ d.failed id = none

/-- The app of before is the backup. -/
def Kept (before : Option Bundle) (d : Directory Bundle) (id : TransactionId) :
    Prop :=
  before.isSome = true ∧ d.app = none ∧ d.rollback id = before ∧
    d.failed id = none

/-- The candidate is the app. -/
def Replaced (before : Option Bundle) (d : Directory Bundle)
    (id : TransactionId) : Prop :=
  d.app.isSome = true ∧ d.rollback id = before ∧ d.failed id = none

/-- The candidate was put aside. -/
def Discarded (before : Option Bundle) (d : Directory Bundle)
    (id : TransactionId) : Prop :=
  d.app = none ∧ d.rollback id = before ∧ (d.failed id).isSome = true

/-- The app of before is back, and the candidate aside. -/
def Restored (before : Option Bundle) (d : Directory Bundle)
    (id : TransactionId) : Prop :=
  d.app = before ∧ d.rollback id = none ∧ (d.failed id).isSome = true

/-- The shapes that `recover` brings back, by phase. -/
def Recoverable (before : Option Bundle) (d : Directory Bundle)
    (t : Transaction) : Prop :=
  match t.phase with
  | .prepared =>
    Untouched before d t.id ∨ Kept before d t.id ∨ Replaced before d t.id
  | .pendingHealth => Replaced before d t.id
  | .readyHealth => Replaced before d t.id
  | .recovering =>
    Kept before d t.id ∨ Replaced before d t.id ∨ Discarded before d t.id ∨
      Restored before d t.id ∨ t.previous = false ∧ Untouched before d t.id
  | .healthy => True
  | .rolledBack => d.app = before

/-- No operation is under way. -/
def Rests (before : Option Bundle) (d : Directory Bundle) : Prop :=
  match d.state with
  | none => d.app = before
  | some t =>
    (isSettled d.state = false → t.previous = before.isSome) ∧
      Recoverable before d t

/-- Where each operation stands before its next step. -/
def Stands (before : Option Bundle) (d : Directory Bundle) :
    Option (Operation Bundle) → Prop
  | none => Rests before d
  | some (.stage id _ _) =>
    isSettled d.state = true ∧ d.app = before ∧ d.rollback id = none ∧
      d.failed id = none
  | some (.extract id _ _) =>
    isSettled d.state = true ∧ d.app = before ∧ d.rollback id = none ∧
      d.failed id = none
  | some (.prepare id _) =>
    isSettled d.state = true ∧ d.app = before ∧ d.rollback id = none ∧
      d.failed id = none ∧ (d.staged id).join.isSome = true
  | some (.keep t) =>
    d.state = some t ∧ t.phase = .prepared ∧ t.previous = before.isSome ∧
      before.isSome = true ∧ Untouched before d t.id ∧
        (d.staged t.id).join.isSome = true
  | some (.replace t) =>
    d.state = some t ∧ t.phase = .prepared ∧ t.previous = before.isSome ∧
      (Kept before d t.id ∨ before = none ∧ Untouched before d t.id) ∧
        (d.staged t.id).join.isSome = true
  | some (.pend t) =>
    d.state = some t ∧ t.phase = .prepared ∧ t.previous = before.isSome ∧
      Replaced before d t.id
  | some (.mark t backupExists) =>
    d.state = some t ∧ isSettled d.state = false ∧
      t.previous = before.isSome ∧ Recoverable before d t ∧
        backupExists = (d.rollback t.id).isSome ∧
          (t.previous = true → backupExists = true)
  | some (.discard t backupExists) =>
    d.state = some { t with phase := .recovering } ∧
      t.previous = before.isSome ∧ Replaced before d t.id ∧
        backupExists = before.isSome
  | some (.restore t) =>
    d.state = some { t with phase := .recovering } ∧
      t.previous = before.isSome ∧ before.isSome = true ∧
        (Kept before d t.id ∨ Discarded before d t.id)
  | some (.roll t) =>
    ∃ current, d.state = some current ∧ isSettled d.state = false ∧
      current.id = t.id ∧ current.previous = t.previous ∧
        current.sequence = t.sequence ∧ current.previous = before.isSome ∧
          d.app = before ∧ d.rollback t.id = none ∧
            (Recoverable before d current ∨
              current.phase = .recovering ∧ current.previous = true ∧
                d.failed t.id = none)
  | some (.ready t) =>
    d.state = some t ∧ t.phase = .pendingHealth ∧
      t.previous = before.isSome ∧ Replaced before d t.id
  | some (.confirm t) =>
    d.state = some t ∧ t.phase = .readyHealth ∧
      t.previous = before.isSome ∧ Replaced before d t.id

/-- The recovery is interrupted after it has restored the app without a failed
candidate, and before it has saved that. -/
def interruptsRestore (s : State Bundle) : Action Bundle → Bool
  | .crash =>
    match s.operation with
    | some (.roll t) =>
      s.directory.state.any (fun current =>
        current.phase = .recovering && current.previous) &&
          (s.directory.failed t.id).isNone
    | _ => false
  | _ => false

/-- The transaction that an operation leaves on disk when it ends with this
step. -/
def left (s : State Bundle) : Action Bundle → Option Transaction
  | .crash => s.directory.state
  | .advance =>
    match s.operation with
    | some (.pend t) => some { t with phase := .pendingHealth }
    | some (.roll t) => some { t with phase := .rolledBack }
    | some (.ready t) => some { t with phase := .readyHealth }
    | some (.confirm t) => some { t with phase := .healthy }
    | _ => none
  | _ => none

/-- A step that leaves no recovery between its restoration and its last save,
and no state file that is too long. -/
structure Harmless (s : State Bundle) (action : Action Bundle) : Prop where
  quiet : interruptsRestore s action = false
  readable : (left s action).all isReadable = true

variable {s : State Bundle} {t : Transaction} {operation : Operation Bundle}
  {before : Option Bundle} {d first : Directory Bundle}
  {next : Option Transaction → State Bundle × Answer}

theorem withState_readable (h : s.directory.state.all isReadable = true) :
    s.withState next = next s.directory.state :=
  if_pos h

theorem withState_refused (h : ¬s.directory.state.all isReadable = true) :
    s.withState next = s.fail .stateUnsafe :=
  if_neg h

/-- What `recover` finds where it does not already see the app of before: the
candidate as the app, a backup, or an installation without a previous app. -/
theorem recoverable_cases (h : Recoverable before d t)
    (hsettled : isSettled (some t) = false)
    (hprevious : t.previous = before.isSome)
    (hbackup : t.previous = true → (d.rollback t.id).isSome = true) :
    Replaced before d t.id ∨
      before.isSome = true ∧ (Kept before d t.id ∨ Discarded before d t.id) ∨
      before = none ∧
        (Untouched before d t.id ∨ Discarded before d t.id) := by
  have huntouched : Untouched before d t.id → before = none := by
    rintro ⟨-, hnone, -⟩
    cases hsome : before with
    | none => rfl
    | some bundle =>
      have hyes := hbackup (by rw [hprevious, hsome]; rfl)
      rw [hnone] at hyes
      cases hyes
  have hrestored : Restored before d t.id → before = none := by
    rintro ⟨-, hnone, -⟩
    cases hsome : before with
    | none => rfl
    | some bundle =>
      have hyes := hbackup (by rw [hprevious, hsome]; rfl)
      rw [hnone] at hyes
      cases hyes
  unfold Recoverable at h
  cases hphase : t.phase with
  | prepared =>
    simp only [hphase] at h
    rcases h with h | h | h
    · exact .inr (.inr ⟨huntouched h, .inl h⟩)
    · exact .inr (.inl ⟨h.1, .inl h⟩)
    · exact .inl h
  | pendingHealth | readyHealth =>
    simp only [hphase] at h
    exact .inl h
  | recovering =>
    simp only [hphase] at h
    rcases h with h | h | h | h | ⟨-, h⟩
    · exact .inr (.inl ⟨h.1, .inl h⟩)
    · exact .inl h
    · cases hsome : before with
      | none =>
        subst hsome
        exact .inr (.inr ⟨rfl, .inr h⟩)
      | some bundle =>
        subst hsome
        exact .inr (.inl ⟨rfl, .inr h⟩)
    · obtain rfl := hrestored h
      exact .inr (.inr ⟨rfl, .inr ⟨h.1, h.2.1, h.2.2⟩⟩)
    · exact .inr (.inr ⟨huntouched h, .inl h⟩)
  | healthy | rolledBack => simp [isSettled, hphase] at hsettled

/-- Only an app that is back in place is left without a look at the backup. -/
theorem recoverable_without_backup (h : Recoverable before d t)
    (hsettled : isSettled (some t) = false)
    (hprevious : t.previous = before.isSome) (hyes : t.previous = true)
    (hbackup : d.rollback t.id = none) :
    d.app = before ∧ (t.phase = .prepared ∧ d.failed t.id = none ∨
      t.phase = .recovering ∧ (d.failed t.id).isSome = true) := by
  have hsome : before.isSome = true := hprevious.symm.trans hyes
  have hkept : ∀ {P : Prop}, d.rollback t.id = before → P := by
    intro P hsame
    rw [hbackup] at hsame
    rw [← hsame] at hsome
    cases hsome
  unfold Recoverable at h
  cases hphase : t.phase with
  | prepared =>
    simp only [hphase] at h
    rcases h with h | h | h
    · exact ⟨h.1, .inl ⟨rfl, h.2.2⟩⟩
    · exact hkept h.2.2.1
    · exact hkept h.2.1
  | pendingHealth | readyHealth =>
    simp only [hphase] at h
    exact hkept h.2.1
  | recovering =>
    simp only [hphase] at h
    rcases h with h | h | h | h | ⟨hno, -⟩
    · exact hkept h.2.2.1
    · exact hkept h.2.1
    · exact hkept h.2.1
    · exact ⟨h.1, .inr ⟨rfl, h.2.2⟩⟩
    · rw [hyes] at hno
      cases hno
  | healthy | rolledBack => simp [isSettled, hphase] at hsettled

/-- The app is not back in place for certain. -/
def Unconfirmed (d : Directory Bundle) (t : Transaction) : Prop :=
  d.app = none ∨
    ¬(t.phase = .prepared ∧ (d.failed t.id).isSome = false ∨
      t.phase = .recovering ∧ (d.failed t.id).isSome = true)

/-- What `recover` finds, and what it does then. -/
inductive Recovers (s : State Bundle) : State Bundle × Answer → Prop where
  | refused (h : ¬s.directory.state.all isReadable = true) :
    Recovers s (s.fail .stateUnsafe)
  | settled (h : isSettled s.directory.state = true) : Recovers s s.finish
  | unconfirmed {t : Transaction} (hstate : s.directory.state = some t)
    (hopen : isSettled (some t) = false) (hyes : t.previous = true)
    (hbackup : (s.directory.rollback t.id).isSome = false)
    (h : Unconfirmed s.directory t) : Recovers s (s.fail .recoveryUnconfirmed)
  | roll {t : Transaction} (hstate : s.directory.state = some t)
    (hopen : isSettled (some t) = false) (hyes : t.previous = true)
    (hbackup : (s.directory.rollback t.id).isSome = false)
    (h : ¬Unconfirmed s.directory t) : Recovers s (s.begin (.roll t))
  | mark {t : Transaction} (hstate : s.directory.state = some t)
    (hopen : isSettled (some t) = false)
    (h : t.previous = true → (s.directory.rollback t.id).isSome = true) :
    Recovers s (s.begin (.mark t (s.directory.rollback t.id).isSome))

theorem recovers_recover (s : State Bundle) : Recovers s (recover s) := by
  unfold recover
  by_cases hreadable : s.directory.state.all isReadable = true
  case neg =>
    rw [withState_refused hreadable]
    exact .refused hreadable
  rw [withState_readable hreadable]
  cases hstate : s.directory.state with
  | none => exact .settled (by rw [hstate]; rfl)
  | some t =>
    dsimp only
    split
    next hdone => exact .settled (by simpa [hstate, isSettled] using hdone)
    next hopen =>
      have hopen : isSettled (some t) = false := by
        simpa [isSettled] using hopen
      split
      next hwithout =>
        obtain ⟨hyes, hbackup⟩ := hwithout
        split
        next h => exact .unconfirmed hstate hopen hyes hbackup h
        next h => exact .roll hstate hopen hyes hbackup h
      next hwith =>
        exact .mark hstate hopen fun hyes =>
          Bool.eq_true_of_not_eq_false fun hno => hwith ⟨hyes, hno⟩

theorem Rests.of_open (h : Rests before d) (hstate : d.state = some t)
    (hopen : isSettled (some t) = false) :
    t.previous = before.isSome ∧ Recoverable before d t := by
  unfold Rests at h
  rw [hstate] at h
  exact ⟨h.1 hopen, h.2⟩

theorem recover_stands (h : Rests s.before s.directory) :
    Stands s.before (recover s).1.directory (recover s).1.operation ∧
      (s.directory.state.all isReadable = true →
        ∀ error, (recover s).2 ≠ .failed error) := by
  have hdoes := recovers_recover s
  generalize recover s = r at hdoes ⊢
  cases hdoes with
  | refused hlong => exact ⟨h, fun hyes => absurd hyes hlong⟩
  | settled _ => exact ⟨h, fun _ _ => nofun⟩
  | @unconfirmed t hstate hopen hyes hbackup hbad =>
    obtain ⟨hprevious, hshape⟩ := h.of_open hstate hopen
    rw [Option.isSome_eq_false_iff, Option.isNone_iff_eq_none] at hbackup
    obtain ⟨happ, hphase⟩ := recoverable_without_backup hshape hopen hprevious
      hyes hbackup
    rcases hbad with hnone | hbad
    · have hsome := hprevious.symm.trans hyes
      rw [← happ, hnone] at hsome
      cases hsome
    · exact absurd (hphase.imp (.imp_right fun hfailed => by rw [hfailed]; rfl)
        id) hbad
  | @roll t hstate hopen hyes hbackup _ =>
    obtain ⟨hprevious, hshape⟩ := h.of_open hstate hopen
    rw [Option.isSome_eq_false_iff, Option.isNone_iff_eq_none] at hbackup
    obtain ⟨happ, -⟩ := recoverable_without_backup hshape hopen hprevious hyes
      hbackup
    exact ⟨⟨t, hstate, hstate ▸ hopen, rfl, rfl, rfl, hprevious, happ, hbackup,
      .inl hshape⟩, fun _ _ => nofun⟩
  | mark hstate hopen hbackup =>
    obtain ⟨hprevious, hshape⟩ := h.of_open hstate hopen
    exact ⟨⟨hstate, hstate ▸ hopen, hprevious, hshape, rfl, hbackup⟩,
      fun _ _ => nofun⟩

variable {action : Action Bundle} {backupExists : Bool}

/-- The first save of a recovery. -/
theorem mark_stands
    (h : Stands s.before s.directory (some (.mark t backupExists))) :
    Stands s.before (recoverStep s (.mark t backupExists)).1.directory
      (recoverStep s (.mark t backupExists)).1.operation := by
  obtain ⟨hstate, hsettled, hprevious, hshape, hexists, hbackup⟩ := h
  rw [hstate] at hsettled
  have hcases := recoverable_cases hshape hsettled hprevious (by
    intro hyes
    rw [← hexists]
    exact hbackup hyes)
  change Stands s.before
    { s.directory with state := some { t with phase := .recovering } }
    (some (if s.directory.app.isSome then .discard t backupExists
      else if backupExists then .restore t else .roll t))
  rcases hcases with hreplaced | ⟨hsome, hshape⟩ | ⟨hnone, hshape⟩
  · obtain ⟨happ, hrollback, hfailed⟩ := hreplaced
    rw [if_pos happ]
    refine ⟨rfl, hprevious, ⟨happ, hrollback, hfailed⟩, ?_⟩
    rw [hexists, hrollback]
  · have hboth : s.directory.app = none ∧
        s.directory.rollback t.id = s.before := by
      rcases hshape with hkept | hdiscarded
      · exact ⟨hkept.2.1, hkept.2.2.1⟩
      · exact ⟨hdiscarded.1, hdiscarded.2.1⟩
    have hyes : backupExists = true := by
      rw [hexists, hboth.2]
      exact hsome
    rw [if_neg (by rw [hboth.1]; rintro ⟨⟩), if_pos hyes]
    exact ⟨rfl, hprevious, hsome, hshape⟩
  · have hboth : s.directory.app = none ∧ s.directory.rollback t.id = none := by
      rcases hshape with huntouched | hdiscarded
      · exact ⟨huntouched.1.trans hnone, huntouched.2.1⟩
      · exact ⟨hdiscarded.1, hdiscarded.2.1.trans hnone⟩
    have hno : backupExists = false := by
      rw [hexists, hboth.2]
      rfl
    rw [if_neg (by rw [hboth.1]; rintro ⟨⟩), if_neg (by rw [hno]; rintro ⟨⟩)]
    refine ⟨_, rfl, rfl, rfl, rfl, rfl, hprevious, hboth.1.trans hnone.symm,
      hboth.2, .inl ?_⟩
    change _ ∨ _ ∨ _ ∨ _ ∨ _
    rcases hshape with huntouched | hdiscarded
    · refine .inr (.inr (.inr (.inr ⟨?_, huntouched⟩)))
      change t.previous = false
      rw [hprevious, hnone]
      rfl
    · exact .inr (.inr (.inl hdiscarded))

/-- The candidate is put aside. -/
theorem discard_stands
    (h : Stands s.before s.directory (some (.discard t backupExists))) :
    Stands s.before (recoverStep s (.discard t backupExists)).1.directory
        (recoverStep s (.discard t backupExists)).1.operation ∧
      (s.directory.failed t.id).isSome = false := by
  obtain ⟨hstate, hprevious, ⟨happ, hrollback, hfailed⟩, hexists⟩ := h
  have hfree : (s.directory.failed t.id).isSome = false := by
    rw [hfailed]
    rfl
  refine ⟨?_, hfree⟩
  have hstep : recoverStep s (.discard t backupExists) =
      { s with
        directory :=
          { s.directory with
            app := none
            failed := Function.update s.directory.failed t.id
              s.directory.app } }.begin
        (if backupExists then .restore t else .roll t) := by
    unfold recoverStep
    dsimp only
    rw [if_neg (by rw [hfree]; rintro ⟨⟩)]
  rw [hstep]
  have haside : Discarded s.before
      { s.directory with
        app := none
        failed := Function.update s.directory.failed t.id s.directory.app }
      t.id := by
    refine ⟨rfl, hrollback, ?_⟩
    change (Function.update s.directory.failed t.id s.directory.app
      t.id).isSome = true
    rw [Function.update_self]
    exact happ
  change Stands s.before _ (some (if backupExists then .restore t else .roll t))
  cases hsome : s.before.isSome with
  | true =>
    rw [if_pos (by rw [hexists, hsome])]
    exact ⟨hstate, hprevious, hsome, .inr haside⟩
  | false =>
    rw [if_neg (by rw [hexists, hsome]; rintro ⟨⟩)]
    rw [Option.isSome_eq_false_iff, Option.isNone_iff_eq_none] at hsome
    refine ⟨_, hstate, ?_, rfl, rfl, rfl, hprevious, hsome.symm,
      hrollback.trans hsome, .inl ?_⟩
    · change isSettled s.directory.state = false
      rw [hstate]
      rfl
    · exact .inr (.inr (.inl haside))

/-- The app of before is put back. -/
theorem restore_stands (h : Stands s.before s.directory (some (.restore t))) :
    Stands s.before (recoverStep s (.restore t)).1.directory
      (recoverStep s (.restore t)).1.operation := by
  obtain ⟨hstate, hprevious, hsome, hshape⟩ := h
  have hrollback : s.directory.rollback t.id = s.before := by
    rcases hshape with hkept | hdiscarded
    · exact hkept.2.2.1
    · exact hdiscarded.2.1
  have hempty : Function.update s.directory.rollback t.id none t.id = none :=
    Function.update_self ..
  refine ⟨_, hstate, ?_, rfl, rfl, rfl, hprevious, hrollback, hempty, ?_⟩
  · change isSettled s.directory.state = false
    rw [hstate]
    rfl
  · rcases hshape with hkept | hdiscarded
    · exact .inr ⟨rfl, hprevious.trans hsome, hkept.2.2.2⟩
    · exact .inl (.inr (.inr (.inr (.inl
        ⟨hrollback, hempty, hdiscarded.2.2⟩))))

/-- The last save of a recovery. -/
theorem roll_stands (h : Stands s.before s.directory (some (.roll t))) :
    Stands s.before (recoverStep s (.roll t)).1.directory
      (recoverStep s (.roll t)).1.operation := by
  obtain ⟨current, -, -, -, -, -, -, happ, -, -⟩ := h
  refine ⟨?_, happ⟩
  rintro ⟨⟩

/-- What `install` changes of the directory. -/
theorem installStep_stands
    (hinstalls : ∀ t, operation ≠ .ready t ∧ operation ≠ .confirm t ∧
      operation ≠ .roll t ∧ operation ≠ .restore t)
    (hremoves : ∀ t b, operation ≠ .mark t b ∧ operation ≠ .discard t b)
    (h : Stands s.before s.directory (some operation)) :
    Stands s.before (installStep s operation).1.directory
      (installStep s operation).1.operation := by
  cases operation with
  | stage id release candidate => exact h
  | extract id release candidate =>
    obtain ⟨hsettled, happ, hrollback, hfailed⟩ := h
    refine ⟨hsettled, happ, hrollback, hfailed, ?_⟩
    change (Function.update s.directory.staged id (some (some candidate))
      id).join.isSome = true
    rw [Function.update_self]
    rfl
  | prepare id release =>
    obtain ⟨-, happ, hrollback, hfailed, hstaged⟩ := h
    have hstate : (installStep s (.prepare id release)).1.directory.state =
        some ⟨release, id, s.directory.app.isSome, .prepared⟩ := rfl
    change Stands s.before _ (some (if s.directory.app.isSome then _ else _))
    cases hsome : s.directory.app.isSome with
    | true =>
      have hbefore : s.before.isSome = true := by
        rw [← happ]
        exact hsome
      rw [if_pos rfl]
      exact ⟨hstate.trans (by rw [hsome]), rfl, by rw [hbefore], hbefore,
        ⟨happ, hrollback, hfailed⟩, hstaged⟩
    | false =>
      have hnone : s.before = none := by
        rw [← happ]
        simpa using hsome
      rw [if_neg Bool.false_ne_true]
      exact ⟨hstate.trans (by rw [hsome]), rfl, by rw [hnone]; rfl,
        .inr ⟨hnone, happ, hrollback, hfailed⟩, hstaged⟩
  | keep t =>
    obtain ⟨hstate, hphase, hprevious, hsome, ⟨happ, hrollback, hfailed⟩,
      hstaged⟩ := h
    refine ⟨hstate, hphase, hprevious, .inl ⟨hsome, rfl, ?_, hfailed⟩,
      hstaged⟩
    change Function.update s.directory.rollback t.id s.directory.app t.id = _
    rw [Function.update_self]
    exact happ
  | replace t =>
    obtain ⟨hstate, hphase, hprevious, hshape, hstaged⟩ := h
    refine ⟨hstate, hphase, hprevious, hstaged, ?_⟩
    rcases hshape with hkept | ⟨hnone, huntouched⟩
    · exact ⟨hkept.2.2.1, hkept.2.2.2⟩
    · exact ⟨huntouched.2.1.trans hnone.symm, huntouched.2.2⟩
  | pend t =>
    obtain ⟨hstate, hphase, hprevious, hreplaced⟩ := h
    exact ⟨fun _ => hprevious, hreplaced⟩
  | mark t b => exact absurd rfl (hremoves t b).1
  | discard t b => exact absurd rfl (hremoves t b).2
  | restore t => exact absurd rfl (hinstalls t).2.2.2
  | roll t => exact absurd rfl (hinstalls t).2.2.1
  | ready t => exact absurd rfl (hinstalls t).1
  | confirm t => exact absurd rfl (hinstalls t).2.1

theorem healthStep_stands
    (hoperation : operation = .ready t ∨ operation = .confirm t)
    (h : Stands s.before s.directory (some operation)) :
    Stands s.before (healthStep s operation).1.directory
      (healthStep s operation).1.operation := by
  rcases hoperation with rfl | rfl
  · obtain ⟨hstate, hphase, hprevious, hreplaced⟩ := h
    exact ⟨fun _ => hprevious, hreplaced⟩
  · exact ⟨(by rintro ⟨⟩), trivial⟩

theorem advance_stands (h : Stands s.before s.directory (some operation)) :
    Stands s.before (advance s operation).1.directory
      (advance s operation).1.operation := by
  cases operation with
  | mark t b => exact mark_stands h
  | discard t b => exact (discard_stands h).1
  | restore t => exact restore_stands h
  | roll t => exact roll_stands h
  | ready t => exact healthStep_stands (.inl rfl) h
  | confirm t => exact healthStep_stands (.inr rfl) h
  | _ =>
    refine installStep_stands ?_ ?_ h
    · exact fun t => ⟨nofun, nofun, nofun, nofun⟩
    · exact fun t b => ⟨nofun, nofun⟩

/-- What an installation finds while it has changed nothing but its staging
directory. -/
theorem rests_of_settled (hsettled : isSettled d.state = true)
    (happ : d.app = before) : Rests before d := by
  unfold Rests
  cases hstate : d.state with
  | none => exact happ
  | some t =>
    rw [hstate] at hsettled
    refine ⟨fun hopen => ?_, ?_⟩
    · rw [hsettled] at hopen
      cases hopen
    · unfold Recoverable
      cases hphase : t.phase with
      | healthy => trivial
      | rolledBack => exact happ
      | _ => simp [isSettled, hphase] at hsettled

theorem rests_of_recoverable (hstate : d.state = some t)
    (hprevious : t.previous = before.isSome) (h : Recoverable before d t) :
    Rests before d := by
  unfold Rests
  rw [hstate]
  exact ⟨fun _ => hprevious, h⟩

/-- A crash that is not that of a recovery after its restoration. -/
theorem crash_rests (h : Stands s.before s.directory s.operation)
    (hquiet : interruptsRestore s .crash = false) :
    Rests s.before s.directory := by
  cases hoperation : s.operation with
  | none =>
    rw [hoperation] at h
    exact h
  | some operation =>
    rw [hoperation] at h
    cases operation with
    | stage id release candidate | extract id release candidate
    | prepare id release => exact rests_of_settled h.1 h.2.1
    | keep t =>
      obtain ⟨hstate, hphase, hprevious, -, huntouched, -⟩ := h
      refine rests_of_recoverable hstate hprevious ?_
      simp only [Recoverable, hphase]
      exact .inl huntouched
    | replace t =>
      obtain ⟨hstate, hphase, hprevious, hshape, -⟩ := h
      refine rests_of_recoverable hstate hprevious ?_
      simp only [Recoverable, hphase]
      rcases hshape with hkept | ⟨-, huntouched⟩
      · exact .inr (.inl hkept)
      · exact .inl huntouched
    | pend t =>
      obtain ⟨hstate, hphase, hprevious, hreplaced⟩ := h
      refine rests_of_recoverable hstate hprevious ?_
      simp only [Recoverable, hphase]
      exact .inr (.inr hreplaced)
    | mark t backupExists =>
      obtain ⟨hstate, -, hprevious, hshape, -⟩ := h
      exact rests_of_recoverable hstate hprevious hshape
    | discard t backupExists =>
      obtain ⟨hstate, hprevious, hreplaced, -⟩ := h
      exact rests_of_recoverable hstate hprevious (.inr (.inl hreplaced))
    | restore t =>
      obtain ⟨hstate, hprevious, -, hshape⟩ := h
      refine rests_of_recoverable hstate hprevious ?_
      rcases hshape with hkept | hdiscarded
      · exact .inl hkept
      · exact .inr (.inr (.inl hdiscarded))
    | roll t =>
      obtain ⟨current, hstate, -, -, -, -, hprevious, -, -,
        hshape | ⟨hphase, hyes, hfailed⟩⟩ := h
      · exact rests_of_recoverable hstate hprevious hshape
      · simp [interruptsRestore, hoperation, hstate, hphase, hyes,
          hfailed] at hquiet
    | ready t | confirm t =>
      obtain ⟨hstate, hphase, hprevious, hreplaced⟩ := h
      refine rests_of_recoverable hstate hprevious ?_
      simp only [Recoverable, hphase]
      exact hreplaced

theorem reported_stands (h : Rests before d) (hstate : d.state = some t)
    (hphase : t.phase = .pendingHealth ∨ t.phase = .readyHealth) :
    t.previous = before.isSome ∧ Replaced before d t.id := by
  unfold Rests at h
  rw [hstate] at h
  obtain ⟨hprevious, hshape⟩ := h
  rcases hphase with hphase | hphase
  · refine ⟨hprevious (by simp [isSettled, hphase]), ?_⟩
    simpa only [Recoverable, hphase] using hshape
  · refine ⟨hprevious (by simp [isSettled, hphase]), ?_⟩
    simpa only [Recoverable, hphase] using hshape

theorem isReported_spec {state : Option Transaction} {phase : TransactionPhase}
    {version id : JsString} (h : isReported state phase version id = some t) :
    state = some t ∧ t.phase = phase ∧ t.version = version ∧ t.id.1 = id := by
  obtain ⟨hstate, hfits⟩ := Option.filter_eq_some_iff.1 h
  simp only [Bool.and_eq_true, decide_eq_true_eq] at hfits
  exact ⟨hstate, hfits.1.1, hfits.1.2, hfits.2⟩

theorem recover_before (s : State Bundle) :
    (recover s).1.before = s.before := by
  have hdoes := recovers_recover s
  generalize recover s = r at hdoes ⊢
  cases hdoes <;> rfl

theorem start_stands (h : Rests s.before s.directory)
    (hidle : s.operation = none) (action : Action Bundle) :
    Stands (start s action).1.before (start s action).1.directory
      (start s action).1.operation := by
  have hstays : Stands s.before s.directory s.operation := by
    rw [hidle]
    exact h
  cases action with
  | install id release environmentSequence verified candidate =>
    simp only [start]
    split
    · rename_i hnew
      simp only [isNew, Bool.and_eq_true, Option.isNone_iff_eq_none] at hnew
      simp only [install, State.withState]
      split
      · split
        · exact h
        · rename_i hopen
          split
          · exact h
          · split
            · exact h
            · split
              · exact h
              · exact ⟨Bool.eq_true_of_not_eq_false hopen, rfl, hnew.1.2,
                  hnew.2⟩
      · exact h
    · exact hstays
  | recover =>
    change Stands (recover s).1.before _ _
    rw [recover_before]
    exact (recover_stands h).1
  | reportReady version id =>
    simp only [start, reportReady, State.withState]
    split
    · split
      · exact h
      · rename_i t hreported
        obtain ⟨hstate, hphase, -, -⟩ := isReported_spec hreported
        obtain ⟨hprevious, hreplaced⟩ := reported_stands h hstate (.inl hphase)
        exact ⟨hstate, hphase, hprevious, hreplaced⟩
    · exact h
  | confirmHealthy version id =>
    simp only [start, confirmHealthy, State.withState]
    split
    · split
      · exact h
      · rename_i t hreported
        obtain ⟨hstate, hphase, -, -⟩ := isReported_spec hreported
        obtain ⟨hprevious, hreplaced⟩ := reported_stands h hstate (.inr hphase)
        exact ⟨hstate, hphase, hprevious, hreplaced⟩
    · exact h
  | advance | crash => exact hstays

theorem advance_before (s : State Bundle) (operation : Operation Bundle) :
    (advance s operation).1.before = s.before := by
  cases operation with
  | discard t b =>
    simp only [advance, recoverStep]
    split <;> rfl
  | _ => rfl

/-- The installer once its recovery has run to its end. -/
def recovered (s : State Bundle) : State Bundle :=
  installer.after s recovery

/-- No call fails. -/
def Succeeds (events : List (Action Bundle × Answer)) : Prop :=
  ∀ event ∈ events, ∀ error, event.2 ≠ .failed error

/-- How many steps an operation of a recovery has left. -/
def stepsLeft : Option (Operation Bundle) → Nat
  | some (.mark _ _) => 4
  | some (.discard _ _) => 3
  | some (.restore _) => 2
  | some (.roll _) => 1
  | _ => 0

/-- A recovery that goes on towards the app of before. -/
structure Recovering (before : Option Bundle) (s : State Bundle) : Prop where
  stands : Stands s.before s.directory s.operation
  same : s.before = before
  goes : s.operation = none ∧ isSettled s.directory.state = true ∧
      s.directory.app = before ∨
    ∃ operation, s.operation = some operation ∧
      0 < stepsLeft s.operation

theorem Recovering.advance (h : Recovering before s) :
    Recovering before (step s .advance).1 ∧
      stepsLeft (step s .advance).1.operation ≤ stepsLeft s.operation - 1 ∧
      ∀ error, (step s .advance).2 ≠ .failed error := by
  obtain ⟨hstands, hsame, ⟨hidle, hsettled, happ⟩ | ⟨operation, hoperation,
    hleft⟩⟩ := h
  · have hstep : step s .advance = (s, .none) := by
      simp [step, hidle, start]
    rw [hstep, hidle]
    exact ⟨⟨hstands, hsame, .inl ⟨hidle, hsettled, happ⟩⟩, Nat.le_refl _,
      nofun⟩
  · have hstep : step s .advance = UpdateInstaller.advance s operation := by
      simp only [step, hoperation]
    rw [hstep]
    rw [hoperation] at hstands hleft
    have hnext := advance_stands hstands
    rw [← advance_before s operation] at hnext
    have hbefore := (advance_before s operation).trans hsame
    rw [hoperation]
    cases operation with
    | mark t b =>
      refine ⟨⟨hnext, hbefore, .inr ⟨_, rfl, ?_⟩⟩, ?_, nofun⟩
      · simp only [UpdateInstaller.advance, recoverStep, State.begin]
        split
        · exact Nat.succ_pos 2
        · split
          · exact Nat.succ_pos 1
          · exact Nat.succ_pos 0
      · simp only [UpdateInstaller.advance, recoverStep, State.begin]
        split
        · exact Nat.le_refl 3
        · split
          · exact Nat.le_succ 2
          · exact Nat.succ_le_succ (Nat.zero_le 2)
    | discard t b =>
      have hfree := (discard_stands hstands).2
      have hgoes : (UpdateInstaller.advance s (.discard t b)).1.operation =
            some (if b then .restore t else .roll t) ∧
          (UpdateInstaller.advance s (.discard t b)).2 = .none := by
        simp only [UpdateInstaller.advance, recoverStep]
        rw [if_neg (by rw [hfree]; rintro ⟨⟩)]
        exact ⟨rfl, rfl⟩
      obtain ⟨hgoes, hnone⟩ := hgoes
      refine ⟨⟨hnext, hbefore, .inr ⟨_, hgoes, ?_⟩⟩, ?_,
        by rw [hnone]; exact nofun⟩
      · rw [hgoes]
        cases b
        · exact Nat.succ_pos 0
        · exact Nat.succ_pos 1
      · rw [hgoes]
        cases b
        · exact Nat.le_succ 1
        · exact Nat.le_refl 2
    | restore t =>
      exact ⟨⟨hnext, hbefore, .inr ⟨_, rfl, Nat.succ_pos 0⟩⟩, Nat.le_refl 1,
        nofun⟩
    | roll t =>
      obtain ⟨current, -, -, -, -, -, -, happ, -, -⟩ := hstands
      exact ⟨⟨hnext, hbefore, .inl ⟨rfl, rfl, happ.trans hsame⟩⟩,
        Nat.le_refl 0, nofun⟩
    | _ => cases hleft

theorem Recovering.finishes (h : Recovering before s) (n : Nat)
    (hn : stepsLeft s.operation ≤ n) :
    let rest := List.replicate n Action.advance
    ((installer.after s rest).operation = none ∧
      isSettled (installer.after s rest).directory.state = true ∧
        (installer.after s rest).directory.app = before) ∧
      Succeeds (installer.events s rest) := by
  induction n generalizing s with
  | zero =>
    rcases h.goes with hdone | ⟨operation, -, hleft⟩
    · exact ⟨hdone, nofun⟩
    · omega
  | succ n ih =>
    obtain ⟨hnext, hless, hsucceeds⟩ := h.advance
    obtain ⟨hdone, hrest⟩ := ih hnext (by omega)
    exact ⟨hdone, List.forall_mem_cons.2 ⟨hsucceeds, hrest⟩⟩

theorem stepsLeft_le (operation : Option (Operation Bundle)) :
    stepsLeft operation ≤ 4 := by
  unfold stepsLeft
  split <;> omega

/-- A recovery that has something to do begins. -/
theorem recover_goes (h : Rests s.before s.directory)
    (hreadable : s.directory.state.all isReadable = true)
    (hsettled : isSettled s.directory.state = false) :
    ∃ operation, (recover s).1.operation = some operation ∧
      0 < stepsLeft (recover s).1.operation := by
  have hconfirmed := (recover_stands h).2 hreadable
  have hdoes := recovers_recover s
  generalize recover s = r at hconfirmed hdoes ⊢
  cases hdoes with
  | refused hlong => exact absurd hreadable hlong
  | settled hyes =>
    rw [hsettled] at hyes
    cases hyes
  | unconfirmed => exact absurd rfl (hconfirmed _)
  | roll => exact ⟨_, rfl, Nat.succ_pos 0⟩
  | mark => exact ⟨_, rfl, Nat.succ_pos 3⟩

theorem recover_settled (h : isSettled s.directory.state = true) :
    (recover s).1 = { s with operation := none } := by
  have hdoes := recovers_recover s
  generalize recover s = r at hdoes ⊢
  cases hdoes with
  | roll hstate hopen | mark hstate hopen =>
    rw [hstate, hopen] at h
    cases h
  | _ => rfl

/-- `recover` ends with the app of before, where it has something to do. -/
theorem recovered_of_rests (hidle : s.operation = none)
    (h : Rests s.before s.directory)
    (hreadable : s.directory.state.all isReadable = true) :
    ((recovered s).operation = none ∧
      isSettled (recovered s).directory.state = true ∧
      Succeeds (installer.events s recovery)) ∧
      (isSettled s.directory.state = true →
        (recovered s).directory = s.directory) ∧
      (isSettled s.directory.state = false →
        (recovered s).directory.app = s.before) := by
  have hstep : step s .recover = recover s := by
    simp only [step, hidle, start]
  have hrun : recovered s =
      installer.after (recover s).1 (List.replicate 4 .advance) := by
    change installer.after (step s .recover).1 _ = _
    rw [hstep]
    rfl
  have hevents : Succeeds (installer.events s recovery) ↔
      (∀ error, (recover s).2 ≠ .failed error) ∧
        Succeeds (installer.events (recover s).1
          (List.replicate 4 .advance)) := by
    rw [← hstep]
    exact List.forall_mem_cons
  obtain ⟨hstands, hsucceeds⟩ := recover_stands h
  rw [hrun, hevents]
  cases hsettled : isSettled s.directory.state with
  | true =>
    rw [recover_settled hsettled]
    refine ⟨⟨rfl, hsettled, hsucceeds hreadable, ?_⟩, fun _ => rfl, nofun⟩
    simp [Succeeds, List.replicate, installer, step, start]
  | false =>
    have hgoes : Recovering s.before (recover s).1 :=
      ⟨by rw [recover_before]; exact hstands, recover_before _,
        .inr (recover_goes h hreadable hsettled)⟩
    obtain ⟨⟨hnone, hdone, happ⟩, hrest⟩ := hgoes.finishes 4 (stepsLeft_le _)
    exact ⟨⟨hnone, hdone, hsucceeds hreadable, hrest⟩, nofun, fun _ => happ⟩

/-- After an interruption of the other kind `recover` refuses for ever. -/
theorem recovered_of_interrupted (h : Stands s.before s.directory s.operation)
    (hinterrupts : interruptsRestore s action = true) :
    isSettled (recovered (step s action).1).directory.state = false := by
  cases action with
  | crash =>
    cases hoperation : s.operation with
    | none => simp [interruptsRestore, hoperation] at hinterrupts
    | some operation =>
      cases operation with
      | roll t =>
        rw [hoperation] at h
        obtain ⟨current, hstate, hsettled, hid, hprev, -, hprevious, happ,
          hrollback, -⟩ := h
        simp only [interruptsRestore, hoperation, hstate,
          Option.any_some, Bool.and_eq_true, decide_eq_true_eq,
          Option.isNone_iff_eq_none] at hinterrupts
        obtain ⟨⟨hphase, hyes⟩, hfailed⟩ := hinterrupts
        have hrecover : (recover { s with operation := none }).1 =
            { s with operation := none } := by
          have hdoes := recovers_recover { s with operation := none }
          generalize recover { s with operation := none } = r at hdoes ⊢
          cases hdoes with
          | roll hsame _ _ _ hback =>
            cases hstate.symm.trans hsame
            exact absurd (.inr (by simp [hphase, hid, hfailed])) hback
          | mark hsame _ hbackup =>
            cases hstate.symm.trans hsame
            have hsome := hbackup hyes
            rw [hid, hrollback] at hsome
            cases hsome
          | _ => rfl
        have hstays : recovered (step s .crash).1 =
            { s with operation := none } := by
          change installer.after (recover { s with operation := none }).1
            (List.replicate 4 .advance) = _
          rw [hrecover]
          rfl
        rw [hstays]
        exact hsettled
      | _ => simp [interruptsRestore, hoperation] at hinterrupts
  | _ => cases hinterrupts

/-- A state file that is too long fails every `recover`. -/
theorem recover_fails (hidle : s.operation = none)
    (h : ¬s.directory.state.all isReadable = true) :
    ¬Succeeds (installer.events s recovery) := by
  have hstep : (step s .recover).2 = .failed .stateUnsafe := by
    simp only [step, hidle, start, recover]
    rw [withState_refused h]
    rfl
  exact fun hall => hall _ List.mem_cons_self _ hstep

/-- The sequence that the directory has got to. -/
def sequenceOf (d : Directory Bundle) : Nat :=
  (d.state.map (·.sequence)).getD 0

/-- The release that an installation has checked. -/
def releaseOf : Option (Operation Bundle) → Option Release
  | some (.stage _ release _) => some release
  | some (.extract _ release _) => some release
  | some (.prepare _ release) => some release
  | _ => none

/-- A bundle is in the directory. -/
def Holds (d : Directory Bundle) (bundle : Bundle) : Prop :=
  d.app = some bundle ∨ (∃ id, d.rollback id = some bundle) ∨
    ∃ id, d.failed id = some bundle

/-- What a run keeps besides the shapes. -/
structure Keeps (start : Directory Bundle) (s : State Bundle) : Prop where
  stands : Stands s.before s.directory s.operation
  readable : s.operation = none → s.directory.state.all isReadable = true
  rising : (sequenceOf start :: s.accepted).Pairwise (· < ·)
  reached : ∀ n ∈ sequenceOf start :: s.accepted, n ≤ sequenceOf s.directory
  ahead : ∀ release, releaseOf s.operation = some release →
    sequenceOf s.directory < release.sequence
  reported : ∀ t, s.directory.state = some t →
    t.phase = .readyHealth ∨ t.phase = .healthy →
      (t.id, t.version) ∈ s.reported ∨ start.state = some t
  held : ∀ bundle, s.before = some bundle → Holds s.directory bundle

theorem sequenceOf_of_state (h : d.state = some t) :
    sequenceOf d = t.sequence := by
  simp [sequenceOf, h]

/-- Only the first save of an installation moves the sequence. -/
theorem advance_sequence (h : Stands s.before s.directory (some operation)) :
    ((advance s operation).1.accepted = s.accepted ∧
        sequenceOf (advance s operation).1.directory =
          sequenceOf s.directory) ∨
      ∃ release, releaseOf (some operation) = some release ∧
        (advance s operation).1.accepted = s.accepted ++ [release.sequence] ∧
        sequenceOf (advance s operation).1.directory = release.sequence := by
  cases operation with
  | stage id release candidate | extract id release candidate =>
    exact .inl ⟨rfl, rfl⟩
  | prepare id release => exact .inr ⟨release, rfl, rfl, rfl⟩
  | keep t | replace t => exact .inl ⟨rfl, rfl⟩
  | pend t | mark t b => exact .inl ⟨rfl, (sequenceOf_of_state h.1).symm⟩
  | discard t b =>
    refine .inl ?_
    simp only [advance, recoverStep]
    split <;> exact ⟨rfl, rfl⟩
  | restore t => exact .inl ⟨rfl, rfl⟩
  | roll t =>
    obtain ⟨current, hstate, -, -, -, hsequence, -⟩ := h
    refine .inl ⟨rfl, ?_⟩
    rw [sequenceOf_of_state hstate, hsequence]
    rfl
  | ready t | confirm t => exact .inl ⟨rfl, (sequenceOf_of_state h.1).symm⟩

/-- A release is checked once, before its staging directory is made. -/
theorem advance_release {release : Release}
    (h : releaseOf (advance s operation).1.operation = some release) :
    releaseOf (some operation) = some release ∧
      (advance s operation).1.directory.state = s.directory.state := by
  cases operation with
  | stage id other candidate | extract id other candidate => exact ⟨h, rfl⟩
  | prepare id other =>
    simp only [advance, installStep, State.begin] at h
    split at h <;> cases h
  | mark t b =>
    simp only [advance, recoverStep, State.begin] at h
    split at h
    · cases h
    · split at h <;> cases h
  | discard t b =>
    simp only [advance, recoverStep] at h
    split at h
    · cases h
    · simp only [State.begin] at h
      split at h <;> cases h
  | _ => cases h

/-- Only a report makes a transaction ready, and only a ready one healthy. -/
theorem advance_reported {start : Directory Bundle}
    (h : Stands s.before s.directory (some operation))
    (hstart : isSettled start.state = true)
    (hreported : ∀ t, s.directory.state = some t →
      t.phase = .readyHealth ∨ t.phase = .healthy →
        (t.id, t.version) ∈ s.reported ∨ start.state = some t)
    (hstate : (advance s operation).1.directory.state = some t)
    (hphase : t.phase = .readyHealth ∨ t.phase = .healthy) :
    (t.id, t.version) ∈ (advance s operation).1.reported ∨
      start.state = some t := by
  cases operation with
  | stage id release candidate | extract id release candidate =>
    exact hreported t hstate hphase
  | prepare id release =>
    cases hstate
    rcases hphase with hphase | hphase <;> cases hphase
  | keep other | replace other => exact hreported t hstate hphase
  | pend other | mark other b =>
    cases hstate
    rcases hphase with hphase | hphase <;> cases hphase
  | discard other b =>
    simp only [advance, recoverStep] at hstate ⊢
    split at hstate
    · rename_i hfailed
      rw [if_pos hfailed]
      exact hreported t hstate hphase
    · rename_i hfree
      rw [if_neg hfree]
      exact hreported t hstate hphase
  | restore other => exact hreported t hstate hphase
  | roll other =>
    cases hstate
    rcases hphase with hphase | hphase <;> cases hphase
  | ready other =>
    cases hstate
    exact .inl (List.mem_append_right _ (List.mem_singleton_self _))
  | confirm other =>
    obtain ⟨hbefore, hready, -, -⟩ := h
    cases hstate
    rcases hreported other hbefore (.inl hready) with hmem | hsame
    · exact .inl hmem
    · rw [hsame] at hstart
      simp [isSettled, hready] at hstart

/-- No step loses a bundle. -/
theorem advance_holds (h : Stands s.before s.directory (some operation))
    {bundle : Bundle} (hholds : Holds s.directory bundle) :
    Holds (advance s operation).1.directory bundle := by
  cases operation with
  | keep t =>
    obtain ⟨-, -, -, -, ⟨-, hnone, -⟩, -⟩ := h
    rcases hholds with happ | ⟨id, hid⟩ | hfailed
    · refine .inr (.inl ⟨t.id, ?_⟩)
      exact (Function.update_self ..).trans happ
    · refine .inr (.inl ⟨id, ?_⟩)
      have hne : id ≠ t.id := by
        rintro rfl
        rw [hnone] at hid
        cases hid
      exact (Function.update_of_ne hne ..).trans hid
    · exact .inr (.inr hfailed)
  | replace t =>
    obtain ⟨-, -, -, hshape, -⟩ := h
    have hnone : s.directory.app = none := by
      rcases hshape with hkept | ⟨hnone, huntouched⟩
      · exact hkept.2.1
      · exact huntouched.1.trans hnone
    rcases hholds with happ | hrest
    · rw [hnone] at happ
      cases happ
    · exact .inr hrest
  | discard t b =>
    obtain ⟨-, -, ⟨-, -, hnone⟩, -⟩ := h
    simp only [advance, recoverStep]
    rw [if_neg (by rw [hnone]; rintro ⟨⟩)]
    rcases hholds with happ | hrollback | ⟨id, hid⟩
    · refine .inr (.inr ⟨t.id, ?_⟩)
      exact (Function.update_self ..).trans happ
    · exact .inr (.inl hrollback)
    · refine .inr (.inr ⟨id, ?_⟩)
      have hne : id ≠ t.id := by
        rintro rfl
        rw [hnone] at hid
        cases hid
      exact (Function.update_of_ne hne ..).trans hid
  | restore t =>
    obtain ⟨-, -, -, hshape⟩ := h
    have hnone : s.directory.app = none := by
      rcases hshape with hkept | hdiscarded
      · exact hkept.2.1
      · exact hdiscarded.1
    rcases hholds with happ | ⟨id, hid⟩ | hfailed
    · rw [hnone] at happ
      cases happ
    · by_cases hsame : id = t.id
      · rw [hsame] at hid
        exact .inl hid
      · exact .inr (.inl ⟨id, (Function.update_of_ne hsame ..).trans hid⟩)
    · exact .inr (.inr hfailed)
  | _ => exact hholds

/-- An operation that ends leaves the state file that `left` names. -/
theorem advance_left (h : Stands s.before s.directory (some operation))
    (hoperation : s.operation = some operation)
    (hidle : (advance s operation).1.operation = none) :
    (advance s operation).1.directory.state = left s .advance := by
  unfold left
  rw [hoperation]
  cases operation with
  | discard t b =>
    simp only [advance, recoverStep] at hidle
    rw [if_neg (by rw [(discard_stands h).2]; rintro ⟨⟩)] at hidle
    cases hidle
  | pend t | roll t | ready t | confirm t => rfl
  | _ => cases hidle

theorem Keeps.advance {start : Directory Bundle} (h : Keeps start s)
    (hstart : isSettled start.state = true)
    (hoperation : s.operation = some operation)
    (hleft : (left s .advance).all isReadable = true) :
    Keeps start (UpdateInstaller.advance s operation).1 := by
  have hstands := h.stands
  rw [hoperation] at hstands
  have hahead := h.ahead
  rw [hoperation] at hahead
  constructor
  · rw [advance_before]
    exact advance_stands hstands
  · intro hidle
    rw [advance_left hstands hoperation hidle]
    exact hleft
  · rcases advance_sequence hstands with
      ⟨hsame, -⟩ | ⟨release, hrelease, hadd, -⟩
    · rw [hsame]
      exact h.rising
    · rw [hadd, ← List.cons_append]
      refine List.pairwise_append.2 ⟨h.rising, List.pairwise_singleton _ _, ?_⟩
      intro n hn m hm
      rw [List.mem_singleton.1 hm]
      exact (h.reached n hn).trans_lt (hahead release hrelease)
  · rcases advance_sequence hstands with
      ⟨hsame, hsequence⟩ | ⟨release, hrelease, hadd, hsequence⟩
    · rw [hsame, hsequence]
      exact h.reached
    · rw [hadd, hsequence, ← List.cons_append]
      intro n hn
      rcases List.mem_append.1 hn with hn | hn
      · exact ((h.reached n hn).trans_lt (hahead release hrelease)).le
      · exact (List.mem_singleton.1 hn).le
  · intro release hrelease
    obtain ⟨hbefore, hstate⟩ := advance_release hrelease
    unfold sequenceOf
    rw [hstate]
    exact hahead release hbefore
  · intro t hstate hphase
    exact advance_reported hstands hstart h.reported hstate hphase
  · rw [advance_before]
    intro bundle hbundle
    exact advance_holds hstands (h.held bundle hbundle)

/-- What a beginning changes: at most the operation, and the app of before. -/
structure Begins (s s' : State Bundle) : Prop where
  directory : s'.directory = s.directory
  accepted : s'.accepted = s.accepted
  reported : s'.reported = s.reported
  before : s'.before = s.before ∨ s'.before = s.directory.app
  release : ∀ release, releaseOf s'.operation = some release →
    sequenceOf s.directory < release.sequence

theorem Begins.fail (error : InstallError) : Begins s (s.fail error).1 :=
  ⟨rfl, rfl, rfl, .inl rfl, nofun⟩

theorem Begins.finish : Begins s s.finish.1 :=
  ⟨rfl, rfl, rfl, .inl rfl, nofun⟩

theorem Begins.begin (h : releaseOf (some operation) = none) :
    Begins s (s.begin operation).1 := by
  refine ⟨rfl, rfl, rfl, .inl rfl, fun release hsome => ?_⟩
  cases h.symm.trans hsome

theorem Begins.withState (h : Begins s (next s.directory.state).1) :
    Begins s (s.withState next).1 := by
  unfold State.withState
  split
  · exact h
  · exact .fail _

theorem start_begins (hidle : s.operation = none) (action : Action Bundle) :
    Begins s (start s action).1 := by
  have hstays : Begins s s := by
    refine ⟨rfl, rfl, rfl, .inl rfl, ?_⟩
    rw [hidle]
    exact nofun
  cases action with
  | install id release environmentSequence verified candidate =>
    simp only [start, install]
    split
    · refine Begins.withState ?_
      split
      · exact .fail _
      · split
        · exact .fail _
        · split
          · exact .fail _
          · rename_i hnewer
            split
            · exact .fail _
            · refine ⟨rfl, rfl, rfl, .inr rfl, ?_⟩
              rintro _ ⟨⟩
              unfold sequenceOf
              omega
    · exact hstays
  | recover =>
    refine Begins.withState ?_
    split
    · exact .finish
    · split
      · exact .finish
      · dsimp only
        split
        · split
          · exact .fail _
          · exact .begin rfl
        · exact .begin rfl
  | reportReady version id =>
    refine Begins.withState ?_
    split
    · exact .fail _
    · exact .begin rfl
  | confirmHealthy version id =>
    refine Begins.withState ?_
    split
    · exact .fail _
    · exact .begin rfl
  | advance | crash => exact hstays

theorem Keeps.start (h : Keeps first s) (hidle : s.operation = none)
    (action : Action Bundle) :
    Keeps first (UpdateInstaller.start s action).1 := by
  have hrests : Rests s.before s.directory := by
    have hstands := h.stands
    rw [hidle] at hstands
    exact hstands
  have hbegins := start_begins hidle action
  constructor
  · exact start_stands hrests hidle action
  · rw [hbegins.directory]
    exact fun _ => h.readable hidle
  · rw [hbegins.accepted]
    exact h.rising
  · rw [hbegins.accepted, hbegins.directory]
    exact h.reached
  · rw [hbegins.directory]
    exact hbegins.release
  · rw [hbegins.directory, hbegins.reported]
    exact h.reported
  · rw [hbegins.directory]
    rcases hbegins.before with hsame | happ
    · rw [hsame]
      exact h.held
    · rw [happ]
      exact fun bundle hbundle => .inl hbundle

theorem Keeps.step (h : Keeps first s) (hfirst : isSettled first.state = true)
    (hharmless : Harmless s action) :
    Keeps first (UpdateInstaller.step s action).1 := by
  have hcrash : Harmless s .crash →
      Keeps first { s with operation := none } := by
    intro hcalm
    have hrests : Rests s.before s.directory := crash_rests h.stands hcalm.quiet
    exact ⟨hrests, fun _ => hcalm.readable, h.rising, h.reached, nofun,
      h.reported, h.held⟩
  cases hoperation : s.operation with
  | none =>
    cases action with
    | crash =>
      simp only [UpdateInstaller.step]
      exact hcrash hharmless
    | _ =>
      simp only [UpdateInstaller.step, hoperation]
      exact h.start hoperation _
  | some operation =>
    cases action with
    | crash =>
      simp only [UpdateInstaller.step]
      exact hcrash hharmless
    | advance =>
      simp only [UpdateInstaller.step, hoperation]
      exact h.advance hfirst hoperation hharmless.readable
    | _ =>
      simp only [UpdateInstaller.step, hoperation]
      exact h

theorem initial_keeps (hfirst : isSettled first.state = true)
    (hreadable : first.state.all isReadable = true) :
    Keeps first (State.initial first) where
  stands := rests_of_settled hfirst rfl
  readable := fun _ => hreadable
  rising := List.pairwise_singleton _ _
  reached := by
    intro n hn
    exact (List.mem_singleton.1 hn).le
  ahead := nofun
  reported := fun t hstate _ => .inr hstate
  held := fun bundle hbundle => .inl hbundle

/-- An installation survives what happens to it.  Wherever no operation is
under way, `recover` succeeds; it changes nothing if no transaction is open, and
brings back the app of before otherwise.  That app is in place until the
transaction is saved and never lost, the accepted sequences rise, and what is
healthy was reported ready. -/
structure Survives (first : Directory Bundle) (s : State Bundle) : Prop where
  ends : s.operation = none → (recovered s).operation = none ∧
    isSettled (recovered s).directory.state = true ∧
      Succeeds (installer.events s recovery)
  idle : s.operation = none → isSettled s.directory.state = true →
    (recovered s).directory = s.directory
  restores : s.operation = none → isSettled s.directory.state = false →
    (recovered s).directory.app = s.before
  begun : (releaseOf s.operation).isSome = true →
    isSettled s.directory.state = true ∧ s.directory.app = s.before
  held : ∀ bundle, s.before = some bundle → Holds s.directory bundle
  rising : (sequenceOf first :: s.accepted).Pairwise (· < ·)
  reported : ∀ t, s.directory.state = some t → t.phase = .healthy →
    (t.id, t.version) ∈ s.reported ∨ first.state = some t

theorem Keeps.survives (h : Keeps first s) : Survives first s := by
  have hrecovered (hidle : s.operation = none) :=
    recovered_of_rests hidle (by
      have hstands := h.stands
      rw [hidle] at hstands
      exact hstands) (h.readable hidle)
  constructor
  · exact fun hidle => (hrecovered hidle).1
  · exact fun hidle => (hrecovered hidle).2.1
  · exact fun hidle => (hrecovered hidle).2.2
  · intro hrelease
    have hstands := h.stands
    cases hoperation : s.operation with
    | none =>
      rw [hoperation] at hrelease
      cases hrelease
    | some operation =>
      rw [hoperation] at hstands hrelease
      cases operation with
      | stage id release candidate | extract id release candidate
      | prepare id release => exact ⟨hstands.1, hstands.2.1⟩
      | _ => cases hrelease
  · exact h.held
  · exact h.rising
  · exact fun t hstate hphase => h.reported t hstate (.inr hphase)

/-- With the step that leaves a transaction, its operation has ended. -/
theorem step_left (h : left s action = some t) :
    (step s action).1.operation = none ∧
      (step s action).1.directory.state = some t := by
  cases action with
  | crash => exact ⟨rfl, h⟩
  | advance =>
    cases hoperation : s.operation with
    | none => simp [left, hoperation] at h
    | some operation =>
      simp only [left, hoperation] at h
      simp only [step, hoperation]
      cases operation with
      | pend other | roll other | ready other | confirm other => exact ⟨rfl, h⟩
      | _ => cases h
  | _ => cases h

/-- A run that survives throughout is harmless in every step. -/
theorem harmless_of_survives (hfirst : isSettled first.state = true)
    (hs : Keeps first s) {actions : List (Action Bundle)}
    (h : ∀ before, before <+: actions →
      Survives first (installer.after s before)) :
    installer.AllSteps Harmless s actions := by
  induction actions generalizing s with
  | nil => trivial
  | cons action rest ih =>
    have hsurvives : Survives first (step s action).1 := h [action] (by simp)
    have hharmless : Harmless s action := by
      constructor
      · by_contra hloud
        have hinterrupts := Bool.eq_true_of_not_eq_false hloud
        have hopen := recovered_of_interrupted hs.stands hinterrupts
        have hidle : (step s action).1.operation = none := by
          cases action with
          | crash => rfl
          | _ => cases hinterrupts
        rw [(hsurvives.ends hidle).2.1] at hopen
        cases hopen
      · by_contra hlong
        cases hleft : left s action with
        | none => exact hlong (by rw [hleft]; rfl)
        | some t =>
          obtain ⟨hidle, hstate⟩ := step_left hleft
          refine recover_fails hidle ?_ (hsurvives.ends hidle).2.2
          rwa [hstate, ← hleft]
    refine ⟨hharmless, ih (hs.step hfirst hharmless) fun before hbefore => ?_⟩
    exact h (action :: before) (List.cons_prefix_cons.2 ⟨rfl, hbefore⟩)

/-- Installations survive every crash exactly where no recovery crashes between
the restoration of an app that had no failed candidate and its last save, and no
state file that is left is too long. -/
theorem update_survives_crashes (first : Directory Bundle)
    (hfirst : isSettled first.state = true) (actions : List (Action Bundle)) :
    (∀ before, before <+: actions →
      Survives first (installer.after (State.initial first) before)) ↔
    first.state.all isReadable = true ∧
      installer.AllSteps Harmless (State.initial first) actions := by
  constructor
  · intro h
    have hreadable : first.state.all isReadable = true := by
      by_contra hlong
      exact recover_fails rfl hlong ((h [] List.nil_prefix).ends rfl).2.2
    exact ⟨hreadable,
      harmless_of_survives hfirst (initial_keeps hfirst hreadable) h⟩
  · rintro ⟨hreadable, hharmless⟩ before ⟨rest, rfl⟩
    have hkeeps : Keeps first
        (installer.after (State.initial first) before) :=
      hharmless.append.1.after_invariant
        (fun s action hs hstep => hs.step hfirst hstep)
        (initial_keeps hfirst hreadable)
    exact hkeeps.survives

namespace UpdateInstallerWitness

def id : TransactionId := ⟨List.replicate 36 0x62, by decide +kernel⟩

def old : Release where
  version := JsString.ofString "1.0.0"
  sequence := 1
  isVersion := by decide
  isSequence := by decide

def new : Release where
  version := JsString.ofString "2.0.0"
  sequence := 2
  isVersion := by decide
  isSequence := by decide

/-- The app 1 is healthy. -/
def managed : Directory Nat where
  app := some 1
  rollback := fun _ => none
  failed := fun _ => none
  staged := fun _ => none
  state := some { toRelease := old, id, previous := false, phase := .healthy }

/-- The installation crashes when it has moved the app away. -/
def interrupted : List (Action Nat) :=
  [.install id new 1 true 2, .advance, .advance, .advance, .advance, .crash]

theorem update_survives_crashes_interrupted :
    Survives managed (installer.after (State.initial managed) interrupted) := by
  refine (update_survives_crashes managed rfl interrupted).2 ?_
    interrupted List.prefix_rfl
  refine ⟨?_, ⟨?_, ?_⟩, ⟨?_, ?_⟩, ⟨?_, ?_⟩, ⟨?_, ?_⟩, ⟨?_, ?_⟩, ⟨?_, ?_⟩,
    trivial⟩
  all_goals decide +kernel

/-- The recovery crashes as well, when it has moved the app back: from then on
it refuses. -/
theorem recovery_refuses :
    let s := installer.after (State.initial managed)
      (interrupted ++ [Action.recover, .advance, .advance, .crash])
    s.directory.app = some 1 ∧
      (step s .recover).2 = .failed .recoveryUnconfirmed ∧
      ¬Survives managed s := by
  refine ⟨by decide +kernel, by decide +kernel, fun h => ?_⟩
  have hends := (h.ends (by decide +kernel)).2.1
  revert hends
  decide +kernel

end UpdateInstallerWitness

end Allrice.UpdateInstaller
