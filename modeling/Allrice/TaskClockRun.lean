/-
Runs of a task's clock.  However often it is refreshed, the times that it keeps
are the times spent in each phase, and its deadline moves with the time in
which the task was not active.
-/
import Allrice.TaskClock

namespace Allrice.TaskClock

/-- The time spent in a phase until some moment.  The phase that a refresh
found lasts until the next one. -/
def timeSpent (phase : Phase) (since : Refresh) :
    List Refresh → Int → Nat
  | [], now => if since.phase = phase then (now - since.now).toNat else 0
  | next :: rest, now =>
    (if since.phase = phase then (next.now - since.now).toNat else 0) +
      timeSpent phase next rest now

/-- Refreshes in the order of time, up to some moment. -/
def InOrder (since : Int) : List Refresh → Int → Prop
  | [], now => since ≤ now
  | next :: rest, now => since ≤ next.now ∧ InOrder next.now rest now

instance InOrder.decidable : ∀ (since : Int) (refreshes : List Refresh)
    (now : Int), Decidable (InOrder since refreshes now)
  | since, [], now => inferInstanceAs (Decidable (since ≤ now))
  | since, next :: rest, now =>
    have := InOrder.decidable next.now rest now
    inferInstanceAs
      (Decidable (since ≤ next.now ∧ InOrder next.now rest now))

variable {now : Int} {tables : TaskTables} {refreshes : List Refresh}

theorem InOrder.le {since : Int} (h : InOrder since refreshes now) :
    since ≤ now := by
  induction refreshes generalizing since with
  | nil => exact h
  | cons next rest ih => exact Int.le_trans h.1 (ih h.2)

theorem timeSpent_mono (phase : Phase) {since : Refresh} {later : Int}
    (h : now ≤ later) :
    timeSpent phase since refreshes now ≤
      timeSpent phase since refreshes later := by
  induction refreshes generalizing since with
  | nil =>
    unfold timeSpent
    split
    · omega
    · exact Nat.le_refl 0
  | cons next rest ih =>
    have hrest : timeSpent phase next rest now ≤
        timeSpent phase next rest later := ih
    unfold timeSpent
    omega

/-- All time is spent in some phase. -/
theorem timeSpent_total (since : Refresh) {refreshes : List Refresh}
    {now : Int} (h : InOrder since.now refreshes now) :
    (timeSpent .queued since refreshes now +
      timeSpent .active since refreshes now +
      timeSpent .waiting since refreshes now +
      timeSpent .terminal since refreshes now : Nat) = now - since.now := by
  induction refreshes generalizing since with
  | nil =>
    have hle : since.now ≤ now := h
    cases hphase : since.phase with
    | _ =>
      simp only [timeSpent, hphase, reduceCtorEq, if_true, if_false]
      omega
  | cons next rest ih =>
    have hle : since.now ≤ next.now := h.1
    have hrest := ih next h.2
    cases hphase : since.phase with
    | _ =>
      simp only [timeSpent, hphase, reduceCtorEq, if_true, if_false]
      omega

namespace TaskClockRow

/-- The refreshes of a run, stored one after the other. -/
def rowAfter (row : TaskClockRow) (refreshes : List Refresh) : TaskClockRow :=
  refreshes.foldl (fun row refresh => row.next refresh.phase refresh.now) row

theorem rowAfter_policy (row : TaskClockRow) (refreshes : List Refresh) :
    (row.rowAfter refreshes).policy = row.policy := by
  induction refreshes generalizing row with
  | nil => rfl
  | cons next rest ih => exact ih (row.next next.phase next.now)

theorem rowAfter_append (row : TaskClockRow) (first second : List Refresh) :
    row.rowAfter (first ++ second) = (row.rowAfter first).rowAfter second :=
  List.foldl_append

/-- The time at which a run was refreshed last. -/
def lastTime (since : Int) : List Refresh → Int
  | [] => since
  | next :: rest => lastTime next.now rest

theorem rowAfter_changedAt (row : TaskClockRow) (refreshes : List Refresh) :
    (row.rowAfter refreshes).changedAt = lastTime row.changedAt refreshes := by
  induction refreshes generalizing row with
  | nil => rfl
  | cons next rest ih => exact ih (row.next next.phase next.now)

/-- The active time is what was there before and the time spent since. -/
theorem rowAfter_activeAt (row : TaskClockRow) (refreshes : List Refresh)
    (now : Int) :
    (row.rowAfter refreshes).activeAt now = row.activeMs +
      timeSpent .active ⟨row.phase, row.changedAt⟩ refreshes now := by
  induction refreshes generalizing row with
  | nil => rfl
  | cons next rest ih =>
    have hrest := ih (row.next next.phase next.now)
    have hactive : (row.next next.phase next.now).activeMs = row.activeMs +
        if row.phase = .active then (next.now - row.changedAt).toNat
        else 0 := rfl
    rw [hactive, Nat.add_assoc] at hrest
    exact hrest

theorem rowAfter_waitingAt (row : TaskClockRow) (refreshes : List Refresh)
    (now : Int) :
    (row.rowAfter refreshes).waitingAt now = row.waitingMs +
      timeSpent .waiting ⟨row.phase, row.changedAt⟩ refreshes now := by
  induction refreshes generalizing row with
  | nil => rfl
  | cons next rest ih =>
    have hrest := ih (row.next next.phase next.now)
    have hwaiting : (row.next next.phase next.now).waitingMs = row.waitingMs +
        if row.phase = .waiting then (next.now - row.changedAt).toNat
        else 0 := rfl
    rw [hwaiting, Nat.add_assoc] at hrest
    exact hrest

/-- A task that is or was at work has a start, and one that ended an end. -/
structure Dated (row : TaskClockRow) : Prop where
  started : row.phase = .active ∨ row.phase = .waiting →
    row.startedAt.isSome = true
  completed : row.phase = .terminal → row.completedAt.isSome = true

theorem created_dated (policy : TaskRuntimePolicy) (at_ : Int) :
    (created policy at_).Dated where
  started := by
    rintro (hphase | hphase)
    · cases hphase
    · cases hphase
  completed := nofun

theorem next_dated (row : TaskClockRow) (phase : Phase) (now : Int) :
    (row.next phase now).Dated where
  started := by
    intro hphase
    change phase = .active ∨ phase = .waiting at hphase
    cases hstarted : row.startedAt with
    | none => simp [next, hstarted, hphase]
    | some startedAt => simp [next, hstarted]
  completed := by
    intro hphase
    change phase = .terminal at hphase
    cases hcompleted : row.completedAt with
    | none => simp [next, hcompleted, hphase]
    | some completedAt => simp [next, hcompleted]

variable {row : TaskClockRow}

theorem rowAfter_dated (h : row.Dated) (refreshes : List Refresh) :
    (row.rowAfter refreshes).Dated := by
  induction refreshes generalizing row with
  | nil => exact h
  | cons next rest ih => exact ih (row.next_dated next.phase next.now)

/-- A refresh that finds the same phase changes no later projection. -/
theorem project_next_same (h : row.Dated) {t : Int} (ht : row.changedAt ≤ t)
    (hnow : t ≤ now) :
    projectTaskClock (row.next row.phase t) now =
      projectTaskClock row now := by
  have hactive : (row.next row.phase t).activeAt now = row.activeAt now := by
    by_cases hphase : row.phase = .active
    · simp only [activeAt, next, if_pos hphase]
      omega
    · simp only [activeAt, next, if_neg hphase]
  have hwaiting : (row.next row.phase t).waitingAt now =
      row.waitingAt now := by
    by_cases hphase : row.phase = .waiting
    · simp only [waitingAt, next, if_pos hphase]
      omega
    · simp only [waitingAt, next, if_neg hphase]
  have hstarted : (row.next row.phase t).startedAt = row.startedAt := by
    cases hstart : row.startedAt with
    | some startedAt => simp [next, hstart]
    | none =>
      have hnot : ¬(row.phase = .active ∨ row.phase = .waiting) := by
        intro hphase
        have hsome := h.started hphase
        rw [hstart] at hsome
        cases hsome
      simp [next, hstart, hnot]
  have hcompleted : (row.next row.phase t).completedAt =
      row.completedAt := by
    cases hend : row.completedAt with
    | some completedAt => simp [next, hend]
    | none =>
      have hnot : ¬row.phase = .terminal := by
        intro hphase
        have hsome := h.completed hphase
        rw [hend] at hsome
        cases hsome
      simp [next, hend, hnot]
  have hpolicy : (row.next row.phase t).policy = row.policy := rfl
  have hphase : (row.next row.phase t).phase = row.phase := rfl
  unfold projectTaskClock remainingAt budgetDeadline wallAt
  rw [hactive, hwaiting, hstarted, hcompleted, hpolicy, hphase]

theorem project_rowAfter_same (h : row.Dated)
    (hsame : ∀ refresh ∈ refreshes, refresh.phase = row.phase)
    (horder : InOrder row.changedAt refreshes now) :
    projectTaskClock (row.rowAfter refreshes) now =
      projectTaskClock row now := by
  induction refreshes generalizing row with
  | nil => rfl
  | cons first rest ih =>
    have hfirst : first.phase = row.phase := hsame first (by simp)
    have hlater := ih (row.next_dated first.phase first.now)
      (fun refresh hrefresh => by
        rw [hsame refresh (by simp [hrefresh])]
        exact hfirst.symm) horder.2
    have hnext := project_next_same h horder.1 horder.2.le
    rw [← hfirst] at hnext
    exact hlater.trans hnext

end TaskClockRow

open TaskClockRow

theorem projectTaskClock_ok {row : TaskClockRow} {projection : Projection}
    (h : projectTaskClock row now = .ok projection) :
    ∃ deadline, row.policy.authorizationExpiresAt.getD
        (some unboundedTaskDeadline) = some deadline ∧
      projection = ⟨row.activeAt now, row.waitingAt now, row.remainingAt now,
        row.phase, row.wallAt now, row.policy.timeoutMs, row.policy.sources,
        min (row.budgetDeadline now) deadline⟩ := by
  unfold projectTaskClock at h
  split at h
  · cases h
  · rename_i deadline hdeadline
    exact ⟨deadline, hdeadline, (Except.ok.inj h).symm⟩

variable {deadline : Int}

theorem projectTaskClock_of_deadline (row : TaskClockRow)
    (h : row.policy.authorizationExpiresAt.getD
      (some unboundedTaskDeadline) = some deadline) (now : Int) :
    projectTaskClock row now =
      .ok ⟨row.activeAt now, row.waitingAt now, row.remainingAt now,
        row.phase, row.wallAt now, row.policy.timeoutMs, row.policy.sources,
        min (row.budgetDeadline now) deadline⟩ := by
  unfold projectTaskClock
  rw [h]

/-- What one refresh does to the tables, and what it answers. -/
theorem refreshTaskClock_ok
    (h : tables.clock.policy.authorizationExpiresAt.getD
      (some unboundedTaskDeadline) = some deadline) (refresh : Refresh) :
    (refreshTaskClock tables refresh).1.clock =
        tables.clock.next refresh.phase refresh.now ∧
      ∃ projection, (refreshTaskClock tables refresh).2 = .ok projection ∧
        projectTaskClock (tables.clock.next refresh.phase refresh.now)
          refresh.now = .ok projection ∧
        (refresh.phase ≠ .terminal →
          (refreshTaskClock tables refresh).1.rootDeadlineAt =
            projection.deadlineAt) := by
  have hrow := projectTaskClock_of_deadline _ h refresh.now
  have hstored := projectTaskClock_of_deadline
    (tables.clock.next refresh.phase refresh.now) h refresh.now
  unfold refreshTaskClock
  simp only [hrow, hstored]
  refine ⟨?_, _, rfl, rfl, ?_⟩
  · split
    · rfl
    · rfl
  · intro hphase
    rw [if_pos hphase]
    rfl

theorem refreshTaskClock_throws
    (h : tables.clock.policy.authorizationExpiresAt = some none)
    (refresh : Refresh) : (refreshTaskClock tables refresh).1 = tables := by
  unfold refreshTaskClock projectTaskClock
  simp only [h, Option.getD_some]

theorem machine_throws
    (h : tables.clock.policy.authorizationExpiresAt = some none)
    (refreshes : List Refresh) : machine.after tables refreshes = tables := by
  induction refreshes with
  | nil => rfl
  | cons next rest ih =>
    have hstep := refreshTaskClock_throws h next
    rw [Machine.after_cons]
    change machine.after (refreshTaskClock tables next).1 rest = tables
    rw [hstep, ih]

theorem machine_clock
    (h : tables.clock.policy.authorizationExpiresAt.getD
      (some unboundedTaskDeadline) = some deadline) (refreshes : List Refresh) :
    (machine.after tables refreshes).clock =
      tables.clock.rowAfter refreshes := by
  induction refreshes generalizing tables with
  | nil => rfl
  | cons next rest ih =>
    have hstep := (refreshTaskClock_ok h next).1
    rw [Machine.after_cons]
    change (machine.after (refreshTaskClock tables next).1 rest).clock = _
    rw [ih (by rw [hstep]; exact h), hstep]
    rfl

theorem machine_policy (tables : TaskTables) (refreshes : List Refresh) :
    (machine.after tables refreshes).clock.policy = tables.clock.policy := by
  cases hexpiry : tables.clock.policy.authorizationExpiresAt.getD
      (some unboundedTaskDeadline) with
  | some deadline =>
    rw [machine_clock hexpiry, rowAfter_policy]
  | none =>
    have hthrows : tables.clock.policy.authorizationExpiresAt =
        some none := by
      cases hgiven : tables.clock.policy.authorizationExpiresAt with
      | none =>
        rw [hgiven] at hexpiry
        cases hexpiry
      | some given =>
        rw [hgiven] at hexpiry
        exact congrArg some hexpiry
    rw [machine_throws hthrows]

section Accounts

variable {policy : TaskRuntimePolicy} {created_ : Int}

/-- The time in which a task was not active. -/
def idleTime (since : Refresh) (refreshes : List Refresh) (now : Int) : Nat :=
  timeSpent .queued since refreshes now +
    timeSpent .waiting since refreshes now +
    timeSpent .terminal since refreshes now

/-- The deadline of a budget.  A task that waits or is queued has none as long
as there is budget left.  Otherwise it is the budget, counted from the start,
and put off by the time in which the task was not active. -/
def deadlineOf (policy : TaskRuntimePolicy) (since : Refresh)
    (refreshes : List Refresh) (phase : Phase) (now : Int) : Int :=
  if policy.timeoutMs = 0 ∨
      timeSpent .active since refreshes now < policy.timeoutMs ∧
        (phase = .waiting ∨ phase = .queued) then
    unboundedTaskDeadline
  else since.now + policy.timeoutMs + idleTime since refreshes now

theorem created_activeAt (refreshes : List Refresh) (now : Int) :
    ((created policy created_).rowAfter refreshes).activeAt now =
      timeSpent .active ⟨.queued, created_⟩ refreshes now := by
  rw [rowAfter_activeAt]
  exact Nat.zero_add _

theorem created_waitingAt (refreshes : List Refresh) (now : Int) :
    ((created policy created_).rowAfter refreshes).waitingAt now =
      timeSpent .waiting ⟨.queued, created_⟩ refreshes now := by
  rw [rowAfter_waitingAt]
  exact Nat.zero_add _

theorem created_policy (refreshes : List Refresh) :
    ((created policy created_).rowAfter refreshes).policy = policy :=
  rowAfter_policy _ refreshes

variable {now : Int} {refreshes : List Refresh}

theorem created_budgetDeadline (horder : InOrder created_ refreshes now) :
    ((created policy created_).rowAfter refreshes).budgetDeadline now =
      deadlineOf policy ⟨.queued, created_⟩ refreshes
        ((created policy created_).rowAfter refreshes).phase now := by
  have htotal := timeSpent_total ⟨.queued, created_⟩ horder
  unfold budgetDeadline deadlineOf idleTime
  simp only [created_policy, created_activeAt, Nat.sub_pos_iff_lt]
  split
  · rfl
  · simp only at htotal
    omega

variable {later : Int} {projection : Projection}

/-- An active task's deadline does not move. -/
theorem budgetDeadline_active {row : TaskClockRow} (h : row.phase = .active)
    (hnow : row.changedAt ≤ now) (hlater : now ≤ later) :
    row.budgetDeadline later = row.budgetDeadline now := by
  have hnot : ¬(row.phase = .waiting ∨ row.phase = .queued) := by
    rw [h]
    decide
  unfold budgetDeadline activeAt
  simp only [hnot, and_false, or_false, if_pos h]
  split
  · rfl
  · omega

theorem InOrder.lastTime_le {since : Int} (h : InOrder since refreshes now) :
    lastTime since refreshes ≤ now := by
  induction refreshes generalizing since with
  | nil => exact h
  | cons next rest ih => exact ih h.2

/-- What a projection says after some refreshes. -/
structure Accounted (policy : TaskRuntimePolicy) (created_ : Int)
    (refreshes : List Refresh) (now : Int) (projection : Projection) :
    Prop where
  active : projection.activeMs =
    timeSpent .active ⟨.queued, created_⟩ refreshes now
  waiting : projection.waitingMs =
    timeSpent .waiting ⟨.queued, created_⟩ refreshes now
  remaining : projection.remainingMs =
    if policy.timeoutMs = 0 then none
    else some (policy.timeoutMs -
      timeSpent .active ⟨.queued, created_⟩ refreshes now)
  deadline : ∃ authorization, policy.authorizationExpiresAt.getD
      (some unboundedTaskDeadline) = some authorization ∧
    projection.deadlineAt = min (deadlineOf policy ⟨.queued, created_⟩
      refreshes projection.phase now) authorization

/-- The row of a run that can be projected. -/
theorem after_created (hcreated : tables.clock = created policy created_)
    (h : projectTaskClock (machine.after tables refreshes).clock now =
      .ok projection) (more : List Refresh) :
    (machine.after tables more).clock =
      (created policy created_).rowAfter more := by
  obtain ⟨authorization, hauthorization, _⟩ := projectTaskClock_ok h
  rw [machine_policy] at hauthorization
  rw [machine_clock hauthorization more, hcreated]

theorem accounted (horder : InOrder created_ refreshes now)
    (h : projectTaskClock ((created policy created_).rowAfter refreshes) now =
      .ok projection) : Accounted policy created_ refreshes now projection := by
  obtain ⟨authorization, hauthorization, rfl⟩ := projectTaskClock_ok h
  rw [created_policy] at hauthorization
  constructor
  · exact created_activeAt refreshes now
  · exact created_waitingAt refreshes now
  · simp only [remainingAt, created_policy, created_activeAt]
  · refine ⟨authorization, hauthorization, ?_⟩
    simp only
    rw [created_budgetDeadline horder]

theorem timeSpent_append (phase : Phase) (since : Refresh) (more : List Refresh)
    (h : InOrder since.now refreshes now) (hmore : InOrder now more later) :
    timeSpent phase since refreshes now ≤
      timeSpent phase since (refreshes ++ more) later := by
  induction refreshes generalizing since with
  | nil =>
    have hle : since.now ≤ now := h
    cases more with
    | nil => exact timeSpent_mono phase hmore
    | cons next rest =>
      have hnext : now ≤ next.now := hmore.1
      rw [List.nil_append, timeSpent, timeSpent]
      split
      · omega
      · exact Nat.zero_le _
  | cons next rest ih =>
    have hrest := ih next h.2
    rw [List.cons_append, timeSpent, timeSpent]
    omega

/-- The clock of a task, after any refreshes in the order of time.  Refreshes
that find the phase as it was do not show in a later projection; the deadline
of an active task stays; and less and less time remains. -/
theorem task_clock_accounts {tables : TaskTables}
    (hcreated : tables.clock = TaskClockRow.created policy created_)
    {refreshes : List Refresh} {now : Int}
    (horder : InOrder created_ refreshes now) {projection : Projection}
    (h : projectTaskClock (machine.after tables refreshes).clock now =
      .ok projection) :
    Accounted policy created_ refreshes now projection ∧
      (∀ more : List Refresh,
        (∀ refresh ∈ more, refresh.phase = projection.phase) →
        InOrder (lastTime created_ refreshes) more now →
        projectTaskClock
            (machine.after tables (refreshes ++ more)).clock now =
          .ok projection) ∧
      (∀ later projection', now ≤ later → projection.phase = .active →
        projectTaskClock (machine.after tables refreshes).clock later =
          .ok projection' →
        projection'.deadlineAt = projection.deadlineAt) ∧
      ∀ more later projection', InOrder now more later →
        projectTaskClock
            (machine.after tables (refreshes ++ more)).clock later =
          .ok projection' →
        ∀ remaining ∈ projection.remainingMs,
          ∃ remaining' ∈ projection'.remainingMs, remaining' ≤ remaining := by
  have hafter := after_created hcreated h
  rw [hafter] at h
  obtain ⟨authorization, hauthorization, hprojection⟩ := projectTaskClock_ok h
  refine ⟨accounted horder h, ?_, ?_, ?_⟩
  · intro more hsame hmore
    have hdated := rowAfter_dated (created_dated policy created_) refreshes
    have hchanged := rowAfter_changedAt (created policy created_) refreshes
    rw [hafter, rowAfter_append, project_rowAfter_same hdated, h]
    · intro refresh hrefresh
      rw [hsame refresh hrefresh, hprojection]
    · rw [hchanged]
      exact hmore
  · intro later projection' hlater hactive hproject
    have hchanged := rowAfter_changedAt (created policy created_) refreshes
    have hlast := horder.lastTime_le
    rw [hafter] at hproject
    obtain ⟨authorization', hauthorization', hprojection'⟩ :=
      projectTaskClock_ok hproject
    rw [hauthorization] at hauthorization'
    cases hauthorization'
    rw [hprojection] at hactive
    rw [hprojection, hprojection']
    simp only at hactive ⊢
    rw [budgetDeadline_active hactive (by rw [hchanged]; exact hlast) hlater]
  · intro more later projection' hmore hproject remaining hremaining
    have hspent := timeSpent_append .active ⟨.queued, created_⟩ more horder
      hmore
    rw [hafter] at hproject
    obtain ⟨_, _, hprojection'⟩ := projectTaskClock_ok hproject
    rw [hprojection] at hremaining
    rw [hprojection']
    simp only [remainingAt, created_policy, created_activeAt] at hremaining ⊢
    split at hremaining
    · cases hremaining
    · rename_i htimeout
      cases hremaining
      rw [if_neg htimeout]
      exact ⟨_, rfl, by omega⟩

end Accounts

namespace TaskClockWitness

def hour : TaskRuntimePolicy := ⟨none, 3600000, []⟩

def fresh : TaskTables := ⟨created hour 0, [], 0, []⟩

/-- At work, then queued again, then at work. -/
def requeued : List Refresh :=
  [⟨.active, 1000⟩, ⟨.queued, 2000⟩, ⟨.active, 5000⟩]

/-- A task that did not wait has its deadline put off, as it was queued. -/
theorem deadline_moves_while_queued :
    InOrder 0 requeued 5000 ∧
      (projectTaskClock (machine.after fresh (requeued.take 1)).clock
        1000).map (·.deadlineAt) = .ok 3601000 ∧
      (projectTaskClock (machine.after fresh requeued).clock 5000).map
        (·.deadlineAt) = .ok 3604000 ∧
      (projectTaskClock (machine.after fresh requeued).clock 5000).map
        (·.waitingMs) = .ok 0 := by
  decide

theorem task_clock_accounts_requeued :
    ∃ projection',
      projectTaskClock (machine.after fresh requeued).clock 7000 =
        .ok projection' ∧
      projection'.deadlineAt = 3604000 := by
  refine ⟨⟨3000, 0, some 3597000, .active, 6000, 3600000, [], 3604000⟩,
    by decide, ?_⟩
  have hprojection : projectTaskClock (machine.after fresh requeued).clock
      6000 = .ok ⟨2000, 0, some 3598000, .active, 5000, 3600000, [],
        3604000⟩ := by decide
  have horder : InOrder 0 requeued 6000 := by decide
  exact (task_clock_accounts rfl horder
    hprojection).2.2.1 7000 _ (by decide) rfl (by decide)

end TaskClockWitness

end Allrice.TaskClock
