/-
The wakes of whole runs.  The pending timeout is always the one of the earliest
deadline kept.  A deadline that was merged into another one depends on it, and
is left without a timeout where a late firing for a third one takes that other
one too.
-/
import Allrice.QueueWakeup

namespace Allrice.QueueWakeup

variable {horizon : Int} {s : State} {action : Action}

theorem inserted_sorted (due : List Int) (deadline : Int) :
    (inserted due deadline).Pairwise (· ≤ ·) :=
  (List.pairwise_insertionSort (· ≤ ·) _).sublist (List.take_sublist _ _)

variable {deadline time e fired : Int} {due : List Int}

theorem mem_of_mem_inserted (h : e ∈ inserted due deadline) :
    e ∈ due ∨ e = deadline := by
  have hsorted := List.mem_of_mem_take h
  rw [List.mem_insertionSort] at hsorted
  simpa using hsorted

/-- The first of a sorted list is its least. -/
theorem head_le (hsorted : due.Pairwise (· ≤ ·)) (he : e ∈ due) :
    ∃ first, due.head? = some first ∧ first ≤ e := by
  cases due with
  | nil => cases he
  | cons first rest =>
    refine ⟨first, rfl, ?_⟩
    rcases List.mem_cons.1 he with rfl | hrest
    · exact le_refl _
    · exact List.rel_of_pairwise_cons hsorted hrest

/-- The cut leaves the earliest deadline. -/
theorem inserted_head_le (due : List Int) (deadline : Int)
    (he : e ∈ due ∨ e = deadline) :
    ∃ first ∈ inserted due deadline, first ≤ e := by
  have hmem : e ∈ (due ++ [deadline]).insertionSort (· ≤ ·) := by
    rw [List.mem_insertionSort]
    simpa using he
  obtain ⟨first, hfirst, hle⟩ :=
    head_le (List.pairwise_insertionSort (· ≤ ·) (due ++ [deadline])) hmem
  refine ⟨first, List.mem_of_mem_head? ?_, hle⟩
  rw [inserted, List.head?_take, hfirst]
  rfl

variable {first : Int} {s' : State} {more : List (QueueWakeReason × Int)}
  {payload : Payload}

/-- The earliest deadline is the one of before or the new one. -/
theorem inserted_head_cases (hsorted : due.Pairwise (· ≤ ·))
    (hfirst : (inserted due deadline).head? = some first) :
    due.head? = some first ∨ first = deadline := by
  rcases mem_of_mem_inserted (List.mem_of_mem_head? hfirst) with hold | hnew
  · obtain ⟨old, hhead, hle⟩ := head_le hsorted hold
    obtain ⟨least, hleast, hleastle⟩ := inserted_head_le due deadline
      (.inl (List.mem_of_mem_head? hhead))
    obtain ⟨least', hleast', hle'⟩ :=
      head_le (inserted_sorted due deadline) hleast
    rw [Option.some.inj (hleast'.symm.trans hfirst)] at hle'
    rw [le_antisymm hle (hle'.trans hleastle)] at hhead
    exact .inl hhead
  · exact .inr hnew

theorem inserted_head (deadline : Int) (hsorted : due.Pairwise (· ≤ ·))
    (hfirst : due.head? = some first) (hlater : first ≤ deadline) :
    (inserted due deadline).head? = some first := by
  obtain ⟨least, hleast, hle⟩ := inserted_head_le due deadline
    (.inl (List.mem_of_mem_head? hfirst))
  obtain ⟨head, hhead, hheadle⟩ := head_le (inserted_sorted due deadline) hleast
  rcases inserted_head_cases hsorted hhead with hold | rfl
  · rw [hhead, ← hold, hfirst]
  · rw [hhead, le_antisymm (hheadle.trans hle) hlater]

@[simp] theorem wake_due (reason : QueueWakeReason) (time : Int) :
    (wake s reason time).due = s.due := by
  unfold wake; split <;> rfl

@[simp] theorem wake_timer (reason : QueueWakeReason) (time : Int) :
    (wake s reason time).timer = s.timer := by
  unfold wake; split <;> rfl

@[simp] theorem wake_armedAt (reason : QueueWakeReason) (time : Int) :
    (wake s reason time).armedAt = s.armedAt := by
  unfold wake; split <;> rfl

@[simp] theorem wake_stopped (reason : QueueWakeReason) (time : Int) :
    (wake s reason time).stopped = s.stopped := by
  unfold wake; split <;> rfl

@[simp] theorem wake_noted (reason : QueueWakeReason) (time : Int) :
    (wake s reason time).noted = s.noted := by
  unfold wake; split <;> rfl

theorem wake_wakes (hopen : s.stopped = false) (reason : QueueWakeReason)
    (time : Int) : (wake s reason time).wakes = s.wakes ++ [(reason, time)] := by
  simp [wake, hopen]

@[simp] theorem armDue_due (time : Int) : (armDue s time).due = s.due := by
  unfold armDue; split <;> rfl

@[simp] theorem armDue_stopped (time : Int) :
    (armDue s time).stopped = s.stopped := by
  unfold armDue; split <;> rfl

@[simp] theorem armDue_wakes (time : Int) :
    (armDue s time).wakes = s.wakes := by
  unfold armDue; split <;> rfl

@[simp] theorem armDue_noted (time : Int) :
    (armDue s time).noted = s.noted := by
  unfold armDue; split <;> rfl

theorem fireDue_wakes (hopen : s.stopped = false) (fired later : Int) :
    (fireDue s fired later).wakes =
      s.wakes ++ [(QueueWakeReason.due, fired)] := by
  simp [fireDue, wake, hopen]

@[simp] theorem armDue_armedAt (time : Int) :
    (armDue s time).armedAt = s.due.head? := by
  unfold armDue
  split
  · rename_i hsame
    exact hsame.symm
  · rfl

/-- A timeout that is not kept is set for the first deadline. -/
theorem armDue_timer (time : Int) :
    s.due.head? = s.armedAt ∧ (armDue s time).timer = s.timer ∨
      (armDue s time).timer = s.due.head?.map fun next =>
        time + max 0 (next - time + dueSlackMs) := by
  unfold armDue
  split
  · rename_i hsame
    exact .inl ⟨hsame, rfl⟩
  · exact .inr rfl

/-- An announcement wakes at once, is left to the poll, is merged, or is kept. -/
inductive Heard (horizon : Int) (s : State) (payload : Payload)
    (time later : Int) : State → Prop
  | probe : payload = .probe → Heard horizon s payload time later s
  | now : (payload = .ready none ∨
        ∃ deadline, payload = .ready (some deadline) ∧ deadline ≤ time) →
      Heard horizon s payload time later (wake s .notify time)
  | far (deadline : Int) : payload = .ready (some deadline) →
      horizon < deadline - time → Heard horizon s payload time later s
  | merged (deadline existing : Int) : payload = .ready (some deadline) →
      time < deadline → existing ∈ s.due → existing ≤ deadline →
      deadline - existing ≤ dueMergeMs →
      Heard horizon s payload time later
        { s with noted := s.noted ++ [deadline] }
  | kept (deadline : Int) : payload = .ready (some deadline) →
      time < deadline →
      Heard horizon s payload time later
        (armDue
          { s with
            due := inserted s.due deadline
            noted := (s.noted ++ [deadline]).filter
              (!displaced s.due deadline ·) }
          later)

theorem onReady_heard (horizon : Int) (s : State) (payload : Payload)
    (time later : Int) :
    Heard horizon s payload time later
      (onReady horizon s payload time later) := by
  cases payload with
  | probe => exact .probe rfl
  | ready announced =>
    cases announced with
    | none => exact .now (.inl rfl)
    | some deadline =>
      simp only [onReady]
      split
      · exact .now (.inr ⟨deadline, rfl, by omega⟩)
      · split
        · exact .far deadline rfl (by omega)
        · split
          · rename_i hmerged
            obtain ⟨existing, hmem, hmerges⟩ := List.any_eq_true.1 hmerged
            simp only [merges, Bool.and_eq_true, decide_eq_true_eq]
              at hmerges
            exact .merged deadline existing rfl (by omega) hmem hmerges.1
              hmerges.2
          · exact .kept deadline rfl (by omega)

structure Sound (s : State) : Prop where
  sorted : s.due.Pairwise (· ≤ ·)
  armed : s.stopped = false → s.armedAt = s.due.head?
  timed : s.stopped = false → s.timer.isSome = s.armedAt.isSome
  past : ∀ w ∈ s.wakes, w.2 ≤ s.clock

theorem initial_sound (start : Int) : Sound (State.initial start) where
  sorted := List.Pairwise.nil
  armed _ := rfl
  timed _ := rfl
  past := nofun

theorem Sound.wake (h : Sound s) (reason : QueueWakeReason)
    (htime : s.clock ≤ time) :
    Sound { wake s reason time with clock := time } where
  sorted := by simpa using h.sorted
  armed hopen := by
    have harmed := h.armed (by simpa using hopen)
    simpa using harmed
  timed hopen := by
    have htimed := h.timed (by simpa using hopen)
    simpa using htimed
  past := by
    intro w hw
    unfold QueueWakeup.wake at hw
    split at hw
    · exact (h.past w hw).trans htime
    · rcases List.mem_append.1 hw with hold | hnew
      · exact (h.past w hold).trans htime
      · rw [List.mem_singleton.1 hnew]

theorem Sound.later (h : Sound s) (htime : s.clock ≤ time) :
    Sound { s with clock := time } :=
  ⟨h.sorted, h.armed, h.timed, fun w hw => (h.past w hw).trans htime⟩

/-- Arming gives the earliest deadline its timeout, whatever was armed for the
deadlines of before. -/
theorem sound_armDue (hsorted : s.due.Pairwise (· ≤ ·))
    (htimed : s.stopped = false → s.timer.isSome = s.armedAt.isSome)
    (hpast : ∀ w ∈ s.wakes, w.2 ≤ time) :
    Sound { armDue s time with clock := time } where
  sorted := by simpa using hsorted
  armed _ := by simp
  timed hopen := by
    have hs := htimed (by simpa using hopen)
    rcases armDue_timer (s := s) time with ⟨hsame, htimer⟩ | htimer
    · simp only [htimer, hs, armDue_armedAt, hsame]
    · simp [htimer]
  past := by simpa using hpast

theorem Sound.onReady (h : Sound s) (horizon : Int) (payload : Payload)
    {later : Int} (htime : s.clock ≤ time) (hlater : time ≤ later) :
    Sound { onReady horizon s payload time later with clock := later } := by
  have hpast : ∀ w ∈ s.wakes, w.2 ≤ later := fun w hw =>
    (h.past w hw).trans (htime.trans hlater)
  have hheard := onReady_heard horizon s payload time later
  generalize QueueWakeup.onReady horizon s payload time later = s' at hheard ⊢
  cases hheard with
  | probe _ => exact h.later (htime.trans hlater)
  | now _ => exact (h.wake .notify htime).later hlater
  | far _ _ _ => exact h.later (htime.trans hlater)
  | merged _ _ _ _ _ _ _ => exact ⟨h.sorted, h.armed, h.timed, hpast⟩
  | kept deadline _ _ =>
    exact sound_armDue
      (s := { s with
        due := inserted s.due deadline
        noted := (s.noted ++ [deadline]).filter
          (!displaced s.due deadline ·) })
      (inserted_sorted _ _) h.timed hpast

theorem Sound.fireDue (h : Sound s) {later : Int} (hfired : s.clock ≤ fired)
    (hlater : fired ≤ later) :
    Sound { fireDue s fired later with clock := later } := by
  apply sound_armDue
  · simpa using h.sorted.filter _
  · intro _
    simp
  · intro w hw
    unfold QueueWakeup.wake at hw
    split at hw
    · exact (h.past w hw).trans (hfired.trans hlater)
    · rcases List.mem_append.1 hw with hold | hnew
      · exact (h.past w hold).trans (hfired.trans hlater)
      · rw [List.mem_singleton.1 hnew]
        exact hlater

theorem Sound.step (h : Sound s) (horizon : Int) (action : Action) :
    Sound (step horizon s action) := by
  cases action with
  | announce payload first second =>
    exact h.onReady horizon payload (le_max_left _ _) (le_max_left _ _)
  | fire first second =>
    simp only [QueueWakeup.step]
    split
    · exact h.fireDue (le_max_left _ _) (le_max_left _ _)
    · exact h
  | listen first => exact h.wake .listen (le_max_left _ _)
  | stop => exact ⟨h.sorted, nofun, nofun, h.past⟩

/-- A wake came at or after the deadline. -/
def Woken (s : State) (deadline : Int) : Prop :=
  ∃ w ∈ s.wakes, deadline ≤ w.2

/-- The wake came after the deadline, within the merge window and the slack. -/
def WokenInTime (s : State) (deadline : Int) : Prop :=
  ∃ w ∈ s.wakes,
    deadline ≤ w.2 ∧ w.2 ≤ deadline + dueMergeMs + dueSlackMs

/-- The deadline had its wake, or the pending timeout is one of its merge
window. -/
def Served (s : State) (deadline : Int) : Prop :=
  Woken s deadline ∨
    s.timer.isSome = true ∧
      ∃ armed ∈ s.armedAt, armed ≤ deadline + dueMergeMs

/-- Every accepted deadline that no cut displaced is served. -/
def AllServed (s : State) : Prop :=
  s.stopped = false → ∀ deadline ∈ s.noted, Served s deadline

/-- A timeout that fires leaves every deadline that is still ahead another one
of its merge window. -/
def Keeps (s : State) (action : Action) : Prop :=
  match action with
  | .fire first _ =>
    Fires s first → s.stopped = false →
      ∀ deadline ∈ s.noted, s.reads first < deadline →
        ∃ e ∈ s.due, s.reads first < e ∧ e ≤ deadline + dueMergeMs
  | _ => True

theorem Sound.served_iff (h : Sound s) (hopen : s.stopped = false) :
    Served s deadline ↔
      Woken s deadline ∨ ∃ e ∈ s.due, e ≤ deadline + dueMergeMs := by
  unfold Served
  rw [h.timed hopen, h.armed hopen]
  constructor
  · rintro (hwoken | ⟨_, armed, hhead, hle⟩)
    · exact .inl hwoken
    · exact .inr ⟨armed, List.mem_of_mem_head? hhead, hle⟩
  · rintro (hwoken | ⟨e, he, hle⟩)
    · exact .inl hwoken
    · obtain ⟨first, hfirst, hfirstle⟩ := head_le h.sorted he
      exact .inr ⟨by rw [hfirst]; rfl, first, hfirst, hfirstle.trans hle⟩

theorem Woken.grow (h : Woken s deadline) (hmore : s'.wakes = s.wakes ++ more) :
    Woken s' deadline := by
  obtain ⟨w, hw, hle⟩ := h
  exact ⟨w, by rw [hmore]; exact List.mem_append_left _ hw, hle⟩

theorem WokenInTime.grow (h : WokenInTime s deadline)
    (hmore : s'.wakes = s.wakes ++ more) : WokenInTime s' deadline := by
  obtain ⟨w, hw, hle⟩ := h
  exact ⟨w, by rw [hmore]; exact List.mem_append_left _ hw, hle⟩

theorem wake_appends (reason : QueueWakeReason) (time : Int) :
    ∃ more, (wake s reason time).wakes = s.wakes ++ more ∧
      ∀ w ∈ more, w.2 = time := by
  unfold wake
  split
  · exact ⟨[], by simp, nofun⟩
  · exact ⟨[(reason, time)], rfl, by simp⟩

/-- An announcement takes no deadline its last timeout. -/
theorem AllServed.onReady (h : Sound s) (hserved : AllServed s) {later : Int}
    (htime : s.clock ≤ time) (hlater : time ≤ later) :
    AllServed
      { onReady horizon s payload time later with clock := later } := by
  have hsound := h.onReady horizon payload htime hlater
  have hheard := onReady_heard horizon s payload time later
  generalize QueueWakeup.onReady horizon s payload time later = s'
    at hheard hsound ⊢
  intro hopen deadline hnoted
  rw [hsound.served_iff hopen]
  cases hheard with
  | probe _ | far _ _ _ =>
    exact (h.served_iff hopen).1 (hserved hopen deadline hnoted)
  | now _ =>
    simp only [wake_stopped, wake_noted] at hopen hnoted
    rcases (h.served_iff hopen).1 (hserved hopen deadline hnoted) with
      hwoken | hdue
    · obtain ⟨more, hmore, -⟩ := wake_appends (s := s) .notify _
      exact .inl (hwoken.grow hmore)
    · exact .inr (by simpa using hdue)
  | merged announced existing _ _ hmem hle hnear =>
    rcases List.mem_append.1 hnoted with hold | hnew
    · exact (h.served_iff hopen).1 (hserved hopen deadline hold)
    · rw [List.mem_singleton.1 hnew]
      exact .inr ⟨existing, hmem, by simp only [dueMergeMs]; omega⟩
  | kept announced _ hahead =>
    simp only [armDue_stopped, armDue_noted, List.mem_filter] at hopen hnoted
    simp only [armDue_due]
    rcases List.mem_append.1 hnoted.1 with hold | hnew
    · rcases (h.served_iff hopen).1 (hserved hopen deadline hold) with
        ⟨w, hw, hwle⟩ | ⟨e, he, hle⟩
      · exact .inl ⟨w, by simpa using hw, hwle⟩
      · obtain ⟨first, hfirst, hfirstle⟩ :=
          inserted_head_le s.due announced (.inl he)
        exact .inr ⟨first, hfirst, hfirstle.trans hle⟩
    · rw [List.mem_singleton.1 hnew]
      obtain ⟨first, hfirst, hfirstle⟩ :=
        inserted_head_le s.due announced (.inr rfl)
      exact .inr ⟨first, hfirst, by simp only [dueMergeMs]; omega⟩

/-- After a firing, the deadlines still ahead are served exactly if each of
them keeps a timeout of its merge window. -/
theorem fireDue_served_iff (h : Sound s) (hopen : s.stopped = false)
    {later : Int} (hfired : s.clock ≤ fired) (hlater : fired ≤ later)
    (hahead : fired < deadline) :
    Served { fireDue s fired later with clock := later } deadline ↔
      ∃ e ∈ s.due, fired < e ∧ e ≤ deadline + dueMergeMs := by
  have hsound := h.fireDue hfired hlater
  rw [hsound.served_iff (by simpa [fireDue] using hopen)]
  have hdue : ∀ e, e ∈ (fireDue s fired later).due ↔ e ∈ s.due ∧ fired < e := by
    intro e
    simp [fireDue]
  simp only [hdue]
  constructor
  · rintro (⟨w, hw, hle⟩ | ⟨e, ⟨he, hlt⟩, hle⟩)
    · simp only [fireDue_wakes hopen] at hw
      rcases List.mem_append.1 hw with hold | hnew
      · have := h.past w hold
        omega
      · rw [List.mem_singleton.1 hnew] at hle
        exact absurd hle (by simpa using hahead)
    · exact ⟨e, he, hlt, hle⟩
  · rintro ⟨e, he, hlt, hle⟩
    exact .inr ⟨e, ⟨he, hlt⟩, hle⟩

theorem fireDue_woken (hopen : s.stopped = false) {later : Int}
    (hpassed : deadline ≤ fired) :
    Woken { fireDue s fired later with clock := later } deadline := by
  refine ⟨(.due, fired), ?_, hpassed⟩
  simp [fireDue_wakes hopen]

theorem AllServed.step (h : Sound s) (hserved : AllServed s)
    (hkeeps : Keeps s action) : AllServed (step horizon s action) := by
  cases action with
  | announce payload first second =>
    exact hserved.onReady h (le_max_left _ _) (le_max_left _ _)
  | fire first second =>
    simp only [QueueWakeup.step]
    split
    · rename_i hfires
      intro hopen deadline hnoted
      simp only [fireDue, armDue_stopped, wake_stopped] at hopen
      simp only [fireDue, armDue_noted, wake_noted] at hnoted
      by_cases hpassed : deadline ≤ s.reads first
      · exact .inl (fireDue_woken hopen hpassed)
      · have hahead := not_le.1 hpassed
        exact (fireDue_served_iff h hopen (le_max_left _ _)
          (le_max_left _ _) hahead).2 (hkeeps hfires hopen _ hnoted hahead)
    · exact hserved
  | listen first =>
    intro hopen deadline hnoted
    have hsound := h.wake .listen (le_max_left s.clock first)
    simp only [QueueWakeup.step, wake_stopped, wake_noted] at hopen hnoted
    refine (hsound.served_iff (by simpa using hopen)).2 ?_
    rcases (h.served_iff hopen).1 (hserved hopen deadline hnoted) with
      hwoken | hdue
    · obtain ⟨more, hmore, -⟩ := wake_appends (s := s) .listen _
      exact .inl (hwoken.grow hmore)
    · exact .inr (by simpa using hdue)
  | stop => exact nofun

/-- A step after which every deadline is served was one that keeps them. -/
theorem keeps_of_served (h : Sound s)
    (hserved : AllServed (step horizon s action)) : Keeps s action := by
  cases action with
  | fire first second =>
    intro hfires hopen deadline hnoted hahead
    simp only [QueueWakeup.step, hfires, ↓reduceIte] at hserved
    refine (fireDue_served_iff h hopen (le_max_left _ _) (le_max_left _ _)
      hahead).1 (hserved ?_ deadline ?_)
    · simpa [fireDue] using hopen
    · simpa [fireDue] using hnoted
  | announce _ _ _ | listen _ | stop => trivial

/-- The first reading of an action. -/
def Action.reading (s : State) : Action → Int
  | .announce _ first _ | .fire first _ | .listen first => s.reads first
  | .stop => s.clock

/-- The second reading of an action. -/
def Action.later (s : State) : Action → Int
  | .announce _ first second | .fire first second =>
    max (s.reads first) second
  | .listen first => s.reads first
  | .stop => s.clock

/-- A timeout is not left pending past its time, and handling an action takes no
time. -/
def OnTime (s : State) (action : Action) : Prop :=
  action.later s = action.reading s ∧
    ∀ requested ∈ s.timer, action.reading s ≤ requested

/-- The wakes of a step carry its first reading. -/
theorem step_wakes (horizon : Int) (s : State) (action : Action) :
    ∃ more, (step horizon s action).wakes = s.wakes ++ more ∧
      ∀ w ∈ more, w.2 = action.reading s := by
  have hnone : ∀ {s' : State}, s'.wakes = s.wakes → ∃ more,
      s'.wakes = s.wakes ++ more ∧ ∀ w ∈ more, w.2 = action.reading s :=
    fun hsame => ⟨[], by simp [hsame], nofun⟩
  cases action with
  | announce payload first second =>
    simp only [step]
    have hheard := onReady_heard horizon s payload (s.reads first)
      (max (s.reads first) second)
    generalize onReady horizon s payload (s.reads first)
      (max (s.reads first) second) = s' at hheard ⊢
    cases hheard with
    | now _ => exact wake_appends _ _
    | probe _ | far _ _ _ | merged _ _ _ _ _ _ _ => exact hnone rfl
    | kept _ _ _ => exact hnone (armDue_wakes _)
  | fire first second =>
    simp only [step]
    split
    · simp only [fireDue, armDue_wakes]
      have happends := wake_appends
        (s := { s with
          timer := none
          armedAt := none
          due := s.due.filter (s.reads first < ·) })
        .due (s.reads first)
      exact happends
    · exact hnone rfl
  | listen first => exact wake_appends _ _
  | stop => exact hnone rfl

/-- Only `stop` ends the wakes. -/
theorem step_open (hopen : (step horizon s action).stopped = false) :
    s.stopped = false := by
  cases action with
  | announce payload first second =>
    simp only [step] at hopen
    have hheard := onReady_heard horizon s payload (s.reads first)
      (max (s.reads first) second)
    generalize onReady horizon s payload (s.reads first)
      (max (s.reads first) second) = s' at hheard hopen
    cases hheard with
    | now _ => simpa using hopen
    | probe _ | far _ _ _ | merged _ _ _ _ _ _ _ => exact hopen
    | kept _ _ _ => simpa using hopen
  | fire first second =>
    simp only [step] at hopen
    split at hopen
    · simpa [fireDue] using hopen
    · exact hopen
  | listen first => simpa [step] using hopen
  | stop => simp [step] at hopen

/-- A deadline that this step accepts is ahead of its first reading. -/
theorem step_noted (h : deadline ∈ (step horizon s action).noted) :
    deadline ∈ s.noted ∨ action.reading s < deadline := by
  cases action with
  | announce payload first second =>
    simp only [step] at h
    have hheard := onReady_heard horizon s payload (s.reads first)
      (max (s.reads first) second)
    generalize onReady horizon s payload (s.reads first)
      (max (s.reads first) second) = s' at hheard h
    cases hheard with
    | now _ => exact .inl (by simpa using h)
    | probe _ | far _ _ _ => exact .inl h
    | merged _ _ _ hahead _ _ _ =>
      rcases List.mem_append.1 h with hold | hnew
      · exact .inl hold
      · exact .inr (by rwa [List.mem_singleton.1 hnew])
    | kept _ _ hahead =>
      simp only [armDue_noted, List.mem_filter] at h
      rcases List.mem_append.1 h.1 with hold | hnew
      · exact .inl hold
      · exact .inr (by rwa [List.mem_singleton.1 hnew])
  | fire first second =>
    simp only [step] at h
    split at h
    · exact .inl (by simpa [fireDue] using h)
    · exact .inl h
  | listen first => exact .inl (by simpa [step] using h)
  | stop => exact .inl h

/-- The timeouts of a run on time: each is set for its deadline and the slack,
and no wake comes later. -/
structure Prompt (s : State) : Prop where
  timed : s.stopped = false → ∀ requested ∈ s.timer,
    s.clock ≤ requested ∧
      ∃ armed ∈ s.armedAt, requested = armed + dueSlackMs
  woken : s.stopped = false → ∀ deadline ∈ s.noted, Woken s deadline →
    WokenInTime s deadline

theorem initial_prompt (start : Int) : Prompt (State.initial start) :=
  ⟨nofun, nofun⟩

/-- Arming on time gives the timeout of the earliest deadline. -/
theorem armDue_timed
    (hahead : s.due.head? ≠ s.armedAt → ∀ first ∈ s.due.head?, time < first)
    (hkept : ∀ requested ∈ s.timer, time ≤ requested ∧
      ∃ armed ∈ s.armedAt, requested = armed + dueSlackMs) :
    ∀ requested ∈ (armDue s time).timer, time ≤ requested ∧
      ∃ armed ∈ s.due.head?, requested = armed + dueSlackMs := by
  intro requested hrequested
  unfold armDue at hrequested
  split at hrequested
  · rename_i hsame
    rw [hsame]
    exact hkept requested hrequested
  · rename_i hchanged
    simp only [Option.mem_def, Option.map_eq_some_iff] at hrequested
    obtain ⟨first, hfirst, rfl⟩ := hrequested
    have := hahead hchanged first hfirst
    refine ⟨by simp only [dueSlackMs]; omega, first, hfirst, ?_⟩
    simp only [dueSlackMs]
    omega

theorem Prompt.timed_onReady (hsound : Sound s) (h : Prompt s) {later : Int}
    (htime : s.clock ≤ time) (hsame : later = time)
    (hontime : ∀ requested ∈ s.timer, time ≤ requested)
    (hopen : (onReady horizon s payload time later).stopped = false) :
    ∀ requested ∈ (onReady horizon s payload time later).timer,
      later ≤ requested ∧
        ∃ armed ∈ (onReady horizon s payload time later).armedAt,
          requested = armed + dueSlackMs := by
  subst hsame
  have hkept : s.stopped = false → ∀ requested ∈ s.timer, later ≤ requested ∧
      ∃ armed ∈ s.armedAt, requested = armed + dueSlackMs :=
    fun hs requested hr => ⟨hontime requested hr, (h.timed hs requested hr).2⟩
  have hheard := onReady_heard horizon s payload later later
  generalize onReady horizon s payload later later = s' at hheard hopen ⊢
  cases hheard with
  | probe _ | far _ _ _ | merged _ _ _ _ _ _ _ => exact hkept hopen
  | now _ => simpa using hkept (by simpa using hopen)
  | kept deadline _ hahead =>
    simp only [armDue_stopped] at hopen
    rw [armDue_armedAt]
    refine armDue_timed ?_ (hkept hopen)
    intro hchanged first hfirst
    rcases inserted_head_cases hsound.sorted hfirst with hold | rfl
    · exact absurd (hfirst.trans (hold.symm.trans (hsound.armed hopen).symm))
        hchanged
    · exact hahead

theorem Prompt.step (hsound : Sound s) (hserved : AllServed s) (h : Prompt s)
    (hontime : OnTime s action) : Prompt (step horizon s action) where
  timed := by
    obtain ⟨hsame, hpending⟩ := hontime
    cases action with
    | announce payload first second =>
      intro hopen
      exact h.timed_onReady hsound (le_max_left _ _) hsame hpending hopen
    | fire first second =>
      simp only [QueueWakeup.step]
      split
      · intro _
        simp only [fireDue, armDue_armedAt]
        refine armDue_timed ?_ (by simp)
        intro _ first' hfirst'
        have hmem := List.mem_of_mem_head? hfirst'
        simp only [wake_due, List.mem_filter, decide_eq_true_eq] at hmem
        simp only [Action.later, Action.reading] at hsame
        rw [hsame]
        exact hmem.2
      · exact h.timed
    | listen first =>
      intro hopen requested hrequested
      simp only [QueueWakeup.step, wake_stopped, wake_timer, wake_armedAt]
        at hopen hrequested ⊢
      exact ⟨hpending requested hrequested,
        (h.timed hopen requested hrequested).2⟩
    | stop =>
      intro hstopped
      cases hstopped
  woken := by
    intro hopen deadline hnoted hwoken
    obtain ⟨more, hmore, hreading⟩ := step_wakes horizon s action
    have hbefore := step_open hopen
    obtain ⟨w, hw, hle⟩ := hwoken
    rw [hmore] at hw
    rcases step_noted hnoted with hold | hnew
    · rcases hserved hbefore deadline hold with hearlier | ⟨hsome, armed, ha, hle'⟩
      · exact (h.woken hbefore deadline hold hearlier).grow hmore
      · -- The first wake for the deadline is not later than the timeout.
        rcases List.mem_append.1 hw with hin | hin
        · exact (h.woken hbefore deadline hold ⟨w, hin, hle⟩).grow hmore
        · obtain ⟨requested, hrequested⟩ := Option.isSome_iff_exists.1 hsome
          obtain ⟨-, armed', ha', heq⟩ :=
            h.timed hbefore requested hrequested
          have hlimit := hontime.2 requested hrequested
          rw [Option.mem_unique ha' ha] at heq
          refine ⟨w, by rw [hmore]; exact List.mem_append_right _ hin, hle, ?_⟩
          rw [hreading w hin]
          omega
    · -- A deadline accepted now is ahead of every wake so far.
      have hlate : w.2 ≤ action.reading s := by
        rcases List.mem_append.1 hw with hin | hin
        · refine (hsound.past w hin).trans ?_
          cases action <;> first | exact le_max_left _ _ | exact le_refl _
        · exact (hreading w hin).le
      omega

theorem step_clock (horizon : Int) (s : State) (action : Action) :
    s.clock ≤ (step horizon s action).clock := by
  cases action with
  | announce payload first second =>
    exact (le_max_left _ _).trans (le_max_left _ _)
  | fire first second =>
    simp only [step]
    split
    · exact (le_max_left _ _).trans (le_max_left _ _)
    · exact le_refl _
  | listen first => exact le_max_left _ _
  | stop => exact le_refl _

/-- The action is a timeout that fires. -/
def Firing (s : State) (action : Action) : Prop :=
  ∃ first second, action = .fire first second ∧ Fires s first

/-- Once its deadline has passed, a timeout stays until it fires. -/
theorem step_waiting (h : Sound s) (hopen : (step horizon s action).stopped = false)
    (hquiet : ¬Firing s action) {armed : Int} (harmed : armed ∈ s.armedAt)
    (hpassed : armed ≤ s.clock) :
    (step horizon s action).timer = s.timer ∧
      (step horizon s action).armedAt = s.armedAt := by
  have hbefore := step_open hopen
  cases action with
  | announce payload first second =>
    simp only [step]
    have hheard := onReady_heard horizon s payload (s.reads first)
      (max (s.reads first) second)
    generalize onReady horizon s payload (s.reads first)
      (max (s.reads first) second) = s' at hheard ⊢
    cases hheard with
    | now _ => simp
    | probe _ | far _ _ _ | merged _ _ _ _ _ _ _ => exact ⟨rfl, rfl⟩
    | kept deadline _ hahead =>
      have hclock : s.clock ≤ s.reads first := le_max_left _ _
      have hhead := inserted_head deadline h.sorted
        ((h.armed hbefore).symm.trans harmed) (by omega)
      simp [armDue, hhead, Option.mem_def.1 harmed]
  | fire first second =>
    have hno : ¬Fires s first := fun hfires => hquiet ⟨first, second, rfl, hfires⟩
    simp [step, hno]
  | listen first => simp [step]
  | stop => simp [step] at hopen

/-- A timeout that fires wakes every deadline that has passed. -/
theorem step_fires (hopen : s.stopped = false) (hfiring : Firing s action)
    (hpassed : deadline ≤ s.clock) :
    Woken (step horizon s action) deadline := by
  obtain ⟨first, second, rfl, hfires⟩ := hfiring
  simp only [step, hfires, ↓reduceIte]
  exact fireDue_woken hopen (hpassed.trans (le_max_left _ _))

/-- In an endless run the clock passes every time, and no timeout stays pending
for ever. -/
structure Lasts (states : ℕ → State) (actions : ℕ → Action) : Prop where
  passes : ∀ time, ∃ n, time ≤ (states n).clock
  fires : ∀ n, (states n).timer.isSome = true → ∃ m ≥ n,
    Firing (states m) (actions m) ∨ (states m).timer ≠ (states n).timer

/-- In an endless run whose timeouts keep every deadline, each accepted one has
its wake, unless it is displaced or everything is stopped. -/
theorem endless_wakes {states : ℕ → State} {actions : ℕ → Action}
    (hnext : ∀ n, states (n + 1) = step horizon (states n) (actions n))
    (hsound : ∀ n, Sound (states n)) (hserved : ∀ n, AllServed (states n))
    (hlasts : Lasts states actions) (n : ℕ) (deadline : Int) :
    ∃ m ≥ n, (states m).stopped = true ∨ deadline ∉ (states m).noted ∨
      Woken (states m) deadline := by
  by_contra hnever
  simp only [not_exists, not_and, not_or, not_not, Bool.not_eq_true] at hnever
  have hclock : ∀ k m, k ≤ m → (states k).clock ≤ (states m).clock := by
    intro k m hle
    induction hle with
    | refl => exact le_refl _
    | step _ ih => exact ih.trans (by rw [hnext]; exact step_clock _ _ _)
  obtain ⟨k, hk⟩ := hlasts.passes (deadline + dueMergeMs)
  have hstart : deadline + dueMergeMs ≤ (states (max n k)).clock :=
    hk.trans (hclock _ _ (le_max_right _ _))
  obtain ⟨hopen, hnoted, hasleep⟩ := hnever (max n k) (le_max_left _ _)
  obtain ⟨hsome, armed, harmed, hle⟩ :=
    (hserved _ hopen deadline hnoted).resolve_left hasleep
  -- No timeout fires from here on, so the pending one is never replaced.
  have hquiet : ∀ m ≥ max n k, ¬Firing (states m) (actions m) := by
    intro m hm hfiring
    obtain ⟨hopen', -, -⟩ := hnever m ((le_max_left _ _).trans hm)
    have hlate := hclock _ _ hm
    refine (hnever (m + 1) (by omega)).2.2 ?_
    rw [hnext]
    refine step_fires hopen' hfiring ?_
    simp only [dueMergeMs] at hstart
    omega
  have hsame : ∀ m ≥ max n k, (states m).timer = (states (max n k)).timer ∧
      (states m).armedAt = (states (max n k)).armedAt := by
    intro m hm
    induction m, hm using Nat.le_induction with
    | base => exact ⟨rfl, rfl⟩
    | succ m hm ih =>
      have hopen' := (hnever (m + 1) (by omega)).1
      rw [hnext] at hopen' ⊢
      have hlate := hclock _ _ hm
      have hstill : armed ∈ (states m).armedAt := by
        rw [ih.2]
        exact harmed
      obtain ⟨htimer, harmed'⟩ := step_waiting (hsound m) hopen' (hquiet m hm)
        hstill (by omega)
      exact ⟨htimer.trans ih.1, harmed'.trans ih.2⟩
  obtain ⟨m, hm, hfiring | hchanged⟩ := hlasts.fires _ hsome
  · exact hquiet m hm hfiring
  · exact hchanged (hsame m hm).1

end Allrice.QueueWakeup

namespace Allrice.CoalescedTick

variable {s : Ticks} {action : Action}

/-- The only call whose `finally` is to come is the one of the task. -/
structure Single (s : Ticks) : Prop where
  open_iff : ∀ call, (∃ phase ∈ s.calls[call]?, phase ≠ .finished) ↔
    s.task = some call

theorem initial_single : Single Ticks.initial where
  open_iff := by simp [Ticks.initial]

theorem Single.tick (h : Single s) (canRun : Bool) : Single (tick s canRun).1 := by
  unfold CoalescedTick.tick
  split
  · exact h
  · split
    · exact h
    · rename_i hnone _
      have hfree : s.task = none := by simpa using hnone
      constructor
      intro call
      simp only
      rcases lt_trichotomy call s.calls.length with hlt | rfl | hgt
      · rw [List.getElem?_append_left hlt, h.open_iff call, hfree]
        simp only [reduceCtorEq, Option.some.injEq, false_iff]
        omega
      · simp
      · rw [List.getElem?_eq_none (by simp; omega)]
        simp only [Option.not_mem_none, false_and, exists_false,
          Option.some.injEq, false_iff]
        omega

theorem Single.again (h : Single s) (again : Bool) :
    Single { s with again := again } := ⟨h.open_iff⟩

/-- With its `finally` a call leaves none open. -/
theorem Single.finished (h : Single s) {call : ℕ}
    (hsettled : s.calls[call]? = some .settled) :
    Single { s with calls := s.calls.set call .finished, task := none } := by
  have htask : s.task = some call := (h.open_iff call).1 ⟨_, hsettled, nofun⟩
  constructor
  intro other
  simp only [reduceCtorEq, iff_false]
  rintro ⟨phase, hphase, hopen⟩
  by_cases hsame : call = other
  · subst hsame
    rw [List.getElem?_set_self (List.getElem?_eq_some_iff.1 hsettled).1]
      at hphase
    exact hopen (Option.some.inj hphase).symm
  · rw [List.getElem?_set_ne hsame] at hphase
    have hother := (h.open_iff other).1 ⟨phase, hphase, hopen⟩
    exact hsame (Option.some.inj (htask.symm.trans hother))

theorem Single.step (h : Single s) (action : Action) :
    Single (step s action).1 := by
  cases action with
  | tick canRun => exact h.tick canRun
  | request canRun =>
    simp only [CoalescedTick.step, request]
    split
    · exact h.again true
    · exact h.tick canRun
  | settle call =>
    simp only [CoalescedTick.step]
    split
    · rename_i hrunning
      constructor
      intro other
      rw [← h.open_iff other]
      simp only
      by_cases hsame : call = other
      · subst hsame
        rw [List.getElem?_set_self (List.getElem?_eq_some_iff.1 hrunning).1,
          hrunning]
        simp
      · rw [List.getElem?_set_ne hsame]
    · exact h
  | finish call canRun =>
    simp only [CoalescedTick.step, finish]
    split
    · rename_i hsettled
      split
      · exact ((h.finished hsettled).again false).tick canRun
      · exact h.finished hsettled
    · exact h

/-- At most one call runs. -/
def OneRuns (s : Ticks) : Prop :=
  ∀ first second : ℕ, s.calls[first]? = some Phase.running →
    s.calls[second]? = some Phase.running → first = second

theorem Single.oneRuns (h : Single s) : OneRuns s := by
  intro first second hfirst hsecond
  have h₁ := (h.open_iff first).1 ⟨_, hfirst, nofun⟩
  have h₂ := (h.open_iff second).1 ⟨_, hsecond, nofun⟩
  exact Option.some.inj (h₁.symm.trans h₂)

/-- A request is answered: a call was started since, `canRun` refused one, or
the call that is open will be followed by another one. -/
def Answered (before : ℕ) (answers : List (Action × Asked)) (s : Ticks) : Prop :=
  before < s.calls.length ∨ (∃ answer ∈ answers, answer.2 = some false) ∨
    s.again = true ∧ s.task.isSome = true

/-- A tick that starts nothing was refused, or another call is open. -/
theorem tick_answers (s : Ticks) (canRun : Bool) :
    s.calls.length < (tick s canRun).1.calls.length ∨
      (tick s canRun).2 = some false ∨
      s.task.isSome = true ∧ (tick s canRun).1 = s := by
  unfold tick
  split
  · rename_i hopen
    exact .inr (.inr ⟨hopen, rfl⟩)
  · split
    · exact .inr (.inl rfl)
    · exact .inl (by simp)

theorem request_answered (s : Ticks) (canRun : Bool) :
    Answered s.calls.length [(.request canRun, (request s canRun).2)]
      (request s canRun).1 := by
  unfold request
  split
  · rename_i hopen
    exact .inr (.inr ⟨rfl, hopen⟩)
  · rename_i hfree
    rcases tick_answers s canRun with hstart | hrefused | ⟨hopen, -⟩
    · exact .inl hstart
    · exact .inr (.inl ⟨_, List.mem_singleton_self _, hrefused⟩)
    · exact absurd hopen hfree

theorem tick_calls (s : Ticks) (canRun : Bool) :
    s.calls.length ≤ (tick s canRun).1.calls.length := by
  unfold tick
  split
  · exact le_refl _
  · split
    · exact le_refl _
    · simp

theorem calls_grow (s : Ticks) (action : Action) :
    s.calls.length ≤ (step s action).1.calls.length := by
  cases action with
  | tick canRun => exact tick_calls s canRun
  | request canRun =>
    simp only [step, request]
    split
    · exact le_refl _
    · exact tick_calls s canRun
  | settle call =>
    simp only [step]
    split <;> simp
  | finish call canRun =>
    simp only [step, finish]
    split
    · split
      · refine le_trans ?_ (tick_calls _ canRun)
        simp
      · simp
    · exact le_refl _

/-- What answers a request keeps answering it. -/
theorem Answered.step {before : ℕ} {answers : List (Action × Asked)}
    (h : Answered before answers s) (hbefore : before ≤ s.calls.length)
    (action : Action) : Answered before (answers ++ [(action, (step s action).2)])
      (step s action).1 := by
  rcases h with hstart | ⟨answer, hmem, hrefused⟩ | ⟨hagain, hopen⟩
  · exact .inl (hstart.trans_le (calls_grow s action))
  · exact .inr (.inl ⟨answer, List.mem_append_left _ hmem, hrefused⟩)
  · cases action with
    | tick canRun =>
      exact .inr (.inr (by simp [CoalescedTick.step, tick, hagain, hopen]))
    | request canRun =>
      exact .inr (.inr (by simp [CoalescedTick.step, request, hopen]))
    | settle call =>
      refine .inr (.inr ?_)
      simp only [CoalescedTick.step]
      split <;> exact ⟨hagain, hopen⟩
    | finish call canRun =>
      -- The open call ends, and `finally` asks for the next one.
      simp only [CoalescedTick.step, finish]
      split
      · rcases tick_answers
            { s with
              calls := s.calls.set call .finished
              task := none
              again := false } canRun with
          hstart | hrefused | ⟨hother, -⟩
        · refine .inl (hbefore.trans_lt ?_)
          simpa using hstart
        · exact .inr (.inl ⟨_, List.mem_append_right _
            (List.mem_singleton_self _), hrefused⟩)
        · simp at hother
      · exact .inr (.inr ⟨hagain, hopen⟩)

/-- After every run, a request made on the way is answered. -/
theorem request_served (canRun : Bool) (rest : List Action) (s : Ticks) :
    Answered s.calls.length (ticks.events s (.request canRun :: rest))
      (ticks.after s (.request canRun :: rest)) := by
  have hrun : ∀ {before answers} {s : Ticks}, Answered before answers s →
      before ≤ s.calls.length →
      Answered before (answers ++ ticks.events s rest) (ticks.after s rest) := by
    induction rest with
    | nil => intro _ _ _ h _; simpa using h
    | cons action rest ih =>
      intro before answers s h hbefore
      have hnext := ih (h.step hbefore action)
        (hbefore.trans (calls_grow s action))
      rw [List.append_assoc] at hnext
      exact hnext
  exact hrun (request_answered s canRun) (calls_grow s (.request canRun))

end Allrice.CoalescedTick

namespace Allrice.QueueWakeup

variable {horizon : Int}

theorem initial_served (start : Int) : AllServed (State.initial start) :=
  fun _ => nofun

/-- Runs whose timeouts keep every deadline serve every deadline. -/
theorem served_of_keeps {start : Int} {actions : List Action}
    (h : (wakeups horizon).AllSteps Keeps (State.initial start) actions) :
    AllServed ((wakeups horizon).after (State.initial start) actions) :=
  (h.after_invariant (I := fun s => Sound s ∧ AllServed s)
    (fun _ action hs hkeeps =>
      ⟨hs.1.step horizon action, hs.2.step hs.1 hkeeps⟩)
    ⟨initial_sound start, initial_served start⟩).2

theorem keeps_of_prefixes {s : State} (hs : Sound s) {actions : List Action}
    (h : ∀ before, before <+: actions →
      AllServed ((wakeups horizon).after s before)) :
    (wakeups horizon).AllSteps Keeps s actions := by
  induction actions generalizing s with
  | nil => trivial
  | cons action rest ih =>
    have hserved : AllServed (step horizon s action) := h [action] (by simp)
    refine ⟨keeps_of_served hs hserved, ?_⟩
    refine ih (hs.step horizon action) fun before hbefore => ?_
    exact h (action :: before) ((List.cons_prefix_cons).2 ⟨rfl, hbefore⟩)

variable {s : State}

/-- On time, a deadline waits for its wake no longer than the merge window and
the slack. -/
theorem prompt_wakes (hserved : AllServed s) (h : Prompt s)
    (hopen : s.stopped = false) {deadline : Int} (hnoted : deadline ∈ s.noted) :
    WokenInTime s deadline ∨
      s.clock ≤ deadline + dueMergeMs + dueSlackMs := by
  rcases hserved hopen deadline hnoted with hwoken | ⟨hsome, armed, harmed, hle⟩
  · exact .inl (h.woken hopen deadline hnoted hwoken)
  · obtain ⟨requested, hrequested⟩ := Option.isSome_iff_exists.1 hsome
    obtain ⟨hclock, armed', harmed', rfl⟩ := h.timed hopen requested hrequested
    rw [Option.mem_unique harmed' harmed] at hclock
    exact .inr (by omega)

/-- An announcement of a job that is ready wakes. -/
theorem ready_wakes (hopen : s.stopped = false) {announced : Option Int}
    {first second : Int}
    (hready : ∀ deadline ∈ announced, deadline ≤ s.reads first) :
    (step horizon s (.announce (.ready announced) first second)).wakes =
      s.wakes ++ [(QueueWakeReason.notify, s.reads first)] := by
  cases announced with
  | none => exact wake_wakes hopen _ _
  | some deadline =>
    have hle := hready deadline rfl
    have hnow : deadline - s.reads first ≤ 0 := by omega
    simp only [step, onReady, hnow, ↓reduceIte]
    exact wake_wakes hopen _ _

/-- Deadlines keep being served in a run exactly if every timeout that fires
leaves those still ahead another one of their merge window; then each has its
wake, on time if the timeouts are.  Announcements of jobs that are ready wake at
once, and requests of ticks are answered by one tick at a time. -/
theorem wakeups_not_lost (horizon start : Int) :
    (∀ actions,
      (∀ before, before <+: actions →
        AllServed ((wakeups horizon).after (State.initial start) before)) ↔
      (wakeups horizon).AllSteps Keeps (State.initial start) actions) ∧
    (∀ actions,
      (wakeups horizon).AllSteps (fun s a => Keeps s a ∧ OnTime s a)
        (State.initial start) actions →
      let s := (wakeups horizon).after (State.initial start) actions
      s.stopped = false → ∀ deadline ∈ s.noted,
        WokenInTime s deadline ∨
          s.clock ≤ deadline + dueMergeMs + dueSlackMs) ∧
    (∀ actions : ℕ → Action,
      let states := (wakeups horizon).along (State.initial start) actions
      (∀ n, Keeps (states n) (actions n)) → Lasts states actions →
      ∀ n, ∀ deadline ∈ (states n).noted, ∃ m ≥ n,
        (states m).stopped = true ∨ deadline ∉ (states m).noted ∨
          Woken (states m) deadline) ∧
    (∀ actions announced first second,
      let s := (wakeups horizon).after (State.initial start) actions
      s.stopped = false →
      (∀ deadline ∈ announced, deadline ≤ s.reads first) →
      (step horizon s (.announce (.ready announced) first second)).wakes =
        s.wakes ++ [(QueueWakeReason.notify, s.reads first)]) ∧
    ∀ actions,
      let s := CoalescedTick.ticks.after .initial actions
      CoalescedTick.OneRuns s ∧
        ∀ canRun rest, CoalescedTick.Answered s.calls.length
          (CoalescedTick.ticks.events s (.request canRun :: rest))
          (CoalescedTick.ticks.after s (.request canRun :: rest)) := by
  refine ⟨fun actions => ⟨keeps_of_prefixes (initial_sound start), ?_⟩,
    fun actions honTime => ?_, fun actions => ?_, ?_, fun actions => ⟨?_, ?_⟩⟩
  · rintro hkeeps before ⟨rest, rfl⟩
    exact served_of_keeps hkeeps.append.1
  · have hkept := honTime.after_invariant
      (I := fun s => Sound s ∧ AllServed s ∧ Prompt s)
      (fun s action hs hmeets => ⟨hs.1.step horizon action,
        hs.2.1.step hs.1 hmeets.1, hs.2.2.step hs.1 hs.2.1 hmeets.2⟩)
      ⟨initial_sound start, initial_served start, initial_prompt start⟩
    exact fun hopen deadline hnoted =>
      prompt_wakes hkept.2.1 hkept.2.2 hopen hnoted
  · intro states hkeeps hlasts n deadline _
    have hkept := Machine.along_invariant (m := wakeups horizon)
      (I := fun s => Sound s ∧ AllServed s)
      (fun s action hs hmeets =>
        ⟨hs.1.step horizon action, hs.2.step hs.1 hmeets⟩)
      ⟨initial_sound start, initial_served start⟩ hkeeps
    have hnext : ∀ n, states (n + 1) = step horizon (states n) (actions n) :=
      fun n => rfl
    exact endless_wakes hnext (fun n => (hkept n).1) (fun n => (hkept n).2) hlasts n deadline
  · exact fun actions announced first second hopen hready =>
      ready_wakes hopen hready
  · exact (Machine.after_invariant CoalescedTick.Single
      (fun _ action h => h.step action) CoalescedTick.initial_single
      actions).oneRuns
  · exact fun canRun rest => CoalescedTick.request_served canRun rest _

namespace QueueWakeupWitness

/-- The timeout for the first deadline fires when its time has come, and takes
the second one, which the third was merged into. -/
def actions : List Action :=
  [.announce (.ready (some 80)) 0 0, .announce (.ready (some 100)) 0 0,
    .announce (.ready (some 109)) 0 0, .fire 105 105]

theorem merged_deadline_is_lost :
    let s := (wakeups 300000).after (State.initial 0) actions
    109 ∈ s.noted ∧ s.stopped = false ∧ s.timer = none ∧ s.due = [] ∧
      s.wakes = [(.due, 105)] := by
  decide

end QueueWakeupWitness

end Allrice.QueueWakeup
