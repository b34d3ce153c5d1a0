/-
The slots of a running attempt stay its own.  Between the check of a
placeholder and the end of the container that it was checked for, no
justified request deletes the placeholder; only a fence that was made for
another placeholder lets a reclaimer do so.
-/
import Allrice.SandboxEvidence

namespace Allrice.SandboxSlots

open ContainerDaemon

variable {sizes : Sizes} {s : State} {d d' : Daemon} {o owner : Attempt}
  {c f q : ContainerId} {sender : Sender} {request : Request} {reply : Reply}
  {query : Query} {input : Input}

/-- The container of the attempt is there and has not ended. -/
def Live (d : Daemon) (o : Attempt) : Prop :=
  ∃ x ∈ d.containers, x.labels = .attempt o ∧ x.status ≠ .exited

/-- By the fence of one placeholder, no other placeholder of the owner is
deleted while the owner's container is there and has not ended. -/
def Apart (sizes : Sizes) (s : State) (action : Action) : Prop :=
  ∀ existing owner fence reservation request, served sizes s action =
    some (.reclaimer (.evicting existing owner (some (fence, reservation))),
      request) → existing.id ≠ reservation → ¬Live s.daemon owner

instance : Decidable (Live d o) :=
  inferInstanceAs (Decidable (∃ x ∈ d.containers, _))

/-- `Apart` as a check of the one request. -/
def apartRequest (d : Daemon) : Option (Sender × Request) → Bool
  | some (.reclaimer (.evicting existing owner (some (_, reservation))), _) =>
    existing.id == reservation || !decide (Live d owner)
  | _ => true

theorem apartRequest_iff (sizes : Sizes) (s : State) (action : Action) :
    apartRequest s.daemon (served sizes s action) = true ↔
      Apart sizes s action := by
  unfold Apart apartRequest
  split
  · rename_i existing owner fence reservation request hserved
    simp only [hserved, Bool.or_eq_true, beq_iff_eq, Bool.not_eq_true',
      decide_eq_false_iff_not, Option.some.injEq, Prod.mk.injEq,
      Sender.reclaimer.injEq, Reclaim.evicting.injEq]
    constructor
    · rintro hor _ _ _ _ _ ⟨⟨rfl, rfl, rfl, rfl⟩, rfl⟩ hne
      exact hor.resolve_left hne
    · intro hall
      by_cases hsame : existing.id = reservation
      · exact .inl hsame
      · exact .inr (hall existing owner fence reservation request
          ⟨⟨rfl, rfl, rfl, rfl⟩, rfl⟩ hsame)
  · rename_i hother
    refine iff_of_true rfl fun existing owner fence reservation request h => ?_
    exact absurd h (hother _ _ _ _ _)

instance (sizes : Sizes) (s : State) (action : Action) :
    Decidable (Apart sizes s action) :=
  decidable_of_iff _ (apartRequest_iff sizes s action)

/-- The execution has found this placeholder in place, and its container is yet
to be started. -/
def Execution.checked (state : Execution) (held : List Held) (c : ContainerId)
    (h : Held) : Prop :=
  state = .starting held c ∨ ∃ rest, state = .checking held c rest ∧ h ∉ rest

/-- The placeholder was found in place before the container is started. -/
def Checked (s : State) (o : Attempt) (held : List Held) (c : ContainerId)
    (h : Held) : Prop :=
  c ∈ s.daemon.started ∨ (Sender.execution o, Request.start c) ∈ s.orphans ∨
    (s.executions o).checked held c h

/-- The checked placeholders of containers that have not ended are there. -/
def Kept (s : State) : Prop :=
  ∀ o held x, s.admissions o = some held → x ∈ s.daemon.containers →
    Born s.daemon o x.id → x.status ≠ .exited → ∀ h ∈ held,
      Checked s o held x.id h → s.daemon.Present h.id

variable {held : List Held} {h : Held} {state : Execution} {action : Action}

theorem Execution.checked.early (hchecked : state.checked held c h) :
    ¬Late state := by
  rcases hchecked with rfl | ⟨rest, rfl, -⟩ <;> nofun

theorem ExecutionOk.ready (hok : ExecutionOk sizes s o state)
    (hchecked : state.checked held c h) : Ready s o held c := by
  rcases hchecked with rfl | ⟨rest, rfl, -⟩ <;> exact hok

/-- Only the fence of another placeholder takes a checked one away. -/
theorem Sent.spares_checked (hinv : Inv sizes s) {x : Container}
    (hsent : Sent sizes s sender (.delete h.id))
    (hadmission : s.admissions o = some held) (hmem : h ∈ held)
    (hx : x ∈ s.daemon.containers) (hborn : Born s.daemon o x.id)
    (hlive : x.status ≠ .exited) (hchecked : Checked s o held x.id h)
    (hpresent : s.daemon.Present h.id) :
    ∃ existing fence reservation, sender =
      .reclaimer (.evicting existing o (some (fence, reservation))) ∧
        existing.id ≠ reservation := by
  have hslot := (hinv.admission hadmission).1.isSlot hmem
  have hconsistent := hinv.sane.consistent
  have hfinished : ¬Finished s.daemon o := by
    rintro ⟨c, hborn', hended⟩
    rw [hinv.sane.one o c x.id hborn' hborn] at hended
    exact hlive (hended.2 x hx rfl)
  -- A fence of the owner has the name of the owner's container.
  have hfence : ∀ q f, IsFence s.daemon o q f → ¬s.daemon.Present f := by
    rintro q f hfence ⟨y, hy, rfl⟩
    have hname := (hconsistent.of_made hy hfence).1
    have hsame := hconsistent.eq_of_name hy hx
      (hname.trans (hconsistent.of_made hx hborn).1.symm)
    rw [hsame] at hfence
    exact hborn.not_fence hfence
  generalize hid : h.id = id at hsent hpresent hslot
  cases hsent with
  | @release o' _ hslot' hspent =>
    cases hslot.owner_eq hslot'
    rcases hspent with hnone | ⟨hquiet, hlate⟩
    · rw [hnone] at hadmission
      cases hadmission
    · rcases hquiet _ hborn with hended | ⟨hnone, hfresh⟩
      · exact absurd (hended.2 x hx rfl) hlive
      · rcases hchecked with hstarted | horphan | hchecked
        · exact absurd hstarted hfresh
        · exact absurd horphan hnone
        · exact absurd hlate hchecked.early
  | @stage stage _ hstage hcall =>
    cases stage with
    | inspecting _ _ | fencing _ _ | reading _ _ _ _ => cases hcall
    | withdrawing existing owner fence reservation =>
      cases hcall
      obtain ⟨-, hisFence, hslot', hfenced⟩ := hstage
      cases hslot.owner_eq hslot'
      exact absurd (hfenced hpresent) (hfence _ _ hisFence)
    | removing existing owner abandoned =>
      cases hcall
      exact absurd hstage.2 hslot.not_born
    | evicting existing owner fenced =>
      cases hcall
      cases hslot.owner_eq (show IsSlot s.daemon owner existing.id by
        cases fenced <;> exact hstage.1)
      cases fenced with
      | none => exact absurd hstage.2 hfinished
      | some pair =>
        refine ⟨existing, pair.1, pair.2, rfl, ?_⟩
        intro hsame
        rw [hsame] at hpresent
        exact hstage.2.2.2 hpresent
    | unfencing existing owner fence reservation =>
      cases hcall
      exact absurd hstage.1 hslot.not_fence
  | @withdraw o' f _ hisFence hslot' hfenced =>
    cases hslot.owner_eq hslot'
    exact absurd (hfenced hpresent) (hfence _ _ hisFence)
  | sweep hslot' hfinished' =>
    cases hslot.owner_eq hslot'
    exact absurd hfinished' hfinished
  | unfence hisFence _ => exact absurd hisFence hslot.not_fence
  | remove hborn' => exact absurd hborn' hslot.not_born

/-- A served request leaves the checked placeholders. -/
theorem Kept.serve (hinv : Inv sizes s) (hsent : Sent sizes s sender request)
    (hkept : Kept s)
    (hapart : ∀ existing owner fence reservation, sender =
      .reclaimer (.evicting existing owner (some (fence, reservation))) →
        existing.id ≠ reservation → ¬Live s.daemon owner)
    (hstart : ∀ o c, request = .start c → Born s.daemon o c →
      (Sender.execution o, Request.start c) ∈ s.orphans ∨
        ∃ held, s.executions o = .starting held c) :
    Kept (s.serve sender request).1 := by
  have hserved := Daemon.serve_served s.daemon request
  intro o held x' hadmission hx' hborn' hlive' h hmem hchecked'
  rcases born_served hsent hborn' with hborn | ⟨-, -, hfresh⟩
  · obtain ⟨x, hx, hid, -, -, hstatus⟩ := hserved.old hx' hborn.lt
    rw [← hid] at hborn hchecked'
    have hlive : x.status ≠ .exited := by
      rcases hstatus with hsame | ⟨-, rfl⟩
      · rwa [← hsame]
      · obtain ⟨o', -, -, hunstarted, -⟩ := hsent.born
        rw [(hinv.sane.consistent.started x hx).2 hunstarted]
        nofun
    have hchecked : Checked s o held x.id h := by
      rcases hchecked' with hstarted | hrest
      · rcases started_served hsent hborn hstarted with
          hbefore | ⟨-, hrequest, -⟩
        · exact .inl hbefore
        · rcases hstart o x.id hrequest hborn with horphan | ⟨held', hstate⟩
          · exact .inr (.inl horphan)
          · have hready := hinv.executions o
            rw [hstate] at hready
            cases hadmission.symm.trans hready.1
            exact .inr (.inr (.inl hstate))
      · exact .inr hrest
    have hpresent := hkept o held x hadmission hx hborn hlive h hmem hchecked
    obtain ⟨p, hp, hpid⟩ := hpresent
    by_cases hdelete : request = .delete p.id
    · rw [hdelete, hpid] at hsent
      obtain ⟨existing, fence, reservation, hsender, hother⟩ :=
        hsent.spares_checked hinv hadmission hmem hx hborn hlive hchecked
          ⟨p, hp, hpid⟩
      refine absurd ?_ (hapart existing o fence reservation hsender hother)
      exact ⟨x, hx, (hinv.sane.consistent.of_made hx hborn).2, hlive⟩
    · obtain ⟨p', hp', hpid', -⟩ := hserved.kept hp hdelete
      exact ⟨p', hp', hpid'.trans hpid⟩
  · -- The container was just made: nothing knows of it.
    rw [hfresh] at hchecked'
    have hunknown : ∀ o, ¬Born s.daemon o s.daemon.made.length :=
      fun o hborn => lt_irrefl _ hborn.lt
    rcases hchecked' with hstarted | horphan | hchecked
    · rcases hserved.started_cases hstarted with hbefore | ⟨rfl, -⟩
      · exact absurd (hinv.sane.consistent.startedMade _ hbefore)
          (lt_irrefl _)
      · obtain ⟨o', -, hborn, -⟩ := hsent.born
        exact absurd hborn (hunknown o')
    · obtain ⟨o', -, hborn, -⟩ := (hinv.orphans horphan).born
      exact absurd hborn (hunknown o')
    · exact absurd ((hinv.executions o).ready hchecked).2.2.1 (hunknown o)

/-- Processes that move on check what they find. -/
theorem Kept.moves {s' : State} (hkept : Kept s)
    (hdaemon : s'.daemon = s.daemon)
    (hchecked : ∀ o held c h, s'.admissions o = some held → h ∈ held →
      Born s.daemon o c → Checked s' o held c h →
        s.admissions o = some held ∧
          (Checked s o held c h ∨ s.daemon.Present h.id)) :
    Kept s' := by
  intro o held x hadmission hx hborn hlive h hmem hnow
  rw [hdaemon] at hx hborn ⊢
  obtain ⟨hbefore, hcase⟩ := hchecked o held x.id h hadmission hmem hborn hnow
  rcases hcase with hthen | hpresent
  · exact hkept o held x hbefore hx hborn hlive h hmem hthen
  · exact hpresent

/-- Only the last stage before the start sends the start. -/
theorem start_call
    (hcall : state.call sizes o input = some (.send sender (.start c))) :
    sender = .execution o ∧ ∃ held, state = .starting held c := by
  cases state with
  | starting held container =>
    simp only [Execution.call] at hcall
    split at hcall
    · cases hcall
      exact ⟨rfl, held, rfl⟩
    · cases hcall
  | admitted _ =>
    simp only [Execution.call] at hcall
    split at hcall <;> cases hcall
  | reclaiming _ _ stage =>
    have hrequest := (stage_request (Option.some.inj hcall)).2 0
    exact absurd (.inr ⟨c, rfl⟩) hrequest
  | releasing held _ => cases held <;> cases hcall
  | checking _ _ rest => cases rest <;> cases hcall
  | idle | looping | claiming _ _ | reading _ _ | created _ _ | started _
  | finishing _ | ended => cases hcall

/-- One of the last two states before the start. -/
def Execution.isLate : Execution → Bool
  | .starting _ _ => true
  | .checking _ _ _ => true
  | _ => false

/-- A state other than the last two before the start has checked nothing. -/
theorem not_checked (hearly : state.isLate = false) :
    ¬state.checked held c h := by
  rintro (hsame | ⟨rest, hsame, -⟩)
  · rw [hsame] at hearly
    cases hearly
  · rw [hsame] at hearly
    cases hearly

theorem nextSlot_unchecked {slot : Nat} {held' : List Held} :
    ¬(nextSlot sizes slot held).checked held' c h := by
  unfold nextSlot
  split <;> exact not_checked rfl

theorem uncertain_unchecked {held' : List Held} :
    ¬(uncertain input held).checked held' c h := by
  unfold uncertain
  split <;> exact not_checked rfl

theorem proceed_checked (hmem : h ∈ held)
    (hchecked : (state.proceed sizes o input).checked held c h) :
    state.checked held c h := by
  cases state with
  | looping =>
    simp only [Execution.proceed] at hchecked
    split at hchecked
    · split at hchecked
      · exact absurd hchecked (not_checked rfl)
      · exact absurd hchecked (not_checked rfl)
    · exact absurd hchecked (not_checked rfl)
  | releasing rest afterwards =>
    cases rest with
    | nil =>
      cases afterwards <;>
        exact absurd hchecked (not_checked rfl)
    | cons _ _ => exact hchecked
  | created held' container =>
    simp only [Execution.proceed] at hchecked
    split at hchecked
    · rcases hchecked with hsame | ⟨rest, hsame, hnot⟩
      · cases hsame
      · cases hsame
        exact absurd hmem hnot
    · exact absurd hchecked (not_checked rfl)
  | checking held' container rest =>
    cases rest with
    | nil =>
      simp only [Execution.proceed] at hchecked
      split at hchecked
      · rcases hchecked with hsame | ⟨rest, hsame, hnot⟩
        · cases hsame
          exact .inr ⟨[], rfl, List.not_mem_nil⟩
        · cases hsame
      · exact absurd hchecked (not_checked rfl)
    | cons _ _ => exact hchecked
  | admitted _ | starting _ _ | started _ =>
    exact absurd hchecked (not_checked rfl)
  | idle | claiming _ _ | reading _ _ | reclaiming _ _ _ | finishing _
  | ended => exact hchecked

/-- What a question newly checks is there. -/
theorem ask_checked (hcall : state.call sizes o input = some (.ask query))
    (hchecked :
      (state.resume sizes o input (d.answer query)).checked held c h) :
    state.checked held c h ∨ d.Present h.id := by
  cases state with
  | checking held' container rest =>
    cases rest with
    | nil => cases hcall
    | cons first rest =>
      cases hcall
      cases hanswer : d.answer (.name (.slot first.slot)) with
      | found x =>
        rw [hanswer] at hchecked
        simp only [Execution.resume] at hchecked
        split at hchecked
        · rename_i hid
          rcases hchecked with hsame | ⟨rest', hsame, hnot⟩
          · cases hsame
          · cases hsame
            by_cases hfirst : h = first
            · rw [hfirst]
              exact .inr ⟨x, (answer_name_found hanswer).1, hid⟩
            · refine .inl (.inr ⟨_, rfl, ?_⟩)
              rw [List.mem_cons, not_or]
              exact ⟨hfirst, hnot⟩
        · exact absurd hchecked (not_checked rfl)
      | missing | created _ | ids _ | done | conflict =>
        rw [hanswer] at hchecked
        exact absurd hchecked (not_checked rfl)
  | reading slot held' =>
    simp only [Execution.resume] at hchecked
    split at hchecked
    · exact absurd hchecked nextSlot_unchecked
    · split at hchecked
      · split at hchecked
        · exact absurd hchecked (not_checked rfl)
        · exact absurd hchecked nextSlot_unchecked
      · exact absurd hchecked nextSlot_unchecked
    · exact absurd hchecked (not_checked rfl)
  | reclaiming slot held' stage =>
    simp only [Execution.resume] at hchecked
    split at hchecked
    · exact absurd hchecked (not_checked rfl)
    · exact absurd hchecked nextSlot_unchecked
    · exact absurd hchecked (not_checked rfl)
  | finishing held' =>
    simp only [Execution.resume] at hchecked
    split at hchecked
    · exact absurd hchecked (not_checked rfl)
    · split at hchecked <;> exact absurd hchecked (not_checked rfl)
    · exact absurd hchecked (not_checked rfl)
  | idle | looping | claiming _ _ => cases hcall
  | releasing rest _ => cases rest <;> cases hcall
  | admitted _ =>
    simp only [Execution.call] at hcall
    split at hcall <;> cases hcall
  | created _ _ => cases hcall
  | starting _ _ =>
    simp only [Execution.call] at hcall
    split at hcall <;> cases hcall
  | started _ | ended => cases hcall

theorem send_unchecked
    (hcall : state.call sizes o input = some (.send sender request)) :
    ¬(state.resume sizes o input reply).checked held c h := by
  cases state with
  | claiming slot held' =>
    simp only [Execution.resume]
    split
    · split
      · exact nextSlot_unchecked
      · exact not_checked rfl
    · exact not_checked rfl
    · exact not_checked rfl
  | reclaiming slot held' stage =>
    simp only [Execution.resume]
    split
    · exact not_checked rfl
    · exact nextSlot_unchecked
    · exact not_checked rfl
  | releasing rest afterwards =>
    cases rest with
    | nil => cases hcall
    | cons _ _ =>
      simp only [Execution.resume]
      split <;> exact not_checked rfl
  | admitted held' =>
    simp only [Execution.resume]
    split
    · exact not_checked rfl
    · exact uncertain_unchecked
  | starting held' container =>
    simp only [Execution.resume]
    split <;> exact not_checked rfl
  | idle | looping | reading _ _ | created _ _ => cases hcall
  | checking _ _ rest => cases rest <;> cases hcall
  | started _ | finishing _ | ended => cases hcall

theorem lose_unchecked : ¬(state.lose input).checked held c h := by
  cases state with
  | admitted _ => exact uncertain_unchecked
  | releasing rest _ => cases rest <;> exact not_checked rfl
  | idle | looping | claiming _ _ | reading _ _ | reclaiming _ _ _
  | created _ _ | checking _ _ _ | starting _ _ | started _ | finishing _
  | ended => exact not_checked rfl

theorem Kept.moveTo (hkept : Kept s)
    (hborn : ∀ c, Born s.daemon o c → s.admissions o ≠ none)
    {next : Execution}
    (hnext : ∀ held, next = .admitted held → s.admissions o = none)
    (hchecked : ∀ held c h, h ∈ held → next.checked held c h →
      (s.executions o).checked held c h ∨ s.daemon.Present h.id) :
    Kept (s.moveTo o next) := by
  refine hkept.moves rfl ?_
  intro other held c h hadmission hmem hborn' hnow
  have hsame : s.admissions other = some held := by
    by_cases hplain : ∀ held, next ≠ .admitted held
    · rwa [moveTo_admissions hplain] at hadmission
    · simp only [ne_eq, not_forall, not_not] at hplain
      obtain ⟨held', rfl⟩ := hplain
      have hne : other ≠ o := by
        rintro rfl
        exact hborn c hborn' (hnext held' rfl)
      rwa [show (s.moveTo o (.admitted held')).admissions other =
        s.admissions other from Function.update_of_ne hne ..] at hadmission
  refine ⟨hsame, ?_⟩
  rcases hnow with hstarted | horphan | hnow
  · exact .inl (.inl hstarted)
  · exact .inl (.inr (.inl horphan))
  · by_cases hown : other = o
    · rw [hown, moveTo_self] at hnow
      rw [hown]
      exact (hchecked held c h hmem hnow).imp (fun hbefore =>
        Or.inr (.inr hbefore)) fun hpresent => hpresent
    · rw [moveTo_of_ne s next hown] at hnow
      exact .inl (.inr (.inr hnow))

/-- A start that is given up on was checked before. -/
theorem Kept.abandon (hinv : Inv sizes s) (hkept : Kept s)
    {call : Option Call} (hcall : ∀ o c,
      call = some (.send (.execution o) (.start c)) →
        ∃ held, s.executions o = .starting held c) :
    Kept (s.abandon call) := by
  refine hkept.moves (abandon_daemon s call) ?_
  intro o held c h hadmission hmem _ hnow
  rw [abandon_admissions] at hadmission
  refine ⟨hadmission, .inl ?_⟩
  rcases hnow with hstarted | horphan | hnow
  · rw [abandon_daemon] at hstarted
    exact .inl hstarted
  · rcases mem_abandon horphan with hbefore | hnew
    · exact .inr (.inl hbefore)
    · obtain ⟨held', hstate⟩ := hcall o c hnew
      have hready := hinv.executions o
      rw [hstate] at hready
      cases hadmission.symm.trans hready.1
      exact .inr (.inr (.inl hstate))
  · rw [abandon_executions] at hnow
    exact .inr (.inr hnow)

/-- Cleanups come and go, and requests arrive. -/
theorem Kept.others (hkept : Kept s) {cleanups : List CleanupRun}
    {orphans : List (Sender × Request)}
    (horphans : ∀ o c, (Sender.execution o, Request.start c) ∈ orphans →
      (Sender.execution o, Request.start c) ∈ s.orphans) :
    Kept { s with cleanups, orphans } := by
  refine hkept.moves rfl ?_
  intro o held c h hadmission _ _ hnow
  refine ⟨hadmission, .inl ?_⟩
  rcases hnow with hstarted | horphan | hnow
  · exact .inl hstarted
  · exact .inr (.inl (horphans o c horphan))
  · exact .inr (.inr hnow)

theorem Kept.exit (hkept : Kept s) (id : ContainerId) :
    Kept { s with daemon := s.daemon.exit id } := by
  intro o held x' hadmission hx' hborn hlive h hmem hnow
  obtain ⟨x, hx, hid, -, -, hstatus⟩ := Daemon.exit_old s.daemon id hx'
  have hsame : x'.status = x.status := by
    rcases hstatus with hsame | ⟨hexited, -⟩
    · exact hsame
    · exact absurd hexited hlive
  have hbefore : Checked s o held x.id h := by
    rw [hid]
    rcases hnow with hstarted | hrest
    · rw [Daemon.exit_started] at hstarted
      exact .inl hstarted
    · exact .inr hrest
  obtain ⟨p, hp, hpid⟩ := hkept o held x hadmission hx
    (by rw [hid]; exact exit_born.1 hborn) (by rwa [← hsame]) h hmem hbefore
  obtain ⟨p', hp', hpid', -⟩ := Daemon.exit_kept s.daemon id hp
  exact ⟨p', hp', hpid'.trans hpid⟩

theorem step_kept (hinv : Inv sizes s) (hkept : Kept s)
    (hapart : Apart sizes s action) : Kept (step sizes s action) := by
  cases action with
  | begin o =>
    simp only [step]
    split
    · exact hkept.moveTo (fun c hborn => hinv.admitted hborn)
        (fun held hsame => by cases hsame)
        fun held c h _ hnow => absurd hnow (not_checked rfl)
    · exact hkept
  | run o input =>
    simp only [step]
    cases hcall : (s.executions o).call sizes o input with
    | none =>
      obtain ⟨-, -, hplain⟩ := proceed_ok (hinv.executions o) hcall
      exact hkept.moveTo (fun c hborn => hinv.admitted hborn)
        (fun held hsame => absurd hsame (hplain held))
        fun held c h hmem hnow => .inl (proceed_checked hmem hnow)
    | some call =>
      cases call with
      | ask query =>
        obtain ⟨-, -, hplain⟩ := ask_ok hinv (hinv.executions o) hcall
        exact hkept.moveTo (fun c hborn => hinv.admitted hborn)
          (fun held hsame => absurd hsame (hplain held))
          fun held c h _ hnow => ask_checked hcall hnow
      | send sender request =>
        have hserving : served sizes s (.run o input) =
            some (sender, request) := by
          simp only [served, hcall]
        have hserved : Kept (s.serve sender request).1 := by
          refine hkept.serve hinv (execution_sent hinv hcall) ?_ ?_
          · rintro existing owner fence reservation rfl
            exact hapart _ _ _ _ _ hserving
          · rintro o' c rfl hborn
            obtain ⟨hsender, held, hstate⟩ := start_call hcall
            have hready := hinv.executions o
            rw [hstate] at hready
            cases hborn.owner_eq hready.2.2.1
            exact .inr ⟨held, hstate⟩
        refine hserved.moveTo (fun c hborn =>
            (hinv.serve_own hcall).admitted o c hborn) ?_
          fun held c h _ hnow => absurd hnow (send_unchecked hcall)
        intro held hsame
        have hanswered := answered hinv hcall
        rw [hsame] at hanswered
        cases hanswered with
        | goesOn _ _ hplain => exact absurd rfl (hplain held)
        | admits hwaiting _ _ => exact hwaiting.1
  | lose o input =>
    have habandon : Kept (s.abandon
        ((s.executions o).call sizes o input)) := by
      refine hkept.abandon hinv fun o' c hcall => ?_
      obtain ⟨hsender, held, hstate⟩ := start_call hcall
      cases hsender
      exact ⟨held, hstate⟩
    refine habandon.moveTo (fun c hborn => ?_) ?_
      fun held c h _ hnow => absurd hnow lose_unchecked
    · rw [abandon_daemon] at hborn
      rw [abandon_admissions]
      exact hinv.admitted hborn
    · intro held hsame
      rcases lose_ok (hinv.executions o) input with
        ⟨-, hstate, hplain⟩ | ⟨hlate, -⟩
      · rw [hstate] at hsame
        exact absurd hsame (hplain held)
      · exact absurd hsame (hlate.plain held)
  | crash o input =>
    have habandon : Kept (s.abandon
        ((s.executions o).call sizes o input)) := by
      refine hkept.abandon hinv fun o' c hcall => ?_
      obtain ⟨hsender, held, hstate⟩ := start_call hcall
      cases hsender
      exact ⟨held, hstate⟩
    refine habandon.moveTo (fun c hborn => ?_)
      (fun held hsame => by cases hsame)
      fun held c h _ hnow => absurd hnow (not_checked rfl)
    rw [abandon_daemon] at hborn
    rw [abandon_admissions]
    exact hinv.admitted hborn
  | beginCleanup o => exact hkept.others fun _ _ hmem => hmem
  | runCleanup number =>
    simp only [step]
    cases hrun : s.cleanups[number]? with
    | none => exact hkept
    | some run =>
      have hok := (hinv.except 0).cleanups run (List.mem_of_getElem? hrun)
      simp only []
      cases hcall : run.stage.call run.attempt with
      | none => exact hkept.others fun _ _ hmem => hmem
      | some call =>
        cases call with
        | ask query => exact hkept.others fun _ _ hmem => hmem
        | send sender request =>
          have hsent : Sent sizes s sender request :=
            cleanup_sent hok hcall
          cases cleanup_sender hcall
          have hserved : Kept
              (s.serve (.cleanup run.attempt) request).1 := by
            refine hkept.serve hinv hsent ?_ ?_
            · intro _ _ _ _ hsender
              cases hsender
            · rintro o c rfl _
              cases hsent
          exact hserved.others fun _ _ hmem => hmem
  | loseCleanup number =>
    simp only [step]
    cases hrun : s.cleanups[number]? with
    | none => exact hkept
    | some run =>
      simp only []
      cases hcall : run.stage.call run.attempt with
      | none => exact hkept.others fun _ _ hmem => hmem
      | some call =>
        cases call with
        | ask query => exact hkept.others fun _ _ hmem => hmem
        | send sender request =>
          cases cleanup_sender hcall
          refine hkept.others fun o c hmem => ?_
          rcases List.mem_append.1 hmem with hold | hnew
          · exact hold
          · cases List.mem_singleton.1 hnew
  | arrive sender request =>
    simp only [step]
    split
    · rename_i hmem
      have hserving : served sizes s (.arrive sender request) =
          some (sender, request) := by
        simp only [served, hmem, ↓reduceIte]
      have hserved : Kept (s.serve sender request).1 := by
        refine hkept.serve hinv (hinv.orphans hmem) ?_ ?_
        · rintro existing owner fence reservation rfl
          exact hapart _ _ _ _ _ hserving
        · rintro o c rfl hborn
          obtain ⟨o', rfl, hborn', -⟩ := (hinv.orphans hmem).born
          cases hborn.owner_eq hborn'
          exact .inl hmem
      exact hserved.others fun _ _ hmem => List.mem_of_mem_erase hmem
    · exact hkept
  | exit id => exact hkept.exit id

/-- The attempts whose containers run. -/
def running (d : Daemon) : List Attempt :=
  d.containers.filterMap fun x =>
    match x.labels, x.status with
    | .attempt o, .running => some o
    | _, _ => none

theorem mem_running : o ∈ running d ↔
    ∃ x ∈ d.containers, x.labels = .attempt o ∧ x.status = .running := by
  simp only [running, List.mem_filterMap]
  refine exists_congr fun x => and_congr_right fun _ => ?_
  cases x.labels <;> cases x.status <;> simp

/-- The placeholder of an admission is there, under the name of its slot. -/
def InPlace (d : Daemon) (h : Held) : Prop :=
  ∃ p ∈ d.containers, p.name = .slot h.slot ∧ p.id = h.id

theorem Sane.running_nodup (h : Sane sizes d) : (running d).Nodup := by
  have hnames := List.pairwise_map.1 h.consistent.names
  rw [List.Nodup, running, List.pairwise_filterMap]
  refine hnames.imp_of_mem fun {x y} hx hy hne => ?_
  rintro o ho o' ho' rfl
  have hname : ∀ {z : Container}, z ∈ d.containers →
      (match z.labels, z.status with
        | .attempt o, .running => some o
        | _, _ => none) = some o → z.name = .attempt o := by
    intro z hz hmatch
    have hmade := h.consistent.made z hz
    have hnamed := h.named _ _ _ hmade
    cases hlabels : z.labels with
    | slot _ _ | fence _ _ => simp [hlabels] at hmatch
    | attempt attempt =>
      cases hzname : z.name with
      | slot _ => simp [Named, hzname, hlabels] at hnamed
      | attempt other =>
        rw [hzname, hlabels] at hnamed
        cases hstatus : z.status with
        | created | exited => simp [hstatus, hlabels] at hmatch
        | running =>
          simp only [hstatus, hlabels, Option.some.injEq] at hmatch
          rw [show other = attempt from hnamed, hmatch]
  exact hne ((hname hx ho).trans (hname hy ho').symm)

/-- Distinct placeholders in place have slots of their own. -/
theorem Sane.slots_le (h : Sane sizes d) (hids : (held.map (·.id)).Nodup)
    (hplaced : ∀ h ∈ held, InPlace d h) : held.length ≤ sizes.slots := by
  have hslots : (held.map (·.slot)).Nodup := by
    refine (List.Nodup.of_map _ hids).map_on ?_
    intro a ha b hb hslot
    obtain ⟨p, hp, hpname, hpid⟩ := hplaced a ha
    obtain ⟨p', hp', hpname', hpid'⟩ := hplaced b hb
    have hsame : p = p' := h.consistent.eq_of_name hp hp' (by
      rw [hpname, hpname', hslot])
    refine List.inj_on_of_nodup_map hids ha hb ?_
    rw [← hpid, ← hpid', hsame]
  have hbound : held.map (·.slot) ⊆ List.range sizes.slots := by
    intro slot hslot
    obtain ⟨a, ha, rfl⟩ := List.mem_map.1 hslot
    obtain ⟨p, hp, hpname, -⟩ := hplaced a ha
    have hnamed := h.named _ _ _ (h.consistent.made p hp)
    rw [hpname] at hnamed
    cases hlabels : p.labels with
    | slot _ _ =>
      rw [hlabels] at hnamed
      exact List.mem_range.2 hnamed
    | attempt _ | fence _ _ => simp [Named, hlabels] at hnamed
  simpa using (hslots.subperm hbound).length_le

/-- Attempts that all have their placeholders share the slots. -/
theorem Inv.units_le_slots (hinv : Inv sizes s) {attempts : List Attempt}
    (hnodup : attempts.Nodup)
    (hplaced : ∀ o ∈ attempts, ∃ held, s.admissions o = some held ∧
      ∀ h ∈ held, InPlace s.daemon h) :
    (attempts.map sizes.units).sum ≤ sizes.slots := by
  have hheld : ∀ o ∈ attempts, ∃ held, s.admissions o = some held ∧
      (s.admissions o).getD [] = held ∧ ∀ h ∈ held, InPlace s.daemon h := by
    intro o ho
    obtain ⟨held, hadmission, hin⟩ := hplaced o ho
    exact ⟨held, hadmission, by rw [hadmission]; rfl, hin⟩
  have hunits : (attempts.map sizes.units).sum ≤
      (attempts.flatMap fun o => (s.admissions o).getD []).length := by
    rw [List.length_flatMap]
    refine List.sum_le_sum fun o ho => ?_
    obtain ⟨held, hadmission, hget, -⟩ := hheld o ho
    rw [hget]
    exact (hinv.admission hadmission).2
  refine hunits.trans (hinv.sane.slots_le ?_ ?_)
  · rw [List.map_flatMap, List.nodup_flatMap]
    constructor
    · intro o ho
      obtain ⟨held, hadmission, hget, -⟩ := hheld o ho
      rw [hget]
      exact (hinv.admission hadmission).1.2
    · refine hnodup.imp_of_mem fun {o o'} ho ho' hne => ?_
      obtain ⟨held, hadmission, hget, -⟩ := hheld o ho
      obtain ⟨held', hadmission', hget', -⟩ := hheld o' ho'
      rw [Function.onFun, hget, hget']
      intro id hid hid'
      obtain ⟨h, hmem, rfl⟩ := List.mem_map.1 hid
      obtain ⟨h', hmem', hsame⟩ := List.mem_map.1 hid'
      have hslot := (hinv.admission hadmission).1.isSlot hmem
      have hslot' := (hinv.admission hadmission').1.isSlot hmem'
      rw [hsame] at hslot'
      exact hne (hslot.owner_eq hslot')
  · intro h hmem
    obtain ⟨o, ho, hin⟩ := List.mem_flatMap.1 hmem
    obtain ⟨held, -, hget, hplaced⟩ := hheld o ho
    rw [hget] at hin
    exact hplaced h hin

/-- What a state says about slots: the placeholders of a running attempt, the
units of all of them, what reclaimers delete, and what a cleanup leaves. -/
structure Exclusive (sizes : Sizes) (s : State) : Prop where
  placed : ∀ o ∈ running s.daemon, ∃ held, s.admissions o = some held ∧
    ∀ h ∈ held, InPlace s.daemon h
  capacity : ((running s.daemon).map sizes.units).sum ≤ sizes.slots
  reclaimed : ∀ stage x owner expires, (Sender.reclaimer stage, x) ∈
    s.deletions → x.labels = .slot owner expires →
      owner = stage.owner ∧ IsSlot s.daemon owner stage.existing.id
  cleaned : ∀ o c, ⟨o, .returned (some c)⟩ ∈ s.cleanups →
    Born s.daemon o c ∧ s.daemon.Gone c ∧ NoSlots s.daemon o

/-- A placeholder that the attempt was admitted with is deleted. -/
def Withdrawn (s : State) (o : Attempt) : Prop :=
  ∃ held, s.admissions o = some held ∧ ∃ h ∈ held, ¬s.daemon.Present h.id

theorem Kept.placed (hinv : Inv sizes s) (hkept : Kept s)
    (ho : o ∈ running s.daemon) :
    ∃ held, s.admissions o = some held ∧ ∀ h ∈ held, InPlace s.daemon h := by
  obtain ⟨x, hx, hlabels, hrunning⟩ := mem_running.1 ho
  have hconsistent := hinv.sane.consistent
  have hmade := hconsistent.made x hx
  have hborn : Born s.daemon o x.id := by
    have hnamed := hinv.sane.named _ _ _ hmade
    cases hname : x.name with
    | slot _ => simp [Named, hname, hlabels] at hnamed
    | attempt other =>
      rw [hname, hlabels] at hnamed
      rwa [hname, hlabels, show other = o from hnamed] at hmade
  have hstarted : x.id ∈ s.daemon.started := by
    by_contra hnot
    have hcreated := (hconsistent.started x hx).2 hnot
    rw [hrunning] at hcreated
    cases hcreated
  obtain ⟨held, hadmission⟩ :=
    Option.ne_none_iff_exists'.1 (hinv.admitted hborn)
  refine ⟨held, hadmission, fun h hmem => ?_⟩
  obtain ⟨p, hp, hpid⟩ := hkept o held x hadmission hx hborn
    (by rw [hrunning]; intro hsame; cases hsame) h hmem (.inl hstarted)
  obtain ⟨expires, hplaceholder⟩ := (hinv.admission hadmission).1.1 h hmem
  rw [← hpid] at hplaceholder
  exact ⟨p, hp, (hconsistent.of_made hp hplaceholder).1, hpid⟩

theorem exclusive_of_kept (hinv : Inv sizes s) (hrecorded : Recorded s)
    (hkept : Kept s) : Exclusive sizes s where
  placed o ho := hkept.placed hinv ho
  capacity := hinv.units_le_slots hinv.sane.running_nodup
    fun o ho => hkept.placed hinv ho
  reclaimed stage x owner expires hentry hlabels := by
    obtain ⟨hmade, -, hdeletes⟩ := hrecorded.entries _ x hentry
    have hnamed := hinv.sane.named _ _ _ hmade
    cases hname : x.name with
    | attempt _ => simp [Named, hname, hlabels] at hnamed
    | slot number =>
      rw [hname, hlabels] at hmade
      exact hdeletes owner ⟨number, expires, hmade⟩
  cleaned o c hrun := (hinv.except 0).cleanups _ hrun

/-- An attempt is admitted once. -/
theorem step_admissions (hinv : Inv sizes s)
    (hadmission : s.admissions o = some held) (action : Action) :
    (step sizes s action).admissions o = some held := by
  have hmove : ∀ (s' : State) (other : Attempt) (next : Execution),
      s'.admissions = s.admissions →
      (∀ held', next = .admitted held' → s.admissions other = none) →
        (s'.moveTo other next).admissions o = some held := by
    intro s' other next hsame hnext
    by_cases hplain : ∀ held', next ≠ .admitted held'
    · rw [moveTo_admissions hplain, hsame]
      exact hadmission
    · simp only [ne_eq, not_forall, not_not] at hplain
      obtain ⟨held', rfl⟩ := hplain
      have hne : o ≠ other := by
        rintro rfl
        rw [hnext held' rfl] at hadmission
        cases hadmission
      rw [show (s'.moveTo other (.admitted held')).admissions o =
        s'.admissions o from Function.update_of_ne hne .., hsame]
      exact hadmission
  cases action with
  | begin other =>
    simp only [step]
    split
    · exact hmove s other _ rfl fun held' hsame => by cases hsame
    · exact hadmission
  | run other input =>
    simp only [step]
    cases hcall : (s.executions other).call sizes other input with
    | none =>
      obtain ⟨-, -, hplain⟩ := proceed_ok (hinv.executions other) hcall
      exact hmove s other _ rfl
        fun held' hsame => absurd hsame (hplain held')
    | some call =>
      cases call with
      | ask query =>
        obtain ⟨-, -, hplain⟩ :=
          ask_ok hinv (hinv.executions other) hcall
        exact hmove s other _ rfl
          fun held' hsame => absurd hsame (hplain held')
      | send sender request =>
        refine hmove _ other _ rfl fun held' hsame => ?_
        have hanswered := answered hinv hcall
        rw [hsame] at hanswered
        cases hanswered with
        | goesOn _ _ hplain => exact absurd rfl (hplain held')
        | admits hwaiting _ _ => exact hwaiting.1
  | lose other input =>
    refine hmove _ other _ (abandon_admissions s _) fun held' hsame => ?_
    rcases lose_ok (hinv.executions other) input with
      ⟨-, hstate, hplain⟩ | ⟨hlate, -⟩
    · rw [hstate] at hsame
      exact absurd hsame (hplain held')
    · exact absurd hsame (hlate.plain held')
  | crash other input =>
    exact hmove _ other _ (abandon_admissions s _)
      fun held' hsame => by cases hsame
  | beginCleanup other => exact hadmission
  | runCleanup number =>
    simp only [step]
    split
    · exact hadmission
    · split <;> exact hadmission
  | loseCleanup number =>
    simp only [step]
    split
    · exact hadmission
    · show (s.abandon _).admissions o = some held
      rw [abandon_admissions]
      exact hadmission
  | arrive sender request =>
    simp only [step]
    split <;> exact hadmission
  | exit id => exact hadmission

/-- A request that starts a container was checked. -/
theorem served_start (hinv : Inv sizes s)
    (h : served sizes s action = some (sender, .start c))
    (hborn : Born s.daemon o c) (hadmission : s.admissions o = some held)
    {item : Held} : Checked s o held c item := by
  cases action with
  | run other input =>
    simp only [served] at h
    split at h
    · rename_i hcall
      cases h
      obtain ⟨-, held', hstate⟩ := start_call hcall
      have hready := hinv.executions other
      rw [hstate] at hready
      cases hborn.owner_eq hready.2.2.1
      cases hadmission.symm.trans hready.1
      exact .inr (.inr (.inl hstate))
    · cases h
  | arrive sender' request' =>
    simp only [served] at h
    split at h
    · rename_i hmem
      cases h
      obtain ⟨o', rfl, hborn', -⟩ := (hinv.orphans hmem).born
      cases hborn.owner_eq hborn'
      exact .inr (.inl hmem)
    · cases h
  | runCleanup number =>
    have hsent := served_sent hinv h
    simp only [served] at h
    split at h
    · split at h
      · rename_i hcall
        cases h
        cases cleanup_sender hcall
        cases hsent
      · cases h
    · cases h
  | begin _ | lose _ _ | crash _ _ | beginCleanup _ | loseCleanup _ | exit _ =>
    cases h

theorem step_evolves (hinv : Inv sizes s) (action : Action) :
    Evolves (fun o => s.admissions o ≠ none) s.daemon
      (step sizes s action).daemon := by
  cases step_worked sizes s action with
  | serves sender request hserved hdaemon _ =>
    rw [hdaemon]
    exact serve_evolves hinv (served_sent hinv hserved)
  | rests _ hdaemon _ =>
    rcases hdaemon with hsame | ⟨id, hexit⟩
    · rw [hsame]
      exact ⟨fun _ _ _ h => h, le_refl _, fun _ h => h, fun _ h => h,
        fun _ _ _ _ _ h => h, fun _ _ x hx _ h => ⟨x, hx, rfl, h⟩⟩
    · rw [hexit]
      exact exit_evolves _ s.daemon id

/-- An attempt whose placeholder is gone stays so and is not started. -/
theorem step_withdrawn (hinv : Inv sizes s) (hkept : Kept s)
    (hwithdrawn : Withdrawn s o) (action : Action) :
    Withdrawn (step sizes s action) o ∧
      ∀ c, Born (step sizes s action).daemon o c →
        c ∈ (step sizes s action).daemon.started → c ∈ s.daemon.started := by
  obtain ⟨held, hadmission, h, hmem, hmissing⟩ := hwithdrawn
  have hevolves := step_evolves hinv action
  constructor
  · refine ⟨held, step_admissions hinv hadmission action, h, hmem, ?_⟩
    have hslot := (hinv.admission hadmission).1.isSlot hmem
    exact (hevolves.gone h.id ⟨hslot.lt, hmissing⟩).2
  · intro c hborn hstarted
    cases step_worked sizes s action with
    | serves sender request hserved hdaemon _ =>
      rw [hdaemon] at hborn hstarted
      have hserving := Daemon.serve_served s.daemon request
      rcases hserving.started_cases hstarted with hbefore | ⟨rfl, x, hx, rfl⟩
      · exact hbefore
      · obtain ⟨o', -, hborn', hfresh, -⟩ := (served_sent hinv hserved).born
        cases hborn.owner_eq (hborn'.append hserving.made)
        have hcreated := (hinv.sane.consistent.started x hx).2 hfresh
        exact absurd (hkept o held x hadmission hx hborn'
          (by rw [hcreated]; nofun) h hmem
          (served_start hinv hserved hborn' hadmission)) hmissing
    | rests _ hdaemon _ =>
      rcases hdaemon with hsame | ⟨id, hexit⟩
      · rwa [hsame] at hstarted
      · rwa [hexit, Daemon.exit_started] at hstarted

/-- What a run keeps whose steps are all apart. -/
structure Sound (sizes : Sizes) (s : State) : Prop where
  inv : Inv sizes s
  recorded : Recorded s
  kept : Kept s

theorem initial_sound (sizes : Sizes) : Sound sizes State.initial :=
  ⟨initial_inv sizes, initial_recorded, nofun⟩

theorem step_sound (h : Sound sizes s) (hapart : Apart sizes s action) :
    Sound sizes (step sizes s action) :=
  ⟨step_inv h.inv action, step_recorded h.inv h.recorded action,
    step_kept h.inv h.kept hapart⟩

/-- The attempt has lost a placeholder and starts nothing else. -/
structure Barred (sizes : Sizes) (o : Attempt) (begun : List ContainerId)
    (s : State) : Prop where
  sound : Sound sizes s
  withdrawn : Withdrawn s o
  started : ∀ c, Born s.daemon o c → c ∈ s.daemon.started → c ∈ begun

theorem step_barred {begun : List ContainerId} (h : Barred sizes o begun s)
    (hapart : Apart sizes s action) :
    Barred sizes o begun (step sizes s action) := by
  obtain ⟨hlost, hnew⟩ :=
    step_withdrawn h.sound.inv h.sound.kept h.withdrawn action
  refine ⟨step_sound h.sound hapart, hlost, fun c hborn hstarted => ?_⟩
  have hbefore := hnew c hborn hstarted
  obtain ⟨o', hborn'⟩ := h.sound.inv.sane.begun c hbefore
  cases ((step_evolves h.sound.inv action).born hborn').owner_eq hborn
  exact h.started c hborn' hbefore

/-- In a run in which no fence of one placeholder lets a reclaimer delete
another one of a live attempt, slots are exclusive, and an attempt that has lost a
placeholder does not start afterwards. -/
theorem slots_exclusive (sizes : Sizes) (first second : List Action)
    (h : (sandboxes sizes).AllSteps (Apart sizes) State.initial
      (first ++ second)) :
    Exclusive sizes
        ((sandboxes sizes).after State.initial (first ++ second)) ∧
      ∀ o, Withdrawn ((sandboxes sizes).after State.initial first) o →
        ∀ c, Born ((sandboxes sizes).after State.initial
            (first ++ second)).daemon o c →
          c ∈ ((sandboxes sizes).after State.initial
              (first ++ second)).daemon.started →
            c ∈ ((sandboxes sizes).after State.initial first).daemon.started := by
  obtain ⟨hfirst, hsecond⟩ := h.append
  have hmiddle : Sound sizes ((sandboxes sizes).after State.initial first) :=
    hfirst.after_invariant (fun _ _ => step_sound) (initial_sound sizes)
  have hend : Sound sizes
      ((sandboxes sizes).after State.initial (first ++ second)) :=
    h.after_invariant (fun _ _ => step_sound) (initial_sound sizes)
  refine ⟨exclusive_of_kept hend.inv hend.recorded hend.kept,
    fun o hwithdrawn => ?_⟩
  rw [Machine.after_append]
  have hbarred : Barred sizes o
      ((sandboxes sizes).after State.initial first).daemon.started
      ((sandboxes sizes).after
        ((sandboxes sizes).after State.initial first) second) :=
    hsecond.after_invariant (fun _ _ => step_barred)
      ⟨hmiddle, hwithdrawn, fun _ _ hstarted => hstarted⟩
  exact hbarred.started

namespace SandboxCapacityWitness

open SandboxEvidenceWitness

/-- Two slots; attempt 1 needs both of them. -/
def twoSlots : Sizes :=
  ⟨2, fun attempt => if attempt = 1 then 2 else 1, fun _ => 1000000⟩

/-- Attempt 0 takes a slot and is late; attempt 1 withdraws the slot. -/
def takeOver : List Action :=
  [Action.begin 0] ++ List.replicate 2 (Action.run 0 (moment 0)) ++ [Action.begin 1] ++
    List.replicate 13 (Action.run 1 (moment 100000))

/-- Attempt 0 creates its container after all, and attempt 1 runs. -/
def lateCreation : List Action :=
  List.replicate 4 (Action.run 0 (moment 100001)) ++
    List.replicate 8 (Action.run 1 (moment 100001))

theorem slots_exclusive_after_takeOver :
    running ((sandboxes twoSlots).after State.initial
        (takeOver ++ lateCreation)).daemon = [1] ∧
      Exclusive twoSlots ((sandboxes twoSlots).after State.initial
        (takeOver ++ lateCreation)) ∧
      Withdrawn ((sandboxes twoSlots).after State.initial takeOver) 0 ∧
      ∀ c, Born ((sandboxes twoSlots).after State.initial
          (takeOver ++ lateCreation)).daemon 0 c →
        c ∈ ((sandboxes twoSlots).after State.initial
          (takeOver ++ lateCreation)).daemon.started →
          c ∈ ((sandboxes twoSlots).after State.initial
            takeOver).daemon.started := by
  obtain ⟨hexclusive, hstays⟩ :=
    slots_exclusive twoSlots takeOver lateCreation (by decide)
  have hwithdrawn :
      Withdrawn ((sandboxes twoSlots).after State.initial takeOver) 0 := by
    refine ⟨[⟨0, 0⟩], by decide, ⟨0, 0⟩, List.mem_singleton_self _, ?_⟩
    unfold Daemon.Present
    decide
  exact ⟨by decide, hexclusive, hwithdrawn, hstays 0 hwithdrawn⟩

/-- Attempt 1 holds slot 0 only when attempt 2 fences it; it gives that slot up
and is admitted with two new placeholders. -/
def refilled : List Action :=
  [Action.begin 1] ++ List.replicate 2 (Action.run 1 (moment 20)) ++ [Action.begin 5] ++
    List.replicate 4 (Action.run 5 (moment 60000)) ++ [Action.begin 2] ++
    List.replicate 5 (Action.run 2 (moment 100000)) ++
    List.replicate 4 (Action.run 1 (moment 100005)) ++
    [Action.run 5 ⟨100006, false, false⟩] ++
    List.replicate 3 (Action.run 5 (moment 100006)) ++
    List.replicate 3 (Action.run 1 (moment 100010))

/-- Attempt 3 finds the fence for the old placeholder, attempt 2 removes it,
attempt 1 starts, and attempt 3 deletes one of the new placeholders. -/
def mistaken : List Action :=
  [Action.begin 3] ++ List.replicate 4 (Action.run 3 (moment 200000)) ++
    List.replicate 3 (Action.run 2 (moment 200000)) ++
    List.replicate 6 (Action.run 1 (moment 200000)) ++
    List.replicate 2 (Action.run 3 (moment 200000))

theorem running_placeholder_is_lost :
    ¬Exclusive twoSlots ((sandboxes twoSlots).after State.initial
      (refilled ++ mistaken)) := by
  intro h
  have hrunning : 1 ∈ running ((sandboxes twoSlots).after State.initial
      (refilled ++ mistaken)).daemon := by decide +kernel
  obtain ⟨held, hadmission, hplaced⟩ := h.placed 1 hrunning
  have hheld : ((sandboxes twoSlots).after State.initial
      (refilled ++ mistaken)).admissions 1 = some [⟨0, 3⟩, ⟨1, 4⟩] := by
    decide +kernel
  cases hheld.symm.trans hadmission
  have hmissing : ¬InPlace ((sandboxes twoSlots).after State.initial
      (refilled ++ mistaken)).daemon ⟨0, 3⟩ := by
    unfold InPlace
    decide +kernel
  exact hmissing (hplaced ⟨0, 3⟩ List.mem_cons_self)

end SandboxCapacityWitness

end Allrice.SandboxSlots
