/-
The invariant of the whole system of executions, cleanups and requests on their
way.  Serving a request keeps it but for the sender, and so does the move of an
execution that knows what its next stage needs.
-/
import Allrice.SandboxSlotsStages

namespace Allrice.SandboxSlots

open ContainerDaemon

variable {sizes : Sizes} {s : State} {d d' : Daemon} {o owner : Attempt}
  {c f q : ContainerId} {sender : Sender} {request : Request} {reply : Reply}
  {query : Query} {input : Input}

/-- The requests that an execution sends at most once. -/
def SingleUse (o : Attempt) (request : Request) : Prop :=
  request = .create (.attempt o) (.attempt o) ∨ ∃ c, request = .start c

/-- Everything but what the execution of one attempt knows. -/
structure InvExcept (sizes : Sizes) (s : State) (o : Attempt) : Prop where
  sane : Sane sizes s.daemon
  admitted : ∀ o c, Born s.daemon o c → s.admissions o ≠ none
  admission : ∀ o held, s.admissions o = some held →
    Holds s.daemon o held ∧ sizes.units o ≤ held.length
  cleanups : ∀ run ∈ s.cleanups, CleanupOk s.daemon run.attempt run.stage
  orphans : ∀ entry ∈ s.orphans, Sent sizes s entry.1 entry.2
  once : ∀ o request, SingleUse o request →
    s.orphans.count (.execution o, request) ≤ 1
  others : ∀ other, other ≠ o → ExecutionOk sizes s other (s.executions other)

structure Inv (sizes : Sizes) (s : State) : Prop where
  except : ∀ o, InvExcept sizes s o
  executions : ∀ o, ExecutionOk sizes s o (s.executions o)

theorem InvExcept.inv (h : InvExcept sizes s o)
    (hexecution : ExecutionOk sizes s o (s.executions o)) : Inv sizes s := by
  have hall : ∀ other, ExecutionOk sizes s other (s.executions other) := by
    intro other
    by_cases hsame : other = o
    · rw [hsame]
      exact hexecution
    · exact h.others other hsame
  exact ⟨fun _ => ⟨h.sane, h.admitted, h.admission, h.cleanups, h.orphans,
    h.once, fun other _ => hall other⟩, hall⟩

theorem Inv.sane (h : Inv sizes s) : Sane sizes s.daemon := (h.except 0).sane

theorem Inv.admitted (h : Inv sizes s) (hborn : Born s.daemon o c) :
    s.admissions o ≠ none := (h.except 0).admitted o c hborn

variable {held : List Held} {s' : State} {next : Execution}

theorem Inv.admission (h : Inv sizes s)
    (hadmission : s.admissions o = some held) :
    Holds s.daemon o held ∧ sizes.units o ≤ held.length :=
  (h.except 0).admission o held hadmission

theorem Inv.orphans (h : Inv sizes s)
    (horphan : (sender, request) ∈ s.orphans) :
    Sent sizes s sender request := (h.except 0).orphans _ horphan

theorem Inv.late (h : Inv sizes s)
    (horphan : (Sender.execution o, request) ∈ s.orphans) :
    Late (s.executions o) := (h.executions o).late horphan

@[simp] theorem serve_daemon (s : State) (sender : Sender) (request : Request) :
    (s.serve sender request).1.daemon = (s.daemon.serve request).1 := rfl

@[simp] theorem serve_executions (s : State) (sender : Sender)
    (request : Request) :
    (s.serve sender request).1.executions = s.executions := rfl

@[simp] theorem serve_admissions (s : State) (sender : Sender)
    (request : Request) :
    (s.serve sender request).1.admissions = s.admissions := rfl

@[simp] theorem serve_orphans (s : State) (sender : Sender)
    (request : Request) : (s.serve sender request).1.orphans = s.orphans := rfl

@[simp] theorem serve_cleanups (s : State) (sender : Sender)
    (request : Request) :
    (s.serve sender request).1.cleanups = s.cleanups := rfl

/-- What a container is called after a request tells who called it so. -/
theorem Sent.creator
    (h : Sent sizes s sender (.create (.attempt o) (.attempt o))) :
    sender = .execution o := by
  cases h with
  | attempt _ _ _ => rfl

theorem born_served (hsent : Sent sizes s sender request)
    (hborn : Born (s.serve sender request).1.daemon o c) :
    Born s.daemon o c ∨ sender = .execution o ∧
      request = .create (.attempt o) (.attempt o) ∧
      c = s.daemon.made.length := by
  rcases (Daemon.serve_served s.daemon request).made_cases hborn with
    hold | ⟨hid, rfl, -⟩
  · exact .inl hold
  · exact .inr ⟨hsent.creator, rfl, hid⟩

theorem started_served (hsent : Sent sizes s sender request)
    (hborn : Born s.daemon o c)
    (hstarted : c ∈ (s.serve sender request).1.daemon.started) :
    c ∈ s.daemon.started ∨ sender = .execution o ∧ request = .start c ∧
      FromExecution s o (.start c) := by
  rcases (Daemon.serve_served s.daemon request).started_cases hstarted with
    hold | ⟨rfl, -⟩
  · exact .inl hold
  · obtain ⟨o', hsender, hborn', -, hfrom⟩ := hsent.born
    cases hborn.owner_eq hborn'
    exact .inr ⟨hsender, rfl, hfrom⟩

theorem serve_evolves (hinv : Inv sizes s)
    (hsent : Sent sizes s sender request) :
    Evolves (fun o => s.admissions o ≠ none) s.daemon
      (s.serve sender request).1.daemon :=
  hsent.tame.evolves hinv.sane (Daemon.serve_served s.daemon request)

/-- An execution that only releases stays quiet. -/
theorem Quiet.served (hinv : Inv sizes s) (hsent : Sent sizes s sender request)
    (hlate : Late (s.executions o)) (h : Quiet s o) :
    Quiet (s.serve sender request).1 o := by
  intro c hborn
  rcases born_served hsent hborn with hold | ⟨-, -, rfl⟩
  · rcases h c hold with hended | ⟨hnone, hfresh⟩
    · exact .inl ((serve_evolves hinv hsent).ended c hended)
    · refine .inr ⟨hnone, fun hstarted => ?_⟩
      rcases started_served hsent hold hstarted with
        hbefore | ⟨-, -, horphan | ⟨-, hnot⟩⟩
      · exact hfresh hbefore
      · exact hnone horphan
      · exact hnot hlate
  · -- The container is new, so no request can name it yet.
    refine .inr ⟨fun horphan => ?_, fun hstarted => ?_⟩
    · obtain ⟨o', -, hborn', -⟩ := (hinv.orphans horphan).born
      exact absurd hborn'.lt (lt_irrefl _)
    · rcases (Daemon.serve_served s.daemon request).started_cases hstarted with
        hbefore | ⟨rfl, -⟩
      · exact absurd (hinv.sane.consistent.startedMade _ hbefore)
          (lt_irrefl _)
      · obtain ⟨o', -, hborn', -⟩ := hsent.born
        exact absurd hborn'.lt (lt_irrefl _)

theorem Ready.served (hinv : Inv sizes s) (hsent : Sent sizes s sender request)
    (h : Ready s o held c) (hother : sender ≠ .execution o) :
    Ready (s.serve sender request).1 o held c := by
  obtain ⟨hadmission, hsilent, hborn, hfresh⟩ := h
  refine ⟨hadmission, hsilent, (serve_evolves hinv hsent).born hborn,
    fun hstarted => ?_⟩
  rcases started_served hsent hborn hstarted with hbefore | ⟨hsame, -⟩
  · exact hfresh hbefore
  · exact hother hsame

/-- Others keep what they know, and so does a late execution whose request
arrives. -/
theorem ExecutionOk.served (hinv : Inv sizes s)
    (hsent : Sent sizes s sender request)
    (hother : sender ≠ .execution o ∨ Late (s.executions o)) :
    ExecutionOk sizes (s.serve sender request).1 o (s.executions o) := by
  have hevolves := serve_evolves hinv hsent
  have h := hinv.executions o
  cases hstate : s.executions o with
  | idle | looping => rw [hstate] at h; exact h
  | claiming slot held =>
    rw [hstate] at h
    exact ⟨h.1, h.2.1, hevolves.holds h.2.2⟩
  | reading slot held =>
    rw [hstate] at h
    exact ⟨h.1, hevolves.holds h.2⟩
  | reclaiming slot held stage =>
    rw [hstate] at h
    exact ⟨h.1, hevolves.holds h.2.1, hevolves.stageOk h.2.2⟩
  | releasing held afterwards =>
    rw [hstate] at h
    cases afterwards with
    | loop => exact ⟨h.1, hevolves.holds h.2⟩
    | stop =>
      refine ⟨h.1.imp id fun hquiet => ?_, hevolves.holds h.2⟩
      exact hquiet.served hinv hsent (by rw [hstate]; trivial)
  | admitted held =>
    rw [hstate] at h hother
    refine ⟨h.1, h.2.1, fun c hborn => ?_⟩
    rcases born_served hsent hborn with hold | ⟨hsame, -⟩
    · exact h.2.2 c hold
    · exact hother.elim (fun hne => hne hsame) id
  | created held container | checking held container rest
  | starting held container =>
    rw [hstate] at h hother
    exact Ready.served hinv hsent h (hother.resolve_right id)
  | started held | finishing held => rw [hstate] at h; exact h
  | ended => trivial

/-- The other requests on their way stay justified. -/
theorem Sent.served (hinv : Inv sizes s) (hsent : Sent sizes s sender request)
    {sender' : Sender} {request' : Request}
    (h : (sender', request') ∈ s.orphans)
    (hother : (sender', request') ≠ (sender, request) ∨
      ∀ o, ¬SingleUse o request') :
    Sent sizes (s.serve sender request).1 sender' request' := by
  have hevolves := serve_evolves hinv hsent
  cases hinv.orphans h with
  | slot hnone hlt _ => exact .slot hnone hlt (.inl h)
  | @attempt o hadmission hunborn _ =>
    refine .attempt hadmission (fun c hborn => ?_) (.inl h)
    rcases born_served hsent hborn with hold | ⟨hsender, hrequest, -⟩
    · exact hunborn c hold
    · rcases hother with hne | hmany
      · exact hne (by rw [hsender, hrequest])
      · exact hmany o (.inl rfl)
  | @start o c hborn hfresh _ =>
    refine .start (hevolves.born hborn) (fun hstarted => ?_) (.inl h)
    rcases started_served hsent hborn hstarted with
      hbefore | ⟨hsender, hrequest, -⟩
    · exact hfresh hbefore
    · rcases hother with hne | hmany
      · exact hne (by rw [hsender, hrequest])
      · exact hmany o (.inr ⟨c, rfl⟩)
  | @release o id hslot hspent =>
    refine .release (hevolves.isSlot hslot) (hspent.imp (fun h => h) ?_)
    rintro ⟨hquiet, hlate'⟩
    exact ⟨hquiet.served hinv hsent hlate', hlate'⟩
  | fence hslot => exact .fence (hevolves.isSlot hslot)
  | stage hstage hcall => exact .stage (hevolves.stageOk hstage) hcall
  | @withdraw o f q hfence hslot hfenced =>
    exact .withdraw (hevolves.isFence hfence) (hevolves.isSlot hslot)
      (hevolves.fenced _ _ _ hfence hslot.lt hfenced)
  | sweep hslot hfinished =>
    exact .sweep (hevolves.isSlot hslot) (hevolves.finished hfinished)
  | unfence hfence hgone =>
    exact .unfence (hevolves.isFence hfence) (hevolves.gone _ hgone)
  | remove hborn => exact .remove (hevolves.born hborn)

/-- What an execution knows depends on the daemon, on its admission and on its
own requests. -/
theorem ExecutionOk.carry {state : Execution} (h : ExecutionOk sizes s o state)
    (hdaemon : s'.daemon = s.daemon)
    (hadmission : s'.admissions o = s.admissions o)
    (horphans : ∀ request, (Sender.execution o, request) ∈ s'.orphans →
      (Sender.execution o, request) ∈ s.orphans) :
    ExecutionOk sizes s' o state := by
  have hwaiting : Waiting s o → Waiting s' o := fun hwaiting =>
    ⟨hadmission.trans hwaiting.1, fun request hmem =>
      hwaiting.2 request (horphans request hmem)⟩
  have hsilent : Silent s o → Silent s' o := fun hsilent request hmem =>
    hsilent request (horphans request hmem)
  have hready : ∀ {held c}, Ready s o held c → Ready s' o held c := by
    rintro held c ⟨hheld, hquiet, hborn, hfresh⟩
    exact ⟨hadmission.trans hheld, hsilent hquiet, by rwa [hdaemon],
      by rwa [hdaemon]⟩
  cases state with
  | idle | looping => exact hwaiting h
  | claiming slot held =>
    exact ⟨hwaiting h.1, h.2.1, by rw [hdaemon]; exact h.2.2⟩
  | reading slot held | reclaiming slot held stage =>
    exact ⟨hwaiting h.1, by rw [hdaemon]; exact h.2⟩
  | releasing held afterwards =>
    cases afterwards with
    | loop => exact ⟨hwaiting h.1, by rw [hdaemon]; exact h.2⟩
    | stop =>
      refine ⟨h.1.imp (fun hnone => hadmission.trans hnone) ?_,
        by rw [hdaemon]; exact h.2⟩
      intro hquiet c hborn
      rw [hdaemon] at hborn ⊢
      exact (hquiet c hborn).imp id fun hrest =>
        ⟨fun hmem => hrest.1 (horphans _ hmem), hrest.2⟩
  | admitted held =>
    exact ⟨hadmission.trans h.1, hsilent h.2.1, by rw [hdaemon]; exact h.2.2⟩
  | created held container | checking held container rest
  | starting held container => exact hready h
  | started held => exact ⟨hadmission.trans h.1, hsilent h.2⟩
  | finishing held => exact hadmission.trans h
  | ended => trivial

/-- A request on its way stays justified while its sender only releases. -/
theorem Sent.carry (h : Sent sizes s sender request)
    (hmem : (sender, request) ∈ s'.orphans) (hdaemon : s'.daemon = s.daemon)
    (hsender : ∀ o, sender = .execution o →
      s'.admissions o = s.admissions o ∧ Late (s'.executions o) ∧
        (Late (s.executions o) →
          ∀ c, (Sender.execution o, Request.start c) ∈ s'.orphans →
            (Sender.execution o, Request.start c) ∈ s.orphans)) :
    Sent sizes s' sender request := by
  cases h with
  | @slot o number expires hnone hlt _ =>
    exact .slot ((hsender o rfl).1.trans hnone) hlt (.inl hmem)
  | @attempt o hadmission hunborn _ =>
    exact .attempt (by rw [(hsender o rfl).1]; exact hadmission)
      (by rw [hdaemon]; exact hunborn) (.inl hmem)
  | @start o c hborn hfresh _ =>
    exact .start (by rw [hdaemon]; exact hborn)
      (by rw [hdaemon]; exact hfresh) (.inl hmem)
  | @release o id hslot hspent =>
    obtain ⟨hadmission, hlate, hstarts⟩ := hsender o rfl
    refine .release (by rw [hdaemon]; exact hslot)
      (hspent.imp (fun hnone => hadmission.trans hnone) ?_)
    rintro ⟨hquiet, hbefore⟩
    refine ⟨fun c hborn => ?_, hlate⟩
    rw [hdaemon] at hborn ⊢
    exact (hquiet c hborn).imp (fun hended => hended) fun hrest =>
      ⟨fun hstart => hrest.1 (hstarts hbefore c hstart), hrest.2⟩
  | fence hslot => exact .fence (by rw [hdaemon]; exact hslot)
  | stage hstage hcall => exact .stage (by rw [hdaemon]; exact hstage) hcall
  | withdraw hfence hslot hfenced =>
    rw [← hdaemon] at hfence hslot hfenced
    exact .withdraw hfence hslot hfenced
  | sweep hslot hfinished =>
    rw [← hdaemon] at hslot hfinished
    exact .sweep hslot hfinished
  | unfence hfence hgone =>
    rw [← hdaemon] at hfence hgone
    exact .unfence hfence hgone
  | remove hborn => exact .remove (by rw [hdaemon]; exact hborn)

/-- Serving a request keeps the invariant but for the sender, when requests sent
once are no longer on their way. -/
theorem Inv.serve (hinv : Inv sizes s) (hsent : Sent sizes s sender request)
    (orphans : List (Sender × Request))
    (hothers : ∀ other, other ≠ o → sender ≠ .execution other ∨
      Late (s.executions other))
    (horphans : ∀ entry ∈ orphans, entry ∈ s.orphans ∧
      (entry ≠ (sender, request) ∨ ∀ o, ¬SingleUse o entry.2))
    (hcount : ∀ entry, orphans.count entry ≤ s.orphans.count entry) :
    InvExcept sizes { (s.serve sender request).1 with orphans } o := by
  have hevolves := serve_evolves hinv hsent
  have hserved := Daemon.serve_served s.daemon request
  refine ⟨hinv.sane.served hsent hserved, ?_, ?_, ?_, ?_, ?_, ?_⟩
  · intro o' c hborn
    rcases born_served hsent hborn with hold | ⟨rfl, rfl, -⟩
    · exact hinv.admitted hold
    · cases hsent with
      | attempt hadmission _ _ => exact hadmission
  · intro o' held hadmission
    obtain ⟨hholds, hunits⟩ := hinv.admission hadmission
    exact ⟨hevolves.holds hholds, hunits⟩
  · intro run hrun
    exact hevolves.cleanupOk (fun c hborn => hinv.admitted hborn)
      ((hinv.except o).cleanups run hrun)
  · intro entry hentry
    obtain ⟨hbefore, hother⟩ := horphans entry hentry
    refine (Sent.served hinv hsent hbefore hother).carry hentry rfl
      fun other hsender => ⟨rfl, ?_, fun _ c hmem => (horphans _ hmem).1⟩
    have hown : (Sender.execution other, entry.2) ∈ s.orphans := by
      rw [← hsender]
      exact hbefore
    exact hinv.late hown
  · intro o' request' hsingle
    exact (hcount _).trans ((hinv.except o).once o' request' hsingle)
  · intro other hne
    exact (ExecutionOk.served hinv hsent (hothers other hne)).carry rfl rfl
      fun request' hmem => (horphans _ hmem).1

theorem moveTo_admissions (hplain : ∀ held, next ≠ .admitted held) :
    (s.moveTo o next).admissions = s.admissions := by
  cases next with
  | admitted held => exact absurd rfl (hplain held)
  | _ => rfl

@[simp] theorem moveTo_daemon (s : State) (o : Attempt) (next : Execution) :
    (s.moveTo o next).daemon = s.daemon := rfl

@[simp] theorem moveTo_orphans (s : State) (o : Attempt) (next : Execution) :
    (s.moveTo o next).orphans = s.orphans := rfl

@[simp] theorem moveTo_self (s : State) (o : Attempt) (next : Execution) :
    (s.moveTo o next).executions o = next := Function.update_self ..

theorem moveTo_of_ne (s : State) {other : Attempt} (next : Execution)
    (hne : other ≠ o) :
    (s.moveTo o next).executions other = s.executions other :=
  Function.update_of_ne hne ..

/-- A move that admits nobody. -/
theorem InvExcept.moveTo (h : InvExcept sizes s o)
    (hplain : ∀ held, next ≠ .admitted held)
    (hlate : ∀ request, (Sender.execution o, request) ∈ s.orphans → Late next)
    (hnext : ExecutionOk sizes s o next) : Inv sizes (s.moveTo o next) := by
  have hadmissions := moveTo_admissions (s := s) (o := o) hplain
  have hothers : ∀ other, other ≠ o → ExecutionOk sizes (s.moveTo o next) other
      ((s.moveTo o next).executions other) := by
    intro other hne
    rw [moveTo_of_ne s next hne]
    exact (h.others other hne).carry rfl (by rw [hadmissions])
      fun _ hmem => hmem
  refine InvExcept.inv (o := o) ⟨h.sane, ?_, ?_, h.cleanups, ?_, h.once,
    hothers⟩ ?_
  · rw [hadmissions]
    exact h.admitted
  · rw [hadmissions]
    exact h.admission
  · intro entry hentry
    refine (h.orphans entry hentry).carry hentry rfl fun other hsender => ?_
    refine ⟨by rw [hadmissions], ?_, fun _ c hmem => hmem⟩
    by_cases hsame : other = o
    · subst hsame
      rw [moveTo_self]
      exact hlate entry.2 (by rw [← hsender]; exact hentry)
    · rw [moveTo_of_ne s next hsame]
      exact (h.others other hsame).late (by rw [← hsender]; exact hentry)
  · rw [moveTo_self]
    exact hnext.carry rfl (by rw [hadmissions]) fun _ hmem => hmem

/-- The move that admits an attempt. -/
theorem InvExcept.admit (h : InvExcept sizes s o) (hwaiting : Waiting s o)
    (hholds : Holds s.daemon o held) (hunits : sizes.units o ≤ held.length) :
    Inv sizes (s.moveTo o (.admitted held)) := by
  have hsame : (s.moveTo o (.admitted held)).admissions o = some held :=
    Function.update_self ..
  have hother : ∀ other, other ≠ o →
      (s.moveTo o (.admitted held)).admissions other = s.admissions other :=
    fun other hne => Function.update_of_ne hne ..
  have hnoone : ∀ {sender request}, (sender, request) ∈ s.orphans →
      sender ≠ .execution o := by
    rintro sender request hmem rfl
    exact hwaiting.2 request hmem
  refine InvExcept.inv (o := o) ⟨h.sane, ?_, ?_, h.cleanups, ?_, h.once, ?_⟩ ?_
  · intro other c hborn
    by_cases hne : other = o
    · rw [hne, hsame]
      exact Option.some_ne_none _
    · rw [hother other hne]
      exact h.admitted other c hborn
  · intro other held' hadmission
    by_cases hne : other = o
    · rw [hne] at hadmission ⊢
      rw [hsame] at hadmission
      cases hadmission
      exact ⟨hholds, hunits⟩
    · rw [hother other hne] at hadmission
      exact h.admission other held' hadmission
  · intro entry hentry
    refine (h.orphans entry hentry).carry hentry rfl fun other hsender => ?_
    have hne : other ≠ o := by
      rintro rfl
      exact hnoone hentry hsender
    refine ⟨hother other hne, ?_, fun _ c hmem => hmem⟩
    rw [moveTo_of_ne s _ hne]
    exact (h.others other hne).late (by rw [← hsender]; exact hentry)
  · intro other hne
    rw [moveTo_of_ne s _ hne]
    exact (h.others other hne).carry rfl (hother other hne) fun _ hmem => hmem
  · rw [moveTo_self]
    refine ⟨hsame, hwaiting.2, fun c hborn => ?_⟩
    exact h.admitted o c hborn hwaiting.1

end Allrice.SandboxSlots
