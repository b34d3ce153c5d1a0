/-
What a reclaimer may destroy.  A container that was ever started is deleted only
by the cleanup of its attempt, in exactly the runs in which no reclaimer's
removal reaches a container that has exited since it was inspected.
-/
import Allrice.SandboxSlotsSteps

namespace Allrice.SandboxSlots

open ContainerDaemon

variable {sizes : Sizes} {s : State} {d d' : Daemon} {o : Attempt}
  {c : ContainerId} {sender : Sender} {request : Request} {reply : Reply}

/-- The removal of a container that was seen as created does not reach one that
has exited since. -/
def Spares (sizes : Sizes) (s : State) (action : Action) : Prop :=
  ∀ existing owner abandoned request, served sizes s action =
    some (.reclaimer (.removing existing owner abandoned), request) →
      ∀ x ∈ s.daemon.containers, x.id = abandoned → x.status ≠ .exited

def Spared (s : State) : Prop :=
  ∀ stage x, (Sender.reclaimer stage, x) ∈ s.deletions →
    x.id ∉ s.daemon.started

/-- Nothing but its own cleanup takes a container away that was ever started,
and until then it is found under the name of its attempt. -/
structure EvidenceKept (s : State) : Prop where
  spared : Spared s
  removed : ∀ sender x, (sender, x) ∈ s.deletions → x.id ∈ s.daemon.started →
    ∃ o, Born s.daemon o x.id ∧ sender = .cleanup o
  found : ∀ o c, Born s.daemon o c → c ∈ s.daemon.started →
    (∀ x, (Sender.cleanup o, x) ∈ s.deletions → x.id ≠ c) →
      ∃ x, s.daemon.answer (.name (.attempt o)) = .found x ∧ x.id = c

def Reclaim.owner : Reclaim → Attempt
  | .inspecting _ owner => owner
  | .fencing _ owner => owner
  | .reading _ owner _ _ => owner
  | .withdrawing _ owner _ _ => owner
  | .removing _ owner _ => owner
  | .evicting _ owner _ => owner
  | .unfencing _ owner _ _ => owner

def Reclaim.existing : Reclaim → Container
  | .inspecting existing _ => existing
  | .fencing existing _ => existing
  | .reading existing _ _ _ => existing
  | .withdrawing existing _ _ _ => existing
  | .removing existing _ _ => existing
  | .evicting existing _ _ => existing
  | .unfencing existing _ _ _ => existing

/-- What each sender deletes: a reclaimer, placeholders of the owner of the one
it examined. -/
def Deletes (d : Daemon) (c : ContainerId) : Sender → Prop
  | .execution _ => ∀ o, ¬Born d o c
  | .reclaimer stage => ∀ o, IsSlot d o c →
      o = stage.owner ∧ IsSlot d o stage.existing.id
  | .cleanup attempt => ∀ o, Born d o c → o = attempt

theorem Deletes.of_made {name : Name} {labels : Labels}
    (h : Deletes d c sender) (hmade : d.Made c name labels)
    (hmore : ∀ id name labels, d.Made id name labels → d'.Made id name labels) :
    Deletes d' c sender := by
  have hback : ∀ {name' labels'}, d'.Made c name' labels' →
      d.Made c name' labels' := by
    intro name' labels' hmade'
    obtain ⟨rfl, rfl⟩ := (hmore _ _ _ hmade).unique hmade'
    exact hmade
  cases sender with
  | execution _ => exact fun o hborn => h o (hback hborn)
  | reclaimer stage =>
    rintro o ⟨number, expires, hslot⟩
    obtain ⟨howner, number', expires', hexisting⟩ :=
      h o ⟨number, expires, hback hslot⟩
    exact ⟨howner, number', expires', hmore _ _ _ hexisting⟩
  | cleanup attempt => exact fun o hborn => h o (hback hborn)

theorem Sent.deletes (h : Sent sizes s sender (.delete c)) :
    Deletes s.daemon c sender := by
  cases h with
  | release hslot _ => exact fun o => hslot.not_born
  | @stage stage _ hstage hcall =>
    cases stage with
    | inspecting _ _ | fencing _ _ | reading _ _ _ _ => cases hcall
    | withdrawing existing owner fence reservation =>
      cases hcall
      intro o hslot
      cases hslot.owner_eq hstage.2.2.1
      exact ⟨rfl, hstage.1⟩
    | removing existing owner abandoned =>
      cases hcall
      exact fun o hslot => absurd hstage.2 hslot.not_born
    | evicting existing owner fenced =>
      cases hcall
      have hexisting : IsSlot s.daemon owner existing.id := by
        cases fenced <;> exact hstage.1
      intro o hslot
      cases hslot.owner_eq hexisting
      exact ⟨rfl, hexisting⟩
    | unfencing existing owner fence reservation =>
      cases hcall
      exact fun o hslot => absurd hstage.1 hslot.not_fence
  | withdraw _ hslot _ | sweep hslot _ =>
    exact fun o hborn => absurd hborn hslot.not_born
  | unfence hfence _ => exact fun o hborn => absurd hfence hborn.not_fence
  | remove hborn => exact fun o hborn' => hborn'.owner_eq hborn

/-- Only its removal has a reclaimer delete the container of an attempt. -/
theorem Sent.removing {stage : Reclaim}
    (h : Sent sizes s (.reclaimer stage) (.delete c))
    (hborn : Born s.daemon o c) :
    ∃ existing owner, stage = .removing existing owner c := by
  cases h with
  | stage hstage hcall =>
    cases stage with
    | inspecting _ _ | fencing _ _ | reading _ _ _ _ => cases hcall
    | withdrawing existing owner fence reservation =>
      cases hcall
      exact absurd hborn hstage.2.2.1.not_born
    | removing existing owner abandoned =>
      cases hcall
      exact ⟨existing, owner, rfl⟩
    | evicting existing owner fenced =>
      cases hcall
      have hexisting : IsSlot s.daemon owner existing.id := by
        cases fenced <;> exact hstage.1
      exact absurd hborn hexisting.not_born
    | unfencing existing owner fence reservation =>
      cases hcall
      exact absurd hstage.1 hborn.not_fence

/-- The record says who deleted what, and has every container that was started
and is gone. -/
structure Recorded (s : State) : Prop where
  entries : ∀ sender x, (sender, x) ∈ s.deletions →
    s.daemon.Made x.id x.name x.labels ∧ s.daemon.Gone x.id ∧
      Deletes s.daemon x.id sender
  started : ∀ c ∈ s.daemon.started, s.daemon.Present c ∨
    ∃ sender x, (sender, x) ∈ s.deletions ∧ x.id = c

theorem Recorded.serve (hinv : Inv sizes s)
    (hsent : Sent sizes s sender request) (h : Recorded s) :
    Recorded (s.serve sender request).1 where
  entries sender' x hentry := by
    have hserved := Daemon.serve_served s.daemon request
    have hevolves := serve_evolves hinv hsent
    rcases mem_deletions_serve.1 hentry with hold | ⟨rfl, rfl, hid, hstopped⟩
    · obtain ⟨hmade, hgone, hdeletes⟩ := h.entries sender' x hold
      exact ⟨hevolves.made _ _ _ hmade, hevolves.gone _ hgone,
        hdeletes.of_made hmade hevolves.made⟩
    · have hx := (Daemon.ofId_eq_some hid).1
      have hmade := hinv.sane.consistent.made x hx
      refine ⟨hevolves.made _ _ _ hmade, ?_,
        hsent.deletes.of_made hmade hevolves.made⟩
      refine gone_of_delete hserved hmade.lt (.inl ?_)
      simp only [Daemon.serve, hid, hstopped, ↓reduceIte]
  started c hstarted := by
    have hserved := Daemon.serve_served s.daemon request
    have hpresent : s.daemon.Present c ∨
        ∃ sender x, (sender, x) ∈ s.deletions ∧ x.id = c := by
      rcases hserved.started_cases hstarted with hold | ⟨-, x, hx, hid⟩
      · exact h.started c hold
      · exact .inl ⟨x, hx, hid⟩
    rcases hpresent with ⟨x, hx, rfl⟩ | ⟨sender', x, hentry, hid⟩
    · by_cases hdelete : request = .delete x.id
      · by_cases hrunning : x.status = .running
        · -- A running container is not deleted.
          subst hdelete
          refine .inl ⟨x, ?_, rfl⟩
          have hofId := hinv.sane.consistent.ofId_self hx
          simp only [serve_daemon, Daemon.serve, hofId, hrunning, ↓reduceIte]
          exact hx
        · refine .inr ⟨sender, x, mem_deletions_serve.2 (.inr ?_), rfl⟩
          exact ⟨rfl, hdelete,
            hinv.sane.consistent.ofId_self hx, hrunning⟩
      · obtain ⟨x', hx', hid, -⟩ := hserved.kept hx hdelete
        exact .inl ⟨x', hx', hid⟩
    · exact .inr ⟨sender', x, mem_deletions_serve.2 (.inl hentry), hid⟩

theorem Recorded.exit (h : Recorded s) (id : ContainerId) {s' : State}
    (hdaemon : s'.daemon = s.daemon.exit id)
    (hdeletions : s'.deletions = s.deletions) : Recorded s' where
  entries sender x hentry := by
    rw [hdeletions] at hentry
    rw [hdaemon]
    have hevolves := exit_evolves (fun _ => True) s.daemon id
    obtain ⟨hmade, hgone, hdeletes⟩ := h.entries sender x hentry
    exact ⟨hevolves.made _ _ _ hmade, hevolves.gone _ hgone,
      hdeletes.of_made hmade hevolves.made⟩
  started c hstarted := by
    rw [hdaemon, Daemon.exit_started] at hstarted
    rw [hdaemon, hdeletions]
    refine (h.started c hstarted).imp ?_ fun hrecord => hrecord
    rintro ⟨x, hx, rfl⟩
    obtain ⟨x', hx', hid, -⟩ := Daemon.exit_kept s.daemon id hx
    exact ⟨x', hx', hid⟩

theorem Recorded.of_eq (h : Recorded s) {s' : State}
    (hdaemon : s'.daemon = s.daemon)
    (hdeletions : s'.deletions = s.deletions) : Recorded s' where
  entries sender x hentry := by
    rw [hdeletions] at hentry
    rw [hdaemon]
    exact h.entries sender x hentry
  started c hstarted := by
    rw [hdaemon] at hstarted
    rw [hdaemon, hdeletions]
    exact h.started c hstarted

theorem step_recorded (hinv : Inv sizes s) (h : Recorded s) (action : Action) :
    Recorded (step sizes s action) := by
  cases step_worked sizes s action with
  | serves sender request hserved hdaemon hdeletions =>
    exact (h.serve hinv (served_sent hinv hserved)).of_eq hdaemon hdeletions
  | rests _ hdaemon hdeletions =>
    rcases hdaemon with hsame | ⟨id, hexit⟩
    · exact h.of_eq hsame hdeletions
    · exact h.exit id hexit hdeletions

theorem initial_recorded : Recorded State.initial where
  entries _ _ hentry := absurd hentry List.not_mem_nil
  started _ hstarted := absurd hstarted List.not_mem_nil

theorem initial_spared : Spared State.initial :=
  fun _ _ hentry => absurd hentry List.not_mem_nil

theorem serve_spared (hinv : Inv sizes s) (hrecorded : Recorded s)
    (hsent : Sent sizes s sender request) :
    Spared (s.serve sender request).1 ↔ Spared s ∧
      ∀ existing owner abandoned, sender =
        .reclaimer (.removing existing owner abandoned) →
          ∀ x ∈ s.daemon.containers, x.id = abandoned →
            x.status ≠ .exited := by
  have hserved := Daemon.serve_served s.daemon request
  have hconsistent := hinv.sane.consistent
  constructor
  · intro hspared
    refine ⟨fun stage x hentry hstarted => ?_, ?_⟩
    · exact hspared stage x (mem_deletions_serve.2 (.inl hentry))
        (hserved.started_grows hstarted)
    · rintro existing owner abandoned rfl x hx rfl hexited
      have hstarted : x.id ∈ s.daemon.started := by
        by_contra hnot
        have hcreated := (hconsistent.started x hx).2 hnot
        rw [hexited] at hcreated
        cases hcreated
      cases hsent with
      | stage _ hcall =>
        cases hcall
        have hentry : (Sender.reclaimer (.removing existing owner x.id), x) ∈
            (s.serve (.reclaimer (.removing existing owner x.id))
              (.delete x.id)).1.deletions :=
          mem_deletions_serve.2 (.inr ⟨rfl, rfl, hconsistent.ofId_self hx,
            by rw [hexited]; nofun⟩)
        exact hspared _ x hentry (hserved.started_grows hstarted)
  · rintro ⟨hspared, hspares⟩ stage x hentry hstarted
    rcases mem_deletions_serve.1 hentry with
      hold | ⟨hsender, rfl, hid, hstopped⟩
    · rcases hserved.started_cases hstarted with hbefore | ⟨-, y, hy, hid⟩
      · exact hspared stage x hold hbefore
      · exact (hrecorded.entries _ x hold).2.1.2 ⟨y, hy, hid⟩
    · cases hsender
      have hx := (Daemon.ofId_eq_some hid).1
      have hbefore : x.id ∈ s.daemon.started := by
        rcases hserved.started_cases hstarted with hbefore | ⟨hstart, -⟩
        · exact hbefore
        · cases hstart
      obtain ⟨o, hborn⟩ := hinv.sane.begun _ hbefore
      obtain ⟨existing, owner, rfl⟩ := hsent.removing hborn
      have hcreated : x.status = .created := by
        have hnot := hspares existing owner x.id rfl x hx rfl
        cases hstatus : x.status with
        | created => rfl
        | running => exact absurd hstatus hstopped
        | exited => exact absurd hstatus hnot
      exact (hconsistent.started x hx).1 hcreated hbefore

theorem step_spared (hinv : Inv sizes s) (hrecorded : Recorded s)
    (action : Action) :
    Spared (step sizes s action) ↔ Spared s ∧ Spares sizes s action := by
  cases step_worked sizes s action with
  | serves sender request hserved hdaemon hdeletions =>
    have hsent := served_sent hinv hserved
    have hsame : Spared (step sizes s action) ↔
        Spared (s.serve sender request).1 := by
      simp only [Spared, hdaemon, hdeletions]
    rw [hsame, serve_spared hinv hrecorded hsent]
    refine and_congr_right fun _ => ?_
    simp only [Spares, hserved, Option.some.injEq, Prod.mk.injEq]
    constructor
    · rintro hspares existing owner abandoned _ ⟨hsender, -⟩
      exact hspares existing owner abandoned hsender
    · intro hspares existing owner abandoned hsender
      exact hspares existing owner abandoned request ⟨hsender, rfl⟩
  | rests hnone hdaemon hdeletions =>
    have hstarted : (step sizes s action).daemon.started =
        s.daemon.started := by
      rcases hdaemon with hsame | ⟨id, hexit⟩
      · rw [hsame]
      · rw [hexit, Daemon.exit_started]
    simp only [Spared, Spares, hstarted, hdeletions, hnone]
    exact (and_iff_left (by nofun)).symm

theorem evidence_of_spared (hinv : Inv sizes s) (hrecorded : Recorded s)
    (hspared : Spared s) : EvidenceKept s := by
  have hremoved : ∀ sender x, (sender, x) ∈ s.deletions →
      x.id ∈ s.daemon.started →
        ∃ o, Born s.daemon o x.id ∧ sender = .cleanup o := by
    intro sender x hentry hstarted
    obtain ⟨o, hborn⟩ := hinv.sane.begun _ hstarted
    have hdeletes := (hrecorded.entries sender x hentry).2.2
    cases sender with
    | execution _ => exact absurd hborn (hdeletes o)
    | reclaimer stage => exact absurd hstarted (hspared stage x hentry)
    | cleanup attempt => exact ⟨o, hborn, by rw [hdeletes o hborn]⟩
  refine ⟨hspared, hremoved, fun o c hborn hstarted hnone => ?_⟩
  rcases hrecorded.started c hstarted with
    ⟨x, hx, rfl⟩ | ⟨sender, x, hentry, rfl⟩
  · have hname := (hinv.sane.consistent.of_made hx hborn).1
    cases hofName : s.daemon.ofName (.attempt o) with
    | none => exact absurd hname (Daemon.ofName_eq_none.1 hofName x hx)
    | some y =>
      obtain ⟨hy, hname'⟩ := Daemon.ofName_eq_some hofName
      refine ⟨y, by simp [Daemon.answer, hofName], ?_⟩
      rw [hinv.sane.consistent.eq_of_name hy hx (hname'.trans hname.symm)]
  · obtain ⟨o', hborn', rfl⟩ := hremoved sender x hentry hstarted
    cases hborn.owner_eq hborn'
    exact absurd rfl (hnone x hentry)

/-- A run keeps the evidence of every started attempt if and only if no removal
by a reclaimer reaches a container that has exited. -/
theorem evidence_kept_iff (sizes : Sizes) (actions : List Action) :
    EvidenceKept ((sandboxes sizes).after State.initial actions) ↔
      (sandboxes sizes).AllSteps (Spares sizes) State.initial actions := by
  have hstart : Inv sizes State.initial ∧ Recorded State.initial :=
    ⟨initial_inv sizes, initial_recorded⟩
  have hkeeps : ∀ s action, Inv sizes s ∧ Recorded s →
      Inv sizes (step sizes s action) ∧ Recorded (step sizes s action) :=
    fun s action h => ⟨step_inv h.1 action, step_recorded h.1 h.2 action⟩
  have hend : Inv sizes ((sandboxes sizes).after State.initial actions) ∧
      Recorded ((sandboxes sizes).after State.initial actions) :=
    Machine.after_invariant (fun s => Inv sizes s ∧ Recorded s) hkeeps hstart
      actions
  have hiff : Spared ((sandboxes sizes).after State.initial actions) ↔
      Spared State.initial ∧ (sandboxes sizes).AllSteps (Spares sizes)
        State.initial actions :=
    Machine.AllSteps.iff_after (fun s => Inv sizes s ∧ Recorded s) Spared hkeeps
      (fun s action h => step_spared h.1 h.2 action) hstart actions
  constructor
  · intro hkept
    exact (hiff.1 hkept.spared).2
  · intro hspares
    exact evidence_of_spared hend.1 hend.2 
      (hiff.2 ⟨initial_spared, hspares⟩)

namespace SandboxEvidenceWitness

def oneSlot : Sizes := ⟨1, fun _ => 1, fun _ => 1000000⟩

def moment (now : Int) : Input := ⟨now, true, false⟩

/-- Attempt 0 is slow between its last check and its start; attempt 1 finds its
slot expired and its container created. -/
def slowStart : List Action :=
  [Action.begin 0] ++ List.replicate 6 (Action.run 0 (moment 0)) ++ [Action.begin 1] ++
    List.replicate 4 (Action.run 1 (moment 100000))

/-- The container then runs and exits before the removal reaches it. -/
def lateRemoval : List Action :=
  [.run 0 (moment 1000), .exit 1, .run 1 (moment 100000)]

theorem evidence_is_destroyed :
    ¬EvidenceKept ((sandboxes oneSlot).after State.initial
      (slowStart ++ lateRemoval)) := by
  intro h
  refine h.spared (.removing ⟨0, .slot 0, .slot 0 90000, .created⟩ 0 1)
    ⟨1, .attempt 0, .attempt 0, .exited⟩ ?_ ?_
  · decide
  · decide

end SandboxEvidenceWitness

end Allrice.SandboxSlots
