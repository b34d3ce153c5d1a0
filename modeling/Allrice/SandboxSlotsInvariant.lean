/-
What the processes of the sandbox slots know.  Each stage of a reclamation or of
a cleanup carries facts about the daemon that no request can undo, and every
request on its way is justified by such facts.
-/
import Allrice.SandboxSlots

namespace Allrice.SandboxSlots

open ContainerDaemon

variable {sizes : Sizes} {s : State} {d d' : Daemon} {o owner : Attempt}
  {c f q : ContainerId}

/-- The container of an attempt. -/
def Born (d : Daemon) (o : Attempt) (c : ContainerId) : Prop :=
  d.Made c (.attempt o) (.attempt o)

/-- A placeholder of an attempt. -/
def IsSlot (d : Daemon) (o : Attempt) (c : ContainerId) : Prop :=
  ∃ number expires, d.Made c (.slot number) (.slot o expires)

/-- A fence of an attempt, for a placeholder. -/
def IsFence (d : Daemon) (o : Attempt) (q f : ContainerId) : Prop :=
  d.Made f (.attempt o) (.fence o q)

/-- No placeholder of the attempt is left. -/
def NoSlots (d : Daemon) (o : Attempt) : Prop :=
  ∀ x ∈ d.containers, ∀ expires, x.labels ≠ .slot o expires

/-- While the placeholder of a fence is there, so is the fence. -/
def Fenced (d : Daemon) (q f : ContainerId) : Prop :=
  d.Present q → d.Present f

/-- Names and labels belong together. -/
def Named (sizes : Sizes) (bound : Nat) : Name → Labels → Prop
  | .slot number, .slot _ _ => number < sizes.slots
  | .attempt attempt, .attempt attempt' => attempt = attempt'
  | .attempt attempt, .fence owner reservation =>
    attempt = owner ∧ reservation < bound
  | _, _ => False

structure Sane (sizes : Sizes) (d : Daemon) : Prop where
  consistent : d.Consistent
  named : ∀ id name labels, d.Made id name labels →
    Named sizes d.made.length name labels
  one : ∀ o c c', Born d o c → Born d o c' → c = c'
  begun : ∀ c ∈ d.started, ∃ o, Born d o c

theorem IsSlot.not_born (h : IsSlot d o c) : ¬Born d owner c := by
  obtain ⟨number, expires, hmade⟩ := h
  intro hborn
  cases (hmade.unique hborn).1

theorem IsSlot.not_fence (h : IsSlot d o c) : ¬IsFence d owner q c := by
  obtain ⟨number, expires, hmade⟩ := h
  intro hfence
  cases (hmade.unique hfence).1

theorem IsSlot.owner_eq (h : IsSlot d o c) (h' : IsSlot d owner c) :
    o = owner := by
  obtain ⟨_, _, hmade⟩ := h
  obtain ⟨_, _, hmade'⟩ := h'
  exact (Labels.slot.inj (hmade.unique hmade').2).1

theorem Born.not_fence (h : Born d o c) : ¬IsFence d owner q c := by
  intro hfence
  cases (h.unique hfence).2

theorem Born.owner_eq (h : Born d o c) (h' : Born d owner c) : o = owner :=
  Labels.attempt.inj (h.unique h').2

theorem IsFence.reservation_eq {q' : ContainerId} (h : IsFence d o q f)
    (h' : IsFence d owner q' f) : q = q' :=
  (Labels.fence.inj (h.unique h').2).2

/-- Containers other than those of attempts have never started. -/
theorem Sane.created (h : Sane sizes d) {x : Container} (hx : x ∈ d.containers)
    (hlabels : ∀ attempt, x.labels ≠ .attempt attempt) :
    x.status = .created := by
  rw [h.consistent.started x hx]
  intro hstarted
  obtain ⟨o, hborn⟩ := h.begun _ hstarted
  exact hlabels o (h.consistent.of_made hx hborn).2

/-- What is under the name of an attempt. -/
theorem Sane.under_attempt (h : Sane sizes d) {x : Container}
    (hx : x ∈ d.containers) (hname : x.name = .attempt o) :
    x.labels = .attempt o ∧ Born d o x.id ∨
      ∃ q, x.labels = .fence o q ∧ IsFence d o q x.id ∧ q < d.made.length := by
  have hmade := h.consistent.made x hx
  have hnamed := h.named _ _ _ hmade
  rw [hname] at hmade hnamed
  cases hlabels : x.labels with
  | slot _ _ => simp [Named, hlabels] at hnamed
  | attempt attempt =>
    rw [hlabels] at hmade hnamed
    cases (show o = attempt from hnamed)
    exact .inl ⟨rfl, hmade⟩
  | fence attempt reservation =>
    rw [hlabels] at hmade hnamed
    obtain ⟨rfl, hlt⟩ := (show o = attempt ∧ _ from hnamed)
    exact .inr ⟨reservation, rfl, hmade, hlt⟩

/-- What has the labels of a placeholder is one. -/
theorem Sane.of_slot (h : Sane sizes d) {x : Container} (hx : x ∈ d.containers)
    {expires : Int} (hlabels : x.labels = .slot o expires) :
    ∃ number, x.name = .slot number ∧ d.Made x.id (.slot number)
      (.slot o expires) := by
  have hmade := h.consistent.made x hx
  have hnamed := h.named _ _ _ hmade
  rw [hlabels] at hmade hnamed
  cases hname : x.name with
  | slot number => exact ⟨number, rfl, by rwa [hname] at hmade⟩
  | attempt _ => simp [Named, hname] at hnamed

/-- The attempt's container is out of the way for good. -/
def Finished (d : Daemon) (o : Attempt) : Prop :=
  ∃ c, Born d o c ∧ d.Ended c

def StageOk (d : Daemon) : Reclaim → Prop
  | .inspecting existing owner => IsSlot d owner existing.id
  | .fencing existing owner => IsSlot d owner existing.id
  | .reading existing owner fence reservation =>
    IsSlot d owner existing.id ∧ IsFence d owner reservation fence ∧
      reservation < d.made.length ∧ Fenced d reservation fence
  | .withdrawing existing owner fence reservation =>
    IsSlot d owner existing.id ∧ IsFence d owner reservation fence ∧
      IsSlot d owner reservation ∧ Fenced d reservation fence
  | .removing existing owner abandoned =>
    IsSlot d owner existing.id ∧ Born d owner abandoned
  | .evicting existing owner none =>
    IsSlot d owner existing.id ∧ Finished d owner
  | .evicting existing owner (some (fence, reservation)) =>
    IsSlot d owner existing.id ∧ IsFence d owner reservation fence ∧
      d.Gone reservation
  | .unfencing _ owner fence reservation =>
    IsFence d owner reservation fence ∧ d.Gone reservation

/-- Every placeholder left of the attempt is one of these. -/
def SlotsWithin (d : Daemon) (o : Attempt) (ids : List ContainerId) : Prop :=
  ∀ x ∈ d.containers, ∀ expires, x.labels = .slot o expires → x.id ∈ ids

def CleanupOk (d : Daemon) (o : Attempt) : Cleanup → Prop
  | .inspecting => True
  | .reading fence reservation =>
    IsFence d o reservation fence ∧ reservation < d.made.length ∧
      Fenced d reservation fence
  | .withdrawing fence reservation =>
    IsFence d o reservation fence ∧ IsSlot d o reservation ∧
      Fenced d reservation fence
  | .listing container => Born d o container ∧ d.Ended container
  | .sweeping container rest =>
    Born d o container ∧ d.Ended container ∧ SlotsWithin d o rest
  | .dropping container rest =>
    Born d o container ∧ d.Ended container ∧ SlotsWithin d o rest ∧
      ∀ id ∈ rest.head?, IsSlot d o id
  | .confirming container rest =>
    Born d o container ∧ d.Ended container ∧ SlotsWithin d o rest
  | .rechecking container =>
    Born d o container ∧ d.Ended container ∧ NoSlots d o
  | .deleting container true =>
    Born d o container ∧ d.Ended container ∧ NoSlots d o
  | .deleting container false =>
    Born d o container ∨ ∃ q, IsFence d o q container ∧ d.Gone q
  | .verifying container true =>
    Born d o container ∧ d.Gone container ∧ NoSlots d o
  | .verifying _ false => True
  | .returned (some container) =>
    Born d o container ∧ d.Gone container ∧ NoSlots d o
  | .returned none => True
  | .failed => True

/-- No request of the execution is on its way. -/
def Silent (s : State) (o : Attempt) : Prop :=
  ∀ request, (Sender.execution o, request) ∉ s.orphans

def Waiting (s : State) (o : Attempt) : Prop :=
  s.admissions o = none ∧ Silent s o

/-- The container of the attempt, if any, has ended or is never started. -/
def Quiet (s : State) (o : Attempt) : Prop :=
  ∀ c, Born s.daemon o c → s.daemon.Ended c ∨
    (Sender.execution o, Request.start c) ∉ s.orphans ∧ c ∉ s.daemon.started

/-- The execution no longer needs its placeholders. -/
def Spent (s : State) (o : Attempt) : Prop :=
  s.admissions o = none ∨ Quiet s o

def Holds (d : Daemon) (o : Attempt) (held : List Held) : Prop :=
  (∀ h ∈ held, ∃ expires, d.Made h.id (.slot h.slot) (.slot o expires)) ∧
    (held.map (·.id)).Nodup

/-- The container was created and not started. -/
def Ready (s : State) (o : Attempt) (held : List Held) (c : ContainerId) :
    Prop :=
  s.admissions o = some held ∧ Silent s o ∧ Born s.daemon o c ∧
    c ∉ s.daemon.started

def ExecutionOk (sizes : Sizes) (s : State) (o : Attempt) : Execution → Prop
  | .idle => Waiting s o
  | .looping => Waiting s o
  | .claiming slot held =>
    Waiting s o ∧ slot < sizes.slots ∧ Holds s.daemon o held
  | .reading _ held => Waiting s o ∧ Holds s.daemon o held
  | .reclaiming _ held stage =>
    Waiting s o ∧ Holds s.daemon o held ∧ StageOk s.daemon stage
  | .releasing held .loop => Waiting s o ∧ Holds s.daemon o held
  | .releasing held .stop => Spent s o ∧ Holds s.daemon o held
  | .admitted held =>
    s.admissions o = some held ∧ Silent s o ∧ ∀ c, ¬Born s.daemon o c
  | .created held container => Ready s o held container
  | .checking held container _ => Ready s o held container
  | .starting held container => Ready s o held container
  | .started held => s.admissions o = some held ∧ Silent s o
  | .finishing held => s.admissions o = some held
  | .ended => True

/-- From here on the execution only releases. -/
def Late : Execution → Prop
  | .releasing _ .stop => True
  | .finishing _ => True
  | .ended => True
  | _ => False

/-- An execution with a request on its way is late. -/
theorem ExecutionOk.late {state : Execution} (h : ExecutionOk sizes s o state)
    {request : Request} (horphan : (Sender.execution o, request) ∈ s.orphans) :
    Late state := by
  cases state with
  | idle | looping => exact absurd horphan (h.2 _)
  | claiming _ _ | reading _ _ | reclaiming _ _ _ =>
    exact absurd horphan (h.1.2 _)
  | releasing held afterwards =>
    cases afterwards with
    | loop => exact absurd horphan (h.1.2 _)
    | stop => trivial
  | admitted _ | created _ _ | checking _ _ _ | starting _ _ =>
    exact absurd horphan (h.2.1 _)
  | started _ => exact absurd horphan (h.2 _)
  | finishing _ | ended => trivial

/-- A request of an execution is on its way, or is its next one. -/
def FromExecution (s : State) (o : Attempt) (request : Request) : Prop :=
  (Sender.execution o, request) ∈ s.orphans ∨
    Silent s o ∧ ¬Late (s.executions o)

inductive Sent (sizes : Sizes) (s : State) : Sender → Request → Prop
  | slot {o : Attempt} {number : Nat} {expires : Int} :
      s.admissions o = none → number < sizes.slots →
      FromExecution s o (.create (.slot number) (.slot o expires)) →
      Sent sizes s (.execution o) (.create (.slot number) (.slot o expires))
  | attempt {o : Attempt} : s.admissions o ≠ none → (∀ c, ¬Born s.daemon o c) →
      FromExecution s o (.create (.attempt o) (.attempt o)) →
      Sent sizes s (.execution o) (.create (.attempt o) (.attempt o))
  | start {o : Attempt} {c : ContainerId} :
      Born s.daemon o c → c ∉ s.daemon.started →
      FromExecution s o (.start c) →
      Sent sizes s (.execution o) (.start c)
  | release {o : Attempt} {id : ContainerId} : IsSlot s.daemon o id →
      (s.admissions o = none ∨ Quiet s o ∧ Late (s.executions o)) →
      Sent sizes s (.execution o) (.delete id)
  | fence {existing : Container} {owner : Attempt} :
      IsSlot s.daemon owner existing.id →
      Sent sizes s (.reclaimer (.fencing existing owner))
        (.create (.attempt owner) (.fence owner existing.id))
  | stage {stage : Reclaim} {id : ContainerId} : StageOk s.daemon stage →
      stage.call = .send (.reclaimer stage) (.delete id) →
      Sent sizes s (.reclaimer stage) (.delete id)
  | withdraw {o : Attempt} {f q : ContainerId} :
      IsFence s.daemon o q f → IsSlot s.daemon o q →
      Fenced s.daemon q f → Sent sizes s (.cleanup o) (.delete q)
  | sweep {o : Attempt} {id : ContainerId} :
      IsSlot s.daemon o id → Finished s.daemon o →
      Sent sizes s (.cleanup o) (.delete id)
  | unfence {o : Attempt} {f q : ContainerId} :
      IsFence s.daemon o q f → s.daemon.Gone q →
      Sent sizes s (.cleanup o) (.delete f)
  | remove {o : Attempt} {c : ContainerId} : Born s.daemon o c →
      Sent sizes s (.cleanup o) (.delete c)

/-- A deleted fence has lost its placeholder before. -/
theorem Sent.delete_fence {sender : Sender}
    (h : Sent sizes s sender (.delete f)) (hfence : IsFence s.daemon o q f) :
    s.daemon.Gone q := by
  cases h with
  | release hslot _ => exact absurd hfence hslot.not_fence
  | @stage stage id hstage hcall =>
    cases stage with
    | inspecting _ _ | fencing _ _ | reading _ _ _ _ => cases hcall
    | withdrawing existing owner fence reservation =>
      cases hcall
      exact absurd hfence hstage.2.2.1.not_fence
    | removing existing owner abandoned =>
      cases hcall
      exact absurd hfence hstage.2.not_fence
    | evicting existing owner fenced =>
      cases hcall
      cases fenced with
      | none | some pair => exact absurd hfence hstage.1.not_fence
    | unfencing existing owner fence reservation =>
      cases hcall
      rw [hfence.reservation_eq hstage.1]
      exact hstage.2
  | withdraw _ hslot _ | sweep hslot _ => exact absurd hfence hslot.not_fence
  | unfence hfence' hgone =>
    rw [hfence.reservation_eq hfence']
    exact hgone
  | remove hborn => exact absurd hfence hborn.not_fence

end Allrice.SandboxSlots
