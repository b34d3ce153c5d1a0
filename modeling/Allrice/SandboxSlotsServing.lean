/-
A served request leaves everybody's knowledge intact.  The daemon only moves on
in ways that the justifications of the requests allow.
-/
import Allrice.SandboxSlotsInvariant

namespace Allrice.SandboxSlots

open ContainerDaemon

variable {sizes : Sizes} {s : State} {d d' : Daemon} {o owner : Attempt}
  {c f q : ContainerId} {sender : Sender} {request : Request} {reply : Reply}

/-- What every process relies on: identities last, what is deleted or has ended
stays so, no fence goes before its placeholder, and an admitted attempt gets no
further placeholders. -/
structure Evolves (admitted : Attempt → Prop) (d d' : Daemon) : Prop where
  made : ∀ id name labels, d.Made id name labels → d'.Made id name labels
  length : d.made.length ≤ d'.made.length
  gone : ∀ id, d.Gone id → d'.Gone id
  ended : ∀ id, d.Ended id → d'.Ended id
  fenced : ∀ o q f, IsFence d o q f → q < d.made.length → Fenced d q f →
    Fenced d' q f
  slots : ∀ o, admitted o → ∀ x' ∈ d'.containers, ∀ expires,
    x'.labels = .slot o expires →
      ∃ x ∈ d.containers, x.id = x'.id ∧ x.labels = .slot o expires

variable {admitted : Attempt → Prop}

namespace Evolves

theorem born (h : Evolves admitted d d') (hborn : Born d o c) : Born d' o c :=
  h.made _ _ _ hborn

theorem isSlot (h : Evolves admitted d d') (hslot : IsSlot d o c) :
    IsSlot d' o c := by
  obtain ⟨number, expires, hmade⟩ := hslot
  exact ⟨number, expires, h.made _ _ _ hmade⟩

theorem isFence (h : Evolves admitted d d') (hfence : IsFence d o q f) :
    IsFence d' o q f := h.made _ _ _ hfence

theorem finished (h : Evolves admitted d d') (hfinished : Finished d o) :
    Finished d' o := by
  obtain ⟨c, hborn, hended⟩ := hfinished
  exact ⟨c, h.born hborn, h.ended c hended⟩

theorem holds {held : List Held} (h : Evolves admitted d d')
    (hholds : Holds d o held) : Holds d' o held := by
  refine ⟨fun item hitem => ?_, hholds.2⟩
  obtain ⟨expires, hmade⟩ := hholds.1 item hitem
  exact ⟨expires, h.made _ _ _ hmade⟩

theorem noSlots (h : Evolves admitted d d') (hadmitted : admitted o)
    (hnone : NoSlots d o) : NoSlots d' o := by
  intro x' hx' expires hlabels
  obtain ⟨x, hx, -, hsame⟩ := h.slots o hadmitted x' hx' expires hlabels
  exact hnone x hx expires hsame

theorem slotsWithin {ids : List ContainerId} (h : Evolves admitted d d')
    (hadmitted : admitted o) (hwithin : SlotsWithin d o ids) :
    SlotsWithin d' o ids := by
  intro x' hx' expires hlabels
  obtain ⟨x, hx, hid, hsame⟩ := h.slots o hadmitted x' hx' expires hlabels
  rw [← hid]
  exact hwithin x hx expires hsame

theorem stageOk (h : Evolves admitted d d') {stage : Reclaim}
    (hstage : StageOk d stage) : StageOk d' stage := by
  cases stage with
  | inspecting existing owner | fencing existing owner => exact h.isSlot hstage
  | reading existing owner fence reservation =>
    obtain ⟨hslot, hfence, hlt, hfenced⟩ := hstage
    exact ⟨h.isSlot hslot, h.isFence hfence, hlt.trans_le h.length,
      h.fenced _ _ _ hfence hlt hfenced⟩
  | withdrawing existing owner fence reservation =>
    obtain ⟨hslot, hfence, hreservation, hfenced⟩ := hstage
    obtain ⟨_, _, hmade⟩ := hreservation
    exact ⟨h.isSlot hslot, h.isFence hfence, h.isSlot ⟨_, _, hmade⟩,
      h.fenced _ _ _ hfence hmade.lt hfenced⟩
  | removing existing owner abandoned =>
    exact ⟨h.isSlot hstage.1, h.born hstage.2⟩
  | evicting existing owner fenced =>
    cases fenced with
    | none => exact ⟨h.isSlot hstage.1, h.finished hstage.2⟩
    | some pair =>
      exact ⟨h.isSlot hstage.1, h.isFence hstage.2.1,
        h.gone _ hstage.2.2⟩
  | unfencing existing owner fence reservation =>
    exact ⟨h.isFence hstage.1, h.gone _ hstage.2⟩

theorem cleanupOk (h : Evolves admitted d d')
    (hadmitted : ∀ c, Born d o c → admitted o) {stage : Cleanup}
    (hstage : CleanupOk d o stage) : CleanupOk d' o stage := by
  cases stage with
  | inspecting => trivial
  | reading fence reservation =>
    obtain ⟨hfence, hlt, hfenced⟩ := hstage
    exact ⟨h.isFence hfence, hlt.trans_le h.length,
      h.fenced _ _ _ hfence hlt hfenced⟩
  | withdrawing fence reservation =>
    obtain ⟨hfence, ⟨_, _, hmade⟩, hfenced⟩ := hstage
    exact ⟨h.isFence hfence, h.isSlot ⟨_, _, hmade⟩,
      h.fenced _ _ _ hfence hmade.lt hfenced⟩
  | listing container => exact ⟨h.born hstage.1, h.ended _ hstage.2⟩
  | sweeping container rest =>
    obtain ⟨hborn, hended, hwithin⟩ := hstage
    exact ⟨h.born hborn, h.ended _ hended,
      h.slotsWithin (hadmitted _ hborn) hwithin⟩
  | dropping container rest =>
    obtain ⟨hborn, hended, hwithin, hhead⟩ := hstage
    exact ⟨h.born hborn, h.ended _ hended,
      h.slotsWithin (hadmitted _ hborn) hwithin,
      fun id hid => h.isSlot (hhead id hid)⟩
  | confirming container rest =>
    obtain ⟨hborn, hended, hwithin⟩ := hstage
    exact ⟨h.born hborn, h.ended _ hended,
      h.slotsWithin (hadmitted _ hborn) hwithin⟩
  | rechecking container =>
    obtain ⟨hborn, hended, hnone⟩ := hstage
    exact ⟨h.born hborn, h.ended _ hended,
      h.noSlots (hadmitted _ hborn) hnone⟩
  | deleting container exited =>
    cases exited with
    | true =>
      obtain ⟨hborn, hended, hnone⟩ := hstage
      exact ⟨h.born hborn, h.ended _ hended,
        h.noSlots (hadmitted _ hborn) hnone⟩
    | false =>
      rcases hstage with hborn | ⟨q, hfence, hgone⟩
      · exact .inl (h.born hborn)
      · exact .inr ⟨q, h.isFence hfence, h.gone _ hgone⟩
  | verifying container exited =>
    cases exited with
    | true =>
      obtain ⟨hborn, hgone, hnone⟩ := hstage
      exact ⟨h.born hborn, h.gone _ hgone,
        h.noSlots (hadmitted _ hborn) hnone⟩
    | false => trivial
  | returned exited =>
    cases exited with
    | none => trivial
    | some container =>
      obtain ⟨hborn, hgone, hnone⟩ := hstage
      exact ⟨h.born hborn, h.gone _ hgone,
        h.noSlots (hadmitted _ hborn) hnone⟩
  | failed => trivial

end Evolves

/-- The requests that the daemon may serve. -/
structure Tame (admitted : Attempt → Prop) (d : Daemon) (request : Request) :
    Prop where
  starts : ∀ c, request = .start c → c ∉ d.started
  fences : ∀ o q f, request = .delete f → IsFence d o q f → d.Gone q
  slots : ∀ name o expires, request = .create name (.slot o expires) →
    ¬admitted o

theorem Sent.tame (h : Sent sizes s sender request) :
    Tame (fun o => s.admissions o ≠ none) s.daemon request where
  starts c hrequest := by
    cases h with
    | start _ hfresh _ =>
      cases hrequest
      exact hfresh
    | slot _ _ _ | attempt _ _ _ | release _ _ | fence _ | stage _ _
    | withdraw _ _ _ | sweep _ _ | unfence _ _ | remove _ => cases hrequest
  fences o q f hrequest hfence := by
    subst hrequest
    exact h.delete_fence hfence
  slots name o expires hrequest := by
    cases h with
    | slot hnone _ _ =>
      cases hrequest
      exact not_not.2 hnone
    | attempt _ _ _ | start _ _ _ | release _ _ | fence _ | stage _ _
    | withdraw _ _ _ | sweep _ _ | unfence _ _ | remove _ => cases hrequest

/-- An ended container that is there has been started. -/
theorem Sane.started_of_ended (h : Sane sizes d) (hended : d.Ended c) :
    d.Gone c ∨ c ∈ d.started := by
  by_cases hpresent : d.Present c
  · obtain ⟨x, hx, rfl⟩ := hpresent
    refine .inr ?_
    have hstatus := (h.consistent.started x hx).not.1
      (by simp [hended.2 x hx rfl])
    simpa using hstatus
  · exact .inl ⟨hended.1, hpresent⟩

theorem Tame.evolves (h : Tame admitted d request) (hsane : Sane sizes d)
    (hserved : Daemon.Served d request d' reply) : Evolves admitted d d' where
  made id name labels hmade := hmade.append hserved.made
  length := hserved.made_length
  gone id hgone := hgone.served hserved
  ended id hended := by
    rcases hsane.started_of_ended hended with hgone | hstarted
    · exact (hgone.served hserved).ended
    · refine hended.served hserved ?_
      intro hrequest
      exact h.starts id hrequest hstarted
  fenced o q f hfence hlt hfenced := by
    rintro ⟨x', hx', rfl⟩
    obtain ⟨x, hx, hid, -⟩ := hserved.old hx' hlt
    obtain ⟨y, hy, rfl⟩ := hfenced ⟨x, hx, hid⟩
    by_cases hrequest : request = .delete y.id
    · exact absurd ⟨x, hx, hid⟩ (h.fences o _ _ hrequest hfence).2
    · obtain ⟨y', hy', hid', -⟩ := hserved.kept hy hrequest
      exact ⟨y', hy', hid'⟩
  slots o hadmitted x' hx' expires hlabels := by
    by_cases hold : x'.id < d.made.length
    · obtain ⟨x, hx, hid, -, hsame, -⟩ := hserved.old hx' hold
      exact ⟨x, hx, hid, hsame.trans hlabels⟩
    · cases hserved with
      | created _ =>
        rcases List.mem_append.1 hx' with hbefore | hnew
        · exact absurd (hsane.consistent.lt hbefore) hold
        · rw [List.mem_singleton.1 hnew] at hlabels
          simp only at hlabels
          subst hlabels
          exact absurd hadmitted (h.slots _ o expires rfl)
      | taken _ _ | busy _ _ _ | missing _ _ =>
        exact absurd (hsane.consistent.lt hx') hold
      | deleted _ _ =>
        exact absurd (hsane.consistent.lt (List.mem_of_mem_filter hx')) hold
      | started _ _ =>
        obtain ⟨x, hx, rfl⟩ := Daemon.mem_setStatus.1 hx'
        have hlt := hsane.consistent.lt hx
        split at hold <;> exact absurd hlt hold

theorem exit_evolves (admitted : Attempt → Prop) (d : Daemon)
    (id : ContainerId) : Evolves admitted d (d.exit id) where
  made id' name labels hmade := by
    rw [Daemon.Made, Daemon.exit_made]
    exact hmade
  length := by rw [Daemon.exit_made]
  gone id' hgone := hgone.exit id
  ended id' hended := hended.exit id
  fenced o q f _ _ hfenced := by
    rintro ⟨x', hx', rfl⟩
    obtain ⟨x, hx, hid, -⟩ := Daemon.exit_old d id hx'
    obtain ⟨y, hy, rfl⟩ := hfenced ⟨x, hx, hid⟩
    obtain ⟨y', hy', hid', -⟩ := Daemon.exit_kept d id hy
    exact ⟨y', hy', hid'⟩
  slots o _ x' hx' expires hlabels := by
    obtain ⟨x, hx, hid, -, hsame, -⟩ := Daemon.exit_old d id hx'
    exact ⟨x, hx, hid, hsame.trans hlabels⟩

theorem empty_sane (sizes : Sizes) : Sane sizes Daemon.empty where
  consistent := Daemon.empty_consistent
  named id name labels hmade := by simp [Daemon.Made, Daemon.empty] at hmade
  one o c c' hborn := by simp [Born, Daemon.Made, Daemon.empty] at hborn
  begun := nofun

variable {name : Name} {labels : Labels}

theorem Named.mono {bound bound' : Nat} (h : Named sizes bound name labels)
    (hle : bound ≤ bound') : Named sizes bound' name labels := by
  cases name with
  | slot number => cases labels <;> exact h
  | attempt attempt =>
    cases labels with
    | slot _ _ | attempt _ => exact h
    | fence owner reservation => exact ⟨h.1, h.2.trans_le hle⟩

/-- Names and labels of a justified creation belong together. -/
theorem Sent.named (h : Sent sizes s sender (.create name labels)) :
    Named sizes s.daemon.made.length name labels := by
  cases h with
  | slot _ hlt _ => exact hlt
  | attempt _ _ _ => exact rfl
  | fence hslot =>
    obtain ⟨_, _, hmade⟩ := hslot
    exact ⟨rfl, hmade.lt⟩

theorem Sent.unborn (h : Sent sizes s sender
    (.create (.attempt o) (.attempt o))) : ∀ c, ¬Born s.daemon o c := by
  cases h with
  | attempt _ hunborn _ => exact hunborn

theorem Sent.born (h : Sent sizes s sender (.start c)) :
    ∃ o, sender = .execution o ∧ Born s.daemon o c ∧ c ∉ s.daemon.started ∧
      FromExecution s o (.start c) := by
  cases h with
  | @start o _ hborn hfresh hfrom => exact ⟨o, rfl, hborn, hfresh, hfrom⟩

theorem Sane.served (h : Sane sizes s.daemon)
    (hsent : Sent sizes s sender request)
    (hserved : Daemon.Served s.daemon request d' reply) : Sane sizes d' where
  consistent := h.consistent.served hserved
  named id name labels hmade := by
    rcases hserved.made_cases hmade with hold | ⟨-, rfl, -⟩
    · exact (h.named _ _ _ hold).mono hserved.made_length
    · exact hsent.named.mono hserved.made_length
  one o c c' hborn hborn' := by
    rcases hserved.made_cases hborn with hold | ⟨hid, hrequest, -⟩
    · rcases hserved.made_cases hborn' with hold' | ⟨-, hrequest', -⟩
      · exact h.one o c c' hold hold'
      · subst hrequest'
        exact absurd hold (hsent.unborn c)
    · rcases hserved.made_cases hborn' with hold' | ⟨hid', -, -⟩
      · subst hrequest
        exact absurd hold' (hsent.unborn c')
      · exact hid.trans hid'.symm
  begun c hc := by
    rcases hserved.started_cases hc with hold | ⟨rfl, -⟩
    · obtain ⟨o, hborn⟩ := h.begun c hold
      exact ⟨o, hborn.append hserved.made⟩
    · obtain ⟨o, -, hborn, -⟩ := hsent.born
      exact ⟨o, hborn.append hserved.made⟩

theorem Sane.exit (h : Sane sizes d) (id : ContainerId) :
    Sane sizes (d.exit id) where
  consistent := h.consistent.exit id
  named id' name labels hmade := by
    rw [Daemon.Made, Daemon.exit_made] at hmade
    rw [Daemon.exit_made]
    exact h.named _ _ _ hmade
  one o c c' hborn hborn' := by
    rw [Born, Daemon.Made, Daemon.exit_made] at hborn hborn'
    exact h.one o c c' hborn hborn'
  begun c hc := by
    rw [Daemon.exit_started] at hc
    obtain ⟨o, hborn⟩ := h.begun c hc
    exact ⟨o, by rw [Born, Daemon.Made, Daemon.exit_made]; exact hborn⟩

end Allrice.SandboxSlots
