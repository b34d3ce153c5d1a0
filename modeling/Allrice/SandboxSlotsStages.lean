/-
One step of a reclamation or of a cleanup: its request is justified by what it
knows, and the reply gives it what it needs to know next.
-/
import Allrice.SandboxSlotsServing

namespace Allrice.SandboxSlots

open ContainerDaemon

variable {sizes : Sizes} {s : State} {d d' : Daemon} {o owner : Attempt}
  {c f q : ContainerId} {sender : Sender} {request : Request} {reply : Reply}
  {query : Query} {admitted : Attempt → Prop} {stage next : Reclaim}
  {x : Container} {name : Name}

theorem answer_name_found (h : d.answer (.name name) = .found x) :
    x ∈ d.containers ∧ x.name = name := by
  simp only [Daemon.answer] at h
  cases hname : d.ofName name with
  | none => simp [hname] at h
  | some y =>
    simp only [hname, Option.map_some, Option.getD_some,
      Reply.found.injEq] at h
    subst h
    exact Daemon.ofName_eq_some hname

theorem answer_name_missing (h : d.answer (.name name) = .missing) :
    ∀ x ∈ d.containers, x.name ≠ name := by
  simp only [Daemon.answer] at h
  cases hname : d.ofName name with
  | none => exact Daemon.ofName_eq_none.1 hname
  | some y => simp [hname] at h

theorem answer_id_found (h : d.answer (.id c) = .found x) :
    x ∈ d.containers ∧ x.id = c := by
  simp only [Daemon.answer] at h
  cases hid : d.ofId c with
  | none => simp [hid] at h
  | some y =>
    simp only [hid, Option.map_some, Option.getD_some, Reply.found.injEq] at h
    subst h
    exact Daemon.ofId_eq_some hid

theorem answer_id_missing (h : d.answer (.id c) = .missing) :
    ¬d.Present c := by
  simp only [Daemon.answer] at h
  cases hid : d.ofId c with
  | none => exact Daemon.ofId_eq_none.1 hid
  | some y => simp [hid] at h

/-- A container is gone when its deletion was done or it was missing. -/
theorem gone_of_delete (hserved : Daemon.Served d (.delete c) d' reply)
    (hlt : c < d.made.length) (hreply : reply = .done ∨ reply = .missing) :
    d'.Gone c := by
  refine ⟨hlt.trans_le hserved.made_length, ?_⟩
  cases hserved with
  | deleted _ _ =>
    rintro ⟨x, hx, hid⟩
    have hother := (List.mem_filter.1 hx).2
    simp only [decide_eq_true_eq] at hother
    exact hother hid
  | missing hmissing hrequest =>
    rcases hrequest with hsame | hother
    · cases hsame
      exact hmissing
    · cases hother
  | busy _ _ _ => rcases hreply with hdone | hmissing <;> contradiction

theorem ended_of_exited (h : d.Consistent) (hx : x ∈ d.containers)
    (hstatus : x.status = .exited) : d.Ended x.id := by
  refine ⟨h.lt hx, fun y hy hid => ?_⟩
  rw [h.eq_of_id hy hx hid]
  exact hstatus

theorem Born.lt (h : Born d o c) : c < d.made.length :=
  Daemon.Made.lt h

theorem IsSlot.lt (h : IsSlot d o c) : c < d.made.length := by
  obtain ⟨_, _, hmade⟩ := h
  exact hmade.lt

theorem created_present (hserved : Daemon.Served d request d' (.created c)) :
    d'.Present c := by
  cases hserved with
  | created _ =>
    exact ⟨_, List.mem_append_right _ (List.mem_singleton_self _), rfl⟩

/-- A reclamation that asks learns what its next stage needs. -/
theorem stage_ask (hsane : Sane sizes d) (hstage : StageOk d stage)
    (hcall : stage.call = .ask query)
    (hresume : stage.resume (d.answer query) = .goesOn next) :
    StageOk d next := by
  cases stage with
  | fencing _ _ | withdrawing _ _ _ _ | removing _ _ _ | evicting _ _ _
  | unfencing _ _ _ _ => cases hcall
  | inspecting existing owner =>
    cases hcall
    cases hanswer : d.answer (.name (.attempt owner)) with
    | missing =>
      rw [hanswer] at hresume
      cases hresume
      exact hstage
    | found x =>
      obtain ⟨hx, hname⟩ := answer_name_found hanswer
      rw [hanswer] at hresume
      simp only [Reclaim.resume] at hresume
      split at hresume
      · cases hresume
      split at hresume
      · cases hresume
      rename_i _ hrunning
      rcases hsane.under_attempt hx hname with
        ⟨hlabels, hborn⟩ | ⟨q, hlabels, hfence, hlt⟩
      · simp only [hlabels] at hresume
        split at hresume
        · cases hresume
          exact ⟨hstage, hborn⟩
        · rename_i hcreated
          cases hresume
          have hexited : x.status = .exited := by
            cases hstatus : x.status <;> simp_all
          exact ⟨hstage, x.id, hborn,
            ended_of_exited hsane.consistent hx hexited⟩
      · simp only [hlabels] at hresume
        split at hresume
        · cases hresume
          exact ⟨hstage, hfence, hlt, fun _ => ⟨x, hx, rfl⟩⟩
        · cases hresume
    | created _ | ids _ | done | conflict =>
      rw [hanswer] at hresume; cases hresume
  | reading existing owner fence reservation =>
    cases hcall
    obtain ⟨hslot, hfence, hlt, hfenced⟩ := hstage
    cases hanswer : d.answer (.id reservation) with
    | missing =>
      rw [hanswer] at hresume
      cases hresume
      exact ⟨hslot, hfence, hlt, answer_id_missing hanswer⟩
    | found x =>
      obtain ⟨hx, rfl⟩ := answer_id_found hanswer
      rw [hanswer] at hresume
      simp only [Reclaim.resume] at hresume
      split at hresume
      · rename_i attempt expires hlabels
        split at hresume
        · rename_i hmatches
          cases hresume
          obtain ⟨number, -, hmade⟩ := hsane.of_slot hx hlabels
          rw [hmatches.1] at hmade
          exact ⟨hslot, hfence, ⟨number, expires, hmade⟩, hfenced⟩
        · cases hresume
      · cases hresume
    | created _ | ids _ | done | conflict =>
      rw [hanswer] at hresume; cases hresume

/-- A stage that follows an answered deletion. -/
theorem resumed_deletion (hresume : stage.resume reply = .goesOn next)
    (hcall : ∃ id, stage.call = .send sender (.delete id)) :
    reply = .done ∨ reply = .missing := by
  obtain ⟨id, hcall⟩ := hcall
  cases stage with
  | inspecting _ _ | fencing _ _ | reading _ _ _ _ => cases hcall
  | withdrawing _ _ _ _ | removing _ _ _ | evicting _ _ _ =>
    cases reply <;> first | exact .inl rfl | exact .inr rfl | cases hresume
  | unfencing _ _ _ _ => cases hresume

/-- A reclamation whose request was served knows what its next stage needs. -/
theorem stage_send (hstage : StageOk d stage)
    (hcall : stage.call = .send sender request)
    (hserved : Daemon.Served d request d' reply)
    (hevolves : Evolves admitted d d')
    (hresume : stage.resume reply = .goesOn next) : StageOk d' next := by
  cases stage with
  | inspecting _ _ | reading _ _ _ _ => cases hcall
  | unfencing _ _ _ _ => cases hresume
  | fencing existing owner =>
    cases hcall
    cases reply with
    | created fence =>
      cases hresume
      have hlt := (hevolves.isSlot hstage).lt
      refine ⟨hevolves.isSlot hstage, ?_, hlt,
        fun _ => created_present hserved⟩
      exact hserved.fresh.1
    | conflict | found _ | ids _ | done | missing => cases hresume
  | withdrawing existing owner fence reservation =>
    cases hcall
    have hreply := resumed_deletion hresume ⟨_, rfl⟩
    obtain ⟨hslot, hfence, hreservation, -⟩ := hstage
    have hgone := gone_of_delete hserved hreservation.lt hreply
    rcases hreply with rfl | rfl <;> cases hresume <;>
      exact ⟨hevolves.isSlot hslot, hevolves.isFence hfence, hgone⟩
  | removing existing owner abandoned =>
    cases hcall
    have hreply := resumed_deletion hresume ⟨_, rfl⟩
    obtain ⟨hslot, hborn⟩ := hstage
    have hgone := gone_of_delete hserved hborn.lt hreply
    rcases hreply with rfl | rfl <;> cases hresume <;>
      exact ⟨hevolves.isSlot hslot, abandoned, hevolves.born hborn,
        hgone.ended⟩
  | evicting existing owner fenced =>
    cases hcall
    have hreply := resumed_deletion hresume ⟨_, rfl⟩
    cases fenced with
    | none => rcases hreply with rfl | rfl <;> cases hresume
    | some pair =>
      obtain ⟨-, hfence, hgone⟩ := hstage
      rcases hreply with rfl | rfl <;> cases hresume <;>
        exact ⟨hevolves.isFence hfence, hevolves.gone _ hgone⟩

/-- The request of a reclamation is justified. -/
theorem stage_sent (hstage : StageOk s.daemon stage)
    (hcall : stage.call = .send sender request) :
    Sent sizes s sender request := by
  cases stage with
  | inspecting _ _ | reading _ _ _ _ => cases hcall
  | fencing existing owner =>
    cases hcall
    exact .fence hstage
  | withdrawing _ _ _ _ | removing _ _ _ | evicting _ _ _ | unfencing _ _ _ _ =>
    cases hcall
    exact .stage hstage rfl

theorem cleanup_proceed {stage : Cleanup} (h : CleanupOk d o stage) :
    CleanupOk d o stage.proceed := by
  cases stage with
  | sweeping container rest =>
    cases rest with
    | nil =>
      obtain ⟨hborn, hended, hwithin⟩ := h
      refine ⟨hborn, hended, fun x hx expires hlabels => ?_⟩
      exact absurd (hwithin x hx expires hlabels) List.not_mem_nil
    | cons _ _ => exact h
  | inspecting | reading _ _ | withdrawing _ _ | listing _ | dropping _ _
  | confirming _ _ | rechecking _ | deleting _ _ | verifying _ _ | returned _
  | failed => exact h

/-- A placeholder that is missing leaves the others. -/
theorem SlotsWithin.tail {rest : List ContainerId}
    (h : SlotsWithin d o (c :: rest)) (hmissing : ¬d.Present c) :
    SlotsWithin d o rest := by
  intro x hx expires hlabels
  rcases List.mem_cons.1 (h x hx expires hlabels) with hsame | hrest
  · exact absurd ⟨x, hx, hsame⟩ hmissing
  · exact hrest

theorem cleanup_ask (hsane : Sane sizes d) {stage : Cleanup}
    (h : CleanupOk d o stage) (hcall : stage.call o = some (.ask query)) :
    CleanupOk d o (stage.resume o (d.answer query)) := by
  cases stage with
  | withdrawing _ _ | deleting _ _ | returned _ | failed => cases hcall
  | dropping _ rest => cases rest <;> cases hcall
  | inspecting =>
    cases hcall
    cases hanswer : d.answer (.name (.attempt o)) with
    | missing => trivial
    | found x =>
      obtain ⟨hx, hname⟩ := answer_name_found hanswer
      simp only [Cleanup.resume]
      split
      · trivial
      · rcases hsane.under_attempt hx hname with
          ⟨hlabels, hborn⟩ | ⟨q, hlabels, hfence, hlt⟩
        · simp only [hlabels]
          split
          · rename_i hexited
            exact ⟨hborn, ended_of_exited hsane.consistent hx hexited⟩
          · exact .inl hborn
        · simp only [hlabels]
          split
          · exact ⟨hfence, hlt, fun _ => ⟨x, hx, rfl⟩⟩
          · trivial
    | created _ | ids _ | done | conflict => trivial
  | reading fence reservation =>
    cases hcall
    obtain ⟨hfence, hlt, hfenced⟩ := h
    cases hanswer : d.answer (.id reservation) with
    | missing =>
      exact .inr ⟨reservation, hfence, hlt, answer_id_missing hanswer⟩
    | found x =>
      obtain ⟨hx, rfl⟩ := answer_id_found hanswer
      simp only [Cleanup.resume]
      split
      · rename_i hmatches
        cases hlabels : x.labels with
        | slot attempt expires =>
          have howner : attempt = o := by
            simpa [isSlotOf, hlabels] using hmatches.1
          obtain ⟨number, -, hmade⟩ := hsane.of_slot hx hlabels
          rw [howner] at hmade
          exact ⟨hfence, ⟨number, expires, hmade⟩, hfenced⟩
        | attempt _ | fence _ _ => simp [isSlotOf, hlabels] at hmatches
      · trivial
    | created _ | ids _ | done | conflict => trivial
  | listing container =>
    cases hcall
    refine ⟨h.1, h.2, fun x hx expires hlabels => ?_⟩
    rw [List.mem_map]
    refine ⟨x, List.mem_filter.2 ⟨hx, ?_⟩, rfl⟩
    simp [isSlotOf, hlabels]
  | sweeping container rest =>
    cases rest with
    | nil => cases hcall
    | cons first rest =>
      cases hcall
      obtain ⟨hborn, hended, hwithin⟩ := h
      cases hanswer : d.answer (.id first) with
      | missing =>
        exact ⟨hborn, hended, hwithin.tail (answer_id_missing hanswer)⟩
      | found x =>
        obtain ⟨hx, rfl⟩ := answer_id_found hanswer
        simp only [Cleanup.resume]
        split
        · rename_i number owner expires hname hlabels
          split
          · rename_i hmatches
            have hmade := hsane.consistent.made x hx
            rw [hname, hlabels, hmatches.1] at hmade
            refine ⟨hborn, hended, hwithin, ?_⟩
            rintro id hid
            cases hid
            exact ⟨number, expires, hmade⟩
          · trivial
        · trivial
      | created _ | ids _ | done | conflict => trivial
  | confirming container rest =>
    cases rest with
    | nil => cases hcall
    | cons first rest =>
      cases hcall
      obtain ⟨hborn, hended, hwithin⟩ := h
      cases hanswer : d.answer (.id first) with
      | missing =>
        exact ⟨hborn, hended, hwithin.tail (answer_id_missing hanswer)⟩
      | found x | created _ | ids _ | done | conflict => trivial
  | rechecking container =>
    cases hcall
    cases hanswer : d.answer (.name (.attempt o)) with
    | found x =>
      simp only [Cleanup.resume]
      split
      · exact h
      · trivial
    | missing | created _ | ids _ | done | conflict => trivial
  | verifying container exited =>
    cases hcall
    cases hanswer : d.answer (.name (.attempt o)) with
    | missing =>
      cases exited with
      | true => exact h
      | false => trivial
    | found x | created _ | ids _ | done | conflict => trivial

theorem cleanup_sent {stage : Cleanup} (h : CleanupOk s.daemon o stage)
    (hcall : stage.call o = some (.send sender request)) :
    Sent sizes s sender request := by
  cases stage with
  | withdrawing fence reservation =>
    cases hcall
    exact .withdraw h.1 h.2.1 h.2.2
  | dropping container rest =>
    cases rest with
    | nil => cases hcall
    | cons first rest =>
      cases hcall
      exact .sweep (h.2.2.2 first rfl) ⟨container, h.1, h.2.1⟩
  | deleting container exited =>
    cases hcall
    cases exited with
    | true => exact .remove h.1
    | false =>
      rcases h with hborn | ⟨q, hfence, hgone⟩
      · exact .remove hborn
      · exact .unfence hfence hgone
  | inspecting | reading _ _ | listing _ => cases hcall
  | sweeping _ rest | confirming _ rest => cases rest <;> cases hcall
  | rechecking _ | verifying _ _ | returned _ | failed => cases hcall

theorem cleanup_send {stage : Cleanup} (h : CleanupOk d o stage)
    (hadmitted : ∀ c, Born d o c → admitted o)
    (hcall : stage.call o = some (.send sender request))
    (hserved : Daemon.Served d request d' reply)
    (hevolves : Evolves admitted d d') :
    CleanupOk d' o (stage.resume o reply) := by
  have hkept := hevolves.cleanupOk hadmitted h
  cases stage with
  | withdrawing fence reservation =>
    cases hcall
    cases reply with
    | done =>
      exact .inr ⟨reservation, hkept.1,
        gone_of_delete hserved h.2.1.lt (.inl rfl)⟩
    | missing =>
      exact .inr ⟨reservation, hkept.1,
        gone_of_delete hserved h.2.1.lt (.inr rfl)⟩
    | created _ | found _ | ids _ | conflict => trivial
  | dropping container rest =>
    cases reply with
    | done | missing => exact ⟨hkept.1, hkept.2.1, hkept.2.2.1⟩
    | created _ | found _ | ids _ | conflict => trivial
  | deleting container exited =>
    cases hcall
    cases reply with
    | done =>
      cases exited with
      | true =>
        exact ⟨hkept.1, gone_of_delete hserved h.1.lt (.inl rfl),
          hkept.2.2⟩
      | false => trivial
    | missing | created _ | found _ | ids _ | conflict => trivial
  | inspecting | reading _ _ | listing _ => cases hcall
  | sweeping _ rest | confirming _ rest => cases rest <;> cases hcall
  | rechecking _ | verifying _ _ | returned _ | failed => cases hcall

end Allrice.SandboxSlots
