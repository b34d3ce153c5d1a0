/-
Every action of an execution, of a cleanup, of a request on its way or of a
container's process keeps the invariant.
-/
import Allrice.SandboxSlotsSystem

namespace Allrice.SandboxSlots

open ContainerDaemon

variable {sizes : Sizes} {s : State} {d d' : Daemon} {o owner : Attempt}
  {c f q : ContainerId} {sender : Sender} {request : Request} {reply : Reply}
  {query : Query} {input : Input} {held : List Held} {state : Execution}
  {slot number : Nat} {h : Held} {next : Execution} {entry : Sender × Request}
  {call : Option Call} {cleanups : List CleanupRun}

theorem nextSlot_ok (hwaiting : Waiting s o) (hholds : Holds s.daemon o held) :
    ExecutionOk sizes s o (nextSlot sizes slot held) := by
  unfold nextSlot
  split
  · rename_i hlt
    exact ⟨hwaiting, hlt, hholds⟩
  · exact ⟨hwaiting, hholds⟩

theorem nextSlot_plain :
    ∀ other, nextSlot sizes slot held ≠ .admitted other := by
  intro other
  unfold nextSlot
  split <;> nofun

theorem uncertain_ok (hadmission : s.admissions o = some held) :
    ExecutionOk sizes s o (uncertain input held) ∧
      Late (uncertain input held) := by
  unfold uncertain
  split
  · exact ⟨hadmission, trivial⟩
  · exact ⟨trivial, trivial⟩

theorem Holds.tail (hholds : Holds d o (h :: held)) : Holds d o held :=
  ⟨fun item hitem => hholds.1 item (List.mem_cons_of_mem h hitem),
    (List.nodup_cons.1 hholds.2).2⟩

theorem Holds.nil : Holds d o [] := ⟨nofun, List.nodup_nil⟩

/-- A step without a request. -/
theorem proceed_ok (h : ExecutionOk sizes s o state)
    (hcall : state.call sizes o input = none) :
    ExecutionOk sizes s o (state.proceed sizes o input) ∧
      (Late state → Late (state.proceed sizes o input)) ∧
        ∀ held, state.proceed sizes o input ≠ .admitted held := by
  cases state with
  | idle => exact ⟨h, nofun, nofun⟩
  | looping =>
    simp only [Execution.proceed]
    split
    · split
      · rename_i hlt
        exact ⟨⟨h, hlt, .nil⟩, nofun, nofun⟩
      · exact ⟨⟨h, .nil⟩, nofun, nofun⟩
    · exact ⟨trivial, nofun, nofun⟩
  | claiming _ _ | reading _ _ | reclaiming _ _ _ => cases hcall
  | releasing held afterwards =>
    cases held with
    | cons _ _ => cases hcall
    | nil =>
      cases afterwards with
      | loop => exact ⟨h.1, nofun, nofun⟩
      | stop => exact ⟨trivial, fun _ => trivial, nofun⟩
  | admitted held => exact ⟨h.1, nofun, nofun⟩
  | created held container =>
    simp only [Execution.proceed]
    split
    · exact ⟨h, nofun, nofun⟩
    · exact ⟨h.1, nofun, nofun⟩
  | checking held container rest =>
    cases rest with
    | cons _ _ => cases hcall
    | nil =>
      simp only [Execution.proceed]
      split
      · exact ⟨h, nofun, nofun⟩
      · exact ⟨h.1, nofun, nofun⟩
  | starting held container | started held => exact ⟨h.1, nofun, nofun⟩
  | finishing _ => cases hcall
  | ended => exact ⟨trivial, fun _ => trivial, nofun⟩

/-- A step whose answer changes nothing at the daemon. -/
theorem ask_ok (hinv : Inv sizes s) (h : ExecutionOk sizes s o state)
    (hcall : state.call sizes o input = some (.ask query)) :
    ExecutionOk sizes s o
        (state.resume sizes o input (s.daemon.answer query)) ∧
      (Late state → Late
        (state.resume sizes o input (s.daemon.answer query))) ∧
      ∀ held, state.resume sizes o input (s.daemon.answer query) ≠
        .admitted held := by
  cases state with
  | idle | looping | claiming _ _ => cases hcall
  | releasing held afterwards => cases held <;> cases hcall
  | admitted _ =>
    simp only [Execution.call] at hcall
    split at hcall <;> cases hcall
  | created _ _ => cases hcall
  | starting _ _ =>
    simp only [Execution.call] at hcall
    split at hcall <;> cases hcall
  | started _ | ended => cases hcall
  | reading slot held =>
    cases hcall
    obtain ⟨hwaiting, hholds⟩ := h
    have hnext : ExecutionOk sizes s o (nextSlot sizes slot held) :=
      nextSlot_ok hwaiting hholds
    have hstop : ExecutionOk sizes s o (.releasing held .stop) :=
      ⟨.inl hwaiting.1, hholds⟩
    cases hanswer : s.daemon.answer (.name (.slot slot)) with
    | missing => exact ⟨hnext, nofun, nextSlot_plain⟩
    | found x =>
      obtain ⟨hx, -⟩ := answer_name_found hanswer
      simp only [Execution.resume]
      split
      · rename_i owner expires hlabels
        split
        · obtain ⟨number, -, hmade⟩ := hinv.sane.of_slot hx hlabels
          exact ⟨⟨hwaiting, hholds, number, expires, hmade⟩, nofun, nofun⟩
        · exact ⟨hnext, nofun, nextSlot_plain⟩
      · exact ⟨hnext, nofun, nextSlot_plain⟩
    | created _ | ids _ | done | conflict => exact ⟨hstop, nofun, nofun⟩
  | reclaiming slot held stage =>
    obtain ⟨hwaiting, hholds, hstage⟩ := h
    have hask : stage.call = .ask query := Option.some.inj hcall
    simp only [Execution.resume]
    cases hresume : stage.resume (s.daemon.answer query) with
    | goesOn next =>
      exact ⟨⟨hwaiting, hholds, stage_ask hinv.sane hstage hask hresume⟩,
        nofun, nofun⟩
    | nextSlot =>
      exact ⟨nextSlot_ok hwaiting hholds, nofun, nextSlot_plain⟩
    | throws => exact ⟨⟨.inl hwaiting.1, hholds⟩, nofun, nofun⟩
  | checking held container rest =>
    cases rest with
    | nil => cases hcall
    | cons first rest =>
      cases hcall
      have hfinish : ExecutionOk sizes s o (.finishing held) := h.1
      cases hanswer : s.daemon.answer (.name (.slot first.slot)) with
      | found x =>
        simp only [Execution.resume]
        split
        · exact ⟨h, nofun, nofun⟩
        · exact ⟨hfinish, nofun, nofun⟩
      | missing | created _ | ids _ | done | conflict =>
        exact ⟨hfinish, nofun, nofun⟩
  | finishing held =>
    cases hcall
    have hadmission : s.admissions o = some held := h
    have hholds := (hinv.admission hadmission).1
    cases hanswer : s.daemon.answer (.name (.attempt o)) with
    | missing =>
      refine ⟨⟨.inr fun c hborn => .inl ?_, hholds⟩, fun _ => trivial,
        nofun⟩
      refine (show s.daemon.Gone c from ⟨hborn.lt, ?_⟩).ended
      rintro ⟨x, hx, rfl⟩
      exact answer_name_missing hanswer x hx
        (hinv.sane.consistent.of_made hx hborn).1
    | found x =>
      obtain ⟨hx, hname⟩ := answer_name_found hanswer
      simp only [Execution.resume]
      split
      · rename_i hmatches
        simp only [Bool.and_eq_true, beq_iff_eq] at hmatches
        refine ⟨⟨.inr fun c hborn => .inl ?_, hholds⟩,
          fun _ => trivial, nofun⟩
        rcases hinv.sane.under_attempt hx hname with
          ⟨-, hborn'⟩ | ⟨q, hlabels, -⟩
        · rw [hinv.sane.one o c x.id hborn hborn']
          exact ended_of_exited hinv.sane.consistent hx hmatches.2
        · have hcreated := hinv.sane.created hx (by simp [hlabels])
          rw [hcreated] at hmatches
          exact absurd hmatches.2 nofun
      · exact ⟨trivial, fun _ => trivial, nofun⟩
    | created _ | ids _ | done | conflict =>
      exact ⟨trivial, fun _ => trivial, nofun⟩

theorem stage_request {stage : Reclaim}
    (hcall : stage.call = .send sender request) :
    sender = .reclaimer stage ∧ ∀ o, ¬SingleUse o request := by
  cases stage with
  | inspecting _ _ | reading _ _ _ _ => cases hcall
  | fencing _ _ | withdrawing _ _ _ _ | removing _ _ _ | evicting _ _ _
  | unfencing _ _ _ _ => cases hcall; exact ⟨rfl, by rintro o (⟨⟨⟩⟩ | ⟨c, ⟨⟩⟩)⟩

/-- The request of an execution is its own or that of its reclamation; what is
sent once is its own and not sent late. -/
theorem execution_request
    (hcall : state.call sizes o input = some (.send sender request)) :
    (sender = .execution o ∨ ∃ stage, sender = .reclaimer stage) ∧
      (∀ owner, SingleUse owner request → ¬Late state) := by
  cases state with
  | idle | looping => cases hcall
  | claiming _ _ => cases hcall; exact ⟨.inl rfl, fun _ _ => nofun⟩
  | reading _ _ => cases hcall
  | reclaiming _ _ stage =>
    exact ⟨.inr ⟨stage, (stage_request (Option.some.inj hcall)).1⟩,
      fun _ _ => nofun⟩
  | releasing held _ =>
    cases held with
    | nil => cases hcall
    | cons _ _ =>
      cases hcall
      exact ⟨.inl rfl, by rintro owner (⟨⟨⟩⟩ | ⟨c, ⟨⟩⟩)⟩
  | admitted _ =>
    simp only [Execution.call] at hcall
    split at hcall
    · cases hcall; exact ⟨.inl rfl, fun _ _ => nofun⟩
    · cases hcall
  | created _ _ => cases hcall
  | checking _ _ rest => cases rest <;> cases hcall
  | starting _ _ =>
    simp only [Execution.call] at hcall
    split at hcall
    · cases hcall; exact ⟨.inl rfl, fun _ _ => nofun⟩
    · cases hcall
  | started _ | finishing _ | ended => cases hcall

theorem Holds.isSlot (hholds : Holds d o held) (hmem : h ∈ held) :
    IsSlot d o h.id := by
  obtain ⟨expires, hmade⟩ := hholds.1 h hmem
  exact ⟨h.slot, expires, hmade⟩

/-- The request of an execution is justified. -/
theorem execution_sent (hinv : Inv sizes s)
    (hcall : (s.executions o).call sizes o input =
      some (.send sender request)) : Sent sizes s sender request := by
  have h := hinv.executions o
  cases hstate : s.executions o with
  | idle | looping => rw [hstate] at hcall; cases hcall
  | claiming slot held =>
    rw [hstate] at hcall h
    cases hcall
    exact .slot h.1.1 h.2.1 (.inr ⟨h.1.2, by rw [hstate]; nofun⟩)
  | reading _ _ => rw [hstate] at hcall; cases hcall
  | reclaiming slot held stage =>
    rw [hstate] at hcall h
    exact stage_sent h.2.2 (Option.some.inj hcall)
  | releasing held afterwards =>
    rw [hstate] at hcall h
    cases held with
    | nil => cases hcall
    | cons first rest =>
      cases hcall
      cases afterwards with
      | loop =>
        exact .release (h.2.isSlot List.mem_cons_self) (.inl h.1.1)
      | stop =>
        refine .release (h.2.isSlot List.mem_cons_self)
          (h.1.imp (fun hnone => hnone) fun hquiet => ⟨hquiet, ?_⟩)
        rw [hstate]
        trivial
  | admitted held =>
    rw [hstate] at hcall h
    simp only [Execution.call] at hcall
    split at hcall
    · cases hcall
      exact .attempt (by rw [h.1]; nofun) h.2.2
        (.inr ⟨h.2.1, by rw [hstate]; nofun⟩)
    · cases hcall
  | created _ _ => rw [hstate] at hcall; cases hcall
  | checking _ _ rest => rw [hstate] at hcall; cases rest <;> cases hcall
  | starting held container =>
    rw [hstate] at hcall h
    simp only [Execution.call] at hcall
    split at hcall
    · cases hcall
      exact .start h.2.2.1 h.2.2.2 (.inr ⟨h.2.1, by rw [hstate]; nofun⟩)
    · cases hcall
  | started _ | finishing _ | ended => rw [hstate] at hcall; cases hcall

/-- Serving the request of an execution. -/
theorem Inv.serve_own (hinv : Inv sizes s)
    (hcall : (s.executions o).call sizes o input =
      some (.send sender request)) :
    InvExcept sizes (s.serve sender request).1 o := by
  obtain ⟨hsender, honce⟩ := execution_request hcall
  refine hinv.serve (execution_sent hinv hcall) s.orphans ?_ ?_
    fun _ => le_refl _
  · rintro other hne
    rcases hsender with rfl | ⟨stage, rfl⟩
    · exact .inl fun hsame => hne (Sender.execution.inj hsame).symm
    · exact .inl nofun
  · rintro ⟨sender', request'⟩ hentry
    refine ⟨hentry, ?_⟩
    by_cases hsame : (sender', request') = (sender, request)
    · cases hsame
      refine .inr fun owner hsingle => ?_
      rcases hsender with rfl | ⟨stage, rfl⟩
      · exact honce owner hsingle (hinv.late hentry)
      · have hsent := hinv.orphans hentry
        rcases hsingle with rfl | ⟨c, rfl⟩ <;> cases hsent
    · exact .inl hsame

/-- A created placeholder joins the ones that are held. -/
theorem Holds.snoc {admitted : Attempt → Prop} {expires : Int}
    (hholds : Holds d o held) (hevolves : Evolves admitted d d')
    (hserved : Daemon.Served d
      (.create (.slot number) (.slot o expires)) d' (.created c)) :
    Holds d' o (held ++ [⟨number, c⟩]) := by
  obtain ⟨hmade, hnodup⟩ := hevolves.holds hholds
  obtain ⟨hnew, rfl, -⟩ := hserved.fresh
  refine ⟨fun item hitem => ?_, ?_⟩
  · rcases List.mem_append.1 hitem with hold | hlast
    · exact hmade item hold
    · rw [List.mem_singleton.1 hlast]
      exact ⟨expires, hnew⟩
  · rw [List.map_append, List.map_cons, List.map_nil]
    refine List.nodup_append'.2 ⟨hnodup, List.nodup_singleton _, ?_⟩
    rw [List.disjoint_singleton]
    intro hmem
    obtain ⟨item, hitem, hid⟩ := List.mem_map.1 hmem
    exact absurd hid (hholds.isSlot hitem).lt.ne

/-- Where an answered request leads an execution. -/
inductive Answered (sizes : Sizes) (s : State) (o : Attempt)
    (state : Execution) : Execution → Prop
  | goesOn {next : Execution} : ExecutionOk sizes s o next →
      (Late state → Late next) → (∀ held, next ≠ .admitted held) →
      Answered sizes s o state next
  | admits {held : List Held} : Waiting s o → Holds s.daemon o held →
      sizes.units o ≤ held.length →
      Answered sizes s o state (.admitted held)

theorem answered (hinv : Inv sizes s)
    (hcall : (s.executions o).call sizes o input =
      some (.send sender request)) :
    Answered sizes (s.serve sender request).1 o (s.executions o)
      ((s.executions o).resume sizes o input (s.serve sender request).2) := by
  have hsent := execution_sent hinv hcall
  have hevolves := serve_evolves hinv hsent
  have hserved := Daemon.serve_served s.daemon request
  have h := hinv.executions o
  have hreply : (s.serve sender request).2 = (s.daemon.serve request).2 := rfl
  rw [hreply]
  generalize (s.daemon.serve request).2 = reply at hserved
  cases hstate : s.executions o with
  | idle | looping => rw [hstate] at hcall; cases hcall
  | claiming slot held =>
    rw [hstate] at hcall h
    cases hcall
    obtain ⟨hwaiting, -, hholds⟩ := h
    have hstop : Answered sizes (s.serve _ _).1 o (.claiming slot held)
        (.releasing held .stop) :=
      .goesOn ⟨.inl hwaiting.1, hevolves.holds hholds⟩ nofun nofun
    cases reply with
    | created id =>
      have hmore := hholds.snoc hevolves hserved
      simp only [Execution.resume]
      split
      · exact .goesOn (nextSlot_ok hwaiting hmore) nofun nextSlot_plain
      · rename_i hunits
        exact .admits hwaiting hmore (Nat.le_of_not_lt hunits)
    | conflict =>
      exact .goesOn ⟨hwaiting, hevolves.holds hholds⟩ nofun nofun
    | found _ | ids _ | done | missing => exact hstop
  | reading _ _ => rw [hstate] at hcall; cases hcall
  | reclaiming slot held stage =>
    rw [hstate] at hcall h
    obtain ⟨hwaiting, hholds, hstage⟩ := h
    have hkept := hevolves.holds hholds
    simp only [Execution.resume]
    cases hresume : stage.resume reply with
    | goesOn next =>
      exact .goesOn ⟨hwaiting, hkept, stage_send hstage
        (Option.some.inj hcall) hserved hevolves hresume⟩ nofun nofun
    | nextSlot =>
      exact .goesOn (nextSlot_ok hwaiting hkept) nofun nextSlot_plain
    | throws => exact .goesOn ⟨.inl hwaiting.1, hkept⟩ nofun nofun
  | releasing held afterwards =>
    rw [hstate] at hcall h
    cases held with
    | nil => cases hcall
    | cons first rest =>
      cases hcall
      have hended : Answered sizes
          (s.serve (.execution o) (.delete first.id)).1 o
          (.releasing (first :: rest) afterwards) .ended :=
        .goesOn trivial (fun _ => trivial) nofun
      have hnext : Answered sizes
          (s.serve (.execution o) (.delete first.id)).1 o
          (.releasing (first :: rest) afterwards)
          (.releasing rest afterwards) := by
        cases afterwards with
        | loop => exact .goesOn ⟨h.1, hevolves.holds h.2.tail⟩ nofun nofun
        | stop =>
          refine .goesOn ⟨h.1.imp (fun hnone => hnone) fun hquiet => ?_,
            hevolves.holds h.2.tail⟩ (fun _ => trivial) nofun
          exact hquiet.served hinv hsent (by rw [hstate]; trivial)
      cases reply with
      | done | missing => exact hnext
      | created _ | found _ | ids _ | conflict => exact hended
  | admitted held =>
    rw [hstate] at hcall h
    obtain ⟨hadmission, hsilent, -⟩ := h
    simp only [Execution.call] at hcall
    split at hcall
    · cases hcall
      have huncertain : Answered sizes (s.serve (.execution o)
          (.create (.attempt o) (.attempt o))).1 o (.admitted held)
          (uncertain input held) := by
        have hadmission' : (s.serve (.execution o)
            (.create (.attempt o) (.attempt o))).1.admissions o =
              some held := hadmission
        obtain ⟨hok, hlate⟩ := uncertain_ok hadmission'
        refine .goesOn hok nofun ?_
        rintro other hother
        rw [hother] at hlate
        exact hlate
      cases reply with
      | created id =>
        obtain ⟨hborn, rfl, hstarted⟩ := hserved.fresh
        refine .goesOn ⟨hadmission, hsilent, hborn, ?_⟩ nofun nofun
        rw [serve_daemon, hstarted]
        exact fun hmem => absurd
          (hinv.sane.consistent.startedMade _ hmem) (lt_irrefl _)
      | found _ | ids _ | done | missing | conflict => exact huncertain
    · cases hcall
  | created _ _ => rw [hstate] at hcall; cases hcall
  | checking _ _ rest => rw [hstate] at hcall; cases rest <;> cases hcall
  | starting held container =>
    rw [hstate] at hcall h
    have hfinish : ∀ s' : State, s'.admissions = s.admissions →
        Answered sizes s' o (.starting held container) (.finishing held) := by
      intro s' hsame
      refine .goesOn ?_ nofun nofun
      show s'.admissions o = some held
      rw [hsame]
      exact h.1
    cases reply with
    | done => exact .goesOn ⟨h.1, h.2.1⟩ nofun nofun
    | created _ | found _ | ids _ | missing | conflict => exact hfinish _ rfl
  | started _ | finishing _ | ended => rw [hstate] at hcall; cases hcall

/-- What an execution that lost its request goes on with, whatever is on its
way. -/
theorem lose_ok (h : ExecutionOk sizes s o state) (input : Input) :
    (state.call sizes o input = none ∧ state.lose input = state ∧
      ∀ held, state ≠ .admitted held) ∨
    (Late (state.lose input) ∧
      ∀ s' : State, s'.daemon = s.daemon → s'.admissions = s.admissions →
        ExecutionOk sizes s' o (state.lose input)) := by
  have hstop : ∀ held, s.admissions o = none → Holds s.daemon o held →
      ∀ s' : State, s'.daemon = s.daemon → s'.admissions = s.admissions →
        ExecutionOk sizes s' o (.releasing held .stop) := by
    intro held hnone hholds s' hdaemon hadmissions
    refine ⟨.inl ?_, ?_⟩
    · rw [hadmissions]
      exact hnone
    · rw [hdaemon]
      exact hholds
  have hfinish : ∀ held, s.admissions o = some held →
      ∀ s' : State, s'.daemon = s.daemon → s'.admissions = s.admissions →
        ExecutionOk sizes s' o (.finishing held) := by
    intro held hadmission s' _ hadmissions
    show s'.admissions o = some held
    rw [hadmissions]
    exact hadmission
  cases state with
  | idle | looping => exact .inl ⟨rfl, rfl, nofun⟩
  | claiming slot held => exact .inr ⟨trivial, hstop held h.1.1 h.2.2⟩
  | reading slot held => exact .inr ⟨trivial, hstop held h.1.1 h.2⟩
  | reclaiming slot held stage =>
    exact .inr ⟨trivial, hstop held h.1.1 h.2.1⟩
  | releasing held afterwards =>
    cases held with
    | nil => exact .inl ⟨rfl, rfl, nofun⟩
    | cons _ _ => exact .inr ⟨trivial, fun _ _ _ => trivial⟩
  | admitted held =>
    refine .inr ?_
    simp only [Execution.lose, uncertain]
    split
    · exact ⟨trivial, hfinish held h.1⟩
    · exact ⟨trivial, fun _ _ _ => trivial⟩
  | created held container => exact .inl ⟨rfl, rfl, nofun⟩
  | checking held container rest | starting held container =>
    exact .inr ⟨trivial, hfinish held h.1⟩
  | started held => exact .inl ⟨rfl, rfl, nofun⟩
  | finishing held => exact .inr ⟨trivial, fun _ _ _ => trivial⟩
  | ended => exact .inl ⟨rfl, rfl, nofun⟩

theorem Late.plain (h : Late next) : ∀ held, next ≠ .admitted held := by
  rintro held rfl
  exact h

/-- A request that is not sent by an execution joins those on their way. -/
theorem mem_abandon (hentry : entry ∈ (s.abandon call).orphans) :
    entry ∈ s.orphans ∨ call = some (.send entry.1 entry.2) := by
  cases call with
  | none => exact .inl hentry
  | some call =>
    cases call with
    | ask query => exact .inl hentry
    | send sender request =>
      rcases List.mem_append.1 hentry with hold | hnew
      · exact .inl hold
      · rw [List.mem_singleton.1 hnew]
        exact .inr rfl

@[simp] theorem abandon_daemon (s : State) (call : Option Call) :
    (s.abandon call).daemon = s.daemon := by
  unfold State.abandon
  split <;> rfl

@[simp] theorem abandon_executions (s : State) (call : Option Call) :
    (s.abandon call).executions = s.executions := by
  unfold State.abandon
  split <;> rfl

@[simp] theorem abandon_admissions (s : State) (call : Option Call) :
    (s.abandon call).admissions = s.admissions := by
  unfold State.abandon
  split <;> rfl

@[simp] theorem abandon_cleanups (s : State) (call : Option Call) :
    (s.abandon call).cleanups = s.cleanups := by
  unfold State.abandon
  split <;> rfl

/-- What is sent once is on its way once. -/
theorem count_abandon (hcount : s.orphans.count entry ≤ 1)
    (hnew : call = some (.send entry.1 entry.2) → entry ∉ s.orphans) :
    (s.abandon call).orphans.count entry ≤ 1 := by
  cases call with
  | none => exact hcount
  | some call =>
    cases call with
    | ask query => exact hcount
    | send sender request =>
      show (s.orphans ++ [(sender, request)]).count entry ≤ 1
      rw [List.count_append]
      by_cases hsame : entry = (sender, request)
      · subst hsame
        rw [List.count_eq_zero.2 (hnew rfl), List.count_singleton_self]
      · rw [List.count_singleton, if_neg (by simpa using Ne.symm hsame)]
        exact hcount

/-- An execution gives up on its request and only releases from here on. -/
theorem Inv.abandon (hinv : Inv sizes s) (hlate : Late next)
    (hnext : ∀ s' : State, s'.daemon = s.daemon → s'.admissions = s.admissions →
      ExecutionOk sizes s' o next) :
    Inv sizes ((s.abandon
      ((s.executions o).call sizes o input)).moveTo o next) := by
  have hadmissions : ((s.abandon
      ((s.executions o).call sizes o input)).moveTo o next).admissions =
        s.admissions := by
    rw [moveTo_admissions hlate.plain, abandon_admissions]
  -- A new request on its way is the execution's own or that of a reclaimer.
  have hmem : ∀ other request, (Sender.execution other, request) ∈
      (s.abandon ((s.executions o).call sizes o input)).orphans →
        (Sender.execution other, request) ∈ s.orphans ∨ other = o ∧
          (s.executions o).call sizes o input =
            some (.send (.execution other) request) := by
    intro other request hentry
    rcases mem_abandon hentry with hold | hnew
    · exact .inl hold
    · rcases (execution_request hnew).1 with hsame | ⟨stage, hother⟩
      · exact .inr ⟨Sender.execution.inj hsame, hnew⟩
      · cases hother
  have hothers : ∀ other, other ≠ o → ExecutionOk sizes
      ((s.abandon ((s.executions o).call sizes o input)).moveTo o next) other
      (((s.abandon ((s.executions o).call sizes o input)).moveTo o
        next).executions other) := by
    intro other hne
    rw [moveTo_of_ne _ next hne, abandon_executions]
    refine (hinv.executions other).carry (by simp) (by rw [hadmissions]) ?_
    intro request hentry
    exact (hmem other request hentry).resolve_right fun h => hne h.1
  refine InvExcept.inv (o := o) ⟨?_, ?_, ?_, ?_, ?_, ?_, hothers⟩ ?_
  · rw [moveTo_daemon, abandon_daemon]
    exact hinv.sane
  · intro other c hborn
    rw [moveTo_daemon, abandon_daemon] at hborn
    rw [hadmissions]
    exact hinv.admitted hborn
  · intro other held hadmission
    rw [hadmissions] at hadmission
    rw [moveTo_daemon, abandon_daemon]
    exact hinv.admission hadmission
  · show ∀ run ∈ (s.abandon _).cleanups,
      CleanupOk (s.abandon _).daemon run.attempt run.stage
    rw [abandon_cleanups, abandon_daemon]
    exact (hinv.except o).cleanups
  · rintro ⟨sender, request⟩ hentry
    have hsent : Sent sizes s sender request := by
      rcases mem_abandon hentry with hold | hnew
      · exact hinv.orphans hold
      · exact execution_sent hinv hnew
    refine hsent.carry hentry (by simp) fun other hsender => ?_
    refine ⟨by rw [hadmissions], ?_, fun hlate' c hstart => ?_⟩
    · by_cases hsame : other = o
      · rw [hsame, moveTo_self]
        exact hlate
      · rw [moveTo_of_ne _ next hsame, abandon_executions]
        rw [hsender] at hentry
        exact hinv.late
          ((hmem other request hentry).resolve_right fun h => hsame h.1)
    · refine (hmem other _ hstart).resolve_right ?_
      rintro ⟨rfl, hcall⟩
      exact (execution_request hcall).2 other (.inr ⟨c, rfl⟩) hlate'
  · intro other request hsingle
    refine count_abandon ((hinv.except o).once other request hsingle) ?_
    intro hcall hbefore
    rcases (execution_request hcall).1 with hsame | ⟨stage, hother⟩
    · cases hsame
      exact (execution_request hcall).2 _ hsingle (hinv.late hbefore)
    · cases hother
  · rw [moveTo_self]
    exact hnext _ (by simp) hadmissions

/-- The list of cleanups and requests of others may change. -/
theorem Inv.others (hinv : Inv sizes s) {orphans : List (Sender × Request)}
    (hcleanups : ∀ run ∈ cleanups, CleanupOk s.daemon run.attempt run.stage)
    (horphans : ∀ entry ∈ orphans, entry ∈ s.orphans ∨
      Sent sizes s entry.1 entry.2 ∧ ∀ o, entry.1 ≠ .execution o)
    (hcount : ∀ o request, orphans.count (.execution o, request) ≤
      s.orphans.count (.execution o, request)) :
    Inv sizes { s with cleanups, orphans } := by
  have hmem : ∀ o request, (Sender.execution o, request) ∈ orphans →
      (Sender.execution o, request) ∈ s.orphans := fun o request hentry =>
    (horphans _ hentry).resolve_right fun h => h.2 o rfl
  refine InvExcept.inv (o := 0) ⟨hinv.sane, (hinv.except 0).admitted,
    (hinv.except 0).admission, hcleanups, ?_, ?_, ?_⟩ ?_
  · rintro ⟨sender, request⟩ hentry
    have hsent : Sent sizes s sender request :=
      (horphans _ hentry).elim hinv.orphans (·.1)
    refine hsent.carry hentry rfl fun o hsender => ?_
    subst hsender
    exact ⟨rfl, hinv.late (hmem _ _ hentry), fun _ c hstart => hmem _ _ hstart⟩
  · intro o request hsingle
    exact (hcount o request).trans ((hinv.except 0).once o request hsingle)
  · intro other _
    exact (hinv.executions other).carry rfl rfl (hmem other)
  · exact (hinv.executions 0).carry rfl rfl (hmem 0)

theorem cleanup_sender {stage : Cleanup}
    (hcall : stage.call o = some (.send sender request)) :
    sender = .cleanup o := by
  cases stage with
  | withdrawing _ _ | deleting _ _ => cases hcall; rfl
  | dropping _ rest => cases rest <;> cases hcall; rfl
  | inspecting | reading _ _ | listing _ => cases hcall
  | sweeping _ rest | confirming _ rest => cases rest <;> cases hcall
  | rechecking _ | verifying _ _ | returned _ | failed => cases hcall

/-- One cleanup moves on. -/
theorem set_ok {run : CleanupRun}
    (h : ∀ run ∈ cleanups, CleanupOk d run.attempt run.stage)
    (hrun : CleanupOk d run.attempt run.stage) :
    ∀ run' ∈ cleanups.set number run, CleanupOk d run'.attempt run'.stage := by
  intro run' hrun'
  rcases List.mem_or_eq_of_mem_set hrun' with hold | rfl
  · exact h run' hold
  · exact hrun

/-- The daemon serves a cleanup. -/
theorem Inv.serve_cleanup (hinv : Inv sizes s)
    (hsent : Sent sizes s (.cleanup o) request) :
    Inv sizes (s.serve (.cleanup o) request).1 := by
  have hexcept : InvExcept sizes (s.serve (.cleanup o) request).1 o := by
    refine hinv.serve hsent s.orphans (fun other _ => .inl nofun) ?_
      fun _ => le_refl _
    rintro ⟨sender, request'⟩ hentry
    refine ⟨hentry, ?_⟩
    by_cases hsame : (sender, request') = (.cleanup o, request)
    · cases hsame
      refine .inr fun owner hsingle => ?_
      rcases hsingle with rfl | ⟨c, rfl⟩ <;> cases hsent
    · exact .inl hsame
  exact hexcept.inv (ExecutionOk.served hinv hsent (.inl nofun))

theorem runCleanup_inv (hinv : Inv sizes s) (number : Nat) :
    Inv sizes (step sizes s (.runCleanup number)) := by
  simp only [step]
  cases hrun : s.cleanups[number]? with
  | none => exact hinv
  | some run =>
    have hok := (hinv.except 0).cleanups run (List.mem_of_getElem? hrun)
    simp only []
    cases hcall : run.stage.call run.attempt with
    | none =>
      exact hinv.others
        (set_ok (hinv.except 0).cleanups (cleanup_proceed hok))
        (fun _ => .inl) fun _ _ => le_refl _
    | some call =>
      cases call with
      | ask query =>
        exact hinv.others
          (set_ok (hinv.except 0).cleanups
            (cleanup_ask hinv.sane hok hcall))
          (fun _ => .inl) fun _ _ => le_refl _
      | send sender request =>
        have hsent : Sent sizes s sender request := cleanup_sent hok hcall
        cases cleanup_sender hcall
        have hserved := hinv.serve_cleanup hsent
        refine hserved.others
          (set_ok (hserved.except 0).cleanups ?_)
          (fun _ => .inl) fun _ _ => le_refl _
        exact cleanup_send hok (fun c hborn => hinv.admitted hborn)
          hcall (Daemon.serve_served s.daemon request)
          (serve_evolves hinv hsent)

theorem loseCleanup_inv (hinv : Inv sizes s) (number : Nat) :
    Inv sizes (step sizes s (.loseCleanup number)) := by
  simp only [step]
  cases hrun : s.cleanups[number]? with
  | none => exact hinv
  | some run =>
    have hok := (hinv.except 0).cleanups run (List.mem_of_getElem? hrun)
    have hset : ∀ run' ∈ s.cleanups.set number { run with stage := .failed },
        CleanupOk s.daemon run'.attempt run'.stage :=
      set_ok (hinv.except 0).cleanups trivial
    simp only []
    cases hcall : run.stage.call run.attempt with
    | none => exact hinv.others hset (fun _ => .inl) fun _ _ => le_refl _
    | some call =>
      cases call with
      | ask query =>
        exact hinv.others hset (fun _ => .inl) fun _ _ => le_refl _
      | send sender request =>
        cases cleanup_sender hcall
        refine hinv.others hset ?_ ?_
        · intro entry hentry
          rcases List.mem_append.1 hentry with hold | hnew
          · exact .inl hold
          · rw [List.mem_singleton.1 hnew]
            exact .inr ⟨cleanup_sent hok hcall, nofun⟩
        · intro o request'
          show (s.orphans ++ [_]).count _ ≤ _
          rw [List.count_append, List.count_singleton,
            if_neg (by simp)]
          exact le_refl _

/-- One request fewer is on its way. -/
theorem arrive_inv (hinv : Inv sizes s) (sender : Sender) (request : Request) :
    Inv sizes (step sizes s (.arrive sender request)) := by
  simp only [step]
  split
  · rename_i hmem
    have hsent := hinv.orphans hmem
    have hother : ∀ o, sender ≠ .execution o ∨ Late (s.executions o) := by
      intro o
      by_cases hsame : sender = .execution o
      · rw [hsame] at hmem
        exact .inr (hinv.late hmem)
      · exact .inl hsame
    have hexcept : InvExcept sizes { (s.serve sender request).1 with
        orphans := s.orphans.erase (sender, request) } 0 := by
      refine hinv.serve hsent _ (fun other _ => hother other) ?_ ?_
      · intro entry hentry
        refine ⟨List.mem_of_mem_erase hentry, ?_⟩
        by_cases hsame : entry = (sender, request)
        · subst hsame
          refine .inr fun o hsingle => ?_
          obtain ⟨o', rfl, hsingle'⟩ :
              ∃ o', sender = .execution o' ∧ SingleUse o' request := by
            rcases hsingle with rfl | ⟨c, rfl⟩
            · exact ⟨o, hsent.creator, .inl rfl⟩
            · obtain ⟨o', hsender, -⟩ := hsent.born
              exact ⟨o', hsender, .inr ⟨c, rfl⟩⟩
          have honce := (hinv.except 0).once o' request hsingle'
          have hleft := List.count_pos_iff.2 hentry
          rw [List.count_erase_self] at hleft
          omega
        · exact .inl hsame
      · intro entry
        exact List.erase_sublist.count_le entry
    refine hexcept.inv ?_
    exact (ExecutionOk.served hinv hsent (hother 0)).carry rfl rfl
      fun request' hentry => List.mem_of_mem_erase hentry
  · exact hinv

theorem exit_born : Born (d.exit f) o c ↔ Born d o c := by
  rw [Born, Born, Daemon.Made, Daemon.Made, Daemon.exit_made]

theorem Quiet.exit (h : Quiet s o) (id : ContainerId) :
    Quiet { s with daemon := s.daemon.exit id } o := by
  intro c hborn
  refine (h c (exit_born.1 hborn)).imp (fun hended => hended.exit id) ?_
  rintro ⟨hnone, hfresh⟩
  exact ⟨hnone, by rw [Daemon.exit_started]; exact hfresh⟩

theorem ExecutionOk.exit (h : ExecutionOk sizes s o state) (id : ContainerId) :
    ExecutionOk sizes { s with daemon := s.daemon.exit id } o state := by
  have hevolves := exit_evolves (fun _ => True) s.daemon id
  have hready : ∀ {held c}, Ready s o held c →
      Ready { s with daemon := s.daemon.exit id } o held c := by
    rintro held c ⟨hadmission, hsilent, hborn, hfresh⟩
    exact ⟨hadmission, hsilent, exit_born.2 hborn,
      by rw [Daemon.exit_started]; exact hfresh⟩
  cases state with
  | idle | looping => exact h
  | claiming slot held => exact ⟨h.1, h.2.1, hevolves.holds h.2.2⟩
  | reading slot held => exact ⟨h.1, hevolves.holds h.2⟩
  | reclaiming slot held stage =>
    exact ⟨h.1, hevolves.holds h.2.1, hevolves.stageOk h.2.2⟩
  | releasing held afterwards =>
    cases afterwards with
    | loop => exact ⟨h.1, hevolves.holds h.2⟩
    | stop =>
      exact ⟨h.1.imp (fun hnone => hnone) (fun hquiet => hquiet.exit id),
        hevolves.holds h.2⟩
  | admitted held =>
    exact ⟨h.1, h.2.1, fun c hborn => h.2.2 c (exit_born.1 hborn)⟩
  | created held container | checking held container rest
  | starting held container => exact hready h
  | started held | finishing held => exact h
  | ended => trivial

theorem Sent.exit (h : Sent sizes s sender request)
    (hmem : (sender, request) ∈ s.orphans) (id : ContainerId) :
    Sent sizes { s with daemon := s.daemon.exit id } sender request := by
  have hevolves := exit_evolves (fun _ => True) s.daemon id
  cases h with
  | slot hnone hlt _ => exact .slot hnone hlt (.inl hmem)
  | attempt hadmission hunborn _ =>
    exact .attempt hadmission (fun c hborn => hunborn c (exit_born.1 hborn))
      (.inl hmem)
  | start hborn hfresh _ =>
    exact .start (exit_born.2 hborn)
      (by rw [Daemon.exit_started]; exact hfresh) (.inl hmem)
  | release hslot hspent =>
    refine .release (hevolves.isSlot hslot)
      (hspent.imp (fun hnone => hnone) ?_)
    rintro ⟨hquiet, hlate⟩
    exact ⟨hquiet.exit id, hlate⟩
  | fence hslot => exact .fence (hevolves.isSlot hslot)
  | stage hstage hcall => exact .stage (hevolves.stageOk hstage) hcall
  | withdraw hfence hslot hfenced =>
    exact .withdraw (hevolves.isFence hfence) (hevolves.isSlot hslot)
      (hevolves.fenced _ _ _ hfence hslot.lt hfenced)
  | sweep hslot hfinished =>
    exact .sweep (hevolves.isSlot hslot) (hevolves.finished hfinished)
  | unfence hfence hgone =>
    exact .unfence (hevolves.isFence hfence) (hevolves.gone _ hgone)
  | remove hborn => exact .remove (hevolves.born hborn)

theorem exit_inv (hinv : Inv sizes s) (id : ContainerId) :
    Inv sizes (step sizes s (.exit id)) := by
  have hevolves := exit_evolves (fun o => s.admissions o ≠ none) s.daemon id
  refine InvExcept.inv (o := 0) ⟨hinv.sane.exit id, ?_, ?_, ?_, ?_,
    (hinv.except 0).once, ?_⟩ ((hinv.executions 0).exit id)
  · intro o c hborn
    exact hinv.admitted (exit_born.1 hborn)
  · intro o held hadmission
    obtain ⟨hholds, hunits⟩ := hinv.admission hadmission
    exact ⟨hevolves.holds hholds, hunits⟩
  · intro run hrun
    exact hevolves.cleanupOk (fun c hborn => hinv.admitted hborn)
      ((hinv.except 0).cleanups run hrun)
  · rintro ⟨sender, request⟩ hentry
    exact (hinv.orphans hentry).exit hentry id
  · intro other _
    exact (hinv.executions other).exit id

theorem run_inv (hinv : Inv sizes s) (o : Attempt) (input : Input) :
    Inv sizes (step sizes s (.run o input)) := by
  have hlate : ∀ {next : Execution}, (Late (s.executions o) → Late next) →
      ∀ request, (Sender.execution o, request) ∈ s.orphans → Late next :=
    fun hkeeps request hmem => hkeeps (hinv.late hmem)
  simp only [step]
  cases hcall : (s.executions o).call sizes o input with
  | none =>
    obtain ⟨hok, hkeeps, hplain⟩ := proceed_ok (hinv.executions o) hcall
    exact (hinv.except o).moveTo hplain (hlate hkeeps) hok
  | some call =>
    cases call with
    | ask query =>
      obtain ⟨hok, hkeeps, hplain⟩ :=
        ask_ok hinv (hinv.executions o) hcall
      exact (hinv.except o).moveTo hplain (hlate hkeeps) hok
    | send sender request =>
      have hexcept := hinv.serve_own hcall
      have hanswered := answered hinv hcall
      simp only []
      generalize (s.executions o).resume sizes o input
        (s.serve sender request).2 = next at hanswered ⊢
      cases hanswered with
      | goesOn hok hkeeps hplain =>
        exact hexcept.moveTo hplain (hlate hkeeps) hok
      | admits hwaiting hholds hunits =>
        exact hexcept.admit hwaiting hholds hunits

theorem lose_inv (hinv : Inv sizes s) (o : Attempt) (input : Input) :
    Inv sizes (step sizes s (.lose o input)) := by
  rcases lose_ok (hinv.executions o) input with
    ⟨hcall, hsame, hplain⟩ | ⟨hlate, hnext⟩
  · simp only [step, hcall, hsame]
    exact (hinv.except o).moveTo hplain (fun request hmem => hinv.late hmem)
      (hinv.executions o)
  · exact hinv.abandon hlate hnext

theorem begin_inv (hinv : Inv sizes s) (o : Attempt) :
    Inv sizes (step sizes s (.begin o)) := by
  simp only [step]
  split
  · rename_i hidle
    have hwaiting := hinv.executions o
    rw [hidle] at hwaiting
    exact (hinv.except o).moveTo nofun
      (fun request hmem => absurd hmem (hwaiting.2 request)) hwaiting
  · exact hinv

theorem beginCleanup_inv (hinv : Inv sizes s) (o : Attempt) :
    Inv sizes (step sizes s (.beginCleanup o)) := by
  refine hinv.others ?_ (fun _ => .inl) fun _ _ => le_refl _
  intro run hrun
  rcases List.mem_append.1 hrun with hold | hnew
  · exact (hinv.except 0).cleanups run hold
  · rw [List.mem_singleton.1 hnew]
    trivial

theorem initial_inv (sizes : Sizes) : Inv sizes State.initial := by
  have hwaiting : ∀ o, ExecutionOk sizes State.initial o
      (State.initial.executions o) := fun o => ⟨rfl, fun _ => List.not_mem_nil⟩
  refine InvExcept.inv (o := 0) ⟨empty_sane sizes, ?_,
    fun _ _ hheld => absurd hheld (by simp [State.initial]),
    fun _ hrun => absurd hrun List.not_mem_nil,
    fun _ hentry => absurd hentry List.not_mem_nil, ?_,
    fun other _ => hwaiting other⟩ (hwaiting 0)
  · intro o c hborn
    simp [Born, Daemon.Made, State.initial, Daemon.empty] at hborn
  · intro o request _
    exact Nat.zero_le _

theorem step_inv (hinv : Inv sizes s) (action : Action) :
    Inv sizes (step sizes s action) := by
  cases action with
  | begin o => exact begin_inv hinv o
  | run o input => exact run_inv hinv o input
  | lose o input => exact lose_inv hinv o input
  | crash o input => exact hinv.abandon trivial fun _ _ _ => trivial
  | beginCleanup o => exact beginCleanup_inv hinv o
  | runCleanup number => exact runCleanup_inv hinv number
  | loseCleanup number => exact loseCleanup_inv hinv number
  | arrive sender request => exact arrive_inv hinv sender request
  | exit id => exact exit_inv hinv id

/-- The request that an action has the daemon serve. -/
def served (sizes : Sizes) (s : State) : Action → Option (Sender × Request)
  | .run attempt input =>
    match (s.executions attempt).call sizes attempt input with
    | some (.send sender request) => some (sender, request)
    | _ => none
  | .runCleanup number =>
    match s.cleanups[number]? with
    | some run =>
      match run.stage.call run.attempt with
      | some (.send sender request) => some (sender, request)
      | _ => none
    | none => none
  | .arrive sender request =>
    if (sender, request) ∈ s.orphans then some (sender, request) else none
  | _ => none

theorem served_sent (hinv : Inv sizes s) {action : Action}
    (h : served sizes s action = some (sender, request)) :
    Sent sizes s sender request := by
  cases action with
  | run o input =>
    simp only [served] at h
    split at h
    · rename_i hcall
      cases h
      exact execution_sent hinv hcall
    · cases h
  | runCleanup number =>
    simp only [served] at h
    split at h
    · rename_i run hrun
      have hok := (hinv.except 0).cleanups run (List.mem_of_getElem? hrun)
      split at h
      · rename_i hcall
        cases h
        exact cleanup_sent hok hcall
      · cases h
    · cases h
  | arrive sender' request' =>
    simp only [served] at h
    split at h
    · rename_i hmem
      cases h
      exact hinv.orphans hmem
    · cases h
  | begin _ | lose _ _ | crash _ _ | beginCleanup _ | loseCleanup _ | exit _ =>
    cases h

/-- The daemon serves the action's request; without one at most a process
ends. -/
inductive Worked (sizes : Sizes) (s : State) (action : Action) (s' : State) :
    Prop
  | serves (sender : Sender) (request : Request) :
      served sizes s action = some (sender, request) →
      s'.daemon = (s.serve sender request).1.daemon →
      s'.deletions = (s.serve sender request).1.deletions →
      Worked sizes s action s'
  | rests : served sizes s action = none →
      (s'.daemon = s.daemon ∨ ∃ id, s'.daemon = s.daemon.exit id) →
      s'.deletions = s.deletions → Worked sizes s action s'

theorem abandon_deletions (s : State) (call : Option Call) :
    (s.abandon call).deletions = s.deletions := by
  unfold State.abandon
  split <;> rfl

theorem step_worked (sizes : Sizes) (s : State) (action : Action) :
    Worked sizes s action (step sizes s action) := by
  cases action with
  | begin o =>
    refine .rests rfl (.inl ?_) ?_
    · simp only [step]
      split <;> rfl
    · simp only [step]
      split <;> rfl
  | run o input =>
    cases hcall : (s.executions o).call sizes o input with
    | none =>
      refine .rests ?_ (.inl ?_) ?_
      · simp only [served, hcall]
      · simp only [step, hcall]
        rfl
      · simp only [step, hcall]
        rfl
    | some call =>
      cases call with
      | ask query =>
        refine .rests ?_ (.inl ?_) ?_
        · simp only [served, hcall]
        · simp only [step, hcall]
          rfl
        · simp only [step, hcall]
          rfl
      | send sender request =>
        refine .serves sender request ?_ ?_ ?_
        · simp only [served, hcall]
        · simp only [step, hcall]
          rfl
        · simp only [step, hcall]
          rfl
  | lose o input | crash o input =>
    exact .rests rfl (.inl (abandon_daemon _ _)) (abandon_deletions _ _)
  | beginCleanup o => exact .rests rfl (.inl rfl) rfl
  | runCleanup number =>
    cases hrun : s.cleanups[number]? with
    | none =>
      refine .rests ?_ (.inl ?_) ?_
      · simp only [served, hrun]
      · simp only [step, hrun]
      · simp only [step, hrun]
    | some run =>
      cases hcall : run.stage.call run.attempt with
      | none =>
        refine .rests ?_ (.inl ?_) ?_
        · simp only [served, hrun, hcall]
        · simp only [step, hrun, hcall]
        · simp only [step, hrun, hcall]
      | some call =>
        cases call with
        | ask query =>
          refine .rests ?_ (.inl ?_) ?_
          · simp only [served, hrun, hcall]
          · simp only [step, hrun, hcall]
          · simp only [step, hrun, hcall]
        | send sender request =>
          refine .serves sender request ?_ ?_ ?_
          · simp only [served, hrun, hcall]
          · simp only [step, hrun, hcall]
          · simp only [step, hrun, hcall]
  | loseCleanup number =>
    cases hrun : s.cleanups[number]? with
    | none =>
      refine .rests rfl (.inl ?_) ?_
      · simp only [step, hrun]
      · simp only [step, hrun]
    | some run =>
      refine .rests rfl (.inl ?_) ?_
      · simp only [step, hrun]
        exact abandon_daemon _ _
      · simp only [step, hrun]
        exact abandon_deletions _ _
  | arrive sender request =>
    by_cases hmem : (sender, request) ∈ s.orphans
    · refine .serves sender request ?_ ?_ ?_
      · simp only [served, hmem, ↓reduceIte]
      · simp only [step, hmem, ↓reduceIte]
      · simp only [step, hmem, ↓reduceIte]
    · refine .rests ?_ (.inl ?_) ?_
      · simp only [served, hmem, ↓reduceIte]
      · simp only [step, hmem, ↓reduceIte]
      · simp only [step, hmem, ↓reduceIte]
  | exit id => exact .rests rfl (.inr ⟨id, rfl⟩) rfl

/-- What a served request adds to the deletions. -/
theorem mem_deletions_serve {sender' : Sender} {x : Container} :
    (sender', x) ∈ (s.serve sender request).1.deletions ↔
      (sender', x) ∈ s.deletions ∨ sender' = sender ∧ request = .delete x.id ∧
        s.daemon.ofId x.id = some x ∧ x.status ≠ .running := by
  simp only [State.serve, List.mem_append]
  refine or_congr_right ?_
  cases request with
  | create _ _ | start _ => simp
  | delete id =>
    simp only [ContainerDaemon.Request.delete.injEq]
    cases hid : s.daemon.ofId id with
    | none =>
      simp only [List.not_mem_nil, false_iff]
      rintro ⟨-, rfl, hsome, -⟩
      rw [hid] at hsome
      cases hsome
    | some y =>
      have hsame := (Daemon.ofId_eq_some hid).2
      by_cases hrunning : y.status = .running
      · simp only [hrunning, ↓reduceIte, List.not_mem_nil, false_iff]
        rintro ⟨-, rfl, hsome, hstopped⟩
        rw [hid] at hsome
        cases hsome
        exact hstopped hrunning
      · simp only [hrunning, ↓reduceIte, List.mem_singleton,
          Prod.mk.injEq]
        constructor
        · rintro ⟨rfl, rfl⟩
          rw [hsame]
          exact ⟨rfl, rfl, hid, hrunning⟩
        · rintro ⟨rfl, rfl, hsome, -⟩
          rw [hid] at hsome
          exact ⟨rfl, (Option.some.inj hsome).symm⟩

end Allrice.SandboxSlots
