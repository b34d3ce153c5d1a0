/-
A call goes through only for agents of the Run that is bound.  The Run may end
and the next one begin while a call waits for its authorization; the hooks do
not notice that, and calls are confined to their own Run wherever it does not
happen.
-/
import Allrice.RunAdmission
import Allrice.Transaction

namespace Allrice.RunAdmission

open Tx

/-- The root, and the registered subagents whose parents own them. -/
inductive Host.Below (host : Host) (root : Agent) : Agent → Prop
  | root : Below host root root
  | child {agent parent : Agent} {id : JsString}
      (registered : host.get agent.id = some agent)
      (subagent : agent.subagent = true)
      (named : agent.parentSession = some id)
      (found : host.get id = some parent)
      (owned : host.ownedBy agent.id parent = true)
      (rest : Below host root parent) : Below host root agent

theorem Host.climb_below {host : Host} {root : Agent} :
    ∀ {fuel : Nat} {seen above : List Agent} {agent : Agent},
      host.climb root fuel seen (some agent) = .reached above →
      host.Below root agent := by
  intro fuel
  induction fuel with
  | zero =>
    intro seen above agent h
    cases h
  | succ fuel ih =>
    intro seen above agent h
    rw [Host.climb] at h
    split at h
    · rename_i hroot
      cases hroot
      exact .root
    · split at h
      · cases h
      · rename_i hregistered
        cases hparent : agent.parentSession.bind host.get with
        | none =>
          rw [hparent] at h
          cases h
        | some parent =>
          rw [hparent] at h
          obtain ⟨id, hid, hfound⟩ := Option.bind_eq_some_iff.mp hparent
          simp only at h
          split at h
          · rename_i howned
            obtain ⟨hsub, howned⟩ := Bool.and_eq_true_iff.mp howned
            have hget : host.get agent.id = some agent := by
              by_contra hget
              exact hregistered (.inr hget)
            exact .child hget hsub hid hfound howned (ih h)
          · cases h

variable {id runId : JsString}

theorem Host.get_mem {host : Host} {agent : Agent}
    (h : host.get id = some agent) : agent ∈ host.agents :=
  List.mem_of_find?_eq_some h

/-- The agents passed from an agent up to the root. -/
inductive Host.Path (host : Host) (root : Agent) : List Agent → Agent → Prop
  | root : Path host root [] root
  | child {agent parent passed} (below : agent ≠ root)
      (registered : host.get agent.id = some agent)
      (found : agent.parentSession.bind host.get = some parent)
      (owned : (agent.subagent && host.ownedBy agent.id parent) = true)
      (rest : Path host root passed parent) :
      Path host root (agent :: passed) agent

section

variable {host : Host} {root agent : Agent} {passed : List Agent}

theorem Host.Path.from_mem (h : host.Path root passed agent) :
    ∀ a ∈ passed, a ∈ host.agents ∧
      ∃ rest, (a :: rest) <:+ passed ∧ host.Path root (a :: rest) a := by
  induction h with
  | root => simp
  | @child agent parent passed below registered found owned rest ih =>
    intro a ha
    rcases List.mem_cons.mp ha with rfl | ha
    · exact ⟨get_mem registered, passed, List.suffix_rfl,
        .child below registered found owned rest⟩
    · obtain ⟨hmem, rest, hsuffix, hpath⟩ := ih a ha
      exact ⟨hmem, rest, hsuffix.trans (List.suffix_cons _ _), hpath⟩

/-- A way up that comes back to an agent is cut short there. -/
theorem Host.Below.path (h : host.Below root agent) :
    ∃ passed, host.Path root passed agent ∧ passed.Nodup := by
  induction h with
  | root => exact ⟨[], .root, .nil⟩
  | @child agent parent id registered subagent named found owned rest ih =>
    by_cases hroot : agent = root
    · rw [hroot]
      exact ⟨[], .root, .nil⟩
    obtain ⟨passed, hpath, hnodup⟩ := ih
    by_cases hmem : agent ∈ passed
    · obtain ⟨-, rest, hsuffix, hrest⟩ := hpath.from_mem agent hmem
      exact ⟨_, hrest, hnodup.sublist hsuffix.sublist⟩
    · exact ⟨_, .child hroot registered (by rw [named]; exact found)
        (by rw [subagent, owned]; rfl) hpath,
        List.nodup_cons.mpr ⟨hmem, hnodup⟩⟩

theorem Host.Path.climbs (h : host.Path root passed agent) :
    ∀ {fuel : Nat} {seen : List Agent}, passed.length ≤ fuel →
      passed.Nodup → (∀ a ∈ passed, a ∉ seen) →
      ∃ above, host.climb root (fuel + 1) seen (some agent) =
        .reached above := by
  induction h with
  | root =>
    intro fuel seen _ _ _
    exact ⟨seen, by simp [climb]⟩
  | child below registered found owned rest ih =>
    intro fuel seen hfuel hnodup hnew
    obtain ⟨hagent, hrest⟩ := List.forall_mem_cons.mp hnew
    obtain ⟨hother, hnodup⟩ := List.nodup_cons.mp hnodup
    cases fuel with
    | zero => simp at hfuel
    | succ fuel =>
      rw [climb]
      simp only [Option.some.injEq, below, hagent, registered, found, owned,
        ne_eq, not_true_eq_false, or_self, ↓reduceIte]
      refine ih (by simpa using hfuel) hnodup ?_
      intro a ha hseen
      rcases List.mem_cons.mp hseen with rfl | hseen
      · exact hother ha
      · exact hrest a ha hseen

end

/-- No agent is passed twice, so the walk is over when all are passed. -/
theorem Host.climb_finishes (host : Host) (root : Agent) :
    ∀ {fuel : Nat} {seen : List Agent} {cursor : Option Agent},
      seen.Nodup → (∀ agent ∈ seen, agent ∈ host.agents) →
      host.agents.length < fuel + seen.length →
      host.climb root fuel seen cursor ≠ .unfinished := by
  intro fuel
  induction fuel with
  | zero =>
    intro seen cursor hnodup hseen hlength
    have hle := (hnodup.subperm hseen).length_le
    omega
  | succ fuel ih =>
    intro seen cursor hnodup hseen hlength
    cases cursor with
    | none => simp [climb]
    | some agent =>
      rw [climb]
      split
      · simp
      · split
        · simp
        · rename_i hnew
          obtain ⟨hnotin, hget⟩ := not_or.mp hnew
          cases agent.parentSession.bind host.get with
          | none => simp
          | some parent =>
            simp only
            split
            · refine ih (List.nodup_cons.mpr ⟨hnotin, hnodup⟩) ?_ ?_
              · exact List.forall_mem_cons.mpr
                  ⟨get_mem (not_not.mp hget), hseen⟩
              · simp only [List.length_cons]
                omega
            · simp

/-- The walk up ends, in whatever ring the parents run.  It reaches the root
from the root and from the registered subagents that are owned up to it, and
all others are denied. -/
theorem Host.climb_decides (host : Host) (root agent : Agent) :
    ((∃ above, host.climb root (host.agents.length + 1) [] (some agent) =
        .reached above) ↔ host.Below root agent) ∧
      (host.climb root (host.agents.length + 1) [] (some agent) = .denied ↔
        ¬host.Below root agent) := by
  have hreached : (∃ above, host.climb root (host.agents.length + 1) []
      (some agent) = .reached above) ↔ host.Below root agent := by
    constructor
    · rintro ⟨above, habove⟩
      exact climb_below habove
    · intro h
      obtain ⟨passed, hpath, hnodup⟩ := h.path
      have hle := (hnodup.subperm
        fun a ha => (hpath.from_mem a ha).1).length_le
      exact hpath.climbs hle hnodup (by simp)
  have hfinished : host.climb root (host.agents.length + 1) [] (some agent) ≠
      .unfinished :=
    host.climb_finishes root .nil (by simp) (by simp)
  refine ⟨hreached, ?_⟩
  rw [← hreached]
  cases hclimb : host.climb root (host.agents.length + 1) [] (some agent) with
  | reached above => simp
  | denied => simp
  | unfinished => exact absurd hclimb hfinished

structure Admitted (s : State) : Prop where
  fresh : ∀ bound, s.binding = some bound → bound.run < s.nextRun
  identities : ∀ value ∈ s.identities.rows, ∃ bound,
    s.binding = some bound ∧ value.runId = bound.runId ∧
      (bound.run, value) ∈ s.announced
  callers : ∀ call ∈ s.calls, call.run < s.nextRun ∧
    ∀ bound, s.binding = some bound → bound.run = call.run →
      call.caller.runId = bound.runId
  waits : ∀ run ∈ s.waits, run < s.nextRun

/-- The agent may act for the Run `run`. -/
structure Confined (s : State) (run : Nat) (agent : Agent) (bound : Binding) :
    Prop where
  isBound : s.binding = some bound
  same : bound.run = run
  running : bound.closing = false
  rootCurrent : s.host.assertRoot bound.record bound.record.agent.id = true
  registered : s.host.get agent.id = some agent
  below : s.host.Below bound.record.agent agent
  announced : ∃ value, (run, value) ∈ s.announced ∧
    value.nativeSessionId = agent.id ∧ value.runId = bound.runId

variable {s : State} {agent : Option Agent} {run ref : Nat} {stage : Stage}
  {α : Type} {action : Action} {bound : Binding} {value : Identity}
  {kind : Kind} {checked : Checked Identity} {use : α → Answer}

theorem current_spec (h : s.current = .ok bound) :
    s.binding = some bound ∧ bound.closing = false ∧
      s.host.assertRoot bound.record bound.record.agent.id = true := by
  unfold State.current at h
  split at h
  · cases h
  · rename_i other hother
    split at h
    · cases h
    · rename_i hclosing
      split at h
      · rename_i hroot
        cases h
        exact ⟨hother, by simpa using hclosing, hroot⟩
      · cases h

theorem currentOf_spec (h : s.currentOf runId = .ok bound) :
    s.current = .ok bound ∧ bound.runId = runId := by
  unfold State.currentOf at h
  split at h
  · cases h
  · rename_i other hother
    split at h
    · cases h
    · rename_i hid
      obtain ⟨hbinding, _, _⟩ := current_spec h
      rw [hother] at hbinding
      cases hbinding
      exact ⟨h, (not_not.mp hid).symm⟩

theorem identity_spec (h : s.identity agent = .ok value) :
    ∃ bound self, s.current = .ok bound ∧ agent = some self ∧
      s.host.Below bound.record.agent self ∧ value.runId = bound.runId ∧
        value.nativeSessionId = self.id := by
  rw [State.identity, Except.bind_eq_ok] at h
  obtain ⟨bound, hcurrent, h⟩ := h
  simp only at h
  split at h
  · rename_i self above hclimb
    cases h
    exact ⟨bound, self, hcurrent, rfl, Host.climb_below hclimb, rfl, rfl⟩
  · cases h

theorem Host.registered_of_below {host : Host} {record : RootRecord}
    {agent : Agent}
    (hroot : host.assertRoot record record.agent.id = true)
    (h : host.Below record.agent agent) :
    host.get agent.id = some agent := by
  cases h with
  | root =>
    simp only [Host.assertRoot, Host.isRootCurrent, Bool.and_eq_true,
      beq_iff_eq] at hroot
    exact hroot.2.1.2
  | child registered _ _ _ _ _ => exact registered

/-- What `live` has checked. -/
theorem live_spec (hs : Admitted s) (h : s.live agent = .ok value) :
    ∃ bound self, s.current = .ok bound ∧ agent = some self ∧
      Confined s bound.run self bound ∧ value.runId = bound.runId := by
  rw [State.live, Except.bind_eq_ok] at h
  obtain ⟨identity, hidentity, h⟩ := h
  obtain ⟨bound, self, hcurrent, rfl, hbelow, hrunId, hself⟩ :=
    identity_spec hidentity
  split at h
  · cases h
  · rename_i hfound
    cases h
    obtain ⟨hbinding, hclosing, hroot⟩ := current_spec hcurrent
    obtain ⟨known, hknown⟩ := Option.ne_none_iff_exists'.mp
      (by simpa using hfound)
    obtain ⟨hmem, hkey⟩ := Table.find?_eq_some_iff.mp hknown
    obtain ⟨other, hother, hid, hannounced⟩ := hs.identities known hmem
    rw [hbinding] at hother
    cases hother
    refine ⟨bound, self, hcurrent, rfl, ?_, hrunId⟩
    exact
      { isBound := hbinding
        same := rfl
        running := hclosing
        rootCurrent := hroot
        registered := Host.registered_of_below hroot hbelow
        below := hbelow
        announced := ⟨known, hannounced, hkey.trans hself, hid⟩ }

namespace Admitted

variable {s next : State}

/-- Waiting calls and waits may only go. -/
theorem shrink (h : Admitted s) (hbinding : next.binding = s.binding)
    (hidentities : next.identities = s.identities)
    (hnextRun : next.nextRun = s.nextRun)
    (hannounced : next.announced = s.announced)
    (hcalls : ∀ call ∈ next.calls, call ∈ s.calls)
    (hwaits : ∀ run ∈ next.waits, run ∈ s.waits) : Admitted next where
  fresh := by
    rw [hbinding, hnextRun]
    exact h.fresh
  identities := by
    rw [hbinding, hidentities, hannounced]
    exact h.identities
  callers := by
    intro call hcall
    rw [hbinding, hnextRun]
    exact h.callers call (hcalls call hcall)
  waits := by
    intro run hrun
    rw [hnextRun]
    exact h.waits run (hwaits run hrun)

/-- The bound object changes, not which one it is. -/
theorem rebind (h : Admitted s) {old : Binding} (new : Binding)
    (hold : s.binding = some old) (hrun : new.run = old.run)
    (hrunId : new.runId = old.runId) :
    Admitted { s with binding := some new } where
  fresh := by
    rintro _ ⟨⟩
    rw [hrun]
    exact h.fresh old hold
  identities := by
    intro value hvalue
    obtain ⟨bound, hbound, hid, hannounced⟩ := h.identities value hvalue
    rw [hold] at hbound
    cases hbound
    refine ⟨new, rfl, hid.trans hrunId.symm, ?_⟩
    rw [hrun]
    exact hannounced
  callers := by
    intro call hcall
    obtain ⟨hfresh, hcaller⟩ := h.callers call hcall
    refine ⟨hfresh, ?_⟩
    rintro _ ⟨⟩ hsame
    rw [hrunId]
    exact hcaller old hold (hrun.symm.trans hsame)
  waits := h.waits

theorem unbind (h : Admitted s) :
    Admitted { s with binding := none, identities := Table.empty } where
  fresh := by
    rintro _ ⟨⟩
  identities := by
    intro value hvalue
    cases hvalue
  callers := by
    intro call hcall
    refine ⟨(h.callers call hcall).1, ?_⟩
    rintro _ ⟨⟩
  waits := h.waits

theorem bind (h : Admitted s) (bound : Binding)
    (hrun : bound.run = s.nextRun) :
    Admitted
      { s with
        binding := some bound
        identities := Table.empty
        nextRun := s.nextRun + 1 } where
  fresh := by
    rintro _ ⟨⟩
    rw [hrun]
    exact Nat.lt_succ_self _
  identities := by
    intro value hvalue
    cases hvalue
  callers := by
    intro call hcall
    have hfresh := (h.callers call hcall).1
    refine ⟨Nat.lt_succ_of_lt hfresh, ?_⟩
    rintro _ ⟨⟩ hsame
    omega
  waits := fun run hwait => Nat.lt_succ_of_lt (h.waits run hwait)

theorem announce (h : Admitted s) (hnext : s.announce agent = .ok next) :
    Admitted next ∧ next.binding = s.binding ∧ next.nextRun = s.nextRun ∧
      next.waits = s.waits := by
  rw [State.announce, Except.bind_eq_ok] at hnext
  obtain ⟨bound, hcurrent, hnext⟩ := hnext
  rw [Except.bind_eq_ok] at hnext
  obtain ⟨value, hidentity, hnext⟩ := hnext
  cases hnext
  obtain ⟨other, _, hother, _, _, hrunId, _⟩ := identity_spec hidentity
  rw [hcurrent] at hother
  cases hother
  obtain ⟨hbinding, _, _⟩ := current_spec hcurrent
  refine ⟨⟨h.fresh, ?_, h.callers, h.waits⟩, rfl, rfl, rfl⟩
  intro known hknown
  rcases Table.mem_put.mp hknown with ⟨hold, _⟩ | rfl
  · obtain ⟨other, hother, hid, hannounced⟩ := h.identities known hold
    exact ⟨other, hother, hid, List.mem_append_left _ hannounced⟩
  · exact ⟨bound, hbinding, hrunId, by simp⟩

theorem announceAll (h : Admitted s) (agents : List Agent) :
    Admitted (s.announceAll agents).1 ∧
      (s.announceAll agents).1.binding = s.binding ∧
      (s.announceAll agents).1.nextRun = s.nextRun := by
  induction agents generalizing s with
  | nil => exact ⟨h, rfl, rfl⟩
  | cons agent rest ih =>
    rw [State.announceAll]
    cases hannounce : s.announce (some agent) with
    | error error => exact ⟨h, rfl, rfl⟩
    | ok next =>
      obtain ⟨hnext, hbinding, hnextRun, _⟩ := h.announce hannounce
      obtain ⟨hlast, hlastBinding, hlastRun⟩ := ih hnext
      exact ⟨hlast, hlastBinding.trans hbinding,
        hlastRun.trans hnextRun⟩

theorem enter (h : Admitted s)
    (hchecked : ∀ bound caller, s.current = .ok bound →
      checked = .ok caller → caller.runId = bound.runId) :
    Admitted (enter s ref kind stage agent checked).1 := by
  unfold RunAdmission.enter
  split
  · rename_i self bound caller hcurrent
    obtain ⟨hbinding, _, _⟩ := current_spec hcurrent
    refine ⟨h.fresh, h.identities, ?_, h.waits⟩
    intro call hcall
    rcases List.mem_cons.mp hcall with rfl | hcall
    · refine ⟨h.fresh bound hbinding, ?_⟩
      intro other hother _
      rw [hbinding] at hother
      cases hother
      exact hchecked bound caller hcurrent rfl
    · exact h.callers call hcall
  · exact h
  · exact h
  · exact h

end Admitted

theorem identity_runId (hcurrent : s.current = .ok bound)
    (h : s.identity agent = .ok value) : value.runId = bound.runId := by
  obtain ⟨other, _, hother, _, _, hrunId, _⟩ := identity_spec h
  rw [hcurrent] at hother
  cases hother
  exact hrunId

theorem live_runId (hcurrent : s.current = .ok bound)
    (h : s.live agent = .ok value) : value.runId = bound.runId := by
  rw [State.live, Except.bind_eq_ok] at h
  obtain ⟨identity, hidentity, h⟩ := h
  split at h
  · cases h
  · cases h
    exact identity_runId hcurrent hidentity

theorem State.waitingCall_mem {call : Call}
    (h : s.waitingCall ref stage = some call) :
    call ∈ s.calls ∧ call.ref = ref ∧ call.stage = stage := by
  have hfound := List.find?_some h
  simp only [decide_eq_true_eq] at hfound
  exact ⟨List.mem_of_find?_eq_some h, hfound⟩

theorem answer_fst (s : State) (checked : Checked α) (use : α → Answer) :
    (answer s checked use).1 = s := by
  unfold answer
  cases checked <;> rfl

/-- Give up a call that waits, or ask for its authorization. -/
theorem Admitted.resume (h : Admitted s) {call : Call} (hcall : call ∈ s.calls)
    (stage : Stage) :
    Admitted { s with calls := s.calls.erase call } ∧
      Admitted
        { s with
          calls := { call with stage := stage } :: s.calls.erase call } := by
  constructor
  · exact h.shrink rfl rfl rfl rfl (fun other => List.mem_of_mem_erase)
      fun run hrun => hrun
  · refine ⟨h.fresh, h.identities, ?_, h.waits⟩
    intro other hother
    rcases List.mem_cons.mp hother with rfl | hother
    · exact h.callers call hcall
    · exact h.callers other (List.mem_of_mem_erase hother)

theorem Admitted.step (h : Admitted s) (action : Action) :
    Admitted (step s action).1 := by
  have hframe : ∀ host beginning, Admitted { s with host, beginning } :=
    fun host beginning => h.shrink rfl rfl rfl rfl (fun _ => id) fun _ => id
  cases action with
  | world host => exact hframe host s.beginning
  | begin ref runId =>
    rw [RunAdmission.step]
    split
    · exact h
    · exact hframe s.host _
  | rooted ref record =>
    unfold RunAdmission.step
    dsimp only
    split
    · exact h
    · exact hframe s.host _
    · rename_i waiting record hwaiting
      split
      · exact hframe s.host _
      · have hbind := (hframe s.host (s.beginning.erase waiting)).bind
          ⟨s.nextRun, record, waiting.2, 0, false, 0, false, false⟩ rfl
        have hall := (hbind.announceAll (record.agent ::
          s.host.agents.filter (· ≠ record.agent))).1
        split
        · rename_i heq
          rw [heq] at hall
          exact hall
        · rename_i heq
          rw [heq] at hall
          exact hall
  | finish runId =>
    rw [RunAdmission.step]
    split
    · exact h
    · split
      · exact h
      · exact h.unbind
  | stop =>
    rw [RunAdmission.step]
    split
    · exact h
    · rename_i bound hbound
      exact h.rebind _ hbound rfl rfl
  | closeInput runId =>
    rw [RunAdmission.step]
    split
    · exact h
    · rename_i bound hbound
      split
      · exact h
      · exact h.rebind _ hbound rfl rfl
  | prompt runId =>
    rw [RunAdmission.step]
    split
    · exact h
    · rename_i bound hcurrent
      obtain ⟨hbinding, _, _⟩ := current_spec (currentOf_spec hcurrent).1
      exact h.rebind _ hbinding rfl rfl
  | confirm run runId =>
    rw [RunAdmission.step]
    split
    · exact h
    · split <;> exact h
  | accepting running runId receiptOnly | inputWindow running runId =>
    rw [RunAdmission.step, answer_fst]
    exact h
  | checkWindow running window =>
    rw [RunAdmission.step]
    split
    · exact h
    · split <;> exact h
  | wait =>
    rw [RunAdmission.step]
    split
    · exact h
    · rename_i bound hcurrent
      obtain ⟨hbinding, _, _⟩ := current_spec hcurrent
      have hrebind := h.rebind { bound with waiting := bound.waiting + 1 }
        hbinding rfl rfl
      refine ⟨hrebind.fresh, hrebind.identities, hrebind.callers, ?_⟩
      intro run hrun
      rcases List.mem_cons.mp hrun with rfl | hrun
      · exact h.fresh bound hbinding
      · exact h.waits run hrun
  | waited run =>
    have hless : Admitted { s with waits := s.waits.erase run } :=
      h.shrink rfl rfl rfl rfl (fun _ => id)
        fun _ => List.mem_of_mem_erase
    rw [RunAdmission.step]
    split
    · simp only
      split
      · exact hless
      · rename_i bound hbound
        split
        · exact hless
        · exact hless.rebind _ hbound rfl rfl
    · exact h
  | started id isLocal =>
    rw [RunAdmission.step]
    split
    · split
      · exact h
      · rename_i next hnext
        exact (h.announce hnext).1
    · exact h
  | created ref agent =>
    rw [RunAdmission.step]
    split
    · exact h.enter fun bound caller => identity_runId
    · exact h
  | request agent | guard agent =>
    rw [RunAdmission.step, answer_fst]
    exact h
  | tool ref agent => exact h.enter fun bound caller => live_runId
  | model ref sessionId provider model =>
    apply h.enter
    intro bound caller hcurrent hchecked
    rw [Except.bind_eq_ok] at hchecked
    obtain ⟨value, hlive, hchecked⟩ := hchecked
    split at hchecked
    · cases hchecked
    · cases hchecked
      exact live_runId hcurrent hlive
  | authorizeInput ref runId =>
    rw [RunAdmission.step]
    split
    · exact h
    · exact h.enter fun bound caller => live_runId
  | directory ref inside =>
    rw [RunAdmission.step]
    split
    · exact h
    · rename_i call hcall
      obtain ⟨hmem, _⟩ := State.waitingCall_mem hcall
      obtain ⟨hless, hmore⟩ := h.resume hmem .authorizing
      dsimp only
      split
      · exact hless
      · exact hless
      · split
        · exact hless
        · split
          · exact hless
          · exact hmore
  | authorized ref granted =>
    rw [RunAdmission.step]
    split
    · exact h
    · rename_i call hcall
      obtain ⟨hmem, _⟩ := State.waitingCall_mem hcall
      obtain ⟨hless, _⟩ := h.resume hmem .authorizing
      split
      · exact hless
      · split
        · rw [answer_fst]
          exact hless
        · rw [answer_fst]
          exact hless
  | attribution id =>
    rw [RunAdmission.step]
    split <;> exact h

inductive Rebound (s next : State) (answer : Answer) : Prop
  | same (binding : next.binding = s.binding)
      (nextRun : next.nextRun = s.nextRun)
  | gone (binding : next.binding = none) (nextRun : next.nextRun = s.nextRun)
  | kept {old new : Binding} (before : s.binding = some old)
      (after : next.binding = some new) (run : new.run = old.run)
      (shut : old.inputClosed = true → new.inputClosed = true ∨
        answer = .prompted old.run)
      (nextRun : next.nextRun = s.nextRun)
  | fresh {new : Binding} (after : next.binding = some new)
      (run : new.run = s.nextRun) (nextRun : next.nextRun = s.nextRun + 1)

theorem enter_rebound (s : State) (ref : Nat) (kind : Kind) (stage : Stage)
    (agent : Option Agent) (checked : Checked Identity) :
    Rebound s (enter s ref kind stage agent checked).1
      (enter s ref kind stage agent checked).2 := by
  unfold enter
  split <;> exact .same rfl rfl

theorem answer_rebound (s : State) (checked : Checked α) (use : α → Answer) :
    Rebound s (answer s checked use).1 (answer s checked use).2 := by
  unfold answer
  split <;> exact .same rfl rfl

theorem step_rebound (hs : Admitted s) (action : Action) :
    Rebound s (step s action).1 (step s action).2 := by
  cases action with
  | world host => exact .same rfl rfl
  | begin ref runId =>
    rw [step]
    split <;> exact .same rfl rfl
  | rooted ref record =>
    unfold step
    dsimp only
    split
    · exact .same rfl rfl
    · exact .same rfl rfl
    · rename_i waiting record hwaiting
      split
      · exact .same rfl rfl
      · have hframe : Admitted
            { s with beginning := s.beginning.erase waiting } :=
          hs.shrink rfl rfl rfl rfl (fun _ => id) fun _ => id
        obtain ⟨_, hbinding, hnextRun⟩ := (hframe.bind
          ⟨s.nextRun, record, waiting.2, 0, false, 0, false, false⟩
          rfl).announceAll (record.agent ::
            s.host.agents.filter (· ≠ record.agent))
        split
        · rename_i heq
          rw [heq] at hbinding hnextRun
          exact .fresh hbinding rfl hnextRun
        · rename_i heq
          rw [heq] at hbinding hnextRun
          exact .fresh hbinding rfl hnextRun
  | finish runId =>
    rw [step]
    split
    · exact .same rfl rfl
    · split
      · exact .same rfl rfl
      · exact .gone rfl rfl
  | stop =>
    rw [step]
    split
    · exact .same rfl rfl
    · rename_i bound hbound
      exact .kept hbound rfl rfl (fun _ => .inl rfl) rfl
  | closeInput runId =>
    rw [step]
    split
    · exact .same rfl rfl
    · rename_i bound hbound
      split
      · exact .same rfl rfl
      · exact .kept hbound rfl rfl (fun _ => .inl rfl) rfl
  | prompt runId =>
    rw [step]
    split
    · exact .same rfl rfl
    · rename_i bound hcurrent
      obtain ⟨hbinding, _, _⟩ := current_spec (currentOf_spec hcurrent).1
      exact .kept hbinding rfl rfl (fun _ => .inr rfl) rfl
  | confirm run runId =>
    rw [step]
    split
    · exact .same rfl rfl
    · split <;> exact .same rfl rfl
  | accepting running runId receiptOnly | inputWindow running runId =>
    exact answer_rebound s _ _
  | checkWindow running window =>
    rw [step]
    split
    · exact .same rfl rfl
    · split <;> exact .same rfl rfl
  | wait =>
    rw [step]
    split
    · exact .same rfl rfl
    · rename_i bound hcurrent
      obtain ⟨hbinding, _, _⟩ := current_spec hcurrent
      exact .kept hbinding rfl rfl Or.inl rfl
  | waited run =>
    rw [step]
    split
    · dsimp only
      split
      · exact .same rfl rfl
      · rename_i bound hbound
        split
        · exact .same rfl rfl
        · exact .kept hbound rfl rfl (fun _ => .inl rfl) rfl
    · exact .same rfl rfl
  | started id isLocal =>
    rw [step]
    split
    · split
      · exact .same rfl rfl
      · rename_i next hnext
        obtain ⟨_, hbinding, hnextRun, _⟩ := hs.announce hnext
        exact .same hbinding hnextRun
    · exact .same rfl rfl
  | created ref agent =>
    rw [step]
    split
    · exact enter_rebound s _ _ _ _ _
    · exact .same rfl rfl
  | request agent | guard agent => exact answer_rebound s _ _
  | tool ref agent | model ref sessionId provider model =>
    exact enter_rebound s _ _ _ _ _
  | authorizeInput ref runId =>
    rw [step]
    split
    · exact .same rfl rfl
    · exact enter_rebound s _ _ _ _ _
  | directory ref inside =>
    rw [step]
    split
    · exact .same rfl rfl
    · dsimp only
      split
      · exact .same rfl rfl
      · exact .same rfl rfl
      · split
        · exact .same rfl rfl
        · split <;> exact .same rfl rfl
  | authorized ref granted =>
    rw [step]
    split
    · exact .same rfl rfl
    · dsimp only
      split
      · exact .same rfl rfl
      · split
        · rw [answer_fst]
          exact .same rfl rfl
        · rw [answer_fst]
          exact .same rfl rfl
  | attribution id =>
    rw [step]
    split <;> exact .same rfl rfl

/-- The steps that take an input, close a Run, or let a call wait or go on. -/
def Answer.GivenBy : Answer → Action → Prop
  | .accepted _, .confirm _ _ | .accepted _, .accepting _ _ _
  | .accepted _, .checkWindow _ _ | .window _, .inputWindow _ _ => True
  | .closed _, .finish _ | .closed _, .stop | .closed _, .closeInput _
  | .closed _, .waited _ => True
  | .proceeds _, .authorized _ _ => True
  | .waits _, .created _ _ | .waits _, .tool _ _ | .waits _, .model _ _ _ _
  | .waits _, .authorizeInput _ _ | .waits _, .directory _ _ => True
  | .accepted _, _ | .window _, _ | .closed _, _ | .proceeds _, _
  | .waits _, _ => False
  | _, _ => True

theorem answer_given {checked : Checked α}
    (huse : ∀ value, (use value).GivenBy action) :
    (answer s checked use).2.GivenBy action := by
  unfold answer
  split
  · cases action <;> trivial
  · exact huse _

theorem enter_given (hwaits : ∀ call, (Answer.waits call).GivenBy action) :
    (enter s ref kind stage agent checked).2.GivenBy action := by
  unfold enter
  split
  · exact hwaits _
  all_goals cases action <;> trivial

theorem step_given (s : State) (action : Action) :
    (step s action).2.GivenBy action := by
  cases action with
  | accepting running runId receiptOnly =>
    apply answer_given
    intro bound
    cases receiptOnly <;> trivial
  | inputWindow running runId | request agent | guard agent =>
    exact answer_given fun _ => trivial
  | tool ref agent | model ref sessionId provider model =>
    exact enter_given fun _ => trivial
  | created ref agent =>
    rw [step]
    split
    · exact enter_given fun _ => trivial
    · trivial
  | authorizeInput ref runId =>
    rw [step]
    split
    · trivial
    · exact enter_given fun _ => trivial
  | authorized ref granted =>
    unfold step
    dsimp only
    split
    · trivial
    · split
      · trivial
      · split
        · exact answer_given fun _ => trivial
        · exact answer_given fun _ => trivial
  | _ =>
    unfold step
    dsimp only
    repeat' split
    all_goals trivial

/-- No input of the Run `run` is taken any more. -/
structure InputShut (s : State) (run : Nat) : Prop where
  known : run < s.nextRun
  shut : ∀ bound, s.binding = some bound → bound.run = run →
    bound.inputClosed = true

/-- The answers that take an input of the Run. -/
def Answer.Accepts (answer : Answer) (run : Nat) : Prop :=
  answer = .accepted run ∨ ∃ window, answer = .window window ∧ window.run = run

theorem InputShut.step (hs : Admitted s) (h : InputShut s run) (action : Action)
    (hprompt : (step s action).2 ≠ .prompted run) :
    InputShut (step s action).1 run := by
  cases step_rebound hs action with
  | same binding nextRun =>
    refine ⟨nextRun ▸ h.known, ?_⟩
    rw [binding]
    exact h.shut
  | gone binding nextRun =>
    refine ⟨nextRun ▸ h.known, ?_⟩
    rw [binding]
    rintro _ ⟨⟩
  | kept before after hrun hshut nextRun =>
    refine ⟨nextRun ▸ h.known, ?_⟩
    rw [after]
    rintro _ ⟨⟩ hsame
    have hold := hrun.symm.trans hsame
    rcases hshut (h.shut _ before hold) with hclosed | hprompted
    · exact hclosed
    · rw [hold] at hprompted
      exact absurd hprompted hprompt
  | fresh after hrun nextRun =>
    have hknown := h.known
    refine ⟨by omega, ?_⟩
    rw [after]
    rintro _ ⟨⟩ hsame
    omega

theorem accepting_spec {running : Bool}
    (h : s.accepting running runId false = .ok bound) :
    s.binding = some bound ∧ bound.inputClosed = false := by
  rw [State.accepting, Except.bind_eq_ok] at h
  obtain ⟨other, hcurrent, h⟩ := h
  obtain ⟨hbinding, _, _⟩ := current_spec (currentOf_spec hcurrent).1
  split at h
  · cases h
  · rename_i hopen
    cases h
    refine ⟨hbinding, ?_⟩
    by_contra hclosed
    exact hopen ⟨rfl, .inl (by simpa using hclosed)⟩

/-- Input is taken of the Run that is bound, and only while it is open. -/
theorem step_accepts (h : (step s action).2.Accepts run) :
    ∃ bound, s.binding = some bound ∧ bound.run = run ∧
      bound.inputClosed = false := by
  have hgiven := step_given s action
  cases action with
  | confirm run' runId =>
    rw [step] at h
    split at h
    · rcases h with h | ⟨_, h, _⟩ <;> cases h
    · rename_i bound hcurrent
      obtain ⟨hbinding, _, _⟩ := current_spec (currentOf_spec hcurrent).1
      split at h
      · rcases h with h | ⟨_, h, _⟩ <;> cases h
      · rename_i hopen
        rcases h with h | ⟨_, h, _⟩ <;> cases h
        exact ⟨bound, hbinding, rfl, by simpa using (not_or.mp hopen).2⟩
  | accepting running runId receiptOnly =>
    rw [step] at h
    unfold answer at h
    split at h
    · rcases h with h | ⟨_, h, _⟩ <;> cases h
    · rename_i bound hchecked
      cases receiptOnly with
      | true => rcases h with h | ⟨_, h, _⟩ <;> cases h
      | false =>
        obtain ⟨hbinding, hopen⟩ := accepting_spec hchecked
        rcases h with h | ⟨_, h, _⟩ <;> cases h
        exact ⟨bound, hbinding, rfl, hopen⟩
  | inputWindow running runId =>
    rw [step] at h
    unfold answer at h
    split at h
    · rcases h with h | ⟨_, h, _⟩ <;> cases h
    · rename_i bound hchecked
      obtain ⟨hbinding, hopen⟩ := accepting_spec hchecked
      rcases h with h | ⟨_, h, hrun⟩ <;> cases h
      exact ⟨bound, hbinding, hrun, hopen⟩
  | checkWindow running window =>
    rw [step] at h
    split at h
    · rcases h with h | ⟨_, h, _⟩ <;> cases h
    · rename_i bound hchecked
      obtain ⟨hbinding, hopen⟩ := accepting_spec hchecked
      split at h
      · rcases h with h | ⟨_, h, _⟩ <;> cases h
      · rcases h with h | ⟨_, h, _⟩ <;> cases h
        exact ⟨bound, hbinding, rfl, hopen⟩
  | _ =>
    rcases h with h | ⟨_, h, _⟩ <;> rw [h] at hgiven <;> exact hgiven.elim

/-- Where the input of a Run is closed, nothing of it is taken until it is
prompted again. -/
theorem no_input_until_prompt (actions : List Action) :
    ∀ {s : State} {run : Nat}, Admitted s → InputShut s run →
      (∀ e ∈ admission.events s actions, e.2 ≠ .prompted run) →
      ∀ e ∈ admission.events s actions, ¬e.2.Accepts run := by
  induction actions with
  | nil =>
    intro s run _ _ _ e he
    cases he
  | cons action rest ih =>
    intro s run hs hshut hprompt e he
    have hfirst : (step s action).2 ≠ .prompted run :=
      hprompt (action, (step s action).2) List.mem_cons_self
    rcases List.mem_cons.mp he with rfl | he
    · intro haccepts
      obtain ⟨bound, hbinding, hrun, hopen⟩ := step_accepts haccepts
      rw [hshut.shut bound hbinding hrun] at hopen
      cases hopen
    · exact ih (hs.step action) (hshut.step hs action hfirst)
        (fun other hother => hprompt other (List.mem_cons_of_mem _ hother))
        e he

/-- Closing closes, whichever way it is done. -/
theorem step_closed (hs : Admitted s) (h : (step s action).2 = .closed run) :
    InputShut (step s action).1 run := by
  have hgiven := step_given s action
  rw [h] at hgiven
  cases action with
  | finish runId =>
    cases hbound : s.binding with
    | none =>
      rw [step, hbound] at h
      cases h
    | some bound =>
      rw [step, hbound] at h ⊢
      dsimp only at h ⊢
      split at h
      · cases h
      · rename_i hid
        cases h
        rw [if_neg hid]
        refine ⟨hs.fresh bound hbound, ?_⟩
        rintro _ ⟨⟩
  | stop =>
    cases hbound : s.binding with
    | none =>
      rw [step, hbound] at h
      cases h
    | some bound =>
      rw [step, hbound] at h ⊢
      cases h
      refine ⟨hs.fresh bound hbound, ?_⟩
      rintro _ ⟨⟩ _
      rfl
  | closeInput runId =>
    cases hbound : s.binding with
    | none =>
      rw [step, hbound] at h
      cases h
    | some bound =>
      rw [step, hbound] at h ⊢
      dsimp only at h ⊢
      split at h
      · cases h
      · rename_i hid
        cases h
        rw [if_neg hid]
        refine ⟨hs.fresh bound hbound, ?_⟩
        rintro _ ⟨⟩ _
        rfl
  | waited ended =>
    rw [step] at h ⊢
    split at h
    · rename_i hwait
      have hknown := hs.waits ended hwait
      rw [if_pos hwait]
      dsimp only at h ⊢
      cases hbound : s.binding with
      | none =>
        rw [hbound] at h
        cases h
        refine ⟨hknown, ?_⟩
        rintro _ ⟨⟩
      | some bound =>
        rw [hbound] at h
        dsimp only at h ⊢
        split at h
        · rename_i hother
          cases h
          rw [if_pos hother]
          refine ⟨hknown, ?_⟩
          rintro _ ⟨⟩ hrun
          exact absurd hrun hother
        · rename_i hself
          cases h
          rw [if_neg hself]
          refine ⟨hknown, ?_⟩
          rintro _ ⟨⟩ _
          rfl
    · cases h
  | _ => exact hgiven.elim

/-- The answer that arrives is not one to a call of an earlier Run. -/
def SameRun (s : State) : Action → Prop
  | .authorized ref _ => ∀ call, s.waitingCall ref .authorizing = some call →
      call.kind ≠ .input → ∀ bound, s.binding = some bound →
        bound.run = call.run
  | _ => True

theorem answer_proceeds {checked : Checked α} {call : Call}
    (h : (answer s checked use).2 = .proceeds call) :
    ∃ value, checked = .ok value ∧ use value = .proceeds call := by
  unfold answer at h
  split at h
  · cases h
  · exact ⟨_, rfl, h⟩

/-- A call goes through after it has been authorized, for an agent that is
live then. -/
theorem step_proceeds {call : Call} (h : (step s action).2 = .proceeds call) :
    ∃ ref granted, action = .authorized ref granted ∧
      s.waitingCall ref .authorizing = some call ∧ call.kind ≠ .input ∧
        ∃ value,
          State.live { s with calls := s.calls.erase call }
            (some call.agent) = .ok value := by
  have hgiven := step_given s action
  rw [h] at hgiven
  cases action with
  | authorized ref granted =>
    unfold step at h
    dsimp only at h
    split at h
    · cases h
    · rename_i waiting hwaiting
      split at h
      · cases h
      · split at h
        · obtain ⟨_, _, h⟩ := answer_proceeds h
          cases h
        · rename_i hkind
          obtain ⟨value, hlive, h⟩ := answer_proceeds h
          cases h
          exact ⟨ref, granted, rfl, hwaiting, hkind, value, hlive⟩
  | _ => exact hgiven.elim

theorem proceeds_confined (hs : Admitted s) (hsame : SameRun s action)
    {call : Call} (h : (step s action).2 = .proceeds call) :
    ∃ bound, Confined s call.run call.agent bound ∧
      call.caller.runId = bound.runId := by
  obtain ⟨ref, granted, rfl, hwaiting, hkind, value, hlive⟩ := step_proceeds h
  obtain ⟨hmem, _⟩ := State.waitingCall_mem hwaiting
  have hless := (hs.resume hmem .authorizing).1
  obtain ⟨bound, self, _, hself, hconfined, _⟩ := live_spec hless hlive
  cases hself
  have hrun : bound.run = call.run :=
    hsame call hwaiting hkind bound hconfined.isBound
  refine ⟨bound, ?_, ?_⟩
  · exact
      { isBound := hconfined.isBound
        same := hrun
        running := hconfined.running
        rootCurrent := hconfined.rootCurrent
        registered := hconfined.registered
        below := hconfined.below
        announced := hrun ▸ hconfined.announced }
  · exact (hs.callers call hmem).2 bound hconfined.isBound hrun

/-- A tool or model call only begins to wait for an agent of the Run. -/
theorem enter_confined (hs : Admitted s) {call : Call}
    (hchecked : ∀ caller, checked = .ok caller →
      ∃ value, s.live agent = .ok value)
    (h : (enter s ref kind stage agent checked).2 = .waits call) :
    ∃ bound, Confined s call.run call.agent bound := by
  unfold enter at h
  split at h
  · rename_i self bound caller hcurrent
    cases h
    obtain ⟨value, hlive⟩ := hchecked caller rfl
    obtain ⟨other, self, hother, hself, hconfined, _⟩ := live_spec hs hlive
    cases hself
    rw [hcurrent] at hother
    cases hother
    exact ⟨bound, hconfined⟩
  · cases h
  · cases h
  · cases h

theorem enter_waits {call : Call}
    (h : (enter s ref kind stage agent checked).2 = .waits call) :
    call.kind = kind ∧ call.stage = stage := by
  unfold enter at h
  split at h <;> cases h
  exact ⟨rfl, rfl⟩

/-- A tool or model call begins with an agent that is live. -/
theorem waits_confined (hs : Admitted s) {call : Call}
    (hkind : call.kind = .tool ∨ call.kind = .model)
    (hstage : call.stage = .directory) (h : (step s action).2 = .waits call) :
    ∃ bound, Confined s call.run call.agent bound := by
  have hgiven := step_given s action
  rw [h] at hgiven
  cases action with
  | tool ref agent => exact enter_confined hs (fun caller hlive => ⟨caller, hlive⟩) h
  | model ref sessionId provider model =>
    refine enter_confined hs (fun caller hchecked => ?_) h
    rw [Except.bind_eq_ok] at hchecked
    obtain ⟨value, hlive, _⟩ := hchecked
    exact ⟨value, hlive⟩
  | created ref agent =>
    rw [step] at h
    split at h
    · rcases hkind with hkind | hkind <;>
        rw [(enter_waits h).1] at hkind <;> cases hkind
    · cases h
  | authorizeInput ref runId =>
    rw [step] at h
    split at h
    · cases h
    · rw [(enter_waits h).2] at hstage
      cases hstage
  | directory ref inside =>
    rw [step] at h
    dsimp only at h
    split at h
    · cases h
    · split at h
      · cases h
      · cases h
      · split at h
        · cases h
        · split at h
          · cases h
          · cases h
            cases hstage
  | _ => exact hgiven.elim

/-- Attribution knows the Run that is bound, and no other. -/
theorem attributed_spec (hs : Admitted s)
    (h : s.identities.find? id = some value) :
    ∃ bound, s.binding = some bound ∧ value.runId = bound.runId ∧
      (bound.run, value) ∈ s.announced :=
  hs.identities value (Table.mem_of_find? h)

theorem initial_admitted (host : Host) : Admitted (State.initial host) where
  fresh := by
    rintro _ ⟨⟩
  identities := by
    intro value hvalue
    cases hvalue
  callers := by
    intro call hcall
    cases hcall
  waits := by
    intro run hrun
    cases hrun

/-- What a step from a reachable state keeps to. -/
structure Admits (s : State) (action : Action) (later : List Action) :
    Prop where
  begins : ∀ call, (step s action).2 = .waits call →
    call.kind = .tool ∨ call.kind = .model → call.stage = .directory →
      ∃ bound, Confined s call.run call.agent bound
  proceeds : ∀ call, (step s action).2 = .proceeds call →
    ∃ bound, Confined s call.run call.agent bound ∧
      call.caller.runId = bound.runId
  attributes : ∀ id value, action = .attribution id →
    (step s action).2 = .attributed value →
      ∃ bound, s.binding = some bound ∧ value.runId = bound.runId ∧
        (bound.run, value) ∈ s.announced
  closes : ∀ run, (step s action).2 = .closed run →
    (∀ e ∈ admission.events (step s action).1 later, e.2 ≠ .prompted run) →
      ∀ e ∈ admission.events (step s action).1 later, ¬e.2.Accepts run

/-- No authorization arrives for a call of an earlier Run than the one that is
bound. -/
def NoneOvertaken : State → List Action → Prop
  | _, [] => True
  | s, action :: rest =>
    SameRun s action ∧ NoneOvertaken (step s action).1 rest

theorem NoneOvertaken.at {before later : List Action}
    (h : NoneOvertaken s (before ++ action :: later)) :
    SameRun (admission.after s before) action := by
  induction before generalizing s with
  | nil => exact h.1
  | cons first before ih => exact ih h.2

/-- Calls stay within their Run wherever none is overtaken. -/
theorem run_admission_confines (host : Host) (actions : List Action)
    (h : NoneOvertaken (State.initial host) actions) :
    ∀ before action later, actions = before ++ action :: later →
      Admits (admission.after (State.initial host) before) action later := by
  rintro before action later rfl
  have hs : Admitted (admission.after (State.initial host) before) :=
    Machine.after_invariant Admitted (fun s action hs => hs.step action)
      (initial_admitted host) before
  constructor
  · intro call hwaits hkind hstage
    exact waits_confined hs hkind hstage hwaits
  · intro call hproceeds
    exact proceeds_confined hs h.at hproceeds
  · rintro id value rfl hattributed
    rw [step] at hattributed
    split at hattributed
    · cases hattributed
    · rename_i hfound
      cases hattributed
      exact attributed_spec hs hfound
  · intro run hclosed hprompt
    exact no_input_until_prompt later (hs.step action)
      (step_closed hs hclosed) hprompt

namespace RunAdmissionWitness

def root : Agent := ⟨0, [0x72], 0, false, none⟩

def child : Agent := ⟨1, [0x63], 1, true, some [0x72]⟩

/-- A Host with a current root and one subagent of it. -/
def host : Host where
  detaching := false
  terminated := false
  ready := true
  epoch := 1
  roots := fun id => if id = [0x72] then some ⟨root, 1⟩ else none
  agents := [root, child]
  sessions := fun id => if id = [0x72] then some 0 else some 1
  ownedBy := fun id parent => id = [0x63] ∧ parent = root
  provider := []
  model := []

def firstRun : JsString := [0x31]

def nextRun : JsString := [0x32]

/-- The child's tool is authorized in the Run it was called in. -/
def orderly : List Action :=
  [.begin 0 firstRun, .rooted 0 (some ⟨root, 1⟩), .tool 1 child,
    .directory 1 (some true), .authorized 1 true]

/-- The Run ends, and the next one begins, while the worker authorizes. -/
def overtaken : List Action :=
  [.begin 0 firstRun, .rooted 0 (some ⟨root, 1⟩), .tool 1 child,
    .directory 1 (some true), .finish firstRun, .begin 2 nextRun,
    .rooted 2 (some ⟨root, 1⟩)]

def childCall : Call :=
  ⟨1, .tool, child, 0, ⟨firstRun, [0x63], [0x72], some [0x72], 1⟩,
    .authorizing⟩

theorem run_admission_confines_orderly :
    Admits (admission.after (State.initial host) (orderly.take 4))
      (.authorized 1 true) [] := by
  refine run_admission_confines host orderly
    ⟨trivial, trivial, trivial, trivial, ?_, trivial⟩ (orderly.take 4) _ _ rfl
  intro call hcall _ bound hbound
  have hwaiting : State.waitingCall (admission.after (State.initial host)
      (orderly.take 4)) 1 .authorizing = some childCall := by
    decide
  cases hwaiting.symm.trans hcall
  cases hbound
  rfl

/-- The call goes through under the authorization of a Run that has ended. -/
theorem overtaken_call_proceeds :
    let s := admission.after (State.initial host) overtaken
    (step s (.authorized 1 true)).2 = .proceeds childCall ∧
      (∃ bound, s.binding = some bound ∧ bound.runId = nextRun) ∧
      ¬∃ bound, Confined s childCall.run childCall.agent bound := by
  refine ⟨by decide, ⟨_, rfl, rfl⟩, ?_⟩
  rintro ⟨bound, hconfined⟩
  have hbound := hconfined.isBound
  have hsame := hconfined.same
  cases hbound
  exact absurd hsame (by decide)

end RunAdmissionWitness

end Allrice.RunAdmission
