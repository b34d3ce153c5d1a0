/-
A parked question over whole runs: what every request and every prompt rests on,
and that a checkpoint is continued once as long as no request continues one that
is no longer parked.
-/
import Allrice.DshWaitFacts

namespace Allrice.DshWaits

open DshInputs

variable {host : WaitHost} {strict : Prop} {closed : Nat → Prop}
  {old : List Prompt} {s t : State} {params : Params} {outer : Seen}
  {work : Work}

/-- The checkpoint that a request continues. -/
def Phase.outer? : Phase → Option Seen
  | .entering => none
  | .answering outer => outer
  | .checking outer _ _ => outer
  | .delivering outer _ _ _ => outer
  | .answered outer _ => some outer
  | .deciding outer _ _ _ => some outer
  | .dispatching outer _ _ => some outer
  | .prompting outer _ => some outer

/-- The checkpoint that a request is about to prompt for; a dispatch on a record
that is gone comes to nothing. -/
def Phase.active? (root : Nat) : Phase → Option Nat
  | .dispatching outer _ _ =>
    if outer.record = root then some outer.sequence else none
  | .prompting outer _ => some outer.sequence
  | _ => none

/-- What holds in every run.  A checkpoint that is `closed` gets no prompt
beyond the `old` ones; where `strict` holds, a checkpoint gets one prompt. -/
structure Waits (host : WaitHost) (strict : Prop) (closed : Nat → Prop)
    (old : List Prompt) (s : State) : Prop where
  durable : s.durable ≤ s.events.length
  fits : ∀ ref request, s.requests ref = some request →
    Fits host strict s request
  prompts : ∀ prompt ∈ s.prompts, Submitted host strict s prompt
  decisions : (s.pause.decisions.map Prod.fst).Nodup
  continued : ∀ sequence, closed sequence →
    ∃ k < s.durable, sequence < k ∧
      ∃ continued, s.events[k]? = some (.waitContinued continued)
  fresh : ∀ ref request outer, s.requests ref = some request →
    request.phase.outer? = some outer → ¬closed outer.sequence
  later : ∃ later, s.prompts = old ++ later ∧
    ∀ prompt ∈ later, ¬closed prompt.outer.sequence
  once : strict → (s.prompts.map fun prompt => prompt.outer.sequence).Nodup
  unprompted : strict → ∀ ref request sequence,
    s.requests ref = some request →
      request.phase.active? s.root = some sequence →
        ∀ prompt ∈ s.prompts, prompt.outer.sequence ≠ sequence
  alone : strict → ∀ ref ref' request request' sequence,
    s.requests ref = some request → s.requests ref' = some request' →
      request.phase.active? s.root = some sequence →
      request'.phase.active? s.root = some sequence → ref = ref'

variable {ref sequence record : Nat} {phase : Phase}

/-- On a later record less is active. -/
theorem active?_of_grows (hg : Grows s t) {request : Request}
    (hfits : Fits host strict s request)
    (h : request.phase.active? t.root = some sequence) :
    request.phase.active? s.root = some sequence := by
  unfold Phase.active? at h ⊢
  cases hphase : request.phase with
  | dispatching outer work written =>
    rw [hphase] at h
    simp only [Fits, hphase] at hfits
    simp only at h ⊢
    split at h
    · rename_i hrecord
      rw [if_pos (hg.on_record hfits.2.2.2.1 hrecord).1]
      exact h
    · cases h
  | prompting outer work =>
    rw [hphase] at h
    exact h
  | _ =>
    rw [hphase] at h
    cases h

/-- The journal grows and no request moves. -/
theorem Waits.grow (h : Waits host strict closed old s) (hg : Grows s t)
    (hdurable : t.durable ≤ t.events.length)
    (hrequests : ∀ ref request, t.requests ref = some request →
      s.requests ref = some request)
    (hprompts : t.prompts = s.prompts)
    (hpause : (t.pause.decisions.map Prod.fst).Nodup) :
    Waits host strict closed old t where
  durable := hdurable
  fits := fun ref request hrequest =>
    (h.fits ref request (hrequests ref request hrequest)).grow hg
  prompts := by
    rw [hprompts]
    exact fun prompt hprompt => (h.prompts prompt hprompt).grow hg
  decisions := hpause
  continued := by
    intro sequence hclosed
    obtain ⟨k, hk, hlt, continued, hcontinued⟩ := h.continued sequence hclosed
    have hat : (s.events.take s.durable)[k]? =
        some (.waitContinued continued) := by
      rw [List.getElem?_take_of_lt hk, hcontinued]
    have hlater := getElem?_of_initial hg.durable hat
    have hbound := (List.getElem?_eq_some_iff.1 hlater).1
    have hdurableK : k < t.durable := by
      simp only [List.length_take] at hbound
      omega
    rw [List.getElem?_take_of_lt hdurableK] at hlater
    exact ⟨k, hdurableK, hlt, continued, hlater⟩
  fresh := fun ref request outer hrequest =>
    h.fresh ref request outer (hrequests ref request hrequest)
  later := by rw [hprompts]; exact h.later
  once := by rw [hprompts]; exact h.once
  unprompted := by
    intro hstrict ref request sequence hrequest hactive
    have hrequest := hrequests ref request hrequest
    rw [hprompts]
    exact h.unprompted hstrict ref request sequence hrequest
      (active?_of_grows hg (h.fits ref request hrequest) hactive)
  alone := by
    intro hstrict ref ref' request request' sequence hrequest hrequest'
      hactive hactive'
    have hrequest := hrequests ref request hrequest
    have hrequest' := hrequests ref' request' hrequest'
    exact h.alone hstrict ref ref' request request' sequence hrequest hrequest'
      (active?_of_grows hg (h.fits ref request hrequest) hactive)
      (active?_of_grows hg (h.fits ref' request' hrequest') hactive')

/-- A request ends. -/
theorem Waits.reject (h : Waits host strict closed old s) (ref : Nat) :
    Waits host strict closed old (DshWaits.reject s ref).1 := by
  refine h.grow (grows_requests ref none) h.durable ?_ rfl h.decisions
  intro ref' request hrequest
  change Function.update s.requests ref none ref' = some request at hrequest
  by_cases href : ref' = ref
  · subst href
    rw [Function.update_self] at hrequest
    cases hrequest
  · rwa [Function.update_of_ne href] at hrequest

/-- A request moves on to a phase that fits; if it becomes active, then for a
checkpoint that no other request and no prompt has. -/
theorem Waits.wait (h : Waits host strict closed old s)
    (hfits : Fits host strict s ⟨params, phase⟩)
    (hfresh : ∀ seen, phase.outer? = some seen → ¬closed seen.sequence)
    (hactive : strict → ∀ sequence, phase.active? s.root = some sequence →
      (∀ prompt ∈ s.prompts, prompt.outer.sequence ≠ sequence) ∧
        ∀ ref' request, ref' ≠ ref → s.requests ref' = some request →
          request.phase.active? s.root ≠ some sequence) :
    Waits host strict closed old (DshWaits.wait s ref params phase).1 := by
  have hg : Grows s (DshWaits.wait s ref params phase).1 :=
    grows_requests ref _
  have hcases : ∀ ref' request,
      (DshWaits.wait s ref params phase).1.requests ref' = some request →
        ref' = ref ∧ request = ⟨params, phase⟩ ∨
          ref' ≠ ref ∧ s.requests ref' = some request := by
    intro ref' request hrequest
    change Function.update s.requests ref (some ⟨params, phase⟩) ref' =
      some request at hrequest
    by_cases href : ref' = ref
    · subst href
      rw [Function.update_self] at hrequest
      exact .inl ⟨rfl, (Option.some.inj hrequest).symm⟩
    · rw [Function.update_of_ne href] at hrequest
      exact .inr ⟨href, hrequest⟩
  constructor
  · exact h.durable
  · intro ref' request hrequest
    rcases hcases ref' request hrequest with ⟨-, rfl⟩ | ⟨-, hrequest⟩
    · exact hfits.grow hg
    · exact (h.fits ref' request hrequest).grow hg
  · exact fun prompt hprompt => (h.prompts prompt hprompt).grow hg
  · exact h.decisions
  · exact h.continued
  · intro ref' request seen hrequest hseen
    rcases hcases ref' request hrequest with ⟨-, rfl⟩ | ⟨-, hrequest⟩
    · exact hfresh seen hseen
    · exact h.fresh ref' request seen hrequest hseen
  · exact h.later
  · exact h.once
  · intro hstrict ref' request sequence hrequest hsequence
    rcases hcases ref' request hrequest with ⟨-, rfl⟩ | ⟨-, hrequest⟩
    · exact (hactive hstrict sequence hsequence).1
    · exact h.unprompted hstrict ref' request sequence hrequest hsequence
  · intro hstrict first second request request' sequence hfirst hsecond
      hsequence hsequence'
    rcases hcases first request hfirst with ⟨href₁, rfl⟩ | ⟨hne, hearlier⟩
    · rcases hcases second request' hsecond with ⟨href₂, -⟩ | ⟨hne, hother⟩
      · exact href₁.trans href₂.symm
      · exact absurd hsequence' ((hactive hstrict sequence hsequence).2 second
          request' hne hother)
    · rcases hcases second request' hsecond with ⟨-, rfl⟩ | ⟨-, hother⟩
      · exact absurd hsequence ((hactive hstrict sequence hsequence').2 first
          request hne hearlier)
      · exact h.alone hstrict first second request request' sequence hearlier
          hother hsequence hsequence'

/-- A request that is not yet active waits in another phase. -/
theorem Waits.waitQuiet (h : Waits host strict closed old s)
    (hfits : Fits host strict s ⟨params, phase⟩)
    (hfresh : ∀ seen, phase.outer? = some seen → ¬closed seen.sequence)
    (hquiet : phase.active? s.root = none) :
    Waits host strict closed old (DshWaits.wait s ref params phase).1 :=
  h.wait hfits hfresh (by
    intro _ sequence hactive
    rw [hquiet] at hactive
    cases hactive)

theorem Waits.setAgent (h : Waits host strict closed old s) {agent : Agent}
    (hevents : s.events <+: agent.events) :
    Waits host strict closed old (s.setAgent agent) := by
  have heq : (s.setAgent agent).events = agent.events := by
    simp [State.events, State.agent, State.setAgent]
  refine h.grow (grows_agent h.durable hevents) ?_
    (fun _ _ hrequest => hrequest) rfl h.decisions
  rw [heq]
  exact h.durable.trans hevents.length_le

theorem Waits.flush (h : Waits host strict closed old s) {written : Nat}
    (hwritten : record = s.root → written ≤ s.events.length) :
    Waits host strict closed old (DshWaits.flush s record written) := by
  unfold DshWaits.flush
  split
  · rename_i hrecord
    exact h.grow (grows_durable (Nat.le_max_left _ _))
      (Nat.max_le.2 ⟨h.durable, hwritten hrecord⟩)
      (fun _ _ hrequest => hrequest) rfl h.decisions
  · exact h

theorem asserts_root (h : s.asserts record = true) : record = s.root := by
  unfold State.asserts at h
  simp only [Bool.and_eq_true, decide_eq_true_eq] at h
  exact h.2

theorem parked_eq_some {seen : Seen} (h : parked s params = some seen) :
    seen.record = s.root ∧
      pendingNativeWait s.events = some (seen.wait, seen.sequence) ∧
      seen.wait.questionId = params.questionId := by
  unfold parked at h
  obtain ⟨⟨wait, sequence⟩, hpending, hseen⟩ := Option.bind_eq_some_iff.1 h
  simp only at hseen
  split at hseen
  · rename_i hguard
    cases hseen
    exact ⟨rfl, hpending, hguard.2.1⟩
  · cases hseen

theorem parked_standing {seen : Seen} (h : parked s params = some seen) :
    Standing s seen := by
  obtain ⟨hrecord, hpending, -⟩ := parked_eq_some h
  exact ⟨hrecord.le, fun _ => checkpoint_of_pending hpending⟩

/-- A checkpoint that is parked is not closed. -/
theorem Waits.parked_open (h : Waits host strict closed old s) {seen : Seen}
    (hparked : parked s params = some seen) : ¬closed seen.sequence := by
  obtain ⟨-, hpending, -⟩ := parked_eq_some hparked
  intro hclosed
  obtain ⟨k, -, hlt, continued, hcontinued⟩ :=
    h.continued seen.sequence hclosed
  exact not_continued_of_pending hpending hlt hcontinued

theorem prefix_append (agent : Agent) (event : Event) :
    agent.events <+: (agent.append event).events :=
  ⟨[event], rfl⟩

theorem Waits.deliver (h : Waits host strict closed old s) {seen : Option Seen}
    (hworks : Works host s params work)
    (hahead : ∀ outer, seen = some outer →
      Ahead s params outer work ∧ ¬closed outer.sequence) :
    Waits host strict closed old
      (DshWaits.deliver host s ref params seen work).1 := by
  unfold DshWaits.deliver
  split
  · exact h.reject ref
  · rename_i agent stage hdeliver
    have hinitial : s.events <+: agent.events := by
      rcases deliver_cases hdeliver with
        ⟨previous, -, rfl, -⟩ | ⟨request, rfl, -⟩
      · exact List.prefix_refl _
      · exact prefix_append s.agent _
    have hg := grows_agent h.durable hinitial
    have hevents : (s.setAgent agent).events = agent.events := by
      simp [State.events, State.agent, State.setAgent]
    refine (h.setAgent hinitial).waitQuiet ?_
      (fun outer houter => (hahead outer houter).2) rfl
    refine ⟨hworks.grow hg, fun outer houter => (hahead outer houter).1.grow hg,
      ?_, ?_⟩
    · rintro question answer rfl
      rcases deliver_cases hdeliver with
        ⟨previous, hstage, -⟩ | ⟨request, -, -, -, -, -, hasked⟩
      · cases hstage
      · obtain ⟨hquestion, hanswer, -⟩ := hasked question answer rfl
        rw [← Option.some.inj hquestion] at hanswer
        have := hworks.answer.symm.trans hanswer
        exact (Option.some.inj (Option.some.inj this)).symm
    · intro _
      refine ⟨hevents ▸ Nat.le_refl _, ?_⟩
      rintro adoption rfl
      rcases deliver_cases hdeliver with
        ⟨previous, hstage, rfl, hinspect, -⟩ | ⟨request, -, -, -, hbound, -⟩
      · cases hstage
        rw [hevents]
        exact adoptedIn_of_inspect hinspect
      · cases hbound

theorem Waits.answerNativeWait (h : Waits host strict closed old s)
    {seen : Option Seen}
    (houter : ∀ outer, seen = some outer →
      (Standing s outer ∧ outer.wait.questionId = params.questionId) ∧
        ¬closed outer.sequence) :
    Waits host strict closed old
      (DshWaits.answerNativeWait host s ref params seen).1 := by
  unfold DshWaits.answerNativeWait
  split
  · exact h.reject ref
  · rename_i inner hparked
    obtain ⟨hrecord, hpending, hnamed⟩ := parked_eq_some hparked
    split
    · rename_i answer hanswer
      have hworks : Works host s params
          { inner, answer, resolved := none } :=
        ⟨parked_standing hparked, hnamed, hanswer, by rintro _ ⟨⟩⟩
      have hahead : ∀ outer, seen = some outer →
          Ahead s params outer { inner, answer, resolved := none } ∧
            ¬closed outer.sequence := by
        intro outer hseen
        obtain ⟨⟨hstanding, hname⟩, hopen⟩ := houter outer hseen
        refine ⟨⟨hstanding, hname, hrecord ▸ hstanding.record, ?_⟩, hopen⟩
        intro hcurrent
        exact le_of_pending hpending (hstanding.checkpoint hcurrent)
      dsimp only
      split
      · exact h.deliver hworks hahead
      · split
        · exact h.waitQuiet ⟨hworks, fun outer hseen => (hahead outer hseen).1⟩
            (fun outer hseen => (hahead outer hseen).2) rfl
        · exact h.reject ref
    · exact h.reject ref

theorem Waits.proved (h : Waits host strict closed old s) {seen : Option Seen}
    {proof : Except InputError Inspection} (hworks : Works host s params work)
    (hahead : ∀ outer, seen = some outer →
      Ahead s params outer work ∧ ¬closed outer.sequence)
    (hproof : ∀ adoption, proof = .ok (.adopted adoption) →
      work.inner.record = s.root → AdoptedIn host s.events (typed params)) :
    Waits host strict closed old
      (DshWaits.proved s ref params seen work proof).1 := by
  unfold DshWaits.proved
  split
  · rename_i adoption outer
    obtain ⟨houter, hopen⟩ := hahead outer rfl
    refine h.waitQuiet ⟨hworks, houter, hproof adoption rfl⟩ ?_ rfl
    rintro _ ⟨⟩
    exact hopen
  · exact h.reject ref
  · exact h.reject ref

theorem inspect_adoptedIn {adoption : Adoption}
    (h : inspectDshInput host.toInputHost (s.agents record) (typed params)
      none = .ok (.adopted adoption)) (hrecord : record = s.root) :
    AdoptedIn host s.events (typed params) := by
  rw [hrecord] at h
  exact adoptedIn_of_inspect h

theorem Waits.delivered (h : Waits host strict closed old s)
    {seen : Option Seen} {stage : Stage} (hworks : Works host s params work)
    (hahead : ∀ outer, seen = some outer →
      Ahead s params outer work ∧ ¬closed outer.sequence)
    (hasked : ∀ question answer, stage = .asked question answer →
      answer = work.answer)
    (hknown : work.inner.record = s.root →
      ∀ adoption, stage = .known (.adopted adoption) →
        AdoptedIn host s.events (typed params)) :
    Waits host strict closed old
      (DshWaits.delivered host s ref params seen work stage).1 := by
  have hinspect : ∀ adoption,
      inspectDshInput host.toInputHost (s.agents work.inner.record)
        (typed params) none = .ok (.adopted adoption) →
        work.inner.record = s.root → AdoptedIn host s.events (typed params) :=
    fun adoption hadopted hrecord => inspect_adoptedIn hadopted hrecord
  unfold DshWaits.delivered
  dsimp only
  split
  · rename_i previous
    refine h.proved hworks hahead ?_
    intro adoption hprevious hrecord
    exact hknown hrecord adoption (by rw [Except.ok.inj hprevious])
  · rename_i question answer
    split
    · have hinitial : s.events <+: (applyDelivery s.agent (typed params)
          (.asked question answer)).1.events := prefix_append s.agent _
      have hg := grows_agent h.durable hinitial
      have hevents : (s.setAgent (applyDelivery s.agent (typed params)
          (.asked question answer)).1).events =
          (applyDelivery s.agent (typed params)
            (.asked question answer)).1.events := by
        simp [State.events, State.agent, State.setAgent]
      refine (h.setAgent hinitial).waitQuiet ?_
        (fun outer houter => (hahead outer houter).2) rfl
      have hlater := hworks.grow hg
      refine ⟨⟨hlater.standing, hlater.named, hlater.answer, ?_⟩,
        ?_, by rintro _ _ ⟨⟩, fun _ => ⟨hevents ▸ Nat.le_refl _, by
          rintro _ ⟨⟩⟩⟩
      · rintro _ ⟨⟩
        exact hasked question answer rfl
      · intro outer houter
        have hthen := (hahead outer houter).1.grow hg
        exact ⟨hthen.standing, hthen.named, hthen.record, hthen.order⟩
    · exact h.proved hworks hahead hinspect
  · exact h.proved hworks hahead hinspect

/-- A checkpoint that a request is about to prompt for has its dispatch intent
in the journal. -/
theorem Waits.dispatched_of_active (h : Waits host strict closed old s)
    {request : Request} (hrequest : s.requests ref = some request)
    (hactive : request.phase.active? s.root = some sequence) :
    ∃ params outer, outer.sequence = sequence ∧
      Dispatched host s.events params outer := by
  have hfits := h.fits ref request hrequest
  unfold Phase.active? at hactive
  split at hactive
  · rename_i outer work written hphase
    simp only [Fits, hphase] at hfits
    split at hactive
    · rename_i hrecord
      cases hactive
      exact ⟨request.params, outer, rfl, (hfits.2.2.2.2 hrecord).2.of_initial
        (List.take_prefix _ _)⟩
    · cases hactive
  · rename_i outer work hphase
    simp only [Fits, hphase] at hfits
    cases hactive
    exact ⟨request.params, outer, rfl, hfits.2.2.2.of_initial
      (List.take_prefix _ _)⟩
  · cases hactive

theorem Waits.dispatch (h : Waits host strict closed old s)
    (hworks : Works host s params work) (hahead : Ahead s params outer work)
    (hopen : ¬closed outer.sequence)
    (hadopted : work.inner.record = s.root →
      AdoptedIn host s.events (typed params))
    (hpending : strict → s.asserts outer.record = true →
      pendingNativeWait s.events = some (outer.wait, outer.sequence)) :
    Waits host strict closed old
      (DshWaits.dispatch s ref params outer work).1 := by
  unfold DshWaits.dispatch
  split
  · rename_i hasserts
    have hrecord := asserts_root hasserts
    have hinner : work.inner.record = s.root :=
      Nat.le_antisymm hworks.standing.record (hrecord ▸ hahead.record)
    have hcheckpoint := hahead.standing.checkpoint hrecord
    have hlt := (List.getElem?_eq_some_iff.1 hcheckpoint).1
    have hinitial := prefix_append s.agent (.waitContinued
      { questionId := outer.wait.questionId, inputId := params.input.inputId })
    have hevents : (s.setAgent (s.agent.append (.waitContinued
        { questionId := outer.wait.questionId
          inputId := params.input.inputId }))).events =
        s.events ++ [Event.waitContinued
          { questionId := outer.wait.questionId
            inputId := params.input.inputId }] := by
      simp [State.events, State.agent, State.setAgent, Agent.append]
    refine (h.setAgent hinitial).wait ?_ ?_ ?_
    · refine ⟨hworks.grow (grows_agent h.durable hinitial), hahead.named, ?_,
        hahead.standing.record, ?_⟩
      · intro hstrict
        have hparked := hpending hstrict hasserts
        have hanswered := hworks.standing.checkpoint hinner
        have hsame : work.inner.sequence = outer.sequence :=
          Nat.le_antisymm (le_of_pending hparked hanswered)
            (hahead.order hrecord)
        rw [hsame, hcheckpoint] at hanswered
        exact (Event.waitCheckpoint.inj (Option.some.inj hanswered)).symm
      · intro _
        rw [hevents]
        refine ⟨by simp [Agent.append, State.events], ?_⟩
        rw [List.take_of_length_le (by simp [Agent.append, State.events])]
        refine ⟨s.events.length, hlt, List.getElem?_concat_length, ?_, ?_⟩
        · rw [List.getElem?_append_left hlt]
          exact hcheckpoint
        · rw [List.take_left]
          exact hadopted hinner
    · rintro _ ⟨⟩
      exact hopen
    · intro hstrict sequence hactive
      have hparked := hpending hstrict hasserts
      have hsequence : sequence = outer.sequence := by
        simp only [Phase.active?] at hactive
        split at hactive
        · exact (Option.some.inj hactive).symm
        · cases hactive
      subst hsequence
      constructor
      · intro prompt hprompt hsame
        have hdispatched := (h.prompts prompt hprompt).dispatched
        exact hdispatched.not_pending (List.take_prefix _ _)
          (by rw [hsame]; exact hparked)
      · intro ref' request _ hrequest hother
        obtain ⟨params', outer', hsame, hdispatched⟩ :=
          h.dispatched_of_active hrequest hother
        exact hdispatched.not_pending (List.prefix_refl _)
          (by rw [hsame]; exact hparked)
  · exact h.reject ref

/-- The checkpoint that a step is about to write a dispatch intent for. -/
def dispatching (s : State) : Action → Option Seen
  | .resume ref =>
    match s.requests ref with
    | some ⟨_, .answered outer _⟩ =>
      if s.asserts outer.record ∧
          programQuestionProgress outer.wait.questionId = none then
        some outer
      else none
    | _ => none
  | .replied ref succeeded =>
    match s.requests ref with
    | some ⟨_, .deciding outer _ decision (some decided)⟩ =>
      if succeeded ∧ decided ∧ s.asserts outer.record ∧
          decision = .continue then
        some outer
      else none
    | _ => none
  | _ => none

/-- A request that goes on with its answer, or with its decision, finds its
checkpoint still parked. -/
def StillParked (s : State) (action : Action) : Prop :=
  ∀ outer, dispatching s action = some outer →
    pendingNativeWait s.events = some (outer.wait, outer.sequence)

theorem decide_decisions {row next : PauseRow} {leased : Bool}
    {pauseId : JsString} {decision : Decision}
    (h : (row.decisions.map Prod.fst).Nodup)
    (hnext : row.decide leased pauseId decision = some next) :
    (next.decisions.map Prod.fst).Nodup := by
  unfold PauseRow.decide at hnext
  split at hnext
  · cases hnext
  · split at hnext
    · split at hnext
      · cases hnext
        exact h
      · cases hnext
    · rename_i hnone
      split at hnext
      · cases hnext
      · have hfresh : ((row.decisions ++ [(pauseId, decision)]).map
            Prod.fst).Nodup := by
          rw [List.map_append, List.nodup_append']
          refine ⟨h, List.nodup_singleton _, ?_⟩
          rw [List.map_singleton, List.disjoint_singleton]
          intro hmem
          obtain ⟨prior, hprior, hid⟩ := List.mem_map.1 hmem
          have := List.find?_eq_none.1 hnone prior hprior
          simp [hid] at this
        cases decision <;> (cases hnext; exact hfresh)

theorem Waits.prompted (h : Waits host strict closed old s)
    (hrequest : s.requests ref = some ⟨params, .prompting outer work⟩) :
    Waits host strict closed old
      { s.setRequest ref none with
        prompts := s.prompts ++ [promptOf host params outer work] } := by
  have hfits := h.fits ref _ hrequest
  obtain ⟨hworks, hnamed, hstrict, hdispatched⟩ := hfits
  have hg : Grows s { s.setRequest ref none with
      prompts := s.prompts ++ [promptOf host params outer work] } :=
    ⟨Nat.le_refl _, fun _ => List.prefix_refl _, List.prefix_refl _⟩
  have hended := h.reject ref
  have hother : ∀ ref' request,
      (s.setRequest ref none).requests ref' = some request →
        ref' ≠ ref ∧ s.requests ref' = some request := by
    intro ref' request hother
    change Function.update s.requests ref none ref' = some request at hother
    by_cases href : ref' = ref
    · subst href
      rw [Function.update_self] at hother
      cases hother
    · rw [Function.update_of_ne href] at hother
      exact ⟨href, hother⟩
  constructor
  · exact h.durable
  · intro ref' request hmem
    exact (h.fits ref' request (hother ref' request hmem).2).grow hg
  · intro prompt hprompt
    rcases List.mem_append.1 hprompt with hprompt | hprompt
    · exact (h.prompts prompt hprompt).grow hg
    · rw [List.mem_singleton.1 hprompt]
      refine ⟨hworks.answer, ?_, hworks.named.trans hnamed.symm, hstrict,
        hdispatched⟩
      have hanswer : work.resolved.getD work.answer = work.answer := by
        cases hresolved : work.resolved with
        | none => rfl
        | some answer => exact hworks.resolved answer hresolved
      simp only [promptOf, hanswer]
  · exact h.decisions
  · exact h.continued
  · exact hended.fresh
  · obtain ⟨later, hlater, hopen⟩ := h.later
    refine ⟨later ++ [promptOf host params outer work], ?_, ?_⟩
    · rw [← List.append_assoc, ← hlater]
    · intro prompt hprompt
      rcases List.mem_append.1 hprompt with hprompt | hprompt
      · exact hopen prompt hprompt
      · rw [List.mem_singleton.1 hprompt]
        exact h.fresh ref _ outer hrequest rfl
  · intro hstrict
    rw [List.map_append, List.map_singleton, List.nodup_append']
    refine ⟨h.once hstrict, List.nodup_singleton _, ?_⟩
    rw [List.disjoint_singleton]
    intro hmem
    obtain ⟨prompt, hprompt, hsame⟩ := List.mem_map.1 hmem
    exact h.unprompted hstrict ref _ _ hrequest rfl prompt hprompt hsame
  · intro hstrict ref' request sequence hmem hactive prompt hprompt
    obtain ⟨hne, hmem⟩ := hother ref' request hmem
    rcases List.mem_append.1 hprompt with hprompt | hprompt
    · exact h.unprompted hstrict ref' request sequence hmem hactive prompt
        hprompt
    · rw [List.mem_singleton.1 hprompt]
      intro hsame
      refine hne (h.alone hstrict ref' ref request _ sequence hmem hrequest
        hactive ?_)
      rw [← hsame]
      rfl
  · exact hended.alone

theorem Waits.answers (h : Waits host strict closed old s)
    (hrequest : s.requests ref = some ⟨params, .answered outer work⟩)
    (hparked : strict → StillParked s (.resume ref)) :
    Waits host strict closed old
      (continueNativeWait host s ref params outer work).1 := by
  obtain ⟨hworks, hahead, hadopted⟩ := h.fits ref _ hrequest
  have hopen := h.fresh ref _ outer hrequest rfl
  unfold continueNativeWait
  split
  · exact h.reject ref
  · rename_i hasserts
    split
    · rename_i hprogress
      refine h.dispatch hworks hahead hopen hadopted ?_
      intro hstrict hasserts
      refine hparked hstrict outer ?_
      simp [dispatching, hrequest, hasserts, hprogress]
    · split
      · split
        · exact h.reject ref
        · split
          · refine h.waitQuiet ⟨hworks, hahead, hadopted⟩ ?_ rfl
            rintro _ ⟨⟩
            exact hopen
          · exact h.reject ref
      · exact h.reject ref

theorem Waits.step (h : Waits host strict closed old s) (action : Action)
    (hparked : strict → StillParked s action) :
    Waits host strict closed old (DshWaits.step host s action).1 := by
  have hsame : ∀ ref request, s.requests ref = some request →
      s.requests ref = some request := fun _ _ hrequest => hrequest
  cases action with
  | answerWait ref params =>
    simp only [DshWaits.step]
    split
    · exact h
    · exact h.waitQuiet (by rintro _ ⟨⟩) (by rintro _ ⟨⟩) rfl
  | continueWait ref params =>
    simp only [DshWaits.step]
    split
    · exact h
    · exact h.waitQuiet trivial (by rintro _ ⟨⟩) rfl
  | rooted ref succeeded =>
    simp only [DshWaits.step]
    split
    · split
      · split
        · rename_i params _ _ outer hseen
          obtain ⟨-, -, hnamed⟩ := parked_eq_some hseen
          refine h.waitQuiet ?_ ?_ rfl
          · rintro _ ⟨⟩
            exact ⟨parked_standing hseen, hnamed⟩
          · rintro _ ⟨⟩
            exact h.parked_open hseen
        · exact h.reject ref
      · exact h.reject ref
    · rename_i params outer hrequest
      split
      · refine h.answerNativeWait ?_
        intro seen hseen
        exact ⟨h.fits ref _ hrequest seen hseen,
          h.fresh ref _ seen hrequest hseen⟩
      · exact h.reject ref
    · exact h
  | bridged ref leased =>
    simp only [DshWaits.step]
    split
    · rename_i params outer work hrequest
      have hfits := h.fits ref _ hrequest
      exact h.waitQuiet hfits
        (fun seen hseen => h.fresh ref _ seen hrequest hseen) rfl
    · rename_i params outer work decision hrequest
      split
      · exact h
      · have hfits := h.fits ref _ hrequest
        have hopen := fun seen hseen => h.fresh ref _ seen hrequest hseen
        split
        · rename_i pause hpause
          have hpaused := h.grow
            (t := { s with pause })
            ⟨Nat.le_refl _, fun _ => List.prefix_refl _, List.prefix_refl _⟩
            h.durable hsame rfl (decide_decisions h.decisions hpause)
          have hfits := hpaused.fits ref _ hrequest
          exact hpaused.waitQuiet hfits hopen rfl
        · exact h.waitQuiet hfits hopen rfl
    · exact h
  | replied ref succeeded =>
    simp only [DshWaits.step]
    split
    · rename_i params outer work reply hrequest
      obtain ⟨hworks, hahead⟩ := h.fits ref _ hrequest
      split
      · split
        · refine h.deliver hworks ?_
          intro seen hseen
          exact ⟨hahead seen hseen, h.fresh ref _ seen hrequest hseen⟩
        · exact h.reject ref
      · exact h.reject ref
    · rename_i params outer work decision decided hrequest
      obtain ⟨hworks, hahead, hadopted⟩ := h.fits ref _ hrequest
      split
      · rename_i hgo
        refine h.dispatch hworks hahead (h.fresh ref _ outer hrequest rfl)
          hadopted ?_
        intro hstrict _
        refine hparked hstrict outer ?_
        simp only [dispatching, hrequest, if_pos hgo]
      · exact h.reject ref
    · exact h
  | flushed ref succeeded =>
    simp only [DshWaits.step]
    split
    · rename_i params outer work stage written hrequest
      obtain ⟨hworks, hahead, hasked, hwritten⟩ := h.fits ref _ hrequest
      split
      · have hflushed := h.flush (fun hrecord => (hwritten hrecord).1)
        have hg : Grows s (DshWaits.flush s work.inner.record written) := by
          unfold DshWaits.flush
          split
          · exact grows_durable (Nat.le_max_left _ _)
          · exact Grows.refl s
        have hroot : (DshWaits.flush s work.inner.record written).root =
            s.root := by
          unfold DshWaits.flush
          split <;> rfl
        refine hflushed.delivered (hworks.grow hg) ?_ hasked ?_
        · intro seen hseen
          exact ⟨(hahead seen hseen).grow hg,
            h.fresh ref _ seen hrequest hseen⟩
        · intro hrecord adoption hstage
          exact ((hwritten (hrecord.trans hroot)).2 adoption
            hstage).of_initial (hg.events hroot)
      · exact h.reject ref
    · rename_i params outer work written hrequest
      obtain ⟨hworks, hnamed, hstrict, -, hdispatched⟩ :=
        h.fits ref _ hrequest
      split
      · rename_i hgo
        have hrecord := asserts_root hgo.2
        obtain ⟨hwritten, hintent⟩ := hdispatched hrecord
        have hg : Grows s (DshWaits.flush s outer.record written) := by
          unfold DshWaits.flush
          rw [if_pos hrecord]
          exact grows_durable (Nat.le_max_left _ _)
        have hflush : DshWaits.flush s outer.record written =
            { s with durable := max s.durable written } := if_pos hrecord
        refine (h.flush (fun _ => hwritten)).wait
          ⟨hworks.grow hg, hnamed, hstrict, ?_⟩ ?_ ?_
        · rw [hflush]
          refine hintent.of_initial ?_
          exact List.take_prefix_take_left (Nat.le_max_right _ _)
        · rintro _ ⟨⟩
          exact h.fresh ref _ outer hrequest rfl
        · intro hstrict sequence hactive
          have hbefore : (Request.mk params
              (.dispatching outer work written)).phase.active? s.root =
                some sequence := by
            simp only [Phase.active?, if_pos hrecord]
            exact hactive
          rw [hflush]
          refine ⟨h.unprompted hstrict ref _ sequence hrequest hbefore, ?_⟩
          intro ref' request hne hother hotherActive
          exact hne (h.alone hstrict ref' ref request _ sequence hother
            hrequest hotherActive hbefore)
      · exact h.reject ref
    · exact h
  | resume ref =>
    simp only [DshWaits.step]
    split
    · rename_i params outer work hrequest
      exact h.answers hrequest hparked
    · exact h
  | prompted ref succeeded =>
    simp only [DshWaits.step]
    split
    · rename_i params outer work hrequest
      split
      · exact h.prompted hrequest
      · exact h.reject ref
    · exact h
  | event event =>
    simp only [DshWaits.step]
    split
    · exact h
    · exact h.setAgent (prefix_append s.agent event)
  | status status | inbox nextStep nextTurn =>
    exact h.setAgent (List.prefix_refl _)
  | caller caller =>
    exact h.grow
      ⟨Nat.le_refl _, fun _ => List.prefix_refl _, List.prefix_refl _⟩
      h.durable hsame rfl h.decisions
  | paused pauseId =>
    simp only [DshWaits.step]
    split
    · exact h
    · exact h.grow
        ⟨Nat.le_refl _, fun _ => List.prefix_refl _, List.prefix_refl _⟩
        h.durable hsame rfl h.decisions
  | detach detaching | close =>
    exact h.grow
      ⟨Nat.le_refl _, fun _ => List.prefix_refl _, List.prefix_refl _⟩
      h.durable hsame rfl h.decisions
  | persist durable =>
    exact h.grow (grows_durable (Nat.le_max_left _ _))
      (Nat.max_le.2 ⟨h.durable, Nat.min_le_right _ _⟩) hsame rfl h.decisions
  | reopen keep =>
    simp only [DshWaits.step]
    split
    · rename_i hkeep
      refine h.grow (grows_reopened hkeep) ?_ hsame rfl h.decisions
      simp [State.events, State.agent, reopened]
    · exact h
  | restart keep =>
    simp only [DshWaits.step]
    split
    · rename_i hkeep
      obtain ⟨hroot, hevents, hdurable⟩ := grows_reopened hkeep
      refine h.grow ⟨hroot, hevents, hdurable⟩ ?_ (by rintro _ _ ⟨⟩) rfl
        h.decisions
      simp [State.events, State.agent, reopened]
    · exact h

theorem initial_waits (sessionId : JsString) (bridge : Bool) :
    Waits host strict (fun _ => False) [] (State.initial sessionId bridge) := by
  constructor
  · exact Nat.zero_le _
  · rintro ref request ⟨⟩
  · rintro prompt ⟨⟩
  · exact List.nodup_nil
  · rintro sequence ⟨⟩
  · rintro ref request outer ⟨⟩
  · exact ⟨[], rfl, by rintro prompt ⟨⟩⟩
  · exact fun _ => List.nodup_nil
  · rintro - ref request sequence ⟨⟩
  · rintro - ref ref' request request' sequence ⟨⟩

/-- A Host that starts on a journal with a dispatch intent behind a checkpoint
has that checkpoint closed. -/
theorem Waits.restarted (h : Waits host False closed old s) {keep : Nat}
    (hkeep : s.durable ≤ keep) {k : Nat} {continued : Continued}
    (hlt : sequence < k)
    (hcontinued : (DshWaits.step host s (.restart keep)).1.events[k]? =
      some (.waitContinued continued)) :
    Waits host False (fun c => c = sequence)
      (DshWaits.step host s (.restart keep)).1.prompts
      (DshWaits.step host s (.restart keep)).1 := by
  have hstep := h.step (.restart keep) (by rintro ⟨⟩)
  refine { hstep with
    continued := ?_, fresh := ?_, later := ?_ }
  · rintro _ rfl
    refine ⟨k, ?_, hlt, continued, hcontinued⟩
    have hbound := (List.getElem?_eq_some_iff.1 hcontinued).1
    have hdurable : (DshWaits.step host s (.restart keep)).1.durable =
        (DshWaits.step host s (.restart keep)).1.events.length := by
      simp [DshWaits.step, hkeep, State.events, State.agent, reopened]
    rw [hdurable]
    exact hbound
  · intro ref request outer hrequest
    simp [DshWaits.step, hkeep] at hrequest
  · exact ⟨[], (List.append_nil _).symm, by rintro prompt ⟨⟩⟩

/-- What holds of a state that a run reaches. -/
structure ContinuesOnce (host : WaitHost) (s : State) : Prop where
  once : (s.prompts.map fun prompt => prompt.outer.sequence).Nodup
  submitted : ∀ prompt ∈ s.prompts, Submitted host True s prompt
  decided : (s.pause.decisions.map Prod.fst).Nodup
  restarted : ∀ keep, s.durable ≤ keep → ∀ sequence k continued,
    sequence < k →
    (step host s (.restart keep)).1.events[k]? =
      some (.waitContinued continued) →
    ∀ later, ((waits host).after (step host s (.restart keep)).1
        later).prompts.filter (fun prompt => prompt.outer.sequence = sequence) =
      s.prompts.filter fun prompt => prompt.outer.sequence = sequence

/-- A parked question is continued once wherever every request that goes on
finds it still parked. -/
theorem native_wait_continues_once (sessionId : JsString) (bridge : Bool)
    (actions : List Action)
    (h : (waits host).AllSteps StillParked (State.initial sessionId bridge)
      actions) :
    ContinuesOnce host
      ((waits host).after (State.initial sessionId bridge) actions) := by
  have hstrict : Waits host True (fun _ => False) []
      ((waits host).after (State.initial sessionId bridge) actions) :=
    h.after_invariant
      (fun s action hs hparked => hs.step action (fun _ => hparked))
      (initial_waits sessionId bridge)
  have hloose : Waits host False (fun _ => False) []
      ((waits host).after (State.initial sessionId bridge) actions) :=
    Machine.after_invariant _
      (fun s action hs => hs.step action (by rintro ⟨⟩))
      (initial_waits sessionId bridge) actions
  generalize (waits host).after (State.initial sessionId bridge) actions = s
    at hstrict hloose
  constructor
  · exact hstrict.once trivial
  · exact hstrict.prompts
  · exact hstrict.decisions
  · intro keep hkeep sequence k continued hlt hcontinued later
    have hlater : Waits host False (fun c => c = sequence)
        (step host s (.restart keep)).1.prompts
        ((waits host).after (step host s (.restart keep)).1 later) :=
      Machine.after_invariant _
        (fun s action hs => hs.step action (by rintro ⟨⟩))
        (hloose.restarted hkeep hlt hcontinued) later
    obtain ⟨new, hnew, hopen⟩ := hlater.later
    have hprompts : (step host s (.restart keep)).1.prompts = s.prompts := by
      simp [step, hkeep, reopened]
    have hnone : (new.filter fun prompt =>
        prompt.outer.sequence = sequence) = [] := by
      rw [List.filter_eq_nil_iff]
      intro prompt hprompt
      simpa using hopen prompt hprompt
    rw [hnew, hprompts, List.filter_append, hnone, List.append_nil]

namespace DshWaitWitness

def questionId : JsString := [0x71]

def asked : Question where
  id := [0x69]
  multiSelect := false
  options := [[0x61]]

/-- A Host whose digests are the joined fields, and that reads every answer as
the first option of the one question. -/
def legacy : WaitHost where
  digest := List.flatten
  parse := fun _ => .submission ⟨questionId, [⟨[0x69], [[0x61]], none⟩]⟩
  timed := false
  questions := fun _ => ⟨[], []⟩
  questionsJson := fun _ => []
  answerJson := fun _ => []

def turnId : JsString := JsString.ofString "s:turn:1"

def parkedWait : Wait where
  questionId := questionId
  questions := [asked]
  turnId := turnId

def request : Params where
  questionId := questionId
  input :=
    { inputId := JsString.ofString "00000000-0000-4000-8000-000000000001"
      turnId := turnId
      kind := askUser
      text := answerPrefix
      runId := none }

/-- A question is parked, and a request answers it. -/
def answering : List Action :=
  [.event (.turnStart 1), .event (.waitCheckpoint parkedWait), .persist 2,
    .continueWait 0 request, .rooted 0 true, .rooted 0 true, .flushed 0 true,
    .flushed 0 true]

/-- The request continues the task. -/
def alone : List Action :=
  answering ++ [Action.resume 0, .flushed 0 true, .prompted 0 true]

/-- It is repeated before it goes on. -/
def repeated : List Action :=
  answering ++ [Action.continueWait 1 request, .rooted 1 true, .rooted 1 true,
    .flushed 1 true, .resume 0, .flushed 0 true, .prompted 0 true, .resume 1,
    .flushed 1 true, .prompted 1 true]

def seen : Seen := ⟨0, parkedWait, 1⟩

theorem native_wait_continues_once_alone :
    let s := (waits legacy).after (State.initial [0x73] false) alone
    (s.prompts.map fun prompt => prompt.outer) = [seen] ∧
      ContinuesOnce legacy s := by
  refine ⟨by decide, ?_⟩
  refine native_wait_continues_once [0x73] false alone
    ⟨nofun, nofun, nofun, nofun, nofun, nofun, nofun, nofun, ?_, nofun, nofun,
      trivial⟩
  intro outer houter
  have hseen : dispatching
      ((waits legacy).after (State.initial [0x73] false) answering)
      (.resume 0) = some seen := by
    decide
  cases hseen.symm.trans houter
  decide

/-- Both requests continue the one checkpoint. -/
theorem repeated_wait_continues_twice :
    let s := (waits legacy).after (State.initial [0x73] false) repeated
    (s.prompts.map fun prompt => prompt.outer) = [seen, seen] ∧
      ¬ContinuesOnce legacy s := by
  have hprompts : (((waits legacy).after (State.initial [0x73] false)
      repeated).prompts.map fun prompt => prompt.outer) = [seen, seen] := by
    decide
  refine ⟨hprompts, ?_⟩
  intro h
  have honce := h.once
  rw [← Function.comp_def Seen.sequence, ← List.map_map, hprompts] at honce
  exact absurd honce (by decide)

end DshWaitWitness

end Allrice.DshWaits
