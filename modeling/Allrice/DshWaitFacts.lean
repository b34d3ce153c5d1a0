/-
What a request to a parked question knows, and what stays true of it while the
journal grows, is flushed, and is cut back to what was flushed.
-/
import Allrice.DshAdoption
import Allrice.DshWaits

namespace Allrice.DshWaits

open DshInputs

variable {host : WaitHost} {s t : State} {params : Params} {outer : Seen}
  {work : Work} {events more : List Event} {wait : Wait} {sequence i : Nat}
  {event : Event} {input : TypedInput} {agent : Agent} {strict : Prop}

theorem pendingNativeWait_eq_some :
    pendingNativeWait events = some (wait, sequence) ↔
      lastEntry checkpoint? events = some (wait, sequence) ∧
        ∀ event ∈ events.drop (sequence + 1), isContinued event = false := by
  unfold pendingNativeWait
  rw [Option.filter_eq_some_iff]
  simp

theorem checkpoint?_eq_some :
    checkpoint? event = some wait ↔ event = .waitCheckpoint wait := by
  cases event <;> simp [checkpoint?]

/-- A question that is parked stands in the journal. -/
theorem checkpoint_of_pending
    (h : pendingNativeWait events = some (wait, sequence)) :
    events[sequence]? = some (.waitCheckpoint wait) := by
  obtain ⟨hlast, -⟩ := pendingNativeWait_eq_some.1 h
  obtain ⟨⟨event, hevent, hpick⟩, -⟩ := lastEntry_eq_some_iff.1 hlast
  rw [hevent, checkpoint?_eq_some.1 hpick]

/-- No checkpoint comes after the one that is parked. -/
theorem le_of_pending {other : Wait}
    (h : pendingNativeWait events = some (wait, sequence))
    (hother : events[i]? = some (.waitCheckpoint other)) : i ≤ sequence := by
  obtain ⟨hlast, -⟩ := pendingNativeWait_eq_some.1 h
  have hnone := (lastEntry_eq_some_iff.1 hlast).2
  by_contra hlt
  have hmem : Event.waitCheckpoint other ∈ events.drop (sequence + 1) := by
    have : (events.drop (sequence + 1))[i - (sequence + 1)]? =
        some (.waitCheckpoint other) := by
      rw [List.getElem?_drop, ← hother]
      congr 1
      omega
    exact List.mem_of_getElem? this
  have := hnone _ hmem
  simp [checkpoint?] at this

/-- Nothing has continued the question that is parked. -/
theorem not_continued_of_pending {wait : Wait} {sequence k : Nat}
    {continued : Continued}
    (h : pendingNativeWait events = some (wait, sequence))
    (hlt : sequence < k) : events[k]? ≠ some (.waitContinued continued) := by
  obtain ⟨-, hnone⟩ := pendingNativeWait_eq_some.1 h
  intro hcontinued
  have hmem : Event.waitContinued continued ∈ events.drop (sequence + 1) := by
    have : (events.drop (sequence + 1))[k - (sequence + 1)]? =
        some (.waitContinued continued) := by
      rw [List.getElem?_drop, ← hcontinued]
      congr 1
      omega
    exact List.mem_of_getElem? this
  have := hnone _ hmem
  simp [isContinued] at this

theorem getElem?_of_initial (h : events <+: more)
    (hevent : events[i]? = some event) : more[i]? = some event := by
  obtain ⟨rest, rfl⟩ := h
  rw [List.getElem?_append_left (List.getElem?_eq_some_iff.1 hevent).1]
  exact hevent

/-- The journal binds an input and shows it as answered or entered. -/
def AdoptedIn (host : WaitHost) (events : List Event) (input : TypedInput) :
    Prop :=
  ∃ request, .inputRequest request ∈ events ∧
    request.inputId = input.inputId ∧
    request.digest = host.digest input.fields ∧
    ((∃ answer, .inputAnswered answer ∈ events ∧
      answer.inputId = input.inputId) ∨
    ∃ source, .userMessage request.messageId source ∈ events)

theorem AdoptedIn.of_initial (h : AdoptedIn host events input)
    (hinitial : events <+: more) : AdoptedIn host more input := by
  obtain ⟨request, hrequest, hid, hdigest, hevidence⟩ := h
  refine ⟨request, hinitial.subset hrequest, hid, hdigest, ?_⟩
  rcases hevidence with ⟨answer, hanswer, hown⟩ | ⟨source, hmessage⟩
  · exact .inl ⟨answer, hinitial.subset hanswer, hown⟩
  · exact .inr ⟨source, hinitial.subset hmessage⟩

/-- An input that is adopted without a projection shows so in the journal. -/
theorem adoptedIn_of_inspect {adoption : Adoption}
    (h : inspectDshInput host.toInputHost agent input none =
      .ok (.adopted adoption)) : AdoptedIn host agent.events input := by
  unfold inspectDshInput at h
  split at h
  · cases h
  · rename_i bound i hlast
    obtain ⟨event, hevent, hpick⟩ := lastEntry_mem hlast
    obtain ⟨rfl, hid⟩ := requestOf_eq_some.1 hpick
    split at h
    · cases h
    · rename_i hdigest
      refine ⟨bound, hevent, hid, not_not.1 hdigest, ?_⟩
      have h := Except.ok.inj h
      unfold inspectBound at h
      have hnative : nativeCall agent input none bound = none := by
        unfold nativeCall
        split
        · rename_i hview
          cases hview
        · rfl
      rw [hnative] at h
      simp only at h
      split at h
      · rename_i answer sequence hanswer
        obtain ⟨event, hanswered, hpicked⟩ := lastEntry_mem hanswer
        obtain ⟨rfl, hown⟩ := answerOf_eq_some.1 hpicked
        exact .inl ⟨answer, hanswered, hown⟩
      · split at h
        · rename_i sequence hentered
          obtain ⟨event, hmessage, hpicked⟩ := lastEntry_mem hentered
          obtain ⟨source, rfl⟩ := messageOf_eq_some.1 hpicked
          exact .inr ⟨source, hmessage⟩
        · exact absurd h withoutProof_ne_adopted

/-- The journal holds the dispatch intent of a request, behind its checkpoint
and behind the answer. -/
def Dispatched (host : WaitHost) (events : List Event) (params : Params)
    (outer : Seen) : Prop :=
  ∃ k, outer.sequence < k ∧
    events[k]? = some (.waitContinued
      { questionId := outer.wait.questionId
        inputId := params.input.inputId }) ∧
    events[outer.sequence]? = some (.waitCheckpoint outer.wait) ∧
    AdoptedIn host (events.take k) (typed params)

theorem Dispatched.of_initial (h : Dispatched host events params outer)
    (hinitial : events <+: more) : Dispatched host more params outer := by
  obtain ⟨k, hlt, hcontinued, hcheckpoint, hadopted⟩ := h
  refine ⟨k, hlt, getElem?_of_initial hinitial hcontinued,
    getElem?_of_initial hinitial hcheckpoint, ?_⟩
  obtain ⟨rest, rfl⟩ := hinitial
  rw [List.take_append_of_le_length
    (List.getElem?_eq_some_iff.1 hcontinued).1.le]
  exact hadopted

/-- A checkpoint with a dispatch intent is not parked. -/
theorem Dispatched.not_pending (h : Dispatched host events params outer)
    (hinitial : events <+: more) :
    pendingNativeWait more ≠ some (wait, outer.sequence) := by
  obtain ⟨k, hlt, hcontinued, -, -⟩ := h
  intro hpending
  exact not_continued_of_pending hpending hlt
    (getElem?_of_initial hinitial hcontinued)

/-- A checkpoint that was seen is still where it was, on the same record. -/
structure Standing (s : State) (seen : Seen) : Prop where
  record : seen.record ≤ s.root
  checkpoint : seen.record = s.root →
    s.events[seen.sequence]? = some (.waitCheckpoint seen.wait)

/-- What `answerNativeWait` has in hand belongs to the parameters. -/
structure Works (host : WaitHost) (s : State) (params : Params) (work : Work) :
    Prop where
  standing : Standing s work.inner
  named : work.inner.wait.questionId = params.questionId
  answer : structuredUserQuestionAnswer host.toInputHost
    work.inner.wait.toPendingQuestion params.input.text =
      some (some work.answer)
  resolved : ∀ answer, work.resolved = some answer → answer = work.answer

/-- The checkpoint that a continue-wait has seen came no later than the one that
it answers. -/
structure Ahead (s : State) (params : Params) (outer : Seen) (work : Work) :
    Prop where
  standing : Standing s outer
  named : outer.wait.questionId = params.questionId
  record : outer.record ≤ work.inner.record
  order : outer.record = s.root → outer.sequence ≤ work.inner.sequence

/-- What a request knows in each phase.  Where `strict` holds, the checkpoint
that it continues is the one that it has answered. -/
def Fits (host : WaitHost) (strict : Prop) (s : State) (request : Request) :
    Prop :=
  match request.phase with
  | .entering => True
  | .answering outer =>
    ∀ seen, outer = some seen → Standing s seen ∧
      seen.wait.questionId = request.params.questionId
  | .checking outer work _ =>
    Works host s request.params work ∧
      ∀ seen, outer = some seen → Ahead s request.params seen work
  | .delivering outer work stage written =>
    Works host s request.params work ∧
      (∀ seen, outer = some seen → Ahead s request.params seen work) ∧
      (∀ question answer, stage = .asked question answer →
        answer = work.answer) ∧
      (work.inner.record = s.root → written ≤ s.events.length ∧
        ∀ adoption, stage = .known (.adopted adoption) →
          AdoptedIn host s.events (typed request.params))
  | .answered outer work =>
    Works host s request.params work ∧ Ahead s request.params outer work ∧
      (work.inner.record = s.root →
        AdoptedIn host s.events (typed request.params))
  | .deciding outer work _ _ =>
    Works host s request.params work ∧ Ahead s request.params outer work ∧
      (work.inner.record = s.root →
        AdoptedIn host s.events (typed request.params))
  | .dispatching outer work written =>
    Works host s request.params work ∧
      outer.wait.questionId = request.params.questionId ∧
      (strict → work.inner.wait = outer.wait) ∧ outer.record ≤ s.root ∧
      (outer.record = s.root → written ≤ s.events.length ∧
        Dispatched host (s.events.take written) request.params outer)
  | .prompting outer work =>
    Works host s request.params work ∧
      outer.wait.questionId = request.params.questionId ∧
      (strict → work.inner.wait = outer.wait) ∧
      Dispatched host (s.events.take s.durable) request.params outer

/-- The continuation of an adopted answer, behind a dispatch intent that is on
disk. -/
structure Submitted (host : WaitHost) (strict : Prop) (s : State)
    (prompt : Prompt) : Prop where
  answer : structuredUserQuestionAnswer host.toInputHost
    prompt.work.inner.wait.toPendingQuestion prompt.params.input.text =
      some (some prompt.work.answer)
  text : prompt.text =
    continuation host prompt.work.inner.wait prompt.work.answer
  named : prompt.work.inner.wait.questionId = prompt.outer.wait.questionId
  same : strict → prompt.work.inner.wait = prompt.outer.wait
  dispatched : Dispatched host (s.events.take s.durable) prompt.params
    prompt.outer

/-- One state after another: the same record only gains events, and what is on
disk stays there. -/
structure Grows (s t : State) : Prop where
  root : s.root ≤ t.root
  events : t.root = s.root → s.events <+: t.events
  durable : s.events.take s.durable <+: t.events.take t.durable

theorem Grows.refl (s : State) : Grows s s :=
  ⟨Nat.le_refl _, fun _ => List.prefix_refl _, List.prefix_refl _⟩

theorem Standing.grow {seen : Seen} (h : Standing s seen) (hg : Grows s t) :
    Standing t seen where
  record := h.record.trans hg.root
  checkpoint := by
    intro hrecord
    have hroot : t.root = s.root :=
      Nat.le_antisymm (hrecord ▸ h.record) hg.root
    exact getElem?_of_initial (hg.events hroot)
      (h.checkpoint (hrecord.trans hroot))

theorem Works.grow (h : Works host s params work) (hg : Grows s t) :
    Works host t params work :=
  ⟨h.standing.grow hg, h.named, h.answer, h.resolved⟩

theorem Ahead.grow (h : Ahead s params outer work) (hg : Grows s t) :
    Ahead t params outer work where
  standing := h.standing.grow hg
  named := h.named
  record := h.record
  order := by
    intro hrecord
    have hroot : t.root = s.root :=
      Nat.le_antisymm (hrecord ▸ h.standing.record) hg.root
    exact h.order (hrecord.trans hroot)

/-- What was written on a record that is still current is there. -/
theorem Grows.on_record (hg : Grows s t) {record : Nat} (hle : record ≤ s.root)
    (hrecord : record = t.root) : record = s.root ∧ s.events <+: t.events := by
  have hroot : t.root = s.root :=
    Nat.le_antisymm (hrecord ▸ hle) hg.root
  exact ⟨hrecord.trans hroot, hg.events hroot⟩

theorem take_prefix_of_le {n : Nat} (h : events <+: more)
    (hn : n ≤ events.length) : more.take n = events.take n := by
  obtain ⟨rest, rfl⟩ := h
  exact List.take_append_of_le_length hn

theorem Fits.grow {request : Request} (h : Fits host strict s request)
    (hg : Grows s t) : Fits host strict t request := by
  unfold Fits at h ⊢
  split
  · trivial
  · rename_i seen hphase
    simp only [hphase] at h
    intro o ho
    exact ⟨(h o ho).1.grow hg, (h o ho).2⟩
  · rename_i seen work reply hphase
    simp only [hphase] at h
    exact ⟨h.1.grow hg, fun o ho => (h.2 o ho).grow hg⟩
  · rename_i seen work stage written hphase
    simp only [hphase] at h
    obtain ⟨hworks, hahead, hasked, hwritten⟩ := h
    refine ⟨hworks.grow hg, fun o ho => (hahead o ho).grow hg, hasked, ?_⟩
    intro hrecord
    obtain ⟨hsame, hinitial⟩ := hg.on_record hworks.standing.record hrecord
    obtain ⟨hle, hknown⟩ := hwritten hsame
    exact ⟨hle.trans hinitial.length_le,
      fun adoption hstage => (hknown adoption hstage).of_initial hinitial⟩
  · rename_i outer work hphase
    simp only [hphase] at h
    obtain ⟨hworks, hahead, hadopted⟩ := h
    refine ⟨hworks.grow hg, hahead.grow hg, ?_⟩
    intro hrecord
    obtain ⟨hsame, hinitial⟩ := hg.on_record hworks.standing.record hrecord
    exact (hadopted hsame).of_initial hinitial
  · rename_i outer work decision reply hphase
    simp only [hphase] at h
    obtain ⟨hworks, hahead, hadopted⟩ := h
    refine ⟨hworks.grow hg, hahead.grow hg, ?_⟩
    intro hrecord
    obtain ⟨hsame, hinitial⟩ := hg.on_record hworks.standing.record hrecord
    exact (hadopted hsame).of_initial hinitial
  · rename_i outer work written hphase
    simp only [hphase] at h
    obtain ⟨hworks, hnamed, hstrict, hle, hdispatched⟩ := h
    refine ⟨hworks.grow hg, hnamed, hstrict, hle.trans hg.root, ?_⟩
    intro hrecord
    obtain ⟨hsame, hinitial⟩ := hg.on_record hle hrecord
    obtain ⟨hwritten, hintent⟩ := hdispatched hsame
    refine ⟨hwritten.trans hinitial.length_le, ?_⟩
    rw [take_prefix_of_le hinitial hwritten]
    exact hintent
  · rename_i outer work hphase
    simp only [hphase] at h
    obtain ⟨hworks, hnamed, hstrict, hdispatched⟩ := h
    exact ⟨hworks.grow hg, hnamed, hstrict, hdispatched.of_initial hg.durable⟩

theorem Submitted.grow {prompt : Prompt} (h : Submitted host strict s prompt)
    (hg : Grows s t) : Submitted host strict t prompt :=
  ⟨h.answer, h.text, h.named, h.same, h.dispatched.of_initial hg.durable⟩

theorem grows_requests (ref : Nat) (request : Option Request) :
    Grows s (s.setRequest ref request) :=
  ⟨Nat.le_refl _, fun _ => List.prefix_refl _, List.prefix_refl _⟩

/-- The agent of the current record gains events. -/
theorem grows_agent (hdurable : s.durable ≤ s.events.length)
    (h : s.events <+: agent.events) : Grows s (s.setAgent agent) := by
  have hevents : (s.setAgent agent).events = agent.events := by
    simp [State.events, State.agent, State.setAgent]
  refine ⟨Nat.le_refl _, fun _ => by rw [hevents]; exact h, ?_⟩
  rw [hevents]
  obtain ⟨rest, hrest⟩ := h
  rw [← hrest]
  change _ <+: (s.events ++ rest).take s.durable
  rw [List.take_append_of_le_length hdurable]

theorem grows_durable {durable : Nat} (h : s.durable ≤ durable) :
    Grows s { s with durable } := by
  refine ⟨Nat.le_refl _, fun _ => List.prefix_refl _, ?_⟩
  change s.events.take s.durable <+: s.events.take durable
  exact List.take_prefix_take_left h

theorem grows_reopened {keep : Nat} (h : s.durable ≤ keep) :
    Grows s (reopened s keep) := by
  have hevents : (reopened s keep).events = s.events.take keep := by
    simp [State.events, State.agent, reopened]
  refine ⟨Nat.le_succ _, ?_, ?_⟩
  · intro hroot
    exact absurd hroot (Nat.succ_ne_self _)
  · rw [hevents]
    change _ <+: (s.events.take keep).take (s.events.take keep).length
    rw [List.take_length]
    exact List.take_prefix_take_left h

end Allrice.DshWaits
