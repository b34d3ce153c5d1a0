/-
What a journal of typed inputs says stays said.  A journal is orderly when every
id is bound and answered once, and when the native session has appended its own
events in the order that it promises.
-/
import Allrice.DshInputs

namespace Allrice.DshInputs

def requestIds (events : List Event) : List JsString :=
  events.filterMap fun event => event.request?.map InputRequest.inputId

def answerIds (events : List Event) : List JsString :=
  events.filterMap fun event => event.answered?.map InputAnswered.inputId

def Event.message? : Event → Option JsString
  | .userMessage id _ => some id
  | _ => none

/-- The ids of the user messages that have entered. -/
def messages (events : List Event) : List JsString :=
  events.filterMap Event.message?

/-- The native projection is a fold of the journal: it lists calls that were
made, and a question that is settled stays so. -/
structure NativeQuestions (host : InputHost) : Prop where
  called : ∀ events callId,
    callId ∈ (host.questions events).active ++ (host.questions events).settled →
      ∃ event ∈ events, asksQuestion callId event = true
  settled : ∀ events more callId,
    callId ∈ (host.questions events).settled →
      callId ∈ (host.questions (events ++ more)).settled

/-- A journal whose inputs and native questions come in order. -/
structure Orderly (host : InputHost) (sessionId : JsString)
    (events : List Event) : Prop where
  requests : (requestIds events).Nodup
  answers : (answerIds events).Nodup
  messages : (messages events).Nodup
  bound : ∀ i answer, events[i]? = some (.inputAnswered answer) →
    ∃ request, .inputRequest request ∈ events.take i ∧
      request.inputId = answer.inputId ∧ request.messageId = answer.questionId
  asked : ∀ answer, .inputAnswered answer ∈ events →
    answer.questionId ∉ DshInputs.messages events
  called : ∀ i request callId, events[i]? = some (.inputRequest request) →
    request.messageId = questionCall sessionId callId →
      ∀ event ∈ events.drop i, asksQuestion callId event = false
  settled : ∀ n callId,
    callId ∈ (host.questions (events.take n)).settled →
      ∀ event ∈ events.drop n, settlementOf callId event = none

variable {host : InputHost} {sessionId : JsString} {events more : List Event}
  {agent : Agent} {input : TypedInput} {bound : InputRequest}
  {inputId messageId callId : JsString} {event : Event} {adoption : Adoption}
  {later : Agent} {view : Option QuestionView} {i : Nat} {viewed : Bool}

theorem requestOf_eq_some :
    requestOf inputId event = some bound ↔
      event = .inputRequest bound ∧ bound.inputId = inputId := by
  cases event <;> simp [requestOf, Event.request?, Option.filter_eq_some_iff]

variable {answer : InputAnswered} {sequence : Nat} {checkpoint : Checkpoint}

theorem answerOf_eq_some :
    answerOf inputId event = some answer ↔
      event = .inputAnswered answer ∧ answer.inputId = inputId := by
  cases event <;> simp [answerOf, Event.answered?, Option.filter_eq_some_iff]

theorem messageOf_eq_some :
    messageOf messageId event = some () ↔
      ∃ source, event = .userMessage messageId source := by
  cases event <;> simp [messageOf]

theorem mem_requestIds :
    inputId ∈ requestIds events ↔
      ∃ request, .inputRequest request ∈ events ∧
        request.inputId = inputId := by
  simp only [requestIds, List.mem_filterMap]
  constructor
  · rintro ⟨event, hevent, hid⟩
    cases event <;> simp_all [Event.request?]
    exact ⟨_, hevent, hid⟩
  · rintro ⟨request, hrequest, rfl⟩
    exact ⟨_, hrequest, rfl⟩

theorem mem_answerIds :
    inputId ∈ answerIds events ↔
      ∃ answer, .inputAnswered answer ∈ events ∧ answer.inputId = inputId := by
  simp only [answerIds, List.mem_filterMap]
  constructor
  · rintro ⟨event, hevent, hid⟩
    cases event <;> simp_all [Event.answered?]
    exact ⟨_, hevent, hid⟩
  · rintro ⟨answer, hanswer, rfl⟩
    exact ⟨_, hanswer, rfl⟩

theorem mem_messages :
    messageId ∈ messages events ↔
      ∃ source, .userMessage messageId source ∈ events := by
  simp only [messages, List.mem_filterMap]
  constructor
  · rintro ⟨event, hevent, hid⟩
    cases event <;> simp_all [Event.message?]
    exact ⟨_, hevent⟩
  · rintro ⟨source, hmessage⟩
    exact ⟨_, hmessage, rfl⟩

/-- Where no id is bound twice, an id has one request. -/
theorem request_unique {first second : InputRequest}
    (h : (requestIds events).Nodup)
    (hfirst : .inputRequest first ∈ events)
    (hsecond : .inputRequest second ∈ events)
    (hsame : first.inputId = second.inputId) : first = second := by
  have heq := eq_of_nodup_filterMap h hfirst hsecond rfl
    (show _ = some first.inputId by rw [hsame]; rfl)
  simpa using heq

/-- What the journal binds an id with. -/
theorem lastEntry_requestOf (h : (requestIds events).Nodup)
    (hbound : .inputRequest bound ∈ events) :
    ∃ i, lastEntry (requestOf bound.inputId) events = some (bound, i) := by
  obtain ⟨last, i, hlast⟩ := lastEntry_of_mem hbound
    (requestOf_eq_some.2 ⟨rfl, rfl⟩)
  obtain ⟨event, hevent, hpick⟩ := lastEntry_mem hlast
  obtain ⟨rfl, hid⟩ := requestOf_eq_some.1 hpick
  exact ⟨i, by rw [hlast, request_unique h hevent hbound hid]⟩

theorem adoptBy_append {callId : Option JsString}
    (hid : later.sessionId = agent.sessionId)
    (hevents : later.events = agent.events ++ more)
    (hlt : sequence < agent.events.length) :
    adoptBy later input bound sequence checkpoint callId =
      adoptBy agent input bound sequence checkpoint callId := by
  unfold adoptBy
  rw [hid, hevents, List.take_append_of_le_length hlt.le]

theorem adoptBy_eq_adopted {callId : Option JsString}
    (h : adoptBy agent input bound sequence checkpoint callId =
      .adopted adoption) :
    adoption.inputId = input.inputId ∧ adoption.messageId = bound.messageId ∧
      adoption.sequence = sequence := by
  unfold adoptBy at h
  dsimp only at h
  split at h
  · cases h
  · cases h
    exact ⟨rfl, rfl, rfl⟩

theorem withoutProof_ne_adopted :
    withoutProof agent input bound ≠ .adopted adoption := by
  unfold withoutProof
  split <;> simp

theorem callIdOf_eq_some {messageId callId : JsString}
    (h : callIdOf sessionId input messageId = some callId) :
    messageId = questionCall sessionId callId := by
  unfold callIdOf at h
  dsimp only at h
  split at h
  · rename_i hnamed
    cases h
    exact (List.prefix_iff_eq_append.1
      (List.isPrefixOf_iff_prefix.1 hnamed.2.1)).symm
  · cases h

/-- What answers whether an input belongs to a native question. -/
theorem nativeCall_eq_some {seen : QuestionView} :
    nativeCall agent input view bound = some (callId, seen) ↔
      callIdOf agent.sessionId input bound.messageId = some callId ∧
        view = some seen ∧
        isNativeQuestion seen agent.events callId = true := by
  unfold nativeCall
  split
  · rename_i hcall
    rw [hcall]
    split
    · grind
    · grind
  · grind

/-- A call that the view lists was made in the journal. -/
theorem isNativeQuestion_iff (hnative : NativeQuestions host) :
    isNativeQuestion (host.questions events) events callId = true ↔
      ∃ event ∈ events, asksQuestion callId event = true := by
  unfold isNativeQuestion
  rw [Bool.or_eq_true, List.contains_iff_mem, List.any_eq_true]
  constructor
  · rintro (hlisted | hcalled)
    · exact hnative.called events callId hlisted
    · exact hcalled
  · exact .inr

/-- A call is native in a longer journal exactly when it was, once an input is
bound to it. -/
theorem Orderly.native_append (h : Orderly host sessionId (events ++ more))
    (hnative : NativeQuestions host) (hbound : .inputRequest bound ∈ events)
    (hcall : bound.messageId = questionCall sessionId callId) :
    isNativeQuestion (host.questions (events ++ more)) (events ++ more)
        callId =
      isNativeQuestion (host.questions events) events callId := by
  rw [Bool.eq_iff_iff, isNativeQuestion_iff hnative,
    isNativeQuestion_iff hnative]
  constructor
  · rintro ⟨event, hevent, hasks⟩
    rcases List.mem_append.1 hevent with hevent | hevent
    · exact ⟨event, hevent, hasks⟩
    · obtain ⟨i, hi, hget⟩ := List.getElem_of_mem hbound
      have hlater := h.called i bound callId
        (by rw [List.getElem?_append_left hi, List.getElem?_eq_getElem hi,
          hget]) hcall event
        (by
          rw [List.drop_append_of_le_length hi.le]
          exact List.mem_append_right _ hevent)
      rw [hlater] at hasks
      cases hasks
  · rintro ⟨event, hevent, hasks⟩
    exact ⟨event, List.mem_append_left _ hevent, hasks⟩

theorem Orderly.requestOf_append (h : Orderly host sessionId (events ++ more))
    (hlast : lastEntry (requestOf inputId) events = some (bound, i)) :
    lastEntry (requestOf inputId) (events ++ more) = some (bound, i) := by
  obtain ⟨event, hevent, hpick⟩ := lastEntry_mem hlast
  obtain ⟨rfl, rfl⟩ := requestOf_eq_some.1 hpick
  have hids := h.requests
  rw [requestIds, List.filterMap_append, List.nodup_append'] at hids
  rw [lastEntry_append_of_none, hlast]
  intro later hlater
  by_contra hsome
  obtain ⟨request, hrequest⟩ := Option.ne_none_iff_exists'.1 hsome
  obtain ⟨rfl, hsame⟩ := requestOf_eq_some.1 hrequest
  exact hids.2.2 (mem_requestIds.2 ⟨_, hevent, rfl⟩)
    (mem_requestIds.2 ⟨_, hlater, hsame⟩)

theorem Orderly.answerOf_append (h : Orderly host sessionId (events ++ more))
    (hlast : lastEntry (answerOf inputId) events = some (answer, i)) :
    lastEntry (answerOf inputId) (events ++ more) = some (answer, i) := by
  obtain ⟨event, hevent, hpick⟩ := lastEntry_mem hlast
  obtain ⟨rfl, rfl⟩ := answerOf_eq_some.1 hpick
  have hids := h.answers
  rw [answerIds, List.filterMap_append, List.nodup_append'] at hids
  rw [lastEntry_append_of_none, hlast]
  intro later hlater
  by_contra hsome
  obtain ⟨other, hother⟩ := Option.ne_none_iff_exists'.1 hsome
  obtain ⟨rfl, hsame⟩ := answerOf_eq_some.1 hother
  exact hids.2.2 (mem_answerIds.2 ⟨_, hevent, rfl⟩)
    (mem_answerIds.2 ⟨_, hlater, hsame⟩)

theorem Orderly.messageOf_append (h : Orderly host sessionId (events ++ more))
    (hlast : lastEntry (messageOf messageId) events = some ((), i)) :
    lastEntry (messageOf messageId) (events ++ more) = some ((), i) := by
  obtain ⟨event, hevent, hpick⟩ := lastEntry_mem hlast
  obtain ⟨source, rfl⟩ := messageOf_eq_some.1 hpick
  have hids := h.messages
  rw [DshInputs.messages, List.filterMap_append, List.nodup_append'] at hids
  rw [lastEntry_append_of_none, hlast]
  intro later hlater
  by_contra hsome
  obtain ⟨⟨⟩, hother⟩ := Option.ne_none_iff_exists'.1 hsome
  obtain ⟨source', rfl⟩ := messageOf_eq_some.1 hother
  exact hids.2.2 (mem_messages.2 ⟨_, hevent⟩) (mem_messages.2 ⟨_, hlater⟩)

/-- The id of a message that has entered is never answered as a question. -/
theorem Orderly.unanswered (h : Orderly host sessionId events)
    (hbound : .inputRequest bound ∈ events)
    (hentered : bound.messageId ∈ DshInputs.messages events) :
    lastEntry (answerOf bound.inputId) events = none := by
  rw [lastEntry_eq_none_iff]
  intro event hevent
  by_contra hsome
  obtain ⟨answer, hanswer⟩ := Option.ne_none_iff_exists'.1 hsome
  obtain ⟨rfl, hsame⟩ := answerOf_eq_some.1 hanswer
  obtain ⟨i, hi, hget⟩ := List.getElem_of_mem hevent
  obtain ⟨request, hrequest, hid, hmessage⟩ := h.bound i answer
    (by rw [List.getElem?_eq_getElem hi, hget])
  have hrequest := List.mem_of_mem_take hrequest
  have heq : request = bound :=
    request_unique h.requests hrequest hbound (hid.trans hsame)
  refine h.asked answer hevent ?_
  rwa [← hmessage, heq]

theorem view_eq (host : InputHost) (viewed : Bool) (events : List Event) :
    host.view viewed events = none ∨
      host.view viewed events = some (host.questions events) := by
  unfold InputHost.view
  split
  · exact .inr rfl
  · exact .inl rfl

/-- The view of a longer journal is there exactly when it was. -/
theorem view_append :
    host.view viewed (events ++ more) =
      (host.view viewed events).map fun _ =>
        host.questions (events ++ more) := by
  unfold InputHost.view
  split <;> rfl

theorem Orderly.nativeCall_append
    (h : Orderly host agent.sessionId (agent.events ++ more))
    (hnative : NativeQuestions host) (hid : later.sessionId = agent.sessionId)
    (hevents : later.events = agent.events ++ more)
    (hbound : .inputRequest bound ∈ agent.events) :
    nativeCall later input (host.view viewed later.events) bound =
      (nativeCall agent input (host.view viewed agent.events) bound).map
        fun found => (found.1, host.questions later.events) := by
  unfold nativeCall
  rw [hid, hevents, view_append]
  cases hcall : callIdOf agent.sessionId input bound.messageId with
  | none => rfl
  | some callId =>
    rcases view_eq host viewed agent.events with hview | hview
    · rw [hview]
      rfl
    · rw [hview]
      simp only [Option.map_some]
      rw [h.native_append hnative hbound (callIdOf_eq_some hcall)]
      split <;> rfl

/-- An input that is adopted is adopted in every longer journal, by the same
event. -/
theorem Orderly.inspectBound_append
    (h : Orderly host agent.sessionId (agent.events ++ more))
    (hnative : NativeQuestions host) (hid : later.sessionId = agent.sessionId)
    (hevents : later.events = agent.events ++ more)
    (hbound : .inputRequest bound ∈ agent.events)
    (hsame : bound.inputId = input.inputId)
    (hadopted : inspectBound agent input (host.view viewed agent.events) bound =
      .adopted adoption) :
    inspectBound later input (host.view viewed later.events) bound =
      .adopted adoption := by
  unfold inspectBound at hadopted ⊢
  rw [h.nativeCall_append hnative hid hevents hbound]
  cases hcall :
      nativeCall agent input (host.view viewed agent.events) bound with
  | some found =>
    obtain ⟨callId, seen⟩ := found
    rw [hcall] at hadopted
    simp only [Option.map_some] at hadopted ⊢
    cases hlast : lastEntry (settlementOf callId) agent.events with
    | none => simp [hlast] at hadopted
    | some settlement =>
      obtain ⟨reply, sequence⟩ := settlement
      rw [hlast] at hadopted
      simp only at hadopted
      split at hadopted
      · rename_i hsettled
        have hseen : seen = host.questions agent.events := by
          have hsome := (nativeCall_eq_some.1 hcall).2.1
          rcases view_eq host viewed agent.events with hv | hv
          · rw [hv] at hsome
            cases hsome
          · rw [hv] at hsome
            exact (Option.some.inj hsome).symm
        have hsettled : callId ∈ (host.questions agent.events).settled := by
          rw [← hseen]
          exact List.contains_iff_mem.1 hsettled
        have hnone : ∀ event ∈ more, settlementOf callId event = none := by
          have := h.settled agent.events.length callId
          rw [List.take_left, List.drop_left] at this
          exact this hsettled
        rw [hevents, lastEntry_append_of_none hnone, hlast]
        have hstill := hnative.settled agent.events more callId hsettled
        simp only [List.contains_iff_mem.2 hstill, if_true]
        rw [adoptBy_append hid hevents (lastEntry_lt hlast)]
        exact hadopted
      · cases hadopted
  | none =>
    rw [hcall] at hadopted
    simp only [Option.map_none] at hadopted ⊢
    rw [← hsame] at hadopted ⊢
    cases hanswer : lastEntry (answerOf bound.inputId) agent.events with
    | some answer =>
      obtain ⟨answer, sequence⟩ := answer
      rw [hanswer] at hadopted
      rw [hevents, h.answerOf_append hanswer]
      simp only at hadopted ⊢
      rw [adoptBy_append hid hevents (lastEntry_lt hanswer)]
      exact hadopted
    | none =>
      rw [hanswer] at hadopted
      cases hentered :
          lastEntry (messageOf bound.messageId) agent.events with
      | none =>
        rw [hentered] at hadopted
        exact absurd hadopted withoutProof_ne_adopted
      | some entered =>
        obtain ⟨⟨⟩, sequence⟩ := entered
        obtain ⟨event, hevent, hpick⟩ := lastEntry_mem hentered
        obtain ⟨source, rfl⟩ := messageOf_eq_some.1 hpick
        rw [hentered] at hadopted
        rw [hevents, h.unanswered (List.mem_append_left _ hbound)
          (mem_messages.2 ⟨source, List.mem_append_left _ hevent⟩),
          h.messageOf_append hentered]
        simp only at hadopted ⊢
        rw [adoptBy_append hid hevents (lastEntry_lt hentered)]
        exact hadopted

theorem Orderly.inspect_append
    (h : Orderly host agent.sessionId (agent.events ++ more))
    (hnative : NativeQuestions host) (hid : later.sessionId = agent.sessionId)
    (hevents : later.events = agent.events ++ more)
    (hadopted : inspectDshInput host agent input
      (host.view viewed agent.events) = .ok (.adopted adoption)) :
    inspectDshInput host later input (host.view viewed later.events) =
      .ok (.adopted adoption) := by
  unfold inspectDshInput at hadopted ⊢
  cases hlast : lastEntry (requestOf input.inputId) agent.events with
  | none => simp [hlast] at hadopted
  | some found =>
    obtain ⟨bound, i⟩ := found
    obtain ⟨event, hevent, hpick⟩ := lastEntry_mem hlast
    obtain ⟨rfl, hsame⟩ := requestOf_eq_some.1 hpick
    rw [hlast] at hadopted
    rw [hevents, h.requestOf_append hlast, ← hevents]
    simp only at hadopted ⊢
    split at hadopted
    · cases hadopted
    · rename_i hdigest
      rw [if_neg hdigest, h.inspectBound_append hnative hid hevents hevent
        hsame (Except.ok.inj hadopted)]

/-- The event that an adoption names: an answer or a user message of the
input's own message, or the settlement of its native question. -/
inductive Evidence (sessionId : JsString) (view : Option QuestionView)
    (adoption : Adoption) : Event → Prop where
  | answered (answer : InputAnswered)
      (hinput : answer.inputId = adoption.inputId)
      (hmessage : answer.questionId = adoption.messageId) :
      Evidence sessionId view adoption (.inputAnswered answer)
  | entered (source : MessageSource) :
      Evidence sessionId view adoption
        (.userMessage adoption.messageId source)
  | settled (callId : JsString) (seen : QuestionView) (event : Event)
      (hmessage : adoption.messageId = questionCall sessionId callId)
      (hview : view = some seen) (hsettled : callId ∈ seen.settled)
      (hevent : (settlementOf callId event).isSome) :
      Evidence sessionId view adoption event

/-- An adopted input is bound with its own digest, and the journal holds the
evidence at the sequence that it names. -/
theorem Orderly.evidence (h : Orderly host agent.sessionId agent.events)
    (hadopted : inspectDshInput host agent input view =
      .ok (.adopted adoption)) :
    adoption.inputId = input.inputId ∧
      (∃ request, .inputRequest request ∈ agent.events ∧
        request.inputId = input.inputId ∧
        request.messageId = adoption.messageId ∧
        request.digest = host.digest input.fields) ∧
      ∃ event, agent.events[adoption.sequence]? = some event ∧
        Evidence agent.sessionId view adoption event := by
  unfold inspectDshInput at hadopted
  cases hlast : lastEntry (requestOf input.inputId) agent.events with
  | none => simp [hlast] at hadopted
  | some found =>
    obtain ⟨bound, i⟩ := found
    obtain ⟨event, hevent, hpick⟩ := lastEntry_mem hlast
    obtain ⟨rfl, hsame⟩ := requestOf_eq_some.1 hpick
    rw [hlast] at hadopted
    simp only at hadopted
    split at hadopted
    · cases hadopted
    · rename_i hdigest
      have hadopted := Except.ok.inj hadopted
      unfold inspectBound at hadopted
      split at hadopted
      · rename_i callId seen hcall
        obtain ⟨hname, hview, -⟩ := nativeCall_eq_some.1 hcall
        split at hadopted
        · cases hadopted
        · rename_i reply sequence hsettlement
          split at hadopted
          · rename_i hsettled
            obtain ⟨hinput, hmessage, rfl⟩ := adoptBy_eq_adopted hadopted
            obtain ⟨⟨event, hat, hpicked⟩, -⟩ :=
              lastEntry_eq_some_iff.1 hsettlement
            refine ⟨hinput, ⟨bound, hevent, hsame, hmessage.symm,
              not_not.1 hdigest⟩, event, hat, ?_⟩
            exact .settled callId seen event
              (hmessage.trans (callIdOf_eq_some hname)) hview
              (List.contains_iff_mem.1 hsettled) (by rw [hpicked]; rfl)
          · cases hadopted
      · split at hadopted
        · rename_i answer sequence hanswer
          obtain ⟨hinput, hmessage, rfl⟩ := adoptBy_eq_adopted hadopted
          obtain ⟨⟨event, hat, hpicked⟩, -⟩ :=
            lastEntry_eq_some_iff.1 hanswer
          obtain ⟨rfl, hown⟩ := answerOf_eq_some.1 hpicked
          refine ⟨hinput, ⟨bound, hevent, hsame, hmessage.symm,
            not_not.1 hdigest⟩, _, hat, ?_⟩
          obtain ⟨request, hrequest, hid, hquestion⟩ := h.bound _ _ hat
          have heq : request = bound :=
            request_unique h.requests (List.mem_of_mem_take hrequest) hevent
              (hid.trans (hown.trans hsame.symm))
          exact .answered answer (hown.trans hinput.symm)
            (by rw [← hquestion, heq, hmessage])
        · split at hadopted
          · rename_i sequence hentered
            obtain ⟨hinput, hmessage, rfl⟩ := adoptBy_eq_adopted hadopted
            obtain ⟨⟨event, hat, hpicked⟩, -⟩ :=
              lastEntry_eq_some_iff.1 hentered
            obtain ⟨source, rfl⟩ := messageOf_eq_some.1 hpicked
            refine ⟨hinput, ⟨bound, hevent, hsame, hmessage.symm,
              not_not.1 hdigest⟩, _, hat, ?_⟩
            rw [← hmessage]
            exact .entered source
          · exact absurd hadopted withoutProof_ne_adopted

theorem Orderly.nil : Orderly host sessionId [] where
  requests := List.nodup_nil
  answers := List.nodup_nil
  messages := List.nodup_nil
  bound := by simp
  asked := by simp
  called := by simp
  settled := by simp

/-- A prefix of an orderly journal is orderly. -/
theorem Orderly.of_append (h : Orderly host sessionId (events ++ more)) :
    Orderly host sessionId events where
  requests := by
    have := h.requests
    rw [requestIds, List.filterMap_append, List.nodup_append'] at this
    exact this.1
  answers := by
    have := h.answers
    rw [answerIds, List.filterMap_append, List.nodup_append'] at this
    exact this.1
  messages := by
    have := h.messages
    rw [DshInputs.messages, List.filterMap_append, List.nodup_append'] at this
    exact this.1
  bound := by
    intro i answer hanswer
    have hi : i < events.length := (List.getElem?_eq_some_iff.1 hanswer).1
    have := h.bound i answer (by rw [List.getElem?_append_left hi, hanswer])
    rwa [List.take_append_of_le_length hi.le] at this
  asked := by
    intro answer hanswer hmessage
    obtain ⟨source, hmessage⟩ := mem_messages.1 hmessage
    exact h.asked answer (List.mem_append_left _ hanswer)
      (mem_messages.2 ⟨source, List.mem_append_left _ hmessage⟩)
  called := by
    intro i request callId hrequest hcall event hevent
    have hi : i < events.length := (List.getElem?_eq_some_iff.1 hrequest).1
    refine h.called i request callId
      (by rw [List.getElem?_append_left hi, hrequest]) hcall event ?_
    rw [List.drop_append_of_le_length hi.le]
    exact List.mem_append_left _ hevent
  settled := by
    intro n callId hsettled event hevent
    rcases Nat.lt_or_ge n events.length with hn | hn
    · refine h.settled n callId ?_ event ?_
      · rwa [List.take_append_of_le_length hn.le]
      · rw [List.drop_append_of_le_length hn.le]
        exact List.mem_append_left _ hevent
    · rw [List.drop_of_length_le hn] at hevent
      cases hevent

theorem Orderly.take (h : Orderly host sessionId events) (keep : Nat) :
    Orderly host sessionId (events.take keep) := by
  rw [← List.take_append_drop keep events] at h
  exact h.of_append

/-- What the next event of an orderly journal has to keep to. -/
structure Next (host : InputHost) (sessionId : JsString) (events : List Event)
    (event : Event) : Prop where
  request : ∀ request, event = .inputRequest request →
    request.inputId ∉ requestIds events
  answer : ∀ answer, event = .inputAnswered answer →
    answer.inputId ∉ answerIds events ∧
      (∃ request, .inputRequest request ∈ events ∧
        request.inputId = answer.inputId ∧
        request.messageId = answer.questionId) ∧
      answer.questionId ∉ messages events
  message : ∀ id source, event = .userMessage id source →
    id ∉ messages events ∧
      ∀ answer, .inputAnswered answer ∈ events → answer.questionId ≠ id
  call : ∀ callId, asksQuestion callId event = true →
    ∀ request, .inputRequest request ∈ events →
      request.messageId ≠ questionCall sessionId callId
  settlement : ∀ callId, settlementOf callId event ≠ none →
    callId ∉ (host.questions events).settled

theorem nodup_filterMap_concat {key : Event → Option JsString}
    (h : (events.filterMap key).Nodup)
    (hnew : ∀ id, key event = some id → id ∉ events.filterMap key) :
    ((events ++ [event]).filterMap key).Nodup := by
  rw [List.filterMap_append]
  cases hkey : key event with
  | none => simpa [hkey] using h
  | some id =>
    rw [List.filterMap_cons_some hkey, List.filterMap_nil]
    exact List.nodup_append'.2 ⟨h, List.nodup_singleton id,
      List.disjoint_singleton.2 (hnew id hkey)⟩

/-- An entry of a longer list is one of the old or the new one. -/
theorem getElem?_concat_cases {entry : Event}
    (h : (events ++ [event])[i]? = some entry) :
    events[i]? = some entry ∨ i = events.length ∧ entry = event := by
  rcases Nat.lt_or_ge i events.length with hi | hi
  · rw [List.getElem?_append_left hi] at h
    exact .inl h
  · rw [List.getElem?_append_right hi] at h
    have hzero : i - events.length = 0 := by
      have := (List.getElem?_eq_some_iff.1 h).1
      simpa using this
    rw [hzero] at h
    exact .inr ⟨by omega, by simpa using h.symm⟩

theorem Orderly.concat (h : Orderly host sessionId events)
    (hnative : NativeQuestions host) {event : Event}
    (hnext : Next host sessionId events event) :
    Orderly host sessionId (events ++ [event]) where
  requests := by
    refine nodup_filterMap_concat h.requests ?_
    intro id hid
    cases event <;> simp [Event.request?] at hid
    rename_i request
    exact hid ▸ hnext.request request rfl
  answers := by
    refine nodup_filterMap_concat h.answers ?_
    intro id hid
    cases event <;> simp [Event.answered?] at hid
    rename_i answer
    exact hid ▸ (hnext.answer answer rfl).1
  messages := by
    refine nodup_filterMap_concat h.messages ?_
    intro id hid
    cases event <;> simp [Event.message?] at hid
    rename_i id' source
    exact hid ▸ (hnext.message id' source rfl).1
  bound := by
    intro i answer hanswer
    rcases getElem?_concat_cases hanswer with hanswer | ⟨rfl, heq⟩
    · have hi := (List.getElem?_eq_some_iff.1 hanswer).1
      rw [List.take_append_of_le_length hi.le]
      exact h.bound i answer hanswer
    · rw [List.take_left]
      exact (hnext.answer answer heq.symm).2.1
  asked := by
    intro answer hanswer hmessage
    obtain ⟨source, hmessage⟩ := mem_messages.1 hmessage
    rw [List.mem_append, List.mem_singleton] at hanswer hmessage
    rcases hanswer with hanswer | hanswer
    · rcases hmessage with hmessage | hmessage
      · exact h.asked answer hanswer (mem_messages.2 ⟨source, hmessage⟩)
      · exact (hnext.message _ _ hmessage.symm).2 answer hanswer rfl
    · rcases hmessage with hmessage | hmessage
      · exact (hnext.answer answer hanswer.symm).2.2
          (mem_messages.2 ⟨source, hmessage⟩)
      · rw [← hanswer] at hmessage
        cases hmessage
  called := by
    intro i request callId hrequest hcall later hlater
    rcases getElem?_concat_cases hrequest with hearlier | ⟨rfl, heq⟩
    · have hi := (List.getElem?_eq_some_iff.1 hearlier).1
      rw [List.drop_append_of_le_length hi.le, List.mem_append,
        List.mem_singleton] at hlater
      rcases hlater with hlater | rfl
      · exact h.called i request callId hearlier hcall later hlater
      · by_contra hasks
        exact hnext.call callId (by simpa using hasks) request
          (List.mem_of_getElem? hearlier) hcall
    · rw [List.drop_left, List.mem_singleton] at hlater
      rw [hlater, ← heq]
      rfl
  settled := by
    intro n callId hsettled later hlater
    rcases Nat.lt_or_ge events.length n with hn | hn
    · rw [List.drop_of_length_le (by simpa using hn)] at hlater
      cases hlater
    · rw [List.take_append_of_le_length hn] at hsettled
      rw [List.drop_append_of_le_length hn, List.mem_append,
        List.mem_singleton] at hlater
      rcases hlater with hlater | rfl
      · exact h.settled n callId hsettled later hlater
      · by_contra hsome
        refine hnext.settlement callId hsome ?_
        have := hnative.settled _ (events.drop n) callId hsettled
        rwa [List.take_append_drop] at this

/-- The message that a delivery has bound and not yet applied. -/
def Stage.bound? : Stage → Option JsString
  | .asked question _ => some question.questionId
  | .steering messageId => some messageId
  | _ => none

theorem inspect_notFound
    (h : inspectDshInput host agent input view = .ok .notFound) :
    input.inputId ∉ requestIds agent.events := by
  unfold inspectDshInput at h
  split at h
  · rename_i hnone
    rw [lastEntry_eq_none_iff] at hnone
    intro hmem
    obtain ⟨request, hrequest, hid⟩ := mem_requestIds.1 hmem
    have := hnone _ hrequest
    rw [requestOf_eq_some.2 ⟨rfl, hid⟩] at this
    cases this
  · split at h
    · cases h
    · have h := Except.ok.inj h
      unfold inspectBound adoptBy withoutProof at h
      grind

/-- A delivery goes on with a status that was there before, or it binds an id
that the journal does not hold. -/
theorem deliver_cases {next : Agent} {stage : Stage}
    {pendingQuestion : Option PendingQuestion} {suspended : Bool}
    (h : deliverDshInput host agent pendingQuestion suspended view input
      messageId = .ok (next, stage)) :
    (∃ previous, stage = .known previous ∧ next = agent ∧
      inspectDshInput host agent input view = .ok previous ∧
      previous ≠ .notFound) ∨
    ∃ request, next = agent.append (.inputRequest request) ∧
      request.inputId = input.inputId ∧
      request.digest = host.digest input.fields ∧
      stage.bound? = some request.messageId ∧
      input.inputId ∉ requestIds agent.events ∧
      ∀ question answer, stage = .asked question answer →
        pendingQuestion = some question ∧
          structuredUserQuestionAnswer host question input.text =
            some (some answer) ∧ input.kind = askUser := by
  unfold deliverDshInput at h
  generalize (if suspended then AgentStatus.idle else .running) = wanted at h
  split at h
  · cases h
  · split at h
    · cases h
    · rename_i hnew
      have hnew := inspect_notFound hnew
      split at h
      · cases h
      · split at h
        · rename_i hkind
          split at h
          · cases h
          · rename_i question
            split at h
            · cases h
            · cases h
            · rename_i hanswer
              cases h
              refine .inr ⟨_, rfl, rfl, rfl, rfl, hnew, ?_⟩
              intro asked answer hstage
              cases hstage
              exact ⟨rfl, hanswer, hkind⟩
        · split at h
          · cases h
          · cases h
            refine .inr ⟨_, rfl, rfl, rfl, rfl, hnew, ?_⟩
            intro asked answer hstage
            cases hstage
    · rename_i previous hne hprevious
      cases h
      refine .inl ⟨previous, rfl, rfl, hprevious, ?_⟩
      rintro rfl
      exact hne rfl

end Allrice.DshInputs
