/-
What every step of a root keeps of its typed inputs.  The request that binds an
input id is on disk before anything is done with it.
-/
import Allrice.DshAdoption
import Allrice.DshSteer

namespace Allrice.DshInputs

variable {host : InputHost} {isMessageId : JsString → Prop}

/-- What holds of a root in every run. -/
structure Delivers (host : InputHost) (isMessageId : JsString → Prop)
    (s : State) : Prop where
  orderly : Orderly host s.agent.sessionId s.agent.events
  durable : s.durable ≤ s.agent.events.length
  written : ∀ ref delivery, s.deliveries ref = some delivery →
    delivery.written ≤ s.agent.events.length
  bound : ∀ ref delivery message, s.deliveries ref = some delivery →
    delivery.stage.bound? = some message →
      ∃ request, .inputRequest request ∈ s.agent.events.take delivery.written ∧
        request.inputId = delivery.input.inputId ∧ request.messageId = message
  untouched : ∀ ref delivery message, s.deliveries ref = some delivery →
    delivery.stage.bound? = some message →
      delivery.input.inputId ∉ answerIds s.agent.events ∧
        ∀ applied ∈ s.applied,
          applied.effect.inputId ≠ delivery.input.inputId
  alone : ∀ ref ref' delivery delivery' message message',
    s.deliveries ref = some delivery → s.deliveries ref' = some delivery' →
      delivery.stage.bound? = some message →
      delivery'.stage.bound? = some message' →
      delivery.input.inputId = delivery'.input.inputId → ref = ref'
  asked : ∀ ref delivery question answer, s.deliveries ref = some delivery →
    delivery.stage = .asked question answer → ¬isMessageId question.questionId
  durably : ∀ applied ∈ s.applied,
    ∃ request, .inputRequest request ∈ s.agent.events.take s.durable ∧
      request.inputId = applied.effect.inputId
  once : (s.applied.map fun applied => applied.effect.inputId).Nodup
  cards : (s.applied.filterMap Applied.card).Nodup
  used : ∀ applied ∈ s.applied, ∀ card, applied.card = some card →
    card < s.nextCard
  live : ∀ question, s.question = some question →
    question.card < s.nextCard ∧ ¬isMessageId question.questionId ∧
      ∀ applied ∈ s.applied, applied.card ≠ some question.card
  messages : ∀ id ∈ messages s.agent.events, isMessageId id
  answered : ∀ answer, .inputAnswered answer ∈ s.agent.events →
    ¬isMessageId answer.questionId

theorem initial_delivers (sessionId : JsString) (admission : Bool) :
    Delivers host isMessageId (State.initial sessionId admission) := by
  constructor <;> simp [State.initial, Orderly.nil, DshInputs.messages]

/-- What a function that was updated at one place has at any place. -/
theorem update_cases {α β : Type} [DecidableEq α] {f : α → Option β}
    {key other : α} {value : Option β} {found : β}
    (h : Function.update f key value other = some found) :
    other = key ∧ value = some found ∨ other ≠ key ∧ f other = some found := by
  by_cases hkey : other = key
  · subst hkey
    rw [Function.update_self] at h
    exact .inl ⟨rfl, h⟩
  · rw [Function.update_of_ne hkey] at h
    exact .inr ⟨hkey, h⟩

/-- What `begin` does to the root. -/
theorem begin_cases (s : State) (ref : Nat) (origin : Origin)
    (pendingQuestion : Option PendingQuestion) (input : TypedInput)
    (messageId : JsString) :
    (∃ error, begin host s ref origin pendingQuestion input messageId =
      (s, .rejected error)) ∨
    (∃ previous, begin host s ref origin pendingQuestion input messageId =
      ({ s with
        deliveries := Function.update s.deliveries ref
          (some { input, origin, stage := .known previous
                  written := s.agent.events.length }) }, .waiting) ∧
      inspectDshInput host s.agent input
        (viewOf host origin s.agent.events) = .ok previous ∧
      previous ≠ .notFound) ∨
    ∃ request stage, begin host s ref origin pendingQuestion input messageId =
      ({ s with
        agent := s.agent.append (.inputRequest request)
        deliveries := Function.update s.deliveries ref
          (some { input, origin, stage
                  written := s.agent.events.length + 1 }) }, .waiting) ∧
      request.inputId = input.inputId ∧
      request.digest = host.digest input.fields ∧
      stage.bound? = some request.messageId ∧
      input.inputId ∉ requestIds s.agent.events ∧
      ∀ question answer, stage = .asked question answer →
        pendingQuestion = some question ∧ input.kind = askUser := by
  unfold begin
  split
  · rename_i error herror
    exact .inl ⟨error, rfl⟩
  · rename_i agent stage hdeliver
    rcases deliver_cases hdeliver with
      ⟨previous, rfl, rfl, hprevious, hne⟩ |
      ⟨request, rfl, hid, hdigest, hbound, hnew, hasked⟩
    · exact .inr (.inl ⟨previous, rfl, hprevious, hne⟩)
    · refine .inr (.inr ⟨request, stage, ?_, hid, hdigest, hbound, hnew,
        fun question answer hstage =>
          ⟨(hasked question answer hstage).1,
            (hasked question answer hstage).2.2⟩⟩)
      simp [Agent.append]

/-- What the end of a flush does to the root: the delivery ends, or it is
applied while it is still current. -/
inductive Settled (s : State) (ref : Nat) (delivery : Delivery) : State → Prop
  where
  | ended (durable : Nat)
      (hdurable : durable = s.durable ∨
        durable = max s.durable delivery.written) :
      Settled s ref delivery
        { s with
          durable
          deliveries := Function.update s.deliveries ref none }
  | resolved (question : PendingQuestion) (answer : List AnswerItem)
      (hstage : delivery.stage = .asked question answer)
      (hcurrent : ∀ card runQuestion,
        delivery.origin = .steer card runQuestion →
          s.question.map LiveQuestion.card = card) :
      Settled s ref delivery
        { s with
          agent := s.agent.append (.inputAnswered
            { inputId := delivery.input.inputId
              questionId := question.questionId
              turnId := delivery.input.turnId })
          durable := max s.durable delivery.written
          question :=
            if (cardOf delivery.origin (.resolve delivery.input.inputId
              question answer)).isSome then none else s.question
          deliveries := Function.update s.deliveries ref
            (some { delivery with
              stage := .applied
              written := s.agent.events.length + 1 })
          applied := s.applied ++
            [{ effect := .resolve delivery.input.inputId question answer
               card := cardOf delivery.origin (.resolve delivery.input.inputId
                question answer) }] }
  | steered (messageId : JsString)
      (hstage : delivery.stage = .steering messageId) :
      Settled s ref delivery
        { s with
          agent := s.agent.steer messageId
          durable := max s.durable delivery.written
          deliveries := Function.update s.deliveries ref
            (some { delivery with
              stage := .applied
              written := s.agent.events.length })
          applied := s.applied ++
            [{ effect := .steer delivery.input.inputId messageId
               card := none }] }

variable {s t : State} {delivery : Delivery} {ref : Nat} {accepts : Bool}

theorem isCurrent_card (h : isCurrent s delivery accepts = true)
    {card : Option Nat} {runQuestion : Bool}
    (horigin : delivery.origin = .steer card runQuestion) :
    s.question.map LiveQuestion.card = card := by
  unfold isCurrent at h
  rw [horigin] at h
  simp only [Bool.and_eq_true, decide_eq_true_eq] at h
  exact h.1.1.2

theorem afterRequest_settled :
    Settled s ref delivery
      (afterRequest host { s with durable := max s.durable delivery.written }
        ref delivery accepts).1 := by
  unfold afterRequest
  split
  · exact .ended _ (.inr rfl)
  · rename_i hcurrent
    cases hstage : delivery.stage with
    | known previous | applied => exact .ended _ (.inr rfl)
    | asked question answer =>
      simp only [applyDelivery]
      have hcards : ∀ card runQuestion,
          delivery.origin = .steer card runQuestion →
            s.question.map LiveQuestion.card = card := by
        intro card runQuestion horigin
        exact isCurrent_card (Bool.eq_true_of_not_eq_false hcurrent) horigin
      have := @Settled.resolved s ref delivery question answer hstage hcards
      simpa [Agent.append] using this
    | steering messageId =>
      by_cases hidle : delivery.input.run? = none ∧
          s.agent.status ≠ .running
      · simp only [applyDelivery, if_pos hidle]
        exact .ended _ (.inr rfl)
      · simp only [applyDelivery, if_neg hidle]
        have hcard : cardOf delivery.origin
            (.steer delivery.input.inputId messageId) = none := by
          cases delivery.origin <;> rfl
        have := @Settled.steered s ref delivery messageId hstage
        simpa [hcard, Agent.steer] using this

theorem Settled.detaching (h : Settled s ref delivery t) :
    t.detaching = s.detaching := by
  cases h <;> rfl

theorem flushed_settled {succeeded : Bool} :
    Settled s ref delivery
      (flushed host s ref delivery succeeded accepts).1 := by
  unfold flushed
  split
  · exact .ended _ (.inl rfl)
  · dsimp only
    split
    · exact .ended _ (.inr rfl)
    · exact .ended _ (.inr rfl)
    · exact afterRequest_settled
    · exact afterRequest_settled

/-- Steps that leave the journal and the history alone. -/
theorem Delivers.calm (h : Delivers host isMessageId s)
    (hid : t.agent.sessionId = s.agent.sessionId)
    (hevents : t.agent.events = s.agent.events)
    (hdurable : s.durable ≤ t.durable)
    (hlength : t.durable ≤ s.agent.events.length)
    (hdeliveries : ∀ ref delivery, t.deliveries ref = some delivery →
      s.deliveries ref = some delivery ∨
        delivery.stage.bound? = none ∧
          delivery.written ≤ s.agent.events.length)
    (happlied : t.applied = s.applied)
    (hquestion : t.question = s.question ∨ t.question = none)
    (hnext : t.nextCard = s.nextCard) : Delivers host isMessageId t where
  orderly := by rw [hid, hevents]; exact h.orderly
  durable := by rw [hevents]; exact hlength
  written := by
    intro ref delivery hdelivery
    rw [hevents]
    rcases hdeliveries ref delivery hdelivery with hsame | ⟨-, hwritten⟩
    · exact h.written ref delivery hsame
    · exact hwritten
  bound := by
    intro ref delivery message hdelivery hbound
    rcases hdeliveries ref delivery hdelivery with hsame | ⟨hnone, -⟩
    · rw [hevents]
      exact h.bound ref delivery message hsame hbound
    · rw [hnone] at hbound
      cases hbound
  untouched := by
    intro ref delivery message hdelivery hbound
    rcases hdeliveries ref delivery hdelivery with hsame | ⟨hnone, -⟩
    · rw [hevents, happlied]
      exact h.untouched ref delivery message hsame hbound
    · rw [hnone] at hbound
      cases hbound
  alone := by
    intro ref ref' delivery delivery' message message' hfirst hsecond hbound
      hbound' hsame
    rcases hdeliveries ref delivery hfirst with hfirst | ⟨hnone, -⟩
    · rcases hdeliveries ref' delivery' hsecond with hsecond | ⟨hnone, -⟩
      · exact h.alone ref ref' delivery delivery' message message' hfirst
          hsecond hbound hbound' hsame
      · rw [hnone] at hbound'
        cases hbound'
    · rw [hnone] at hbound
      cases hbound
  asked := by
    intro ref delivery question answer hdelivery hstage
    rcases hdeliveries ref delivery hdelivery with hsame | ⟨hnone, -⟩
    · exact h.asked ref delivery question answer hsame hstage
    · rw [hstage] at hnone
      cases hnone
  durably := by
    intro applied hmem
    rw [happlied] at hmem
    obtain ⟨request, hrequest, hid⟩ := h.durably applied hmem
    rw [hevents]
    exact ⟨request, List.mem_of_mem_take (by
      rw [List.take_take, Nat.min_eq_left hdurable]
      exact hrequest : _ ∈ (s.agent.events.take t.durable).take s.durable),
      hid⟩
  once := by rw [happlied]; exact h.once
  cards := by rw [happlied]; exact h.cards
  used := by rw [happlied, hnext]; exact h.used
  live := by
    intro question hlive
    rw [happlied, hnext]
    rcases hquestion with hsame | hnone
    · exact h.live question (hsame ▸ hlive)
    · rw [hnone] at hlive
      cases hlive
  messages := by rw [hevents]; exact h.messages
  answered := by rw [hevents]; exact h.answered

theorem mem_take_append {events more : List Event} {event : Event} {n : Nat}
    (h : event ∈ events.take n) : event ∈ (events ++ more).take n := by
  rw [List.take_append]
  exact List.mem_append_left _ h

/-- An event is appended, and no delivery waits for it. -/
theorem Delivers.append (h : Delivers host isMessageId s)
    (hnative : NativeQuestions host) {event : Event}
    (hnext : Next host s.agent.sessionId s.agent.events event)
    (hmessage : ∀ id source, event = .userMessage id source → isMessageId id)
    (hanswer : ∀ answer, event = .inputAnswered answer →
      ¬isMessageId answer.questionId ∧
        ∀ ref delivery message, s.deliveries ref = some delivery →
          delivery.stage.bound? = some message →
            delivery.input.inputId ≠ answer.inputId) :
    Delivers host isMessageId { s with agent := s.agent.append event } where
  orderly := h.orderly.concat hnative hnext
  durable := by
    have := h.durable
    simp only [Agent.append, List.length_append]
    omega
  written := by
    intro ref delivery hdelivery
    have := h.written ref delivery hdelivery
    simp only [Agent.append, List.length_append]
    omega
  bound := by
    intro ref delivery message hdelivery hbound
    obtain ⟨request, hrequest, hrest⟩ :=
      h.bound ref delivery message hdelivery hbound
    exact ⟨request, mem_take_append hrequest, hrest⟩
  untouched := by
    intro ref delivery message hdelivery hbound
    obtain ⟨hfresh, hnone⟩ := h.untouched ref delivery message hdelivery hbound
    refine ⟨?_, hnone⟩
    intro hmem
    obtain ⟨answer, hin, hid⟩ := mem_answerIds.1 hmem
    rcases List.mem_append.1 hin with hin | hin
    · exact hfresh (mem_answerIds.2 ⟨answer, hin, hid⟩)
    · exact (hanswer answer (List.mem_singleton.1 hin).symm).2 ref delivery
        message hdelivery hbound hid.symm
  alone := h.alone
  asked := h.asked
  durably := by
    intro applied hmem
    obtain ⟨request, hrequest, hid⟩ := h.durably applied hmem
    exact ⟨request, mem_take_append hrequest, hid⟩
  once := h.once
  cards := h.cards
  used := h.used
  live := h.live
  messages := by
    intro id hmem
    obtain ⟨source, hin⟩ := mem_messages.1 hmem
    rcases List.mem_append.1 hin with hin | hin
    · exact h.messages id (mem_messages.2 ⟨source, hin⟩)
    · exact hmessage id source (List.mem_singleton.1 hin).symm
  answered := by
    intro answer hin
    rcases List.mem_append.1 hin with hin | hin
    · exact h.answered answer hin
    · exact (hanswer answer (List.mem_singleton.1 hin).symm).1

/-- A delivery waits for the flush of the request that was just written. -/
theorem Delivers.waits (h : Delivers host isMessageId s)
    {request : InputRequest}
    (hnew : request.inputId ∉ requestIds s.agent.events)
    (hnative : NativeQuestions host)
    (hid : request.inputId = delivery.input.inputId)
    (hbound : delivery.stage.bound? = some request.messageId)
    (hwritten : delivery.written = s.agent.events.length + 1)
    (hasked : ∀ question answer, delivery.stage = .asked question answer →
      ¬isMessageId question.questionId) :
    Delivers host isMessageId
      { s with
        agent := s.agent.append (.inputRequest request)
        deliveries := Function.update s.deliveries ref (some delivery) } := by
  have hnext : Next host s.agent.sessionId s.agent.events
      (.inputRequest request) := by
    constructor
    · rintro _ ⟨⟩
      exact hnew
    · rintro _ ⟨⟩
    · rintro _ _ ⟨⟩
    · intro callId hcall
      simp [asksQuestion] at hcall
    · intro callId hsettles
      exact absurd rfl hsettles
  have happend := h.append hnative hnext (by rintro _ _ ⟨⟩) (by rintro _ ⟨⟩)
  have hothers : ∀ ref' other message, s.deliveries ref' = some other →
      other.stage.bound? = some message →
        other.input.inputId ≠ delivery.input.inputId := by
    intro ref' other message hother hothers hsame
    obtain ⟨earlier, hearlier, hearlierId, -⟩ :=
      h.bound ref' other message hother hothers
    exact hnew (mem_requestIds.2 ⟨earlier, List.mem_of_mem_take hearlier, by
      rw [hearlierId, hsame, hid]⟩)
  refine { happend with
    written := ?_, bound := ?_, untouched := ?_, alone := ?_, asked := ?_ }
  · intro ref' other hother
    rcases update_cases hother with ⟨rfl, ⟨⟩⟩ | ⟨href, hother⟩
    · rw [hwritten]
      simp [Agent.append]
    · exact happend.written ref' other hother
  · intro ref' other message hother hothersBound
    rcases update_cases hother with ⟨rfl, ⟨⟩⟩ | ⟨href, hother⟩
    · refine ⟨request, ?_, hid, ?_⟩
      · rw [hwritten, List.take_of_length_le (by simp [Agent.append])]
        exact List.mem_append_right _ (List.mem_singleton_self _)
      · rw [hbound] at hothersBound
        exact Option.some.inj hothersBound
    · exact happend.bound ref' other message hother hothersBound
  · intro ref' other message hother hothersBound
    rcases update_cases hother with ⟨rfl, ⟨⟩⟩ | ⟨href, hother⟩
    · constructor
      · intro hmem
        obtain ⟨answer, hin, hanswerId⟩ := mem_answerIds.1 hmem
        obtain ⟨i, hi, hget⟩ := List.getElem_of_mem hin
        obtain ⟨earlier, hearlier, hearlierId, -⟩ := happend.orderly.bound i
          answer (by rw [List.getElem?_eq_getElem hi, hget])
        have hlast : i ≤ s.agent.events.length := by
          simp only [Agent.append, List.length_append,
            List.length_singleton] at hi
          omega
        simp only [Agent.append, List.take_append_of_le_length hlast]
          at hearlier
        exact hnew (mem_requestIds.2 ⟨earlier, List.mem_of_mem_take hearlier,
          by rw [hearlierId, hanswerId, hid]⟩)
      · intro applied hmem hsame
        obtain ⟨earlier, hearlier, hearlierId⟩ := h.durably applied hmem
        exact hnew (mem_requestIds.2 ⟨earlier, List.mem_of_mem_take hearlier,
          by rw [hearlierId, hsame, hid]⟩)
    · exact happend.untouched ref' other message hother hothersBound
  · intro first second delivery₁ delivery₂ message₁ message₂ hfirst hsecond
      hbound₁ hbound₂ hsame
    rcases update_cases hfirst with ⟨rfl, ⟨⟩⟩ | ⟨-, hone⟩
    · rcases update_cases hsecond with ⟨rfl, -⟩ | ⟨-, hsecond⟩
      · rfl
      · exact absurd hsame.symm (hothers second delivery₂ message₂ hsecond
          hbound₂)
    · rcases update_cases hsecond with ⟨rfl, ⟨⟩⟩ | ⟨-, htwo⟩
      · exact absurd hsame (hothers first delivery₁ message₁ hone hbound₁)
      · exact h.alone first second delivery₁ delivery₂ message₁ message₂ hone
          htwo hbound₁ hbound₂ hsame
  · intro ref' other question answer hother hstage
    rcases update_cases hother with ⟨rfl, ⟨⟩⟩ | ⟨href, hother⟩
    · exact hasked question answer hstage
    · exact h.asked ref' other question answer hother hstage

/-- A delivery whose request is on disk is applied; a card that it takes is the
one on show. -/
theorem Delivers.applies (h : Delivers host isMessageId s) {message : JsString}
    (effect : Effect) (card : Option Nat)
    (hdelivery : s.deliveries ref = some delivery)
    (hbound : delivery.stage.bound? = some message)
    (heffect : effect.inputId = delivery.input.inputId)
    (hcard : ∀ taken, card = some taken →
      ∃ question, s.question = some question ∧ question.card = taken) :
    Delivers host isMessageId
      { s with
        durable := max s.durable delivery.written
        question := if card.isSome then none else s.question
        deliveries := Function.update s.deliveries ref
          (some { delivery with
            stage := .applied
            written := s.agent.events.length })
        applied := s.applied ++ [{ effect, card }] } := by
  have hended := h.calm
    (t := { s with
      durable := max s.durable delivery.written
      question := if card.isSome then none else s.question
      deliveries := Function.update s.deliveries ref
        (some { delivery with
          stage := .applied
          written := s.agent.events.length }) })
    rfl rfl (Nat.le_max_left _ _)
    (Nat.max_le.2 ⟨h.durable, h.written ref delivery hdelivery⟩)
    (by
      intro ref' other hother
      rcases update_cases hother with ⟨rfl, ⟨⟩⟩ | ⟨href, hother⟩
      · exact .inr ⟨rfl, Nat.le_refl _⟩
      · exact .inl hother)
    rfl (by
      cases card with
      | none => exact .inl rfl
      | some taken => exact .inr rfl)
    rfl
  obtain ⟨request, hrequest, hid, -⟩ :=
    h.bound ref delivery message hdelivery hbound
  obtain ⟨-, hnone⟩ := h.untouched ref delivery message hdelivery hbound
  refine { hended with
    untouched := ?_, durably := ?_, once := ?_, cards := ?_, used := ?_
    live := ?_ }
  · intro ref' other message' hother hotherBound
    obtain ⟨hfresh, happlied⟩ :=
      hended.untouched ref' other message' hother hotherBound
    refine ⟨hfresh, ?_⟩
    intro applied hmem
    rcases List.mem_append.1 hmem with hmem | hmem
    · exact happlied applied hmem
    · rw [List.mem_singleton.1 hmem, heffect]
      intro hsame
      rcases update_cases hother with ⟨rfl, ⟨⟩⟩ | ⟨href, hother⟩
      · cases hotherBound
      · exact href (h.alone ref' ref other delivery message' message hother
          hdelivery hotherBound hbound hsame.symm)
  · intro applied hmem
    rcases List.mem_append.1 hmem with hmem | hmem
    · exact hended.durably applied hmem
    · rw [List.mem_singleton.1 hmem, heffect]
      refine ⟨request, ?_, hid⟩
      refine List.mem_of_mem_take
        (?_ : _ ∈ (s.agent.events.take _).take delivery.written)
      rw [List.take_take, Nat.min_eq_left (Nat.le_max_right _ _)]
      exact hrequest
  · rw [List.map_append, List.map_singleton, List.nodup_append']
    refine ⟨h.once, List.nodup_singleton _, ?_⟩
    rw [List.disjoint_singleton, List.mem_map]
    rintro ⟨applied, hmem, hsame⟩
    exact hnone applied hmem (hsame.trans heffect)
  · rw [List.filterMap_append]
    cases hcase : card with
    | none => simpa using h.cards
    | some taken =>
      obtain ⟨question, hlive, rfl⟩ := hcard taken hcase
      have htaken : [Applied.mk effect (some question.card)].filterMap
          Applied.card = [question.card] := rfl
      rw [htaken, List.nodup_append']
      refine ⟨h.cards, List.nodup_singleton _, ?_⟩
      rw [List.disjoint_singleton, List.mem_filterMap]
      rintro ⟨applied, hmem, hsame⟩
      exact (h.live question hlive).2.2 applied hmem hsame
  · intro applied hmem taken htaken
    rcases List.mem_append.1 hmem with hmem | hmem
    · exact h.used applied hmem taken htaken
    · rw [List.mem_singleton.1 hmem] at htaken
      obtain ⟨question, hlive, rfl⟩ := hcard taken htaken
      exact (h.live question hlive).1
  · intro question hlive
    cases hcase : card with
    | some taken =>
      rw [hcase] at hlive
      cases hlive
    | none =>
      rw [hcase] at hlive
      obtain ⟨hlt, hask, happlied⟩ := h.live question hlive
      refine ⟨hlt, hask, ?_⟩
      intro applied hmem
      rcases List.mem_append.1 hmem with hmem | hmem
      · exact happlied applied hmem
      · rw [List.mem_singleton.1 hmem]
        simp

/-- What the end of a flush leaves. -/
theorem Delivers.settles (h : Delivers host isMessageId s)
    (hnative : NativeQuestions host)
    (hdelivery : s.deliveries ref = some delivery)
    (ht : Settled s ref delivery t) : Delivers host isMessageId t := by
  have hwritten := h.written ref delivery hdelivery
  cases ht with
  | ended durable hdurable =>
    refine h.calm rfl rfl (by rcases hdurable with rfl | rfl <;> simp)
      (by rcases hdurable with rfl | rfl <;> simp [h.durable, hwritten])
      ?_ rfl (.inl rfl) rfl
    intro ref' other hother
    rcases update_cases hother with ⟨-, ⟨⟩⟩ | ⟨-, hother⟩
    exact .inl hother
  | steered messageId hstage =>
    have happlied := h.applies (.steer delivery.input.inputId messageId)
      none hdelivery (by rw [hstage]; rfl) rfl (by rintro _ ⟨⟩)
    exact happlied.calm rfl rfl (Nat.le_refl _) happlied.durable
      (fun _ _ hother => .inl hother) rfl (.inl rfl) rfl
  | resolved question answer hstage hcurrent =>
    have hbound : delivery.stage.bound? = some question.questionId := by
      rw [hstage]
      rfl
    have hask := h.asked ref delivery question answer hdelivery hstage
    obtain ⟨request, hrequest, hid, hmessage⟩ :=
      h.bound ref delivery _ hdelivery hbound
    obtain ⟨hfresh, -⟩ := h.untouched ref delivery _ hdelivery hbound
    have happlied := h.applies
      (.resolve delivery.input.inputId question answer)
      (cardOf delivery.origin
        (.resolve delivery.input.inputId question answer))
      hdelivery hbound rfl (by
        intro taken htaken
        cases horigin : delivery.origin with
        | wait => simp [horigin, cardOf] at htaken
        | steer card runQuestion =>
          simp only [horigin, cardOf] at htaken
          subst htaken
          exact Option.map_eq_some_iff.1
            (hcurrent _ runQuestion horigin))
    have hnext : Next host s.agent.sessionId s.agent.events
        (.inputAnswered
          { inputId := delivery.input.inputId
            questionId := question.questionId
            turnId := delivery.input.turnId }) := by
      constructor
      · rintro _ ⟨⟩
      · rintro _ ⟨⟩
        refine ⟨hfresh, ⟨request, List.mem_of_mem_take hrequest, hid,
          hmessage⟩, ?_⟩
        intro hentered
        exact hask (h.messages _ hentered)
      · rintro _ _ ⟨⟩
      · intro callId hcall
        simp [asksQuestion] at hcall
      · intro callId hsettles
        exact absurd rfl hsettles
    have hanswered := happlied.append hnative hnext (by rintro _ _ ⟨⟩) (by
      rintro _ ⟨⟩
      refine ⟨hask, ?_⟩
      intro ref' other message hother hotherBound hsame
      rcases update_cases hother with ⟨rfl, ⟨⟩⟩ | ⟨href, hother⟩
      · cases hotherBound
      · exact href (h.alone ref' ref other delivery message _ hother
          hdelivery hotherBound hbound hsame))
    refine hanswered.calm rfl rfl (Nat.le_refl _) hanswered.durable ?_ rfl
      (.inl rfl) rfl
    intro ref' other hother
    rcases update_cases hother with ⟨rfl, ⟨⟩⟩ | ⟨href, hother⟩
    · refine .inr ⟨rfl, ?_⟩
      simp [Agent.append]
    · refine .inl ?_
      simp only [Function.update_of_ne href]
      exact hother

/-- What the native session promises about a step: message ids are new and are
never the ids of questions, a call is made before it is answered, and a question
that is settled gets no second settlement. -/
structure Promised (host : InputHost) (isMessageId : JsString → Prop)
    (s : State) (action : Action) : Prop where
  message : ∀ id source, action = .event (.userMessage id source) →
    isMessageId id ∧ id ∉ messages s.agent.events
  call : ∀ event callId, action = .event event →
    asksQuestion callId event = true →
      ∀ request, .inputRequest request ∈ s.agent.events →
        request.messageId ≠ questionCall s.agent.sessionId callId
  settlement : ∀ event callId, action = .event event →
    settlementOf callId event ≠ none →
      callId ∉ (host.questions s.agent.events).settled
  ask : ∀ question programRunId, action = .ask question programRunId →
    ¬isMessageId question.questionId
  wait : ∀ ref wait params messageId,
    action = .answerWait ref wait params messageId →
      ¬isMessageId wait.questionId

theorem Delivers.begins (h : Delivers host isMessageId s)
    (hnative : NativeQuestions host) {origin : Origin}
    {pendingQuestion : Option PendingQuestion} {input : TypedInput}
    {messageId : JsString}
    (hpending : ∀ question, pendingQuestion = some question →
      ¬isMessageId question.questionId) :
    Delivers host isMessageId
      (begin host s ref origin pendingQuestion input messageId).1 := by
  rcases begin_cases s ref origin pendingQuestion input messageId with
    ⟨error, hbegin⟩ | ⟨previous, hbegin, -, -⟩ |
    ⟨request, stage, hbegin, hid, -, hbound, hnew, hasked⟩
  · rw [hbegin]
    exact h
  · rw [hbegin]
    refine h.calm rfl rfl (Nat.le_refl _) h.durable ?_ rfl (.inl rfl) rfl
    intro ref' other hother
    rcases update_cases hother with ⟨rfl, ⟨⟩⟩ | ⟨href, hother⟩
    · exact .inr ⟨rfl, Nat.le_refl _⟩
    · exact .inl hother
  · rw [hbegin]
    refine h.waits (by rw [hid]; exact hnew) hnative hid hbound rfl ?_
    intro question answer hstage
    exact hpending question (hasked question answer hstage).1

theorem Delivers.restarts (h : Delivers host isMessageId s) {keep : Nat}
    (hkeep : s.durable ≤ keep) (nextStep nextTurn : List JsString) :
    Delivers host isMessageId
      (step host s (.restart keep nextStep nextTurn)).1 := by
  rw [step, if_pos hkeep]
  constructor
  · exact h.orderly.take keep
  · exact Nat.le_refl _
  · rintro ref delivery ⟨⟩
  · rintro ref delivery message ⟨⟩
  · rintro ref delivery message ⟨⟩
  · rintro ref ref' delivery delivery' message message' ⟨⟩
  · rintro ref delivery question answer ⟨⟩
  · intro applied hmem
    obtain ⟨request, hrequest, hid⟩ := h.durably applied hmem
    refine ⟨request, ?_, hid⟩
    dsimp only
    rw [List.take_length]
    refine List.mem_of_mem_take
      (?_ : _ ∈ (s.agent.events.take keep).take s.durable)
    rw [List.take_take, Nat.min_eq_left hkeep]
    exact hrequest
  · exact h.once
  · exact h.cards
  · exact h.used
  · rintro question ⟨⟩
  · intro id hmem
    obtain ⟨source, hin⟩ := mem_messages.1 hmem
    exact h.messages id (mem_messages.2 ⟨source, List.mem_of_mem_take hin⟩)
  · intro answer hin
    exact h.answered answer (List.mem_of_mem_take hin)

theorem Delivers.step (h : Delivers host isMessageId s)
    (hnative : NativeQuestions host) (action : Action)
    (hp : Promised host isMessageId s action) :
    Delivers host isMessageId (DshInputs.step host s action).1 := by
  have hsame : ∀ ref delivery, s.deliveries ref = some delivery →
      s.deliveries ref = some delivery ∨
        delivery.stage.bound? = none ∧
          delivery.written ≤ s.agent.events.length :=
    fun _ _ hdelivery => .inl hdelivery
  cases action with
  | steer ref params messageId accepts =>
    unfold DshInputs.step
    dsimp only
    split
    · exact h
    · split
      · exact h
      · refine h.begins hnative ?_
        intro question hquestion
        obtain ⟨live, hlive, rfl⟩ := Option.map_eq_some_iff.1 hquestion
        exact (h.live live hlive).2.1
  | answerWait ref wait params messageId =>
    unfold DshInputs.step
    dsimp only
    split
    · exact h
    · split
      · exact h
      · refine h.begins hnative ?_
        rintro _ ⟨⟩
        exact hp.wait ref wait params messageId rfl
  | flushed ref succeeded accepts =>
    unfold DshInputs.step
    dsimp only
    split
    · rename_i delivery hdelivery
      exact h.settles hnative hdelivery flushed_settled
    · exact h
  | event event =>
    unfold DshInputs.step
    dsimp only
    split
    · exact h
    · rename_i hforeign
      refine h.append hnative ?_ ?_ ?_
      · constructor
        · rintro request rfl
          exact absurd rfl hforeign
        · rintro answer rfl
          exact absurd rfl hforeign
        · rintro id source rfl
          obtain ⟨hmessage, hfresh⟩ := hp.message id source rfl
          refine ⟨hfresh, ?_⟩
          rintro answer hanswer rfl
          exact h.answered answer hanswer hmessage
        · intro callId hcall
          exact hp.call event callId rfl hcall
        · intro callId hsettles
          exact hp.settlement event callId rfl hsettles
      · rintro id source rfl
        exact (hp.message id source rfl).1
      · rintro answer rfl
        exact absurd rfl hforeign
  | inbox nextStep nextTurn | discard =>
    exact h.calm rfl rfl (Nat.le_refl _) h.durable hsame rfl (.inl rfl) rfl
  | ask question programRunId =>
    unfold DshInputs.step
    dsimp only
    split
    · exact h
    · refine { h with used := ?_, live := ?_ }
      · intro applied hmem card hcard
        exact Nat.lt_succ_of_lt (h.used applied hmem card hcard)
      · rintro _ ⟨⟩
        refine ⟨Nat.lt_succ_self _, hp.ask question programRunId rfl, ?_⟩
        intro applied hmem hcard
        exact absurd (h.used applied hmem _ hcard) (Nat.lt_irrefl _)
  | expire =>
    exact h.calm rfl rfl (Nat.le_refl _) h.durable hsame rfl (.inr rfl) rfl
  | status status | detach detaching | root current =>
    exact h.calm rfl rfl (Nat.le_refl _) h.durable hsame rfl (.inl rfl) rfl
  | persist durable =>
    refine h.calm rfl rfl (Nat.le_max_left _ _) ?_ hsame rfl (.inl rfl) rfl
    exact Nat.max_le.2 ⟨h.durable, Nat.min_le_right _ _⟩
  | restart keep nextStep nextTurn =>
    by_cases hkeep : s.durable ≤ keep
    · exact h.restarts hkeep nextStep nextTurn
    · unfold DshInputs.step
      dsimp only
      rw [if_neg hkeep]
      exact h

end Allrice.DshInputs
