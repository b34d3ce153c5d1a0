/-
A question card over whole runs: it ends in one way, unless something still ends
it between the release of its Host and the exit of the process.
-/
import Allrice.DshDelivers
import Allrice.EventLog
import Allrice.QuestionCard

namespace Allrice.QuestionCard

open DshInputs

variable {host : CardHost}

/-- The cards that the inputs have resolved. -/
def resolvedCards (inputs : DshInputs.State) : List Nat :=
  inputs.applied.filterMap Applied.card

/-- A step of the inputs leaves the card on show, shows a new one, or resolves
it. -/
inductive Change (s t : DshInputs.State) : Prop where
  | same (hquestion : t.question = s.question)
      (hnext : t.nextCard = s.nextCard)
      (hresolved : resolvedCards t = resolvedCards s)
  | asked (question : LiveQuestion) (hnone : s.question = none)
      (hquestion : t.question = some question)
      (hcard : question.card = s.nextCard)
      (hnext : t.nextCard = s.nextCard + 1)
      (hresolved : resolvedCards t = resolvedCards s)
  | resolved (question : LiveQuestion) (hsome : s.question = some question)
      (hquestion : t.question = none) (hnext : t.nextCard = s.nextCard)
      (hresolved : resolvedCards t = resolvedCards s ++ [question.card])
      (hflight : ∃ ref delivery runQuestion asked answer,
        s.deliveries ref = some delivery ∧
          delivery.origin = .steer (some question.card) runQuestion ∧
          delivery.stage = .asked asked answer)

variable {s : State} {ref card : Nat} {action : DshInputs.Action}
  {delivery : Delivery} {messageId : JsString} {next : State × Answer}
  {detach : Detach} {t : DshInputs.State} {origin : Origin}
  {pendingQuestion : Option PendingQuestion}

theorem Change.nextCard_le {s : DshInputs.State} (h : Change s t) :
    s.nextCard ≤ t.nextCard := by
  cases h with
  | same _ hnext _ => exact hnext.ge
  | asked _ _ _ _ hnext _ => omega
  | resolved _ _ _ hnext _ _ => exact hnext.ge

theorem Change.of_settled {s : DshInputs.State}
    (hdelivery : s.deliveries ref = some delivery)
    (h : Settled s ref delivery t) : Change s t := by
  cases h with
  | ended durable hdurable => exact .same rfl rfl rfl
  | steered messageId hstage =>
    refine .same rfl rfl ?_
    simp [resolvedCards, List.filterMap_append]
  | resolved question answer hstage hcurrent =>
    cases hcard : cardOf delivery.origin
        (.resolve delivery.input.inputId question answer) with
    | none =>
      refine .same (by simp) rfl ?_
      simp [resolvedCards, List.filterMap_append]
    | some card =>
      cases horigin : delivery.origin with
      | wait => simp [horigin, cardOf] at hcard
      | steer seen runQuestion =>
        simp only [horigin, cardOf] at hcard
        subst hcard
        obtain ⟨live, hlive, rfl⟩ :=
          Option.map_eq_some_iff.1 (hcurrent _ runQuestion horigin)
        refine .resolved live hlive (by simp) rfl ?_
          ⟨ref, delivery, runQuestion, question, answer, hdelivery,
            horigin, hstage⟩
        simp [resolvedCards, List.filterMap_append]

theorem begin_change {host : InputHost} {s : DshInputs.State}
    {input : TypedInput} :
    Change s (begin host s ref origin pendingQuestion input messageId).1 := by
  rcases begin_cases s ref origin pendingQuestion input messageId with
    ⟨error, hbegin⟩ | ⟨previous, hbegin, -, -⟩ |
    ⟨request, stage, hbegin, -⟩
  · rw [hbegin]
    exact .same rfl rfl rfl
  · rw [hbegin]
    exact .same rfl rfl rfl
  · rw [hbegin]
    exact .same rfl rfl rfl

theorem inputs_change (host : InputHost) (s : DshInputs.State)
    (hforwards : forwards action = true) :
    Change s (DshInputs.step host s action).1 := by
  cases action with
  | steer ref params messageId accepts | answerWait ref wait params messageId =>
    simp only [DshInputs.step]
    split
    · exact .same rfl rfl rfl
    · split
      · exact .same rfl rfl rfl
      · exact begin_change
  | flushed ref succeeded accepts =>
    simp only [DshInputs.step]
    split
    · rename_i hdelivery
      exact .of_settled hdelivery flushed_settled
    · exact .same rfl rfl rfl
  | event event =>
    simp only [DshInputs.step]
    split <;> exact .same rfl rfl rfl
  | ask question programRunId =>
    simp only [DshInputs.step]
    split
    · exact .same rfl rfl rfl
    · rename_i hnone
      exact .asked _ (by simpa using hnone) rfl rfl rfl rfl
  | expire | detach detaching | restart keep nextStep nextTurn =>
    cases hforwards
  | _ => exact .same rfl rfl rfl

theorem begin_detaching {host : InputHost} {s : DshInputs.State}
    {input : TypedInput} :
    (begin host s ref origin pendingQuestion input messageId).1.detaching =
      s.detaching := by
  rcases begin_cases s ref origin pendingQuestion input messageId with
    ⟨error, hbegin⟩ | ⟨previous, hbegin, -, -⟩ |
    ⟨request, stage, hbegin, -⟩
  · rw [hbegin]
  · rw [hbegin]
  · rw [hbegin]

theorem inputs_detaching (host : InputHost) (s : DshInputs.State)
    (hforwards : forwards action = true) :
    (DshInputs.step host s action).1.detaching = s.detaching := by
  cases action with
  | steer ref params messageId accepts | answerWait ref wait params messageId =>
    simp only [DshInputs.step]
    split
    · rfl
    · split
      · rfl
      · exact begin_detaching
  | flushed ref succeeded accepts =>
    simp only [DshInputs.step]
    split
    · exact flushed_settled.detaching
    · rfl
  | event event | ask question programRunId =>
    simp only [DshInputs.step]
    split <;> rfl
  | expire | detach detaching | restart keep nextStep nextTurn =>
    cases hforwards
  | _ => rfl

/-- A Host that detaches takes no input. -/
theorem not_detaching_of_steer {host : InputHost} {s : DshInputs.State}
    {params : TypedInput} {accepts : Bool}
    (h : (DshInputs.step host s (.steer ref params messageId accepts)).2 =
      .waiting) : s.detaching = false := by
  simp only [DshInputs.step] at h
  split at h
  · cases h
  · split at h
    · cases h
    · rename_i herror
      cases hdetaching : s.detaching with
      | false => rfl
      | true => simp [steerError, hdetaching] at herror

/-- Where a delivery in flight comes from. -/
def Comes (s : DshInputs.State) (action : DshInputs.Action)
    (answer : DshInputs.Answer) (ref : Nat) (delivery : Delivery) : Prop :=
  (∃ earlier, s.deliveries ref = some earlier ∧
    earlier.origin = delivery.origin ∧ earlier.input = delivery.input) ∨
  delivery.origin = .wait ∨
  ∃ params messageId accepts runQuestion,
    action = .steer ref params messageId accepts ∧ answer = .waiting ∧
      delivery.origin =
        .steer (s.question.map LiveQuestion.card) runQuestion ∧
      delivery.input.kind = params.kind

variable {ref' : Nat} {succeeded : Bool} {questionId : JsString}

theorem comes_of_begin {host : InputHost} {s : DshInputs.State}
    {input : TypedInput}
    (h : (begin host s ref origin pendingQuestion input
      messageId).1.deliveries ref' = some delivery) :
    s.deliveries ref' = some delivery ∨
      ref' = ref ∧ delivery.origin = origin ∧ delivery.input = input ∧
        (begin host s ref origin pendingQuestion input messageId).2 =
          .waiting := by
  rcases begin_cases s ref origin pendingQuestion input messageId with
    ⟨error, hbegin⟩ | ⟨previous, hbegin, -, -⟩ |
    ⟨request, stage, hbegin, -⟩
  · rw [hbegin] at h
    exact .inl h
  · rw [hbegin] at h ⊢
    rcases update_cases h with ⟨rfl, ⟨⟩⟩ | ⟨-, h⟩
    · exact .inr ⟨rfl, rfl, rfl, rfl⟩
    · exact .inl h
  · rw [hbegin] at h ⊢
    rcases update_cases h with ⟨rfl, ⟨⟩⟩ | ⟨-, h⟩
    · exact .inr ⟨rfl, rfl, rfl, rfl⟩
    · exact .inl h

theorem comes_of_settled {s : DshInputs.State} {other : Delivery}
    (h : Settled s ref delivery t)
    (hdelivery : s.deliveries ref = some delivery)
    (hother : t.deliveries ref' = some other) :
    ∃ earlier, s.deliveries ref' = some earlier ∧
      earlier.origin = other.origin ∧ earlier.input = other.input := by
  cases h <;> rcases update_cases hother with ⟨rfl, ⟨⟩⟩ | ⟨-, hother⟩
  all_goals first
    | exact ⟨delivery, hdelivery, rfl, rfl⟩
    | exact ⟨other, hother, rfl, rfl⟩

theorem comes_of_step {host : InputHost} {s : DshInputs.State}
    (h : (DshInputs.step host s action).1.deliveries ref = some delivery) :
    Comes s action (DshInputs.step host s action).2 ref delivery := by
  cases action with
  | steer ref' params messageId accepts =>
    simp only [DshInputs.step] at h ⊢
    split at h
    · exact .inl ⟨delivery, h, rfl, rfl⟩
    · rename_i hfree
      split at h
      · exact .inl ⟨delivery, h, rfl, rfl⟩
      · rcases comes_of_begin h with hearlier | ⟨rfl, horigin, hinput, hwait⟩
        · exact .inl ⟨delivery, hearlier, rfl, rfl⟩
        · refine .inr (.inr ⟨params, messageId, accepts, _, rfl, ?_, horigin,
            by rw [hinput]; rfl⟩)
          rw [if_neg hfree]
          exact hwait
  | answerWait ref' wait params messageId =>
    simp only [DshInputs.step] at h ⊢
    split at h
    · exact .inl ⟨delivery, h, rfl, rfl⟩
    · split at h
      · exact .inl ⟨delivery, h, rfl, rfl⟩
      · rcases comes_of_begin h with hearlier | ⟨-, horigin, -, -⟩
        · exact .inl ⟨delivery, hearlier, rfl, rfl⟩
        · exact .inr (.inl horigin)
  | flushed ref' succeeded accepts =>
    simp only [DshInputs.step] at h
    split at h
    · rename_i earlier hearlier
      exact .inl (comes_of_settled flushed_settled hearlier h)
    · exact .inl ⟨delivery, h, rfl, rfl⟩
  | event event | ask question programRunId =>
    simp only [DshInputs.step] at h
    split at h <;> exact .inl ⟨delivery, h, rfl, rfl⟩
  | restart keep nextStep nextTurn =>
    simp only [DshInputs.step] at h
    split at h
    · cases h
    · exact .inl ⟨delivery, h, rfl, rfl⟩
  | _ => exact .inl ⟨delivery, h, rfl, rfl⟩

/-- Only typed answers wait to be put to a question. -/
def AskedByAnswers (s : DshInputs.State) : Prop :=
  ∀ ref delivery question answer, s.deliveries ref = some delivery →
    delivery.stage = .asked question answer → delivery.input.kind = askUser

theorem AskedByAnswers.begin {host : InputHost} {s : DshInputs.State}
    (h : AskedByAnswers s) {input : TypedInput} :
    AskedByAnswers (DshInputs.begin host s ref origin pendingQuestion input
      messageId).1 := by
  intro ref' delivery question answer hdelivery hstage
  rcases begin_cases s ref origin pendingQuestion input messageId with
    ⟨error, hbegin⟩ | ⟨previous, hbegin, -, -⟩ |
    ⟨request, stage, hbegin, -, -, -, -, hasked⟩
  · rw [hbegin] at hdelivery
    exact h ref' delivery question answer hdelivery hstage
  · rw [hbegin] at hdelivery
    rcases update_cases hdelivery with ⟨rfl, ⟨⟩⟩ | ⟨-, hdelivery⟩
    · cases hstage
    · exact h ref' delivery question answer hdelivery hstage
  · rw [hbegin] at hdelivery
    rcases update_cases hdelivery with ⟨rfl, ⟨⟩⟩ | ⟨-, hdelivery⟩
    · exact (hasked question answer hstage).2
    · exact h ref' delivery question answer hdelivery hstage

theorem AskedByAnswers.settled {s : DshInputs.State} (h : AskedByAnswers s)
    (ht : Settled s ref delivery t) : AskedByAnswers t := by
  intro ref' other question answer hother hstage
  cases ht <;> rcases update_cases hother with ⟨-, ⟨⟩⟩ | ⟨-, hother⟩
  all_goals first
    | cases hstage
    | exact h ref' other question answer hother hstage

theorem AskedByAnswers.step {host : InputHost} {s : DshInputs.State}
    (h : AskedByAnswers s) (action : DshInputs.Action) :
    AskedByAnswers (DshInputs.step host s action).1 := by
  cases action with
  | steer ref params messageId accepts | answerWait ref wait params messageId =>
    simp only [DshInputs.step]
    split
    · exact h
    · split
      · exact h
      · exact h.begin
  | flushed ref succeeded accepts =>
    simp only [DshInputs.step]
    split
    · exact h.settled flushed_settled
    · exact h
  | event event | ask question programRunId =>
    simp only [DshInputs.step]
    split <;> exact h
  | restart keep nextStep nextTurn =>
    simp only [DshInputs.step]
    split
    · rintro ref delivery question answer ⟨⟩
    · exact h
  | _ => exact h

/-- The cards that are gone. -/
def past (s : State) : List Nat := s.resolved ++ s.ended.map Prod.fst

/-- The cards that have an outcome, each as often as it has one. -/
def outcomes (s : State) : List Nat := past s ++ s.released.toList

/-- A delivery carries a typed answer for a card. -/
def Answers (delivery : Delivery) (card : Nat) : Prop :=
  (∃ runQuestion, delivery.origin = .steer (some card) runQuestion) ∧
    delivery.input.kind = askUser

/-- A typed answer for a card is in flight. -/
def Undelivered (s : State) (card : Nat) : Prop :=
  ∃ ref delivery, s.inputs.deliveries ref = some delivery ∧
    Answers delivery card

/-- What holds in every run. -/
structure Settles (s : State) : Prop where
  tickets : Tickets s.card s.inputs.nextCard (past s)
  admitted : ∀ ref delivery card, s.inputs.deliveries ref = some delivery →
    Answers delivery card → (ref, card) ∈ s.admitted
  known : ∀ delivery ∈ s.admitted, delivery.2 < s.inputs.nextCard
  asked : AskedByAnswers s.inputs
  parks : ∀ ref park, s.parks ref = some park →
    park.card < s.inputs.nextCard ∧
      (park.phase = .canceled → (park.card, Ending.canceled) ∈ s.ended ∧
        ∀ delivery ∈ s.admitted, delivery.2 ≠ park.card)
  detach : ∀ detach, s.detach = some detach →
    s.inputs.detaching = true ∧ detach.card < s.inputs.nextCard ∧
      (detach.phase = .sessions →
        ∀ delivery ∈ s.admitted, delivery.2 ≠ detach.card)
  released : ∀ card, s.released = some card →
    s.inputs.detaching = true ∧ s.detach = none ∧
      ∀ delivery ∈ s.admitted, delivery.2 ≠ card

theorem initial_settles (sessionId : JsString) (admission : Bool) :
    Settles (State.initial sessionId admission) := by
  constructor
  · exact Tickets.initial
  · rintro ref delivery card ⟨⟩
  · rintro delivery ⟨⟩
  · rintro ref delivery question answer ⟨⟩
  · rintro ref park ⟨⟩
  · rintro detach ⟨⟩
  · rintro card ⟨⟩

/-- What a step of the inputs adds to `inputDeliveries` answers the card on
show, and only while the Host does not detach. -/
theorem mem_inputDeliveries {delivery : Nat × Nat}
    (h : delivery ∈ inputDeliveries s
      (DshInputs.step host.toInputHost s.inputs action).1
      (DshInputs.step host.toInputHost s.inputs action).2 action) :
    delivery ∈ s.admitted ∨
      s.card = some delivery.2 ∧ s.inputs.detaching = false := by
  unfold inputDeliveries at h
  split at h
  · split at h
    · rename_i card hcard
      split at h
      · rename_i hsteer
        rcases List.mem_append.1 h with h | h
        · exact .inl h
        · rw [List.mem_singleton.1 h]
          exact .inr ⟨hcard, not_detaching_of_steer hsteer.2⟩
      · exact .inl h
    · exact .inl h
  · split at h
    · exact .inl h
    · exact .inl (List.mem_of_mem_filter h)
  · exact .inl h

/-- `inputDeliveries` keeps every typed answer in flight. -/
theorem Settles.admits (h : Settles s)
    (hdelivery : (DshInputs.step host.toInputHost s.inputs
      action).1.deliveries ref = some delivery)
    (hanswers : Answers delivery card) :
    (ref, card) ∈ inputDeliveries s
      (DshInputs.step host.toInputHost s.inputs action).1
      (DshInputs.step host.toInputHost s.inputs action).2 action := by
  obtain ⟨⟨runQuestion, horigin⟩, hkind⟩ := hanswers
  rcases comes_of_step hdelivery with
    ⟨earlier, hearlier, hsame, hinput⟩ | hwait |
    ⟨params, messageId, accepts, run, haction, hwaiting, hsteer, hparams⟩
  · have hmem : (ref, card) ∈ s.admitted :=
      h.admitted ref earlier card hearlier
        ⟨⟨runQuestion, hsame.trans horigin⟩, by rw [hinput]; exact hkind⟩
    unfold inputDeliveries
    split
    · split
      · split
        · exact List.mem_append_left _ hmem
        · exact hmem
      · exact hmem
    · rename_i ref' succeeded accepts
      split
      · exact hmem
      · rename_i hgone
        refine List.mem_filter.2 ⟨hmem, ?_⟩
        simp only [ne_eq, decide_not, Bool.not_eq_true', decide_eq_false_iff_not]
        rintro rfl
        rw [hdelivery] at hgone
        exact hgone rfl
    · exact hmem
  · rw [hwait] at horigin
    cases horigin
  · rw [hsteer] at horigin
    have hcard : s.card = some card := by
      simpa [State.card] using (Origin.steer.inj horigin).1
    subst haction
    unfold inputDeliveries
    simp only [hcard]
    rw [if_pos ⟨hparams ▸ hkind, hwaiting⟩]
    exact List.mem_append_right _ (List.mem_singleton_self _)

theorem Change.tickets {next : DshInputs.State} (hchange : Change s.inputs next)
    (h : Tickets s.card s.inputs.nextCard (past s)) :
    Tickets (next.question.map LiveQuestion.card) next.nextCard
      (resolvedCards next ++ s.ended.map Prod.fst) := by
  cases hchange with
  | same hquestion hnext hresolved =>
    rw [hquestion, hnext, hresolved]
    exact h
  | asked question hnone hquestion hcard hnext hresolved =>
    rw [hquestion, hnext, hresolved, Option.map_some, hcard]
    have hcurrent : s.card = none := by
      simp [State.card, hnone]
    rw [hcurrent] at h
    exact h.issue
  | resolved question hsome hquestion hnext hresolved hflight =>
    rw [hquestion, hnext, hresolved, Option.map_none]
    have hcurrent : s.card = some question.card := by
      simp [State.card, hsome]
    rw [hcurrent] at h
    refine h.close.perm ?_
    change (s.resolved ++ s.ended.map Prod.fst ++ [question.card]).Perm
      (s.resolved ++ [question.card] ++ s.ended.map Prod.fst)
    rw [List.append_assoc, List.append_assoc]
    exact List.Perm.append_left _ List.perm_append_comm

theorem Settles.input (h : Settles s) (hforwards : forwards action = true) :
    Settles (inputStep host s action).1 := by
  have hchange := inputs_change host.toInputHost s.inputs hforwards
  have hdetaching := inputs_detaching host.toInputHost s.inputs
    hforwards
  have hnext := hchange.nextCard_le
  have hnone : ∀ card, (∀ delivery ∈ s.admitted, delivery.2 ≠ card) →
      (s.card = some card → s.inputs.detaching = true) →
        ∀ delivery ∈ (inputStep host s action).1.admitted,
          delivery.2 ≠ card := by
    rintro _ hnone hlive delivery hdelivery rfl
    rcases mem_inputDeliveries hdelivery with hearlier | ⟨hcard, hfree⟩
    · exact hnone delivery hearlier rfl
    · rw [hlive hcard] at hfree
      cases hfree
  constructor
  · exact hchange.tickets h.tickets
  · exact fun ref delivery card hdelivery hanswers =>
      h.admits hdelivery hanswers
  · intro delivery hdelivery
    rcases mem_inputDeliveries hdelivery with hearlier | ⟨hcard, -⟩
    · exact (h.known delivery hearlier).trans_le hnext
    · exact (h.tickets.live _ hcard).1.trans_le hnext
  · exact h.asked.step action
  · intro ref park hpark
    obtain ⟨hlt, hcanceled⟩ := h.parks ref park hpark
    refine ⟨hlt.trans_le hnext, ?_⟩
    intro hphase
    obtain ⟨hended, hfree⟩ := hcanceled hphase
    refine ⟨hended, hnone park.card hfree ?_⟩
    intro hlive
    refine absurd ?_ (h.tickets.live _ hlive).2
    exact List.mem_append_right _ (List.mem_map.2 ⟨_, hended, rfl⟩)
  · intro detach hdetach
    obtain ⟨hon, hlt, hsessions⟩ := h.detach detach hdetach
    refine ⟨hdetaching.trans hon, hlt.trans_le hnext, ?_⟩
    intro hphase
    exact hnone detach.card (hsessions hphase) (fun _ => hon)
  · intro card hreleased
    obtain ⟨hon, hdone, hfree⟩ := h.released card hreleased
    exact ⟨hdetaching.trans hon, hdone, hnone card hfree (fun _ => hon)⟩

/-- The card on show ends. -/
theorem Settles.ends (h : Settles s) (hcard : s.card = some card)
    (ending : Ending) :
    Settles (s.endCard card ending) where
  tickets := by
    have hclosed := h.tickets
    rw [hcard] at hclosed
    refine hclosed.close.perm ?_
    change (s.resolved ++ s.ended.map Prod.fst ++ [card]).Perm
      (s.resolved ++ (s.ended ++ [(card, ending)]).map Prod.fst)
    rw [List.map_append, List.append_assoc]
    exact List.Perm.refl _
  admitted := h.admitted
  known := h.known
  asked := h.asked
  parks := by
    intro ref park hpark
    obtain ⟨hlt, hcanceled⟩ := h.parks ref park hpark
    refine ⟨hlt, fun hphase => ?_⟩
    obtain ⟨hended, hfree⟩ := hcanceled hphase
    exact ⟨List.mem_append_left _ hended, hfree⟩
  detach := h.detach
  released := h.released

theorem Settles.setPark (h : Settles s) {next : Option Park}
    (hnext : ∀ park, next = some park →
      park.card < s.inputs.nextCard ∧
        (park.phase = .canceled → (park.card, Ending.canceled) ∈ s.ended ∧
          ∀ delivery ∈ s.admitted, delivery.2 ≠ park.card)) :
    Settles (s.setPark ref next) where
  tickets := h.tickets
  admitted := h.admitted
  known := h.known
  asked := h.asked
  parks := by
    intro ref' park hpark
    rcases update_cases hpark with ⟨-, hpark⟩ | ⟨-, hpark⟩
    · exact hnext park hpark
    · exact h.parks ref' park hpark
  detach := h.detach
  released := h.released

/-- A call goes away. -/
theorem Settles.unpark (h : Settles s) (ref : Nat) :
    Settles (s.setPark ref none) :=
  h.setPark (by rintro park ⟨⟩)

theorem isLive_spec (h : isLive s card = true) :
    s.inputs.detaching = false ∧ s.inputs.rootCurrent = true ∧
      s.card = some card ∧ ∀ delivery ∈ s.admitted, delivery.2 ≠ card := by
  unfold isLive at h
  simp only [Bool.and_eq_true, Bool.not_eq_true', decide_eq_true_eq,
    List.any_eq_false] at h
  exact ⟨h.1.1.1, h.1.1.2, h.1.2, h.2⟩

theorem live_of_canPark (h : canPark s card = some true) :
    isLive s card = true := by
  unfold canPark at h
  split at h
  · cases h
  · rename_i hlive
    exact Bool.eq_true_of_not_eq_false hlive

theorem Settles.ifParkable (h : Settles s)
    (hnext : isLive s card = true → Settles next.1) :
    Settles (ifParkable s ref card next).1 := by
  unfold QuestionCard.ifParkable
  split
  · exact h.unpark ref
  · exact h.unpark ref
  · rename_i hpark
    exact hnext (live_of_canPark hpark)

theorem Settles.parkStep (h : Settles s) {park : Park}
    (hpark : s.parks ref = some park) (succeeded : Bool) :
    Settles (parkStep s ref park succeeded).1 := by
  obtain ⟨hlt, -⟩ := h.parks ref park hpark
  unfold QuestionCard.parkStep
  split
  · exact h.unpark ref
  · split
    · refine h.ifParkable fun _ => h.setPark ?_
      rintro _ ⟨⟩
      exact ⟨hlt, by rintro ⟨⟩⟩
    · refine h.ifParkable fun _ => ?_
      unfold writeCheckpoint
      split
      · have hwriting :
            Settles (s.setPark ref (some ⟨park.card, .writing⟩)) := by
          refine h.setPark ?_
          rintro _ ⟨⟩
          exact ⟨hlt, by rintro ⟨⟩⟩
        exact ⟨hwriting.tickets, hwriting.admitted, hwriting.known,
          hwriting.asked, hwriting.parks, hwriting.detach, hwriting.released⟩
      · exact h.unpark ref
    · refine h.ifParkable fun hlive => ?_
      obtain ⟨-, -, hcard, hfree⟩ := isLive_spec hlive
      refine (h.ends hcard .canceled).setPark ?_
      rintro _ ⟨⟩
      refine ⟨hlt, fun _ => ⟨?_, hfree⟩⟩
      exact List.mem_append_right _ (List.mem_singleton_self _)
    · exact h.unpark ref

/-- The Host stops to detach. -/
theorem Settles.undetach (h : Settles s) (hdetach : s.detach = some detach) :
    Settles { s.setDetaching false with detach := none } where
  tickets := h.tickets
  admitted := h.admitted
  known := h.known
  asked := h.asked
  parks := h.parks
  detach := by rintro other ⟨⟩
  released := by
    intro card hreleased
    obtain ⟨-, hnone, -⟩ := h.released card hreleased
    rw [hdetach] at hnone
    cases hnone

theorem Settles.detachStep (h : Settles s) (hdetach : s.detach = some detach)
    (succeeded : Bool) : Settles (detachStep host s detach succeeded).1 := by
  obtain ⟨hon, hlt, hsessions⟩ := h.detach detach hdetach
  have hunreleased : ∀ card, s.released ≠ some card := by
    intro card hreleased
    obtain ⟨-, hnone, -⟩ := h.released card hreleased
    rw [hdetach] at hnone
    cases hnone
  have hstop := h.undetach hdetach
  unfold QuestionCard.detachStep
  split
  · exact hstop
  · split
    · refine ⟨h.tickets, h.admitted, h.known, h.asked, h.parks, ?_, ?_⟩
      · rintro _ ⟨⟩
        exact ⟨hon, hlt, by rintro ⟨⟩⟩
      · intro card hreleased
        exact absurd hreleased (hunreleased card)
    · split
      · exact h
      · rename_i hdrained
        split
        · exact hstop
        · refine ⟨h.tickets, h.admitted, h.known, h.asked, h.parks, ?_, ?_⟩
          · rintro _ ⟨⟩
            refine ⟨hon, hlt, fun _ delivery hdelivery hsame => ?_⟩
            exact hdrained (List.any_eq_true.2
              ⟨delivery, hdelivery, decide_eq_true hsame⟩)
          · intro card hreleased
            exact absurd hreleased (hunreleased card)
    · rename_i hphase
      split
      · exact hstop
      · split
        · exact hstop
        · split
          · exact hstop
          · refine ⟨h.tickets, h.admitted, h.known, h.asked, h.parks, ?_, ?_⟩
            · rintro _ ⟨⟩
            · rintro _ ⟨⟩
              exact ⟨hon, rfl, hsessions hphase⟩

theorem card_lt (h : Settles s) (hcard : s.card = some card) :
    card < s.inputs.nextCard :=
  (h.tickets.live card hcard).1

theorem Settles.park (h : Settles s) (ref : Nat) (questionId : JsString) :
    Settles (park s ref questionId).1 := by
  unfold QuestionCard.park
  split
  · exact h
  · split
    · exact h
    · rename_i question hquestion
      split
      · exact h
      · refine h.ifParkable fun _ => h.setPark ?_
        rintro _ ⟨⟩
        exact ⟨card_lt h (by simp [State.card, hquestion]), by rintro ⟨⟩⟩

theorem Settles.detaches (h : Settles s) :
    Settles (QuestionCard.detach host s).1 := by
  unfold QuestionCard.detach
  split
  · exact h
  · rename_i hidle
    split
    · exact h
    · rename_i card hcard
      split
      · exact h
      · have hlt := card_lt h hcard
        refine ⟨h.tickets, h.admitted, h.known, h.asked, h.parks, ?_, ?_⟩
        · rintro _ ⟨⟩
          exact ⟨rfl, hlt, by rintro ⟨⟩⟩
        · intro other hreleased
          exact absurd (h.released other hreleased).1 hidle

theorem Settles.endLive (h : Settles s) (ending : Ending) :
    Settles (endLive s ending).1 := by
  unfold QuestionCard.endLive
  split
  · rename_i card hcard
    exact h.ends hcard ending
  · exact h

theorem Settles.step (h : Settles s) (action : Action) :
    Settles (QuestionCard.step host s action).1 := by
  unfold QuestionCard.step
  split
  · exact h
  · split
    · split
      · rename_i hforwards
        exact h.input hforwards
      · exact h
    · exact ⟨h.tickets, h.admitted, h.known, h.asked, h.parks, h.detach,
          h.released⟩
    · split
      · exact h
      · exact h.park _ _
    · split
      · rename_i hpark
        exact h.parkStep hpark _
      · exact h
    · exact h.detaches
    · split
      · rename_i hdetach
        exact h.detachStep hdetach _
      · exact h
    · split
      · exact ⟨h.tickets, h.admitted, h.known, h.asked, h.parks, h.detach,
          h.released⟩
      · exact h
    · split
      · exact h.endLive _
      · exact h
    · exact h.endLive _
    · exact h.endLive _
    · split
      · exact ⟨h.tickets, h.admitted, h.known, h.asked, h.parks, h.detach,
          h.released⟩
      · exact h

/-- The card on show that the surroundings end by a step. -/
def endsCard (s : State) : Action → Option Nat
  | .abort => s.card
  | .close => s.card
  | .expire card _ =>
    if card ∈ s.elapsed ∧ s.card = some card then some card else none
  | _ => none

/-- Nothing ends the card of a Host that was released and has not exited. -/
def Undisturbed (s : State) (action : Action) : Prop :=
  ∀ card, s.released = some card → s.exited = false →
    endsCard s action ≠ some card

/-- The card of a Host that was released stays on show. -/
def Held (s : State) : Prop :=
  ∀ card, s.released = some card → s.card = some card

theorem Settles.input_card (h : Settles s) (hforwards : forwards action = true)
    (hreleased : s.released = some card) (hcard : s.card = some card) :
    (inputStep host s action).1.card = some card := by
  obtain ⟨-, -, hfree⟩ := h.released card hreleased
  obtain ⟨live, hlive, hsame⟩ := Option.map_eq_some_iff.1 hcard
  cases inputs_change host.toInputHost s.inputs hforwards with
  | same hquestion hnext hresolved =>
    change (DshInputs.step host.toInputHost s.inputs
      action).1.question.map LiveQuestion.card = some card
    rw [hquestion]
    exact hcard
  | asked question hnone hquestion hcard hnext hresolved =>
    rw [hlive] at hnone
    cases hnone
  | resolved question hsome hquestion hnext hresolved hflight =>
    obtain ⟨ref, delivery, runQuestion, asked, answer, hdelivery, horigin,
      hstage⟩ := hflight
    have hkind := h.asked ref delivery asked answer hdelivery hstage
    have hmem := h.admitted ref delivery question.card hdelivery
      ⟨⟨runQuestion, horigin⟩, hkind⟩
    rw [hsome] at hlive
    cases hlive
    exact absurd hsame (hfree _ hmem)

theorem ifParkable_card (hnext : isLive s card = true → next.1.card = s.card) :
    (ifParkable s ref card next).1.card = s.card := by
  unfold ifParkable
  split
  · rfl
  · rfl
  · rename_i hpark
    exact hnext (live_of_canPark hpark)

/-- A call that parks leaves the card alone while the Host detaches. -/
theorem parkStep_card {park : Park} (hon : s.inputs.detaching = true) :
    (parkStep s ref park succeeded).1.card = s.card := by
  have hlive : ∀ {α : Prop}, isLive s park.card = true → α := by
    intro α hlive
    obtain ⟨hoff, -⟩ := isLive_spec hlive
    rw [hoff] at hon
    cases hon
  unfold parkStep
  split
  · rfl
  · split
    · exact ifParkable_card fun _ => rfl
    · exact ifParkable_card hlive
    · exact ifParkable_card hlive
    · rfl

theorem ifParkable_released (hnext : next.1.released = s.released) :
    (ifParkable s ref card next).1.released = s.released := by
  unfold ifParkable
  split
  · rfl
  · rfl
  · exact hnext

theorem park_card : (park s ref questionId).1.card = s.card := by
  unfold park
  split
  · rfl
  · split
    · rfl
    · split
      · rfl
      · exact ifParkable_card fun _ => rfl

theorem park_released : (park s ref questionId).1.released = s.released := by
  unfold park
  split
  · rfl
  · split
    · rfl
    · split
      · rfl
      · exact ifParkable_released rfl

theorem parkStep_released {park : Park} :
    (parkStep s ref park succeeded).1.released = s.released := by
  unfold parkStep
  split
  · rfl
  · split
    · exact ifParkable_released rfl
    · refine ifParkable_released ?_
      unfold writeCheckpoint
      split <;> rfl
    · exact ifParkable_released rfl
    · rfl

theorem Held.step (h : Held s) (hs : Settles s) {action : Action}
    (hquiet : Undisturbed s action) :
    Held (QuestionCard.step host s action).1 := by
  unfold QuestionCard.step
  split
  · exact h
  · rename_i hrunning
    have hrunning := Bool.eq_false_of_not_eq_true hrunning
    have hends : ∀ ending, (∀ card, s.released = some card →
        endsCard s action = s.card) → Held (endLive s ending).1 := by
      intro ending hsame card hreleased
      have hreleased : s.released = some card := by
        unfold endLive at hreleased
        split at hreleased <;> exact hreleased
      exact absurd ((hsame card hreleased).trans (h card hreleased))
        (hquiet card hreleased hrunning)
    split
    · split
      · rename_i hforwards
        intro card hreleased
        exact hs.input_card hforwards hreleased (h card hreleased)
      · exact h
    · exact h
    · split
      · exact h
      · intro card hreleased
        rw [park_released] at hreleased
        rw [park_card]
        exact h card hreleased
    · split
      · intro card hreleased
        rw [parkStep_released] at hreleased
        rw [parkStep_card (hs.released card hreleased).1]
        exact h card hreleased
      · exact h
    · unfold QuestionCard.detach
      split
      · exact h
      · split
        · exact h
        · split
          · exact h
          · exact h
    · split
      · rename_i detach hdetach
        unfold QuestionCard.detachStep notReleased
        split
        · exact h
        · split
          · exact h
          · split
            · exact h
            · split
              · exact h
              · exact h
          · split
            · exact h
            · split
              · exact h
              · rename_i hcard
                split
                · exact h
                · rintro _ ⟨⟩
                  exact not_not.1 hcard
      · exact h
    · split
      · exact h
      · exact h
    · split
      · rename_i card refused hexpires
        refine hends _ fun _ _ => ?_
        simp only [endsCard]
        rw [if_pos hexpires, hexpires.2]
      · exact h
    · exact hends _ fun _ _ => rfl
    · exact hends _ fun _ _ => rfl
    · split
      · exact h
      · exact h

/-- What a run keeps in which the card of a release is left alone. -/
structure Kept (s : State) : Prop extends Settles s where
  held : Held s

/-- What is held has one outcome. -/
theorem Settles.outcomes_nodup (h : Settles s) (hheld : Held s) :
    (outcomes s).Nodup := by
  refine List.nodup_append'.2 ⟨h.tickets.once, ?_, ?_⟩
  · cases s.released <;> simp
  · intro card hpast hreleased
    have hcard := hheld card (by simpa using hreleased)
    exact (h.tickets.live card hcard).2 hpast

theorem endsCard_card {action : Action} (h : endsCard s action = some card) :
    s.card = some card := by
  unfold endsCard at h
  split at h
  · exact h
  · exact h
  · split at h
    · rename_i hexpires
      rw [← h]
      exact hexpires.2
    · cases h
  · cases h

/-- A step that ends the card puts it into the past. -/
theorem past_of_endsCard (host : CardHost) {action : Action}
    (hrunning : s.exited = false) (h : endsCard s action = some card) :
    card ∈ past (step host s action).1 ∧
      (step host s action).1.released = s.released := by
  have hcard := endsCard_card h
  have hends : ∀ ending, card ∈ past (endLive s ending).1 ∧
      (endLive s ending).1.released = s.released := by
    intro ending
    unfold endLive
    rw [hcard]
    refine ⟨List.mem_append_right _ ?_, rfl⟩
    exact List.mem_map.2 ⟨(card, ending), List.mem_append_right _
      (List.mem_singleton_self _), rfl⟩
  unfold step
  rw [if_neg (by simp [hrunning])]
  cases action with
  | abort | close => exact hends .aborted
  | expire other refused =>
    simp only [endsCard] at h
    split at h
    · rename_i hexpires
      simp only [if_pos hexpires]
      exact hends _
    · cases h
  | _ => cases h

/-- A card that ends after the release of its Host has two outcomes. -/
theorem disturbed {action : Action} (h : ¬Undisturbed s action) :
    ¬(outcomes (step host s action).1).Nodup := by
  simp only [Undisturbed, not_forall, ne_eq, not_not] at h
  obtain ⟨card, hreleased, hrunning, hends⟩ := h
  obtain ⟨hpast, hsame⟩ := past_of_endsCard host hrunning hends
  intro hnodup
  refine (List.nodup_append'.1 hnodup).2.2 hpast ?_
  rw [hsame, hreleased]
  exact List.mem_singleton_self card

/-- The card that a release is about. -/
def releasing (s : State) : Option Nat :=
  (s.detach.map Detach.card).or s.released

/-- A Host refuses input only for a release, and no call that could park is
about a newer card. -/
structure Accounted (s : State) : Prop where
  newest : ∀ card, s.card = some card → card + 1 = s.inputs.nextCard
  detaching : s.inputs.detaching = true → (releasing s).isSome
  known : ∀ card, releasing s = some card → card < s.inputs.nextCard
  parks : ∀ card, releasing s = some card → ∀ ref park,
    s.parks ref = some park → park.card ≤ card

theorem Settles.releasing (h : Settles s) (hcard : releasing s = some card) :
    s.inputs.detaching = true := by
  unfold QuestionCard.releasing at hcard
  cases hdetach : s.detach with
  | some detach => exact (h.detach detach hdetach).1
  | none =>
    rw [hdetach] at hcard
    exact (h.released card hcard).1

theorem initial_accounted (sessionId : JsString) (admission : Bool) :
    Accounted (State.initial sessionId admission) := by
  constructor
  · rintro card ⟨⟩
  · rintro ⟨⟩
  · rintro card ⟨⟩
  · rintro card ⟨⟩

theorem Accounted.input (h : Accounted s) (hforwards : forwards action = true) :
    Accounted (inputStep host s action).1 := by
  have hdetaching := inputs_detaching host.toInputHost s.inputs hforwards
  constructor
  · intro card hcard
    change (DshInputs.step host.toInputHost s.inputs
      action).1.question.map LiveQuestion.card = some card at hcard
    change card + 1 = (DshInputs.step host.toInputHost s.inputs
      action).1.nextCard
    cases inputs_change host.toInputHost s.inputs hforwards with
    | same hquestion hnext hresolved =>
      rw [hquestion] at hcard
      rw [hnext]
      exact h.newest card hcard
    | asked question hnone hquestion hissued hnext hresolved =>
      rw [hquestion] at hcard
      rw [hnext, ← hissued, ← Option.some.inj hcard]
    | resolved question hsome hquestion hnext hresolved hflight =>
      rw [hquestion] at hcard
      cases hcard
  · intro hon
    exact h.detaching (hdetaching.symm.trans hon)
  · intro card hcard
    exact (h.known card hcard).trans_le
      (inputs_change host.toInputHost s.inputs hforwards).nextCard_le
  · exact h.parks

/-- The card on show may go. -/
theorem Accounted.ends (h : Accounted s) (card : Nat) (ending : Ending) :
    Accounted (s.endCard card ending) where
  newest := by rintro other ⟨⟩
  detaching := h.detaching
  known := h.known
  parks := h.parks

theorem Accounted.endLive (h : Accounted s) (ending : Ending) :
    Accounted (endLive s ending).1 := by
  unfold QuestionCard.endLive
  split
  · exact h.ends _ ending
  · exact h

theorem Accounted.setPark (h : Accounted s) {next : Option Park}
    (hnext : ∀ card park, releasing s = some card →
      next = some park → park.card ≤ card) :
    Accounted (s.setPark ref next) where
  newest := h.newest
  detaching := h.detaching
  known := h.known
  parks := by
    intro card hcard ref' park hpark
    rcases update_cases hpark with ⟨-, hpark⟩ | ⟨-, hpark⟩
    · exact hnext card park hcard hpark
    · exact h.parks card hcard ref' park hpark

theorem Accounted.unpark (h : Accounted s) (ref : Nat) :
    Accounted (s.setPark ref none) :=
  h.setPark (by rintro card park - ⟨⟩)

theorem Accounted.ifParkable (h : Accounted s) (hnext : Accounted next.1) :
    Accounted (ifParkable s ref card next).1 := by
  unfold QuestionCard.ifParkable
  split
  · exact h.unpark ref
  · exact h.unpark ref
  · exact hnext

theorem Accounted.parkStep (h : Accounted s) {park : Park}
    (hpark : s.parks ref = some park) (succeeded : Bool) :
    Accounted (parkStep s ref park succeeded).1 := by
  have hphase : ∀ phase,
      Accounted (s.setPark ref (some ⟨park.card, phase⟩)) := by
    intro phase
    refine h.setPark ?_
    rintro card _ hcard ⟨⟩
    exact h.parks card hcard ref park hpark
  unfold QuestionCard.parkStep
  split
  · exact h.unpark ref
  · split
    · exact h.ifParkable (hphase .settling)
    · refine h.ifParkable ?_
      unfold writeCheckpoint
      split
      · exact ⟨(hphase .writing).newest, (hphase .writing).detaching,
          (hphase .writing).known, (hphase .writing).parks⟩
      · exact h.unpark ref
    · refine h.ifParkable ?_
      exact ⟨((hphase .canceled).ends park.card .canceled).newest,
        (hphase .canceled).detaching, (hphase .canceled).known,
        (hphase .canceled).parks⟩
    · exact h.unpark ref

theorem Accounted.park (h : Accounted s) (hs : Settles s) (ref : Nat)
    (questionId : JsString) : Accounted (park s ref questionId).1 := by
  unfold QuestionCard.park
  split
  · exact h
  · rename_i hidle
    split
    · exact h
    · split
      · exact h
      · refine h.ifParkable (h.setPark fun card park hcard _ => ?_)
        exact absurd (.inl (hs.releasing hcard)) hidle

theorem Accounted.detaches (h : Accounted s) (hs : Settles s) :
    Accounted (QuestionCard.detach host s).1 := by
  unfold QuestionCard.detach
  split
  · exact h
  · split
    · exact h
    · rename_i card hcard
      split
      · exact h
      · have hnewest := h.newest card hcard
        have hlt := card_lt hs hcard
        refine ⟨h.newest, fun _ => rfl, ?_, ?_⟩
        · rintro _ ⟨⟩
          exact hlt
        · rintro _ ⟨⟩ ref park hpark
          have hlt := (hs.parks ref park hpark).1
          change park.card ≤ card
          omega

/-- A release that fails leaves no other behind. -/
theorem Accounted.undetach (h : Accounted s) (hs : Settles s)
    (hdetach : s.detach = some detach) :
    Accounted { s.setDetaching false with detach := none } where
  newest := h.newest
  detaching := by rintro ⟨⟩
  known := fun card hreleased =>
    absurd hdetach (by simp [(hs.released card hreleased).2.1])
  parks := fun card hreleased =>
    absurd hdetach (by simp [(hs.released card hreleased).2.1])

theorem Accounted.detachStep (h : Accounted s) (hs : Settles s)
    (hdetach : s.detach = some detach) (succeeded : Bool) :
    Accounted (detachStep host s detach succeeded).1 := by
  have hstop := h.undetach hs hdetach
  have hcard : releasing s = some detach.card := by
    simp [releasing, hdetach]
  have hgoes : ∀ phase,
      Accounted { s with detach := some ⟨detach.card, phase⟩ } := by
    intro phase
    refine ⟨h.newest, fun _ => rfl, ?_, ?_⟩
    · rintro _ ⟨⟩
      exact h.known detach.card hcard
    · rintro _ ⟨⟩
      exact h.parks detach.card hcard
  unfold QuestionCard.detachStep
  split
  · exact hstop
  · split
    · exact hgoes .deliveries
    · split
      · exact h
      · split
        · exact hstop
        · exact hgoes .sessions
    · split
      · exact hstop
      · split
        · exact hstop
        · split
          · exact hstop
          · refine ⟨h.newest, fun _ => rfl, ?_, ?_⟩
            · rintro _ ⟨⟩
              exact h.known detach.card hcard
            · rintro _ ⟨⟩
              exact h.parks detach.card hcard

theorem Accounted.step (h : Accounted s) (hs : Settles s) (action : Action) :
    Accounted (QuestionCard.step host s action).1 := by
  unfold QuestionCard.step
  split
  · exact h
  · split
    · split
      · rename_i hforwards
        exact h.input hforwards
      · exact h
    · exact ⟨h.newest, h.detaching, h.known, h.parks⟩
    · split
      · exact h
      · exact h.park hs _ _
    · split
      · rename_i hpark
        exact h.parkStep hpark _
      · exact h
    · exact h.detaches hs
    · split
      · rename_i hdetach
        exact h.detachStep hs hdetach _
      · exact h
    · split
      · exact ⟨h.newest, h.detaching, h.known, h.parks⟩
      · exact h
    · split
      · exact h.endLive _
      · exact h
    · exact h.endLive _
    · exact h.endLive _
    · split
      · exact ⟨h.newest, h.detaching, h.known, h.parks⟩
      · exact h

/-- The card is on show, and is fenced at most by a release under way. -/
def Answerable (s : State) (card : Nat) : Prop :=
  s.card = some card ∧
    (s.inputs.detaching = true → s.detach.isSome = true)

/-- No typed answer for the card is in flight or was adopted. -/
def Unanswered (s : State) (card : Nat) : Prop :=
  ¬Undelivered s card ∧ card ∉ s.resolved

/-- A call that parks or releases has found its card unanswered, and one that
does not leaves it answerable, unless it has an outcome. -/
def Truthful (s next : State) : Answer → Prop
  | .parked card => (card, Ending.canceled) ∈ next.ended ∧ Unanswered s card
  | .released card => next.released = some card ∧ Unanswered s card
  | .notParked (some card) => Answerable next card ∨ card ∈ outcomes next
  | .notReleased (some card) _ => Answerable next card ∨ card ∈ outcomes next
  | _ => True

theorem Settles.unanswered (h : Settles s)
    (hfree : ∀ delivery ∈ s.admitted, delivery.2 ≠ card)
    (hresolved : card ∉ s.resolved) : Unanswered s card := by
  refine ⟨?_, hresolved⟩
  rintro ⟨ref, delivery, hdelivery, hanswers⟩
  exact hfree _ (h.admitted ref delivery card hdelivery hanswers) rfl

theorem Accounted.answerable (h : Accounted s) (hs : Settles s)
    (hlt : card < s.inputs.nextCard)
    (hle : ∀ other, releasing s = some other → card ≤ other) :
    Answerable s card ∨ card ∈ outcomes s := by
  rcases hs.tickets.all card hlt with hcard | hpast
  · cases hdetach : s.detach with
    | some detach => exact .inl ⟨hcard, fun _ => by rw [hdetach]; rfl⟩
    | none =>
      cases hon : s.inputs.detaching with
      | false => exact .inl ⟨hcard, by rw [hon]; rintro ⟨⟩⟩
      | true =>
        -- The Host was released: the newest card is the one released.
        obtain ⟨other, hother⟩ :=
          Option.isSome_iff_exists.1 (h.detaching hon)
        have hnewest := h.newest card hcard
        have hbefore := h.known other hother
        have hafter := hle other hother
        have hsame : other = card := by omega
        rw [releasing, hdetach] at hother
        refine .inr (List.mem_append_right _ ?_)
        rw [Option.mem_toList]
        exact hother.trans (congrArg some hsame)
  · exact .inr (List.mem_append_left _ hpast)

theorem ifParkable_truthful (h : Accounted s) (hs : Settles s)
    (hlt : card < s.inputs.nextCard)
    (hle : ∀ other, releasing s = some other → card ≤ other)
    (hnext : canPark s card = some true → Truthful s next.1 next.2) :
    Truthful s (ifParkable s ref card next).1
      (ifParkable s ref card next).2 := by
  unfold ifParkable
  split
  · trivial
  · exact (h.unpark ref).answerable (hs.unpark ref) hlt hle
  · rename_i hpark
    exact hnext hpark

theorem parkStep_truthful (h : Accounted s) (hs : Settles s) {park : Park}
    (hpark : s.parks ref = some park) (succeeded : Bool) :
    Truthful s (parkStep s ref park succeeded).1
      (parkStep s ref park succeeded).2 := by
  obtain ⟨hlt, hcanceled⟩ := hs.parks ref park hpark
  have hle : ∀ other, releasing s = some other → park.card ≤ other :=
    fun other hother => h.parks other hother ref park hpark
  have hstays : Truthful s (s.setPark ref none) (.notParked (some park.card)) :=
    (h.unpark ref).answerable (hs.unpark ref) hlt hle
  unfold parkStep
  split
  · trivial
  · split
    · exact ifParkable_truthful h hs hlt hle fun _ => trivial
    · refine ifParkable_truthful h hs hlt hle fun _ => ?_
      unfold writeCheckpoint
      split
      · trivial
      · exact hstays
    · exact ifParkable_truthful h hs hlt hle fun _ => trivial
    · rename_i hphase
      obtain ⟨hended, hfree⟩ := hcanceled hphase
      dsimp only
      split
      · refine ⟨hended, hs.unanswered hfree fun hresolved => ?_⟩
        exact (List.nodup_append'.1 hs.tickets.once).2.2 hresolved
          (List.mem_map.2 ⟨_, hended, rfl⟩)
      · exact hstays

theorem detachStep_truthful (hs : Settles s) (hdetach : s.detach = some detach)
    (succeeded : Bool) :
    Truthful s (detachStep host s detach succeeded).1
      (detachStep host s detach succeeded).2 := by
  obtain ⟨hon, hlt, hsessions⟩ := hs.detach detach hdetach
  have hstop : ∀ reason, Truthful s (notReleased s detach.card reason).1
      (notReleased s detach.card reason).2 := by
    intro reason
    rcases hs.tickets.all detach.card hlt with hcard | hpast
    · exact .inl ⟨hcard, by rintro ⟨⟩⟩
    · exact .inr (List.mem_append_left _ hpast)
  unfold detachStep
  split
  · trivial
  · split
    · trivial
    · split
      · trivial
      · split
        · exact hstop _
        · trivial
    · rename_i hphase
      split
      · exact hstop _
      · split
        · exact hstop _
        · rename_i hcard
          split
          · exact hstop _
          · refine ⟨rfl, hs.unanswered (hsessions hphase) fun hresolved => ?_⟩
            exact (hs.tickets.live _ (not_not.1 hcard)).2
              (List.mem_append_left _ hresolved)

theorem step_truthful (h : Accounted s) (hs : Settles s) (action : Action) :
    Truthful s (QuestionCard.step host s action).1
      (QuestionCard.step host s action).2 := by
  unfold QuestionCard.step
  split
  · trivial
  · rename_i hrunning
    have hlives : ∀ ending, Truthful s (endLive s ending).1
        (endLive s ending).2 := by
      intro ending
      unfold endLive
      split <;> trivial
    split
    · split <;> trivial
    · trivial
    · split
      · trivial
      · unfold QuestionCard.park
        split
        · trivial
        · rename_i hidle
          split
          · trivial
          · rename_i question hquestion
            have hcard : s.card = some question.card := by
              simp [State.card, hquestion]
            split
            · trivial
            · refine ifParkable_truthful h hs (card_lt hs hcard) ?_
                fun _ => trivial
              intro other hother
              exact absurd (.inl (hs.releasing hother)) hidle
    · split
      · rename_i hpark
        exact parkStep_truthful h hs hpark _
      · trivial
    · unfold QuestionCard.detach
      split
      · trivial
      · rename_i hidle
        split
        · trivial
        · rename_i card hcard
          split
          · exact .inl ⟨hcard, fun hon => absurd hon hidle⟩
          · trivial
    · split
      · rename_i hdetach
        exact detachStep_truthful hs hdetach _
      · trivial
    · split <;> trivial
    · split
      · exact hlives _
      · trivial
    · exact hlives _
    · exact hlives _
    · split <;> trivial

theorem after_settles (sessionId : JsString) (admission : Bool)
    (actions : List Action) :
    Settles ((cards host).after (State.initial sessionId admission) actions) :=
  Machine.after_invariant Settles (fun _ action h => h.step action)
    (initial_settles sessionId admission) actions

theorem after_accounted (sessionId : JsString) (admission : Bool)
    (actions : List Action) :
    Accounted
      ((cards host).after (State.initial sessionId admission) actions) :=
  (Machine.after_invariant (fun s => Settles s ∧ Accounted s)
    (fun _ action h => ⟨h.1.step action, h.2.step h.1 action⟩)
    ⟨initial_settles sessionId admission,
      initial_accounted sessionId admission⟩ actions).2

/-- A run in which no card ever has two outcomes is undisturbed. -/
theorem undisturbed_of_nodup {actions : List Action}
    (h : ∀ before, before <+: actions →
      (outcomes ((cards host).after s before)).Nodup) :
    (cards host).AllSteps Undisturbed s actions := by
  induction actions generalizing s with
  | nil => trivial
  | cons action rest ih =>
    refine ⟨?_, ih fun before hbefore => ?_⟩
    · by_contra hdisturbed
      exact disturbed hdisturbed (h [action] (by simp))
    · exact h (action :: before) ((List.cons_prefix_cons).2 ⟨rfl, hbefore⟩)

/-- A card has one outcome in a run exactly if nothing ends a card between its
Host's release and the exit; and whatever ends, a call tells the truth. -/
theorem question_card_settles_once (sessionId : JsString) (admission : Bool)
    (actions : List Action) :
    ((∀ before, before <+: actions →
        (outcomes ((cards host).after (State.initial sessionId admission)
          before)).Nodup) ↔
      (cards host).AllSteps Undisturbed (State.initial sessionId admission)
        actions) ∧
    ∀ action,
      let s := (cards host).after (State.initial sessionId admission) actions
      Truthful s (step host s action).1 (step host s action).2 := by
  refine ⟨⟨undisturbed_of_nodup, ?_⟩, fun action => ?_⟩
  · rintro hquiet before ⟨rest, rfl⟩
    have hkept : Kept
        ((cards host).after (State.initial sessionId admission) before) :=
      hquiet.append.1.after_invariant
        (fun s action h hstep => ⟨h.1.step action, h.2.step h.1 hstep⟩)
        ⟨initial_settles sessionId admission, by rintro card ⟨⟩⟩
    exact hkept.toSettles.outcomes_nodup hkept.held
  · exact step_truthful (after_accounted sessionId admission actions)
      (after_settles sessionId admission actions) action

namespace QuestionCardWitness

/-- A Host in the timed mode, whose recovery closes every open call with an
unknown outcome. -/
def waiting : CardHost where
  digest := List.flatten
  parse := fun _ => .invalidJson
  timed := true
  questions := fun events => ⟨(openCalls events).map Prod.fst, []⟩
  closers := fun events => (openCalls events).map fun call =>
    ⟨call.1, JsString.ofString "TOOL_OUTCOME_UNKNOWN"⟩

/-- A card's timer fires while its Host is released, and the wait times out
before the process exits. -/
def actions : List Action :=
  [.input (.event (.turnStart 1)),
    .input (.event (.toolCall (JsString.ofString "call")
      (JsString.ofString "ask_user_question"))),
    .input (.ask ⟨[0x71], []⟩ none), .elapse, .detach, .detachStep true,
    .detachStep true, .detachStep true, .expire 0 false]

theorem released_card_times_out :
    let s := (cards waiting).after (State.initial [0x73] false) actions
    s.released = some 0 ∧ s.ended = [(0, .timedOut)] ∧
      ¬(outcomes s).Nodup := by
  decide

end QuestionCardWitness

end Allrice.QuestionCard
