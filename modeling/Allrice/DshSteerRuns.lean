/-
Typed inputs over whole runs: no repeat and no restart applies an input again,
and what is adopted stays adopted.
-/
import Allrice.DshDelivers

namespace Allrice.DshInputs

variable {host : InputHost} {isMessageId : JsString → Prop}

/-- The input that an action hands to `deliverDshInput`. -/
def offered (host : InputHost) (s : State) : Action → Option TypedInput
  | .steer ref params _ _ =>
    if (s.deliveries ref).isSome then none
    else some (typedInput s params (isRunQuestion host s params))
  | .answerWait ref _ params _ =>
    if (s.deliveries ref).isSome then none
    else some { params with kind := askUser }
  | _ => none

/-- A journal binds an input: its id, and under that id its digest. -/
def Bound (host : InputHost) (events : List Event) (input : TypedInput) :
    Prop :=
  ∃ request, .inputRequest request ∈ events ∧
    request.inputId = input.inputId ∧
    request.digest = host.digest input.fields

variable {input : TypedInput} {s : State} {ref : Nat} {origin : Origin}
  {pendingQuestion : Option PendingQuestion} {messageId : JsString}
  {action : Action} {agent : Agent} {view : Option QuestionView}

theorem inspect_bound {inspection : Inspection}
    (h : inspectDshInput host agent input view = .ok inspection)
    (hne : inspection ≠ .notFound) : Bound host agent.events input := by
  unfold inspectDshInput at h
  split at h
  · exact absurd (Except.ok.inj h).symm hne
  · rename_i bound i hlast
    split at h
    · cases h
    · rename_i hdigest
      obtain ⟨event, hevent, hpick⟩ := lastEntry_mem hlast
      obtain ⟨rfl, hid⟩ := requestOf_eq_some.1 hpick
      exact ⟨bound, hevent, hid, not_not.1 hdigest⟩

/-- Another digest under a bound id is a conflict. -/
theorem inspect_conflict {request : InputRequest}
    (h : (requestIds agent.events).Nodup)
    (hrequest : .inputRequest request ∈ agent.events)
    (hid : request.inputId = input.inputId)
    (hdigest : request.digest ≠ host.digest input.fields) :
    inspectDshInput host agent input view = .error .inputIdConflict := by
  obtain ⟨i, hlast⟩ := lastEntry_requestOf h hrequest
  unfold inspectDshInput
  rw [← hid, hlast]
  simp only [if_pos hdigest]

theorem begin_conflict
    (h : inspectDshInput host s.agent input
      (viewOf host origin s.agent.events) = .error .inputIdConflict) :
    ∃ error, begin host s ref origin pendingQuestion input messageId =
      (s, .rejected error) := by
  unfold begin deliverDshInput
  cases htyped : isTypedInput input with
  | false => exact ⟨_, rfl⟩
  | true =>
    rw [h]
    exact ⟨_, rfl⟩

/-- What is offered is refused outright, or its delivery begins. -/
theorem step_offered (hoffered : offered host s action = some input) :
    (∃ error, step host s action = (s, .rejected error)) ∨
    ∃ ref origin pendingQuestion messageId, step host s action =
      begin host s ref origin pendingQuestion input messageId := by
  cases action with
  | steer ref params messageId accepts | answerWait ref wait params messageId =>
    simp only [offered] at hoffered
    split at hoffered
    · cases hoffered
    · rename_i hfree
      cases hoffered
      simp only [step, if_neg hfree]
      split
      · exact .inl ⟨_, rfl⟩
      · exact .inr ⟨_, _, _, _, rfl⟩
  | _ => cases hoffered

/-- A repeat under another text, kind, turn or Run changes nothing. -/
theorem Delivers.conflicts (h : Delivers host isMessageId s)
    {earlier : TypedInput} (hearlier : Bound host s.agent.events earlier)
    (hoffered : offered host s action = some input)
    (hsame : input.inputId = earlier.inputId)
    (hdigest : host.digest input.fields ≠ host.digest earlier.fields) :
    ∃ error, DshInputs.step host s action = (s, .rejected error) := by
  obtain ⟨request, hrequest, hid, hbound⟩ := hearlier
  rcases step_offered hoffered with
    hrejected | ⟨ref, origin, pendingQuestion, messageId, hbegin⟩
  · exact hrejected
  · rw [hbegin]
    refine begin_conflict (inspect_conflict h.orderly.requests hrequest
      (hid.trans hsame.symm) ?_)
    rw [hbound]
    exact hdigest.symm

theorem begin_binds
    (h : (begin host s ref origin pendingQuestion input messageId).2 =
      .waiting) :
    Bound host (begin host s ref origin pendingQuestion input
      messageId).1.agent.events input := by
  rcases begin_cases s ref origin pendingQuestion input messageId with
    ⟨error, hbegin⟩ | ⟨previous, hbegin, hinspect, hne⟩ |
    ⟨request, stage, hbegin, hid, hdigest, -, -, -⟩
  · rw [hbegin] at h
    cases h
  · rw [hbegin]
    exact inspect_bound hinspect hne
  · rw [hbegin]
    exact ⟨request, List.mem_append_right _ (List.mem_singleton_self _), hid,
      hdigest⟩

/-- A delivery that waits for its flush has its input bound. -/
theorem step_binds (hoffered : offered host s action = some input)
    (h : (step host s action).2 = .waiting) :
    Bound host (step host s action).1.agent.events input := by
  rcases step_offered hoffered with
    ⟨error, hrejected⟩ | ⟨ref, origin, pendingQuestion, messageId, hbegin⟩
  · rw [hrejected] at h
    cases h
  · rw [hbegin] at h ⊢
    exact begin_binds h

/-- What holds of every state that a root reaches. -/
structure DeliversOnce (host : InputHost) (isMessageId : JsString → Prop)
    (s : State) : Prop where
  request : (requestIds s.agent.events).Nodup
  effect : (s.applied.map fun applied => applied.effect.inputId).Nodup
  card : (s.applied.filterMap Applied.card).Nodup
  binds : ∀ action input, offered host s action = some input →
    (step host s action).2 = .waiting →
      Bound host (step host s action).1.agent.events input
  conflicts : ∀ action earlier input, Bound host s.agent.events earlier →
    offered host s action = some input → input.inputId = earlier.inputId →
      input.fields ≠ earlier.fields →
      (host.digest input.fields = host.digest earlier.fields →
        input.fields = earlier.fields) →
        ∃ error, step host s action = (s, .rejected error)
  evidence : ∀ input viewed adoption,
    inspectDshInput host s.agent input (host.view viewed s.agent.events) =
      .ok (.adopted adoption) →
      (∃ request, .inputRequest request ∈ s.agent.events ∧
        request.inputId = input.inputId ∧
        request.messageId = adoption.messageId ∧
        request.digest = host.digest input.fields) ∧
      ∃ event, s.agent.events[adoption.sequence]? = some event ∧
        Evidence s.agent.sessionId (host.view viewed s.agent.events) adoption
          event
  stays : ∀ input viewed adoption,
    inspectDshInput host s.agent input (host.view viewed s.agent.events) =
      .ok (.adopted adoption) →
      ∀ later, (inputs host).AllSteps (Promised host isMessageId) s later →
        s.agent.events <+: ((inputs host).after s later).agent.events →
          inspectDshInput host ((inputs host).after s later).agent input
            (host.view viewed ((inputs host).after s later).agent.events) =
              .ok (.adopted adoption)

theorem begin_sessionId :
    (begin host s ref origin pendingQuestion input
      messageId).1.agent.sessionId = s.agent.sessionId := by
  rcases begin_cases s ref origin pendingQuestion input messageId with
    ⟨error, hbegin⟩ | ⟨previous, hbegin, -, -⟩ |
    ⟨request, stage, hbegin, -⟩
  · rw [hbegin]
  · rw [hbegin]
  · rw [hbegin]
    rfl

theorem Settled.sessionId {t : State} {delivery : Delivery}
    (h : Settled s ref delivery t) : t.agent.sessionId = s.agent.sessionId := by
  cases h <;> rfl

theorem step_sessionId (s : State) (action : Action) :
    (step host s action).1.agent.sessionId = s.agent.sessionId := by
  cases action with
  | steer ref params messageId accepts | answerWait ref wait params messageId =>
    simp only [step]
    split
    · rfl
    · split
      · rfl
      · exact begin_sessionId
  | flushed ref succeeded accepts =>
    simp only [step]
    split
    · exact flushed_settled.sessionId
    · rfl
  | event event | ask question programRunId | restart keep nextStep nextTurn =>
    simp only [step]
    split <;> rfl
  | _ => rfl

/-- Typed input is bound once, applied once and adopted for good. -/
theorem typed_input_delivered_once (sessionId : JsString) (admission : Bool)
    (hnative : NativeQuestions host) (actions : List Action)
    (hpromised : (inputs host).AllSteps (Promised host isMessageId)
      (State.initial sessionId admission) actions) :
    DeliversOnce host isMessageId
      ((inputs host).after (State.initial sessionId admission) actions) := by
  have hs : Delivers host isMessageId
      ((inputs host).after (State.initial sessionId admission) actions) :=
    hpromised.after_invariant
      (fun s action hs hp => hs.step hnative action hp)
      (initial_delivers sessionId admission)
  generalize (inputs host).after (State.initial sessionId admission) actions =
    s at hs
  constructor
  · exact hs.orderly.requests
  · exact hs.once
  · exact hs.cards
  · intro action input hoffered hwaiting
    exact step_binds hoffered hwaiting
  · intro action earlier input hearlier hoffered hsame hfields hcollision
    exact hs.conflicts hearlier hoffered hsame
      (fun hdigest => hfields (hcollision hdigest))
  · intro input viewed adoption hadopted
    exact (hs.orderly.evidence hadopted).2
  · intro input viewed adoption hadopted later hlater hinitial
    have ht : Delivers host isMessageId ((inputs host).after s later) :=
      hlater.after_invariant
        (fun s action hs hp => hs.step hnative action hp) hs
    have hid : ((inputs host).after s later).agent.sessionId =
        s.agent.sessionId := by
      refine Machine.after_rel (fun _ => True)
        (fun s t : State => t.agent.sessionId = s.agent.sessionId)
        (fun _ => rfl) (fun hab hbc => hbc.trans hab) (fun _ _ _ => trivial)
        (fun s action _ => step_sessionId s action) trivial later
    obtain ⟨more, hmore⟩ := hinitial
    have horderly := ht.orderly
    rw [hid, ← hmore] at horderly
    exact horderly.inspect_append hnative hid hmore.symm hadopted

namespace DshSteerWitness

/-- A Host in the legacy mode; its digests are the joined fields. -/
def legacy : InputHost where
  digest := List.flatten
  parse := fun _ => .invalidJson
  timed := false
  questions := fun _ => ⟨[], []⟩

def correction : TypedInput where
  inputId := JsString.ofString "00000000-0000-4000-8000-000000000001"
  turnId := JsString.ofString "s:turn:1"
  kind := steerCurrent
  text := [0x78]
  runId := none

def message : JsString := [0x6D]

/-- A correction is flushed, steered and read, and the Host restarts. -/
def actions : List Action :=
  [.event (.turnStart 1), .status .running, .steer 0 correction message true,
    .flushed 0 true true, .flushed 0 true true,
    .event (.userMessage message .other), .restart 3 [] []]

/-- An action that neither tells of an event nor asks or answers. -/
def isQuiet : Action → Bool
  | .event _ => false
  | .ask _ _ => false
  | .answerWait _ _ _ _ => false
  | _ => true

theorem promised_quiet (s : State) {action : Action}
    (h : isQuiet action = true) :
    Promised legacy (fun id => id = message) s action := by
  refine ⟨?_, ?_, ?_, ?_, ?_⟩
  · rintro _ _ rfl
    cases h
  · rintro _ _ rfl
    cases h
  · rintro _ _ rfl
    cases h
  · rintro _ _ rfl
    cases h
  · rintro _ _ _ _ rfl
    cases h

theorem typed_input_delivered_once_correction :
    let s := (inputs legacy).after (State.initial [0x73] false) actions
    s.applied = [⟨.steer correction.inputId message, none⟩] ∧
      DeliversOnce legacy (fun id => id = message) s := by
  refine ⟨by decide, ?_⟩
  refine typed_input_delivered_once [0x73] false ⟨?_, ?_⟩ actions ?_
  · intro events callId hlisted
    cases hlisted
  · intro events more callId hsettled
    cases hsettled
  · refine ⟨?_, promised_quiet _ rfl, promised_quiet _ rfl,
      promised_quiet _ rfl, promised_quiet _ rfl, ?_, promised_quiet _ rfl,
      trivial⟩
    · refine ⟨fun _ _ h => (by cases h), ?_, ?_, fun _ _ h => (by cases h),
        fun _ _ _ _ h => (by cases h)⟩
      · rintro event callId ⟨⟩ hasks
        simp [asksQuestion] at hasks
      · rintro event callId ⟨⟩ hsettles
        exact absurd rfl hsettles
    · refine ⟨?_, ?_, ?_, fun _ _ h => (by cases h),
        fun _ _ _ _ h => (by cases h)⟩
      · rintro id source ⟨⟩
        exact ⟨rfl, by decide⟩
      · rintro event callId ⟨⟩ hasks
        simp [asksQuestion] at hasks
      · rintro event callId ⟨⟩ hsettles
        exact absurd rfl hsettles

end DshSteerWitness

end Allrice.DshInputs
