/-
Typed inputs on a live root: `steer`, the answers to a parked question, and what
happens around them between two awaits.  A restart keeps what was flushed of
the journal and perhaps more.
-/
import Allrice.DshInputs
import Allrice.Runs

namespace Allrice.DshInputs

/-- A question that the root asks; `card` tells one entry of
`pendingUserQuestions` from another. -/
structure LiveQuestion extends PendingQuestion where
  card : Nat
  programRunId : Option JsString

/-- Who delivers: `steer`, with the question that it has seen, or the answer to
a parked question. -/
inductive Origin where
  | steer (card : Option Nat) (runQuestion : Bool)
  | wait
deriving DecidableEq

/-- A delivery that waits for its flush, and how much of the journal that flush
covers. -/
structure Delivery where
  input : TypedInput
  origin : Origin
  stage : Stage
  written : Nat

/-- What was done to the agent, and to which question. -/
structure Applied where
  effect : Effect
  card : Option Nat
deriving DecidableEq

/-- A root.  `durable` counts the events that are on disk, `admission` tells
whether Runs are admitted at all, and `applied` is the history of effects, which
no restart takes back. -/
structure State where
  agent : Agent
  durable : Nat
  rootCurrent : Bool
  detaching : Bool
  admission : Bool
  question : Option LiveQuestion
  nextCard : Nat
  deliveries : Nat → Option Delivery
  applied : List Applied

def State.initial (sessionId : JsString) (admission : Bool) : State :=
  { agent :=
      { sessionId, status := .idle, events := [], nextStep := []
        nextTurn := [] }
    durable := 0
    rootCurrent := true
    detaching := false
    admission
    question := none
    nextCard := 0
    deliveries := fun _ => none
    applied := [] }

/-- `accepts` is what `runAdmission.accepting` says, or for a parked question
its `isCurrent()`; `succeeded` is the flush with the authorization after it. -/
inductive Action where
  | steer (ref : Nat) (params : TypedInput) (messageId : JsString)
      (accepts : Bool)
  | answerWait (ref : Nat) (wait : PendingQuestion) (params : TypedInput)
      (messageId : JsString)
  | flushed (ref : Nat) (succeeded accepts : Bool)
  | event (event : Event)
  | inbox (nextStep nextTurn : List JsString)
  | discard
  | ask (question : PendingQuestion) (programRunId : Option JsString)
  | expire
  | status (status : AgentStatus)
  | detach (detaching : Bool)
  | root (current : Bool)
  | persist (durable : Nat)
  | restart (keep : Nat) (nextStep nextTurn : List JsString)

inductive Answer where
  | none
  | rejected (error : InputError)
  | waiting
  | returned (inspection : Inspection)
deriving DecidableEq

def Answer.ofInspection : Except InputError Inspection → Answer
  | .ok inspection => .returned inspection
  | .error error => .rejected error

/-- Only `steer` has a `questionView`. -/
def viewOf (host : InputHost) (origin : Origin) (events : List Event) :
    Option QuestionView :=
  host.view (origin ≠ .wait) events

/-- Whether an input answers a question of the Run's own program. -/
def isRunQuestion (host : InputHost) (s : State) (params : TypedInput) :
    Bool :=
  params.kind = askUser &&
    match s.question with
    | some question => question.programRunId.any (· ≠ [])
    | none =>
      params.run?.isSome &&
        match inspectDshInput host s.agent params none with
        | .ok .notFound => false
        | .ok _ => true
        | .error _ => false

/-- The Run goes into the input only where it counts. -/
def typedInput (s : State) (params : TypedInput) (runQuestion : Bool) :
    TypedInput :=
  { params with
    runId :=
      if (params.kind = steerCurrent ∨ runQuestion) ∧ s.admission then
        params.runId
      else none }

/-- What `steer` checks before it delivers. -/
def steerError (host : InputHost) (s : State) (params : TypedInput)
    (runQuestion accepts : Bool) : Option InputError :=
  if s.detaching ∨ s.rootCurrent = false then some .rootNotCurrent
  else if JsString.trim params.text = [] then some .invalidTypedInput
  else if params.kind ≠ askUser then
    match inspectDshInput host s.agent params none with
    | .error error => some error
    | .ok _ =>
      if s.admission ∧ accepts = false then some .runNotActive else none
  else if runQuestion then
    match s.question with
    | some question =>
      if params.runId ≠ question.programRunId then some .runNotActive
      else if params.turnId ≠ s.agent.turnId then some .inputTurnChanged
      else if accepts then none
      else some .runNotActive
    | none => if accepts then none else some .runNotActive
  else none

/-- A delivery starts, and runs up to its first flush. -/
def begin (host : InputHost) (s : State) (ref : Nat) (origin : Origin)
    (pendingQuestion : Option PendingQuestion) (input : TypedInput)
    (messageId : JsString) : State × Answer :=
  match deliverDshInput host s.agent pendingQuestion (origin = .wait)
      (viewOf host origin s.agent.events) input messageId with
  | .error error => (s, .rejected error)
  | .ok (agent, stage) =>
    ({ s with
      agent
      deliveries := Function.update s.deliveries ref
        (some { input, origin, stage, written := agent.events.length }) },
      .waiting)

/-- `isCurrent()`. -/
def isCurrent (s : State) (delivery : Delivery) (accepts : Bool) : Bool :=
  match delivery.origin with
  | .wait => !s.detaching && s.rootCurrent && accepts
  | .steer card runQuestion =>
    (delivery.input.kind = askUser || !s.detaching) && s.rootCurrent &&
      s.question.map LiveQuestion.card = card &&
      (!runQuestion || delivery.input.turnId = s.agent.turnId) &&
      (if (delivery.input.kind = steerCurrent ∨ runQuestion) ∧ s.admission
        then accepts
        else delivery.input.turnId = s.agent.turnId)

/-- A delivery ends with the status of its input. -/
def finish (host : InputHost) (s : State) (ref : Nat) (delivery : Delivery) :
    State × Answer :=
  ({ s with deliveries := Function.update s.deliveries ref none },
    .ofInspection (inspectDshInput host s.agent delivery.input
      (viewOf host delivery.origin s.agent.events)))

/-- The card that an effect takes off the root. -/
def cardOf : Origin → Effect → Option Nat
  | .steer card _, .resolve _ _ _ => card
  | _, _ => none

/-- What comes after the flush of a request. -/
def afterRequest (host : InputHost) (s : State) (ref : Nat)
    (delivery : Delivery) (accepts : Bool) : State × Answer :=
  if isCurrent s delivery accepts = false then finish host s ref delivery
  else
    match applyDelivery s.agent delivery.input delivery.stage with
    | (_, none) => finish host s ref delivery
    | (agent, some effect) =>
      ({ s with
        agent
        question :=
          if (cardOf delivery.origin effect).isSome then none else s.question
        deliveries := Function.update s.deliveries ref
          (some { delivery with
            stage := .applied
            written := agent.events.length })
        applied := s.applied ++
          [{ effect, card := cardOf delivery.origin effect }] },
        .waiting)

/-- What comes after a flush. -/
def flushed (host : InputHost) (s : State) (ref : Nat) (delivery : Delivery)
    (succeeded accepts : Bool) : State × Answer :=
  if succeeded = false then
    ({ s with deliveries := Function.update s.deliveries ref none },
      .rejected .flushFailed)
  else
    let s := { s with durable := max s.durable delivery.written }
    match delivery.stage with
    | .known previous =>
      ({ s with deliveries := Function.update s.deliveries ref none },
        .returned previous)
    | .applied => finish host s ref delivery
    | .asked _ _ => afterRequest host s ref delivery accepts
    | .steering _ => afterRequest host s ref delivery accepts

/-- The events that this code writes itself. -/
def isInputEvent : Event → Bool
  | .inputRequest _ => true
  | .inputAnswered _ => true
  | _ => false

def step (host : InputHost) (s : State) : Action → State × Answer
  | .steer ref params messageId accepts =>
    if (s.deliveries ref).isSome then (s, .none)
    else
      let runQuestion := isRunQuestion host s params
      match steerError host s params runQuestion accepts with
      | some error => (s, .rejected error)
      | none =>
        begin host s ref
          (.steer (s.question.map LiveQuestion.card) runQuestion)
          (s.question.map LiveQuestion.toPendingQuestion)
          (typedInput s params runQuestion) messageId
  | .answerWait ref wait params messageId =>
    if (s.deliveries ref).isSome then (s, .none)
    else if s.detaching ∨ s.rootCurrent = false then
      (s, .rejected .rootNotCurrent)
    else
      begin host s ref .wait (some wait) { params with kind := askUser }
        messageId
  | .flushed ref succeeded accepts =>
    match s.deliveries ref with
    | some delivery => flushed host s ref delivery succeeded accepts
    | none => (s, .none)
  | .event event =>
    if isInputEvent event then (s, .none)
    else ({ s with agent := s.agent.append event }, .none)
  | .inbox nextStep nextTurn =>
    ({ s with agent := { s.agent with nextStep, nextTurn } }, .none)
  | .discard =>
    ({ s with agent := discardPendingDshInputs s.agent }, .none)
  | .ask question programRunId =>
    if s.question.isSome then (s, .none)
    else
      ({ s with
        question := some { question with card := s.nextCard, programRunId }
        nextCard := s.nextCard + 1 }, .none)
  | .expire => ({ s with question := none }, .none)
  | .status status =>
    ({ s with agent := { s.agent with status } }, .none)
  | .detach detaching => ({ s with detaching }, .none)
  | .root rootCurrent => ({ s with rootCurrent }, .none)
  | .persist durable =>
    ({ s with
      durable := max s.durable (min durable s.agent.events.length) }, .none)
  | .restart keep nextStep nextTurn =>
    if s.durable ≤ keep then
      ({ s with
        agent :=
          { s.agent with
            status := .idle
            events := s.agent.events.take keep
            nextStep
            nextTurn }
        durable := (s.agent.events.take keep).length
        rootCurrent := true
        detaching := false
        question := none
        deliveries := fun _ => none }, .none)
    else (s, .none)

/-- Everything that can happen on the root. -/
def inputs (host : InputHost) : Machine State Action Answer := ⟨step host⟩

end Allrice.DshInputs
