/-
The card of a question that a root asks.  Typed answers, the wait's timer, an
abort, parking and the release of the Host all race for it; a step here is what
happens between two awaits.
-/
import Allrice.DshSteer

namespace Allrice.QuestionCard

open DshInputs

/-- A tool call that DSH's recovery would close, with the error it records. -/
structure Closer where
  callId : JsString
  code : JsString

/-- The Host's parameters, with `interruptedTurnClosers` over a journal. -/
structure CardHost extends InputHost where
  closers : List Event → List Closer

/-- What is read of the registries: other agents, other running agents, a child
that the Run has admitted, child input in the inbox, whether the root waits for
an application connection, and whether the Run still accepts. -/
structure Surroundings where
  otherAgents : Bool
  otherRunning : Bool
  admittedChild : Bool
  childInput : Bool
  managed : Bool
  accepts : Bool

inductive Ending where
  | timedOut
  | aborted
  | canceled
deriving DecidableEq

/-- What a call of `checkpointNativeQuestion` waits for: the children, the
deliveries and the progress, the flush of its checkpoint, or the agent that it
has canceled. -/
inductive ParkPhase where
  | children
  | settling
  | writing
  | canceled

structure Park where
  card : Nat
  phase : ParkPhase

/-- What `detachNativeQuestion` waits for: the progress, the deliveries, or the
flush of all sessions. -/
inductive DetachPhase where
  | progress
  | deliveries
  | sessions

structure Detach where
  card : Nat
  phase : DetachPhase

/-- A Host with its root.  `admitted` are the deliveries that the cards know
as `inputDeliveries`, `elapsed` the cards whose timer has fired, and `ended` the
history of cards that ended without an answer.  The process of a Host that has
released its root exits a little later. -/
structure State where
  inputs : DshInputs.State
  admitted : List (Nat × Nat)
  around : Surroundings
  parks : Nat → Option Park
  detach : Option Detach
  elapsed : List Nat
  ended : List (Nat × Ending)
  released : Option Nat
  exited : Bool

def State.initial (sessionId : JsString) (admission : Bool) : State :=
  { inputs := DshInputs.State.initial sessionId admission
    admitted := []
    around := ⟨false, false, false, false, false, true⟩
    parks := fun _ => none
    detach := none
    elapsed := []
    ended := []
    released := none
    exited := false }

namespace State

/-- The card on show. -/
def card (s : State) : Option Nat := s.inputs.question.map LiveQuestion.card

/-- The cards that were resolved with an answer. -/
def resolved (s : State) : List Nat := s.inputs.applied.filterMap Applied.card

def setDetaching (s : State) (detaching : Bool) : State :=
  { s with inputs := { s.inputs with detaching } }

/-- A card leaves `pendingUserQuestions` without an answer. -/
def endCard (s : State) (card : Nat) (ending : Ending) : State :=
  { s with
    inputs := { s.inputs with question := none }
    ended := s.ended ++ [(card, ending)] }

def setPark (s : State) (ref : Nat) (park : Option Park) : State :=
  { s with parks := Function.update s.parks ref park }

end State

inductive Reason where
  | noQuestion
  | agentsRunning
  | toolCallsOpen
  | answered
  | sessionClosing

inductive Answer where
  | none
  | input (answer : DshInputs.Answer)
  | waiting
  | rejected
  | notParked (card : Option Nat)
  | parked (card : Nat)
  | notReleased (card : Option Nat) (reason : Reason)
  | released (card : Nat)

/-- The calls that are open, by call id, with the tools' names. -/
def openCalls : List Event → List (JsString × JsString) :=
  List.foldl (fun calls event =>
    match event with
    | .toolCall callId name =>
      if calls.any fun call => call.1 = callId then
        calls.map fun call => if call.1 = callId then (callId, name) else call
      else calls ++ [(callId, name)]
    | .toolResult callId => calls.filter fun call => call.1 ≠ callId
    | _ => calls) []

def isHexOrDash (unit : UInt16) : Bool := isHex unit || unit = 0x2D

/-- `/^app-connect:[a-f0-9-]{36}$/`. -/
def isAppConnect (id : JsString) : Bool :=
  let literal := JsString.ofString "app-connect:"
  literal.isPrefixOf id && (id.drop literal.length).length = 36 &&
    (id.drop literal.length).all isHexOrDash

/-- Whether an open call is only the question itself. -/
def isQuestionCall (s : State) (question : LiveQuestion) (name : JsString) :
    Bool :=
  name = JsString.ofString "ask_user_question" ||
    (name = JsString.ofString "cloud_mcp_call" && s.around.managed &&
      question.questions.length = 1 &&
      question.questions.all fun item => isAppConnect item.id)

/-- `current()` before it asks the Run. -/
def isLive (s : State) (card : Nat) : Bool :=
  !s.inputs.detaching && s.inputs.rootCurrent && s.card = some card &&
    !(s.admitted.any fun delivery => delivery.2 = card)

/-- `canPark()`; `none` where the Run throws. -/
def canPark (s : State) (card : Nat) : Option Bool :=
  if isLive s card = false then some false
  else if s.around.accepts = false then none
  else
    let calls := openCalls s.inputs.agent.events
    some (!s.around.admittedChild && !s.around.childInput &&
      !s.around.otherAgents && calls.length ≤ 1 &&
      match s.inputs.question with
      | some question => calls.all fun call => isQuestionCall s question call.2
      | none => false)

/-- A call of `checkpointNativeQuestion` goes on where it can park. -/
def ifParkable (s : State) (ref card : Nat) (next : State × Answer) :
    State × Answer :=
  match canPark s card with
  | none => (s.setPark ref none, .rejected)
  | some false => (s.setPark ref none, .notParked (some card))
  | some true => next

/-- The checkpoint is appended. -/
def writeCheckpoint (s : State) (ref card : Nat) : State × Answer :=
  match s.inputs.question, currentTurn s.inputs.agent.events with
  | some question, some turn =>
    let inputs := s.inputs
    ({ s with
      inputs :=
        { inputs with
          agent := inputs.agent.append (.waitCheckpoint
            { question.toPendingQuestion with
              turnId := turnIdOf inputs.agent.sessionId (some turn) }) }
      parks := Function.update s.parks ref (some ⟨card, .writing⟩) },
      .waiting)
  | _, _ => (s.setPark ref none, .notParked (some card))

/-- `agent.cancel` aborts the question's request at once. -/
def cancel (s : State) (ref card : Nat) : State × Answer :=
  ((s.endCard card .canceled).setPark ref (some ⟨card, .canceled⟩), .waiting)

/-- A call of `checkpointNativeQuestion` after an await. -/
def parkStep (s : State) (ref : Nat) (park : Park) (succeeded : Bool) :
    State × Answer :=
  if succeeded = false then (s.setPark ref none, .rejected)
  else
    match park.phase with
    | .children =>
      ifParkable s ref park.card
        (s.setPark ref (some ⟨park.card, .settling⟩), .waiting)
    | .settling =>
      ifParkable s ref park.card (writeCheckpoint s ref park.card)
    | .writing => ifParkable s ref park.card (cancel s ref park.card)
    | .canceled =>
      (s.setPark ref none,
        if (pendingNativeWait s.inputs.agent.events).isSome then
          .parked park.card
        else .notParked (some park.card))

/-- `detachBoundary`; `none` where the Host may be released. -/
def detachBoundary (host : CardHost) (s : State) : Option Reason :=
  let events := s.inputs.agent.events
  if s.around.otherRunning then some .agentsRunning
  else
    match host.closers events with
    | [closer] =>
      if closer.code = JsString.ofString "TOOL_OUTCOME_UNKNOWN" ∧
          events.any (asksQuestion closer.callId) = true then none
      else some .toolCallsOpen
    | _ => some .toolCallsOpen

/-- `finally`, where the Host is not released. -/
def notReleased (s : State) (card : Nat) (reason : Reason) : State × Answer :=
  ({ s.setDetaching false with detach := none },
    .notReleased (some card) reason)

/-- `detachNativeQuestion` after an await.  Its deliveries are those that were
admitted before it began, as every later request is refused. -/
def detachStep (host : CardHost) (s : State) (detach : Detach)
    (succeeded : Bool) : State × Answer :=
  if succeeded = false then
    ({ s.setDetaching false with detach := none }, .rejected)
  else
    match detach.phase with
    | .progress =>
      ({ s with detach := some ⟨detach.card, .deliveries⟩ }, .waiting)
    | .deliveries =>
      if s.admitted.any fun delivery => delivery.2 = detach.card then
        (s, .none)
      else if s.inputs.rootCurrent ∧ s.card ≠ some detach.card then
        notReleased s detach.card .answered
      else ({ s with detach := some ⟨detach.card, .sessions⟩ }, .waiting)
    | .sessions =>
      if s.inputs.rootCurrent = false then
        notReleased s detach.card .sessionClosing
      else if s.card ≠ some detach.card then
        notReleased s detach.card .answered
      else
        match detachBoundary host s with
        | some reason => notReleased s detach.card reason
        | none =>
          ({ s with detach := none, released := some detach.card },
            .released detach.card)

/-- `succeeded` is the end of an await.  The timer ends a card some time after
it has elapsed, unless it is gone; `refused` is whether a program question's Run
has turned it away.  `close` clears the card of a root that closes. -/
inductive Action where
  | input (action : DshInputs.Action)
  | around (around : Surroundings)
  | park (ref : Nat) (questionId : JsString)
  | parkStep (ref : Nat) (succeeded : Bool)
  | detach
  | detachStep (succeeded : Bool)
  | elapse
  | expire (card : Nat) (refused : Bool)
  | abort
  | close
  | exit

/-- The steps of the inputs that leave cards to this machine. -/
def forwards : DshInputs.Action → Bool
  | .expire => false
  | .detach _ => false
  | .restart _ _ _ => false
  | _ => true

/-- `inputDeliveries` after a step of the inputs. -/
def inputDeliveries (s : State) (inputs : DshInputs.State) (answer : DshInputs.Answer) :
    DshInputs.Action → List (Nat × Nat)
  | .steer ref params _ _ =>
    match s.card with
    | some card =>
      if params.kind = askUser ∧ answer = .waiting then
        s.admitted ++ [(ref, card)]
      else s.admitted
    | none => s.admitted
  | .flushed ref _ _ =>
    if (inputs.deliveries ref).isSome then s.admitted
    else s.admitted.filter fun delivery => delivery.1 ≠ ref
  | _ => s.admitted

def inputStep (host : CardHost) (s : State) (action : DshInputs.Action) :
    State × Answer :=
  let next := DshInputs.step host.toInputHost s.inputs action
  ({ s with inputs := next.1, admitted := inputDeliveries s next.1 next.2 action },
    .input next.2)

/-- `checkpointNativeQuestion`, up to its first await. -/
def park (s : State) (ref : Nat) (questionId : JsString) : State × Answer :=
  if s.inputs.detaching ∨ s.inputs.rootCurrent = false then (s, .rejected)
  else
    match s.inputs.question with
    | none => (s, .notParked none)
    | some question =>
      if question.questionId ≠ questionId then (s, .notParked none)
      else
        ifParkable s ref question.card
          (s.setPark ref (some ⟨question.card, .children⟩), .waiting)

/-- `detachNativeQuestion`, up to its first await; `handleRequest` refuses one
that comes while another is under way. -/
def detach (host : CardHost) (s : State) : State × Answer :=
  if s.inputs.detaching then (s, .rejected)
  else
    match s.card with
    | none => (s, .notReleased none .noQuestion)
    | some card =>
      match detachBoundary host s with
      | some reason => (s, .notReleased (some card) reason)
      | none =>
        ({ s.setDetaching true with detach := some ⟨card, .progress⟩ },
          .waiting)

/-- The card on show ends. -/
def endLive (s : State) (ending : Ending) : State × Answer :=
  match s.card with
  | some card => (s.endCard card ending, .none)
  | none => (s, .none)

def step (host : CardHost) (s : State) (action : Action) : State × Answer :=
  if s.exited then (s, .none)
  else
    match action with
    | .input action =>
      if forwards action then inputStep host s action else (s, .none)
    | .around around => ({ s with around }, .none)
    | .park ref questionId =>
      if (s.parks ref).isSome then (s, .none) else park s ref questionId
    | .parkStep ref succeeded =>
      match s.parks ref with
      | some park => parkStep s ref park succeeded
      | none => (s, .none)
    | .detach => detach host s
    | .detachStep succeeded =>
      match s.detach with
      | some detach => detachStep host s detach succeeded
      | none => (s, .none)
    | .elapse =>
      match s.card with
      | some card => ({ s with elapsed := s.elapsed ++ [card] }, .none)
      | none => (s, .none)
    | .expire card refused =>
      if card ∈ s.elapsed ∧ s.card = some card then
        endLive s (if refused then .aborted else .timedOut)
      else (s, .none)
    | .abort => endLive s .aborted
    | .close => endLive s .aborted
    | .exit =>
      if s.released.isSome then ({ s with exited := true }, .none)
      else (s, .none)

def cards (host : CardHost) : Machine State Action Answer := ⟨step host⟩

end Allrice.QuestionCard
