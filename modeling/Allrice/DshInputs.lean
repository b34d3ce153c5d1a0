/-
Typed user input on a native session.  The session's journal is the only record
of it: an input is bound to an id by a request in the journal, and its status is
read back from what the journal holds.
-/
import Allrice.DigitText
import Allrice.LastEntry

namespace Allrice.DshInputs

structure Question where
  id : JsString
  multiSelect : Bool
  options : List JsString
deriving DecidableEq

structure AnswerItem where
  id : JsString
  selected : List JsString
  custom : Option JsString
deriving DecidableEq

/-- What the submission schema lets through. -/
structure Submission where
  questionId : JsString
  answers : List AnswerItem

/-- The rest of a typed answer, after `JSON.parse` and the schema. -/
inductive Parsed where
  | invalidJson
  | mismatched
  | submission (value : Submission)

/-- A question that waits, live or parked. -/
structure PendingQuestion where
  questionId : JsString
  questions : List Question
deriving DecidableEq

/-- `byId.get(id)`, where ids are unique. -/
def answerFor (answers : List AnswerItem) (id : JsString) :
    Option AnswerItem :=
  answers.find? fun answer => answer.id = id

/-- One question's part of an answer, if it keeps to the options. -/
def matchAnswer (answers : List AnswerItem) (question : Question) :
    Option AnswerItem :=
  (answerFor answers question.id).bind fun answer =>
    if ¬answer.selected.Nodup ∨
        (∃ label ∈ answer.selected, label ∉ question.options) ∨
        (question.multiSelect = false ∧
          (1 < answer.selected.length ∨
            (0 < answer.selected.length ∧ answer.custom.any (· ≠ [])))) then
      none
    else
      some { answer with custom := answer.custom.filter (· ≠ []) }

def matchUserQuestionAnswer (request : PendingQuestion)
    (submission : Submission) : Option (List AnswerItem) :=
  if submission.questionId ≠ request.questionId ∨
      submission.answers.length ≠ request.questions.length ∨
      ¬(submission.answers.map AnswerItem.id).Nodup then none
  else request.questions.mapM (matchAnswer submission.answers)

inductive MessageSource where
  | userQuestionReply (callId : JsString)
  | other
deriving DecidableEq

structure InputRequest where
  inputId : JsString
  digest : JsString
  messageId : JsString
  turnId : JsString
deriving DecidableEq

structure InputAnswered where
  inputId : JsString
  questionId : JsString
  turnId : JsString
deriving DecidableEq

/-- A question that was parked. -/
structure Wait extends PendingQuestion where
  turnId : JsString
deriving DecidableEq

structure Continued where
  questionId : JsString
  inputId : JsString
deriving DecidableEq

/-- The events of a session that the code here reads; an event's number is its
position. -/
inductive Event where
  | turnStart (turn : Nat)
  | userMessage (id : JsString) (source : MessageSource)
  | toolCall (callId name : JsString)
  | toolResult (toolCallId : JsString)
  | inputRequest (request : InputRequest)
  | inputAnswered (answer : InputAnswered)
  | waitCheckpoint (wait : Wait)
  | waitContinued (continued : Continued)
  | other
deriving DecidableEq

def Event.turn? : Event → Option Nat
  | .turnStart turn => some turn
  | _ => none

def Event.request? : Event → Option InputRequest
  | .inputRequest request => some request
  | _ => none

def Event.answered? : Event → Option InputAnswered
  | .inputAnswered answer => some answer
  | _ => none

/-- The request that bound an input id. -/
def requestOf (inputId : JsString) (event : Event) : Option InputRequest :=
  event.request?.filter fun request => request.inputId = inputId

def answerOf (inputId : JsString) (event : Event) : Option InputAnswered :=
  event.answered?.filter fun answer => answer.inputId = inputId

/-- The user message of an id. -/
def messageOf (messageId : JsString) : Event → Option Unit
  | .userMessage id _ => if id = messageId then some () else none
  | _ => none

/-- What settles a native question; `true` for a reply that came as a user
message. -/
def settlementOf (callId : JsString) : Event → Option Bool
  | .toolResult toolCallId => if toolCallId = callId then some false else none
  | .userMessage _ (.userQuestionReply replied) =>
    if replied = callId then some true else none
  | _ => none

/-- Whether an event calls the tool that asks questions. -/
def asksQuestion (callId : JsString) (event : Event) : Bool :=
  event = .toolCall callId (JsString.ofString "ask_user_question")

structure TypedInput where
  inputId : JsString
  turnId : JsString
  kind : JsString
  text : JsString
  runId : Option JsString

def steerCurrent : JsString := JsString.ofString "steer_current"

def askUser : JsString := JsString.ofString "ask_user"

namespace TypedInput

/-- The Run of an input; an empty id is none. -/
def run? (input : TypedInput) : Option JsString :=
  input.runId.filter (· ≠ [])

/-- What the digest covers. -/
def fields (input : TypedInput) : List JsString :=
  [input.inputId, input.turnId, input.kind, input.text] ++ input.run?.toList

end TypedInput

/-- The native `userQuestions` projection, by call id. -/
structure QuestionView where
  active : List JsString
  settled : List JsString

/-- What the code uses without having it here: the hash of a JSON array, the
reading of a submission, and the projection of the native questions, which
exists in the timed mode. -/
structure InputHost where
  digest : List JsString → JsString
  parse : JsString → Parsed
  timed : Bool
  questions : List Event → QuestionView

/-- `questionView`, for a caller that has one. -/
def InputHost.view (host : InputHost) (viewed : Bool) (events : List Event) :
    Option QuestionView :=
  if viewed ∧ host.timed then some (host.questions events) else none

inductive AgentStatus where
  | idle
  | running
  | other
deriving DecidableEq

/-- An agent with its session's journal and its inbox of messages. -/
structure Agent where
  sessionId : JsString
  status : AgentStatus
  events : List Event
  nextStep : List JsString
  nextTurn : List JsString

/-- A number in a template; a missing one is `undefined`. -/
def turnText : Option Nat → JsString
  | some turn => DigitText.digitsOf 10 turn
  | none => JsString.ofString "undefined"

def turnMark (turn : Option Nat) : JsString :=
  JsString.ofString ":turn:" ++ turnText turn

def turnIdOf (sessionId : JsString) (turn : Option Nat) : JsString :=
  sessionId ++ turnMark turn

/-- The turn that a journal is in. -/
def currentTurn (events : List Event) : Option Nat :=
  (lastEntry Event.turn? events).map Prod.fst

def checkpoint? : Event → Option Wait
  | .waitCheckpoint wait => some wait
  | _ => none

def isContinued : Event → Bool
  | .waitContinued _ => true
  | _ => false

/-- The question that is parked, with the number of its checkpoint. -/
def pendingNativeWait (events : List Event) : Option (Wait × Nat) :=
  (lastEntry checkpoint? events).filter fun found =>
    !(events.drop (found.2 + 1)).any isContinued

inductive Checkpoint where
  | questionResolved
  | questionReplied
  | stepUserMessage
deriving DecidableEq

structure Adoption where
  inputId : JsString
  messageId : JsString
  sequence : Nat
  turnId : JsString
  runId : Option JsString
  checkpoint : Checkpoint
  callId : Option JsString
deriving DecidableEq

inductive Inspection where
  | notFound
  | pending (inputId messageId : JsString)
  | unknown (inputId messageId : JsString)
  | adopted (adoption : Adoption)
deriving DecidableEq

inductive InputError where
  | invalidTypedInput
  | inputIdConflict
  | inputTurnChanged
  | questionExpired
  | questionAnswerInvalid
  | questionAnswerRequired
  | questionPendingUseAnswer
  | runNotActive
  | rootNotCurrent
  | flushFailed
deriving DecidableEq

/-- The id of a native question's card. -/
def questionCall (sessionId callId : JsString) : JsString :=
  sessionId ++ JsString.ofString ":" ++ callId

/-- The native call that a question's id names. -/
def callIdOf (sessionId : JsString) (input : TypedInput)
    (messageId : JsString) : Option JsString :=
  let mark := sessionId ++ JsString.ofString ":"
  if input.kind = askUser ∧ mark.isPrefixOf messageId = true ∧
      messageId.drop mark.length ≠ [] then
    some (messageId.drop mark.length)
  else none

/-- Whether a call is one of the native questions. -/
def isNativeQuestion (view : QuestionView) (events : List Event)
    (callId : JsString) : Bool :=
  (view.active ++ view.settled).contains callId ||
    events.any (asksQuestion callId)

/-- The status that a proof gives, once its turn is the one that was asked
for. -/
def adoptBy (agent : Agent) (input : TypedInput) (bound : InputRequest)
    (sequence : Nat) (checkpoint : Checkpoint) (callId : Option JsString) :
    Inspection :=
  let turn := currentTurn (agent.events.take sequence)
  if input.run? = none ∧
      (bound.turnId ≠ input.turnId ∨
        (turnMark turn).isSuffixOf input.turnId = false) then
    .unknown input.inputId bound.messageId
  else
    .adopted
      { inputId := input.inputId
        messageId := bound.messageId
        sequence
        turnId :=
          if input.run? = none then input.turnId
          else turnIdOf agent.sessionId turn
        runId := input.run?
        checkpoint
        callId }

/-- Without a proof an input waits in the inbox, or nobody knows. -/
def withoutProof (agent : Agent) (input : TypedInput) (bound : InputRequest) :
    Inspection :=
  if (agent.nextStep ++ agent.nextTurn).contains bound.messageId then
    .pending input.inputId bound.messageId
  else .unknown input.inputId bound.messageId

/-- The native question that an input answers, where the projection is at
hand. -/
def nativeCall (agent : Agent) (input : TypedInput)
    (view : Option QuestionView) (bound : InputRequest) :
    Option (JsString × QuestionView) :=
  match callIdOf agent.sessionId input bound.messageId, view with
  | some callId, some view =>
    if isNativeQuestion view agent.events callId then some (callId, view)
    else none
  | _, _ => none

/-- The status of an input that is bound. -/
def inspectBound (agent : Agent) (input : TypedInput)
    (view : Option QuestionView) (bound : InputRequest) : Inspection :=
  match nativeCall agent input view bound with
  | some (callId, view) =>
    match lastEntry (settlementOf callId) agent.events with
    | none => .pending input.inputId bound.messageId
    | some (reply, sequence) =>
      if view.settled.contains callId then
        adoptBy agent input bound sequence
          (if reply then .questionReplied else .questionResolved)
          (some callId)
      else .unknown input.inputId bound.messageId
  | none =>
    match lastEntry (answerOf input.inputId) agent.events with
    | some (_, sequence) =>
      adoptBy agent input bound sequence .questionResolved none
    | none =>
      match lastEntry (messageOf bound.messageId) agent.events with
      | some (_, sequence) =>
        adoptBy agent input bound sequence .stepUserMessage none
      | none => withoutProof agent input bound

def inspectDshInput (host : InputHost) (agent : Agent) (input : TypedInput)
    (view : Option QuestionView) : Except InputError Inspection :=
  match lastEntry (requestOf input.inputId) agent.events with
  | none => .ok .notFound
  | some (bound, _) =>
    if bound.digest ≠ host.digest input.fields then .error .inputIdConflict
    else .ok (inspectBound agent input view bound)

def answerPrefix : JsString := JsString.ofString "allrice:user-question:v1:"

/-- `structuredUserQuestionAnswer`; `none` where it throws. -/
def structuredUserQuestionAnswer (host : InputHost) (pending : PendingQuestion)
    (text : JsString) : Option (Option (List AnswerItem)) :=
  if answerPrefix.isPrefixOf text = false then some none
  else
    match host.parse (text.drop answerPrefix.length) with
    | .submission submission =>
      (matchUserQuestionAnswer pending submission).map some
    | _ => none

def isHex (unit : UInt16) : Bool :=
  DigitText.isDigit unit || (0x61 ≤ unit.toNat && unit.toNat ≤ 0x66)

/-- Whether a text has the form of a UUID in lower case. -/
def isUuid (text : JsString) : Bool :=
  text.length = 36 &&
    text.zipIdx.all fun (unit, i) =>
      if i = 8 ∨ i = 13 ∨ i = 18 ∨ i = 23 then unit = 0x2D
      else if i = 14 then 0x31 ≤ unit.toNat && unit.toNat ≤ 0x38
      else if i = 19 then
        unit = 0x38 || unit = 0x39 || unit = 0x61 || unit = 0x62
      else isHex unit

def isTypedInput (input : TypedInput) : Bool :=
  isUuid input.inputId &&
    (input.kind = steerCurrent || input.kind = askUser) &&
    JsString.trim input.text ≠ [] && input.text.length ≤ 80000

/-- What a delivery waits with for its flush: a status that was there before,
the request of an answer or of a correction, or what it has applied. -/
inductive Stage where
  | known (previous : Inspection)
  | asked (question : PendingQuestion) (answer : List AnswerItem)
  | steering (messageId : JsString)
  | applied

namespace Agent

def append (agent : Agent) (event : Event) : Agent :=
  { agent with events := agent.events ++ [event] }

/-- `agent.steer(message)`. -/
def steer (agent : Agent) (messageId : JsString) : Agent :=
  { agent with nextStep := agent.nextStep ++ [messageId] }

/-- The turn that the agent is in, by its id. -/
def turnId (agent : Agent) : JsString :=
  turnIdOf agent.sessionId (currentTurn agent.events)

end Agent

/-- What a request of `input` is bound with. -/
def requestFor (host : InputHost) (input : TypedInput)
    (messageId turnId : JsString) : InputRequest :=
  { inputId := input.inputId
    digest := host.digest input.fields
    messageId
    turnId }

/-- `deliverDshInput`, up to its first flush.  `messageId` is the id of the
message that it may create. -/
def deliverDshInput (host : InputHost) (agent : Agent)
    (pendingQuestion : Option PendingQuestion) (suspended : Bool)
    (view : Option QuestionView) (input : TypedInput)
    (messageId : JsString) : Except InputError (Agent × Stage) :=
  if isTypedInput input = false then .error .invalidTypedInput
  else
    match inspectDshInput host agent input view with
    | .error error => .error error
    | .ok .notFound =>
      if input.run? = none ∧
          (agent.status ≠ (if suspended then .idle else .running) ∨
            input.turnId ≠ agent.turnId) then .error .inputTurnChanged
      else if input.kind = askUser then
        match pendingQuestion with
        | none => .error .questionExpired
        | some question =>
          match structuredUserQuestionAnswer host question input.text with
          | none => .error .questionAnswerInvalid
          | some none => .error .questionAnswerRequired
          | some (some answer) =>
            .ok (agent.append (.inputRequest
              (requestFor host input question.questionId input.turnId)),
              .asked question answer)
      else if pendingQuestion.isSome then .error .questionPendingUseAnswer
      else
        .ok (agent.append (.inputRequest
          (requestFor host input messageId
            (if input.run? = none then input.turnId else agent.turnId))),
          .steering messageId)
    | .ok previous => .ok (agent, .known previous)

/-- What a delivery does to the native agent. -/
inductive Effect where
  | resolve (inputId : JsString) (question : PendingQuestion)
      (answer : List AnswerItem)
  | steer (inputId messageId : JsString)
deriving DecidableEq

def Effect.inputId : Effect → JsString
  | .resolve inputId _ _ => inputId
  | .steer inputId _ => inputId

/-- The delivery after the flush of its request, where `isCurrent()` held. -/
def applyDelivery (agent : Agent) (input : TypedInput) :
    Stage → Agent × Option Effect
  | .asked question answer =>
    (agent.append (.inputAnswered
      { inputId := input.inputId
        questionId := question.questionId
        turnId := input.turnId }),
      some (.resolve input.inputId question answer))
  | .steering messageId =>
    if input.run? = none ∧ agent.status ≠ .running then (agent, none)
    else (agent.steer messageId, some (.steer input.inputId messageId))
  | _ => (agent, none)

/-- `discardPendingDshInputs`. -/
def discardPendingDshInputs (agent : Agent) : Agent :=
  let ownIds := (agent.events.filterMap Event.request?).map
    InputRequest.messageId
  { agent with
    nextStep := agent.nextStep.filter fun id => !ownIds.contains id
    nextTurn := agent.nextTurn.filter fun id => !ownIds.contains id }

end Allrice.DshInputs
