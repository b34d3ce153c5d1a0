/-
Parked questions.  `session/answer-wait` answers one, and
`session/continue-wait` answers it and submits the prompt that continues the
task; between two awaits of such a request anything else may happen.
-/
import Allrice.DshInputs
import Allrice.Runs

namespace Allrice.DshWaits

open DshInputs

inductive Decision where
  | continue
  | cancel
deriving DecidableEq

/-- `allrice_task_progress` and its decisions, of one Run. -/
structure PauseRow where
  pauseId : Option JsString
  canceled : Bool
  decisions : List (JsString × Decision)

namespace PauseRow

/-- `action: 'check'`; `leased` is whether the job's lease still holds. -/
def check (row : PauseRow) (leased : Bool) : Option (Option JsString) :=
  if leased = false ∨ row.canceled then none else some row.pauseId

/-- `action: 'decide'`; `none` where it throws and rolls back. -/
def decide (row : PauseRow) (leased : Bool) (pauseId : JsString)
    (decision : Decision) : Option PauseRow :=
  if leased = false ∨ row.canceled then none
  else
    match row.decisions.find? fun prior => prior.1 = pauseId with
    | some prior => if prior.2 = decision then some row else none
    | none =>
      if row.pauseId ≠ some pauseId then none
      else
        let decisions := row.decisions ++ [(pauseId, decision)]
        match decision with
        | .cancel => some { row with canceled := true, decisions }
        | .continue => some { row with pauseId := none, decisions }

end PauseRow

structure Progress where
  runId : Option JsString
  pauseId : JsString

/-- `[a-f0-9-]`. -/
def isIdUnit (unit : UInt16) : Bool := isHex unit || unit = 0x2D

/-- The rest of a text behind a literal. -/
def after? (literal text : JsString) : Option JsString :=
  if literal.isPrefixOf text then some (text.drop literal.length) else none

/-- `[a-f0-9-]{36}` at the start of a text, and the rest. -/
def idAndRest (text : JsString) : Option (JsString × JsString) :=
  if 36 ≤ text.length ∧ (text.take 36).all isIdUnit then
    some (text.take 36, text.drop 36)
  else none

/-- `(.+)` up to the end. -/
def isLine (text : JsString) : Bool :=
  text ≠ [] && text.all fun unit =>
    unit ≠ 0x0A && unit ≠ 0x0D && unit ≠ 0x2028 && unit ≠ 0x2029

/-- The Run's part of a pause question's id, and the rest. -/
def runAndRest (text : JsString) : Option (Option JsString × JsString) :=
  match idAndRest text with
  | some (runId, rest) =>
    (after? (JsString.ofString ":") rest).map fun rest => (some runId, rest)
  | none =>
    (after? (JsString.ofString "-:") text).map fun rest => (none, rest)

def programQuestionProgress (questionId : JsString) : Option Progress := do
  let text ← after? (JsString.ofString "question-") questionId
  let (_, rest) ← idAndRest text
  let rest ← after? (JsString.ofString ":runtime-progress:") rest
  let (runId, pauseId) ← runAndRest rest
  if isLine pauseId then some { runId, pauseId } else none

def continueLabel : JsString := JsString.ofString "重新检查后继续"

def cancelLabel : JsString := JsString.ofString "取消任务"

/-- `chosen?.custom?.trim()` is not empty. -/
def hasCustom (chosen : Option AnswerItem) : Bool :=
  (chosen.bind AnswerItem.custom).any fun custom => JsString.trim custom ≠ []

def selects (chosen : Option AnswerItem) (label : JsString) : Bool :=
  chosen.any fun answer => answer.selected.contains label

/-- What an answer decides about a pause; `none` where one is required. -/
def decisionOf (answers : List AnswerItem) : Option Decision :=
  let chosen := answerFor answers (JsString.ofString "runtime-progress")
  if (chosen.all fun answer => answer.selected = []) && !hasCustom chosen ||
      selects chosen cancelLabel then some .cancel
  else if selects chosen continueLabel || hasCustom chosen then some .continue
  else none

def applicationConnectedLabel : JsString := JsString.ofString "已连接，继续任务"

def applicationCancelLabel : JsString := JsString.ofString "取消连接"

/-- `applicationConnectionInstruction`. -/
def applicationConnectionInstruction (answers : List AnswerItem) : JsString :=
  let selected := answers.flatMap AnswerItem.selected
  if selected.contains applicationCancelLabel then
    JsString.ofString
      "用户取消本次连接。停止等待和重试此连接，继续处理不依赖它的工作。"
  else if selected.contains applicationConnectedLabel then
    JsString.ofString ("先使用 action=status 检查连接状态；" ++
      "只有发现完成后才能调用工具。这不是远程操作批准。")
  else
    JsString.ofString ("用户没有确认已完成连接（跳过或另有说明，见 answer）。" ++
      "不要假定连接可用，停止等待此连接，继续处理不依赖它的工作；" ++
      "需要时再请用户连接。")

/-- `JSON.stringify` of questions and answers, beside what inputs need. -/
structure WaitHost extends InputHost where
  questionsJson : List Question → JsString
  answerJson : List AnswerItem → JsString

/-- The text that continues the task. -/
def continuation (host : WaitHost) (wait : Wait) (answers : List AnswerItem) :
    JsString :=
  JsString.ofString ("Continue the existing task after this persisted user " ++
      "question. Prior completed operations remain completed. This answer " ++
      "is not action approval.\nQuestion: ") ++
    host.questionsJson wait.questions ++ JsString.ofString "\nAnswer: " ++
    host.answerJson answers ++
    if wait.questions.any fun question =>
        (JsString.ofString "app-connect:").isPrefixOf question.id then
      JsString.ofString "\nInstruction: " ++
        applicationConnectionInstruction answers
    else []

/-- A checkpoint that a request has seen, and on which record of the root. -/
structure Seen where
  record : Nat
  wait : Wait
  sequence : Nat
deriving DecidableEq

/-- What `answerNativeWait` has in hand; `resolved` is what the delivery gave
to the question. -/
structure Work where
  inner : Seen
  answer : List AnswerItem
  resolved : Option (List AnswerItem)

/-- What a request waits for: the root, the root again inside
`answerNativeWait`, the bridge, a flush, its own continuation, or the prompt.
`outer` is the checkpoint that a continue-wait has seen. -/
inductive Phase where
  | entering
  | answering (outer : Option Seen)
  | checking (outer : Option Seen) (work : Work)
      (reply : Option (Option (Option JsString)))
  | delivering (outer : Option Seen) (work : Work) (stage : Stage)
      (written : Nat)
  | answered (outer : Seen) (work : Work)
  | deciding (outer : Seen) (work : Work) (decision : Decision)
      (reply : Option Bool)
  | dispatching (outer : Seen) (work : Work) (written : Nat)
  | prompting (outer : Seen) (work : Work)

/-- The parameters of a request; `kind` is `ask_user`. -/
structure Params where
  questionId : JsString
  input : TypedInput

structure Request where
  params : Params
  phase : Phase

/-- A continuation that was submitted. -/
structure Prompt where
  params : Params
  outer : Seen
  work : Work
  text : JsString

/-- A Host and its root.  `agents` are the agents of the root's records, of
which the last is current; `durable` counts the events on disk, `prompts` is the
history of continuations, which no restart takes back. -/
structure State where
  agents : Nat → Agent
  root : Nat
  durable : Nat
  rootCurrent : Bool
  detaching : Bool
  bridge : Bool
  caller : Option (Option JsString)
  pause : PauseRow
  requests : Nat → Option Request
  prompts : List Prompt

namespace State

def agent (s : State) : Agent := s.agents s.root

def events (s : State) : List Event := s.agent.events

/-- `assertRoot` passes. -/
def asserts (s : State) (record : Nat) : Bool :=
  !s.detaching && s.rootCurrent && record = s.root

/-- The agent of the current record is replaced. -/
def setAgent (s : State) (agent : Agent) : State :=
  { s with agents := Function.update s.agents s.root agent }

def setRequest (s : State) (ref : Nat) (request : Option Request) : State :=
  { s with requests := Function.update s.requests ref request }

end State

def State.initial (sessionId : JsString) (bridge : Bool) : State :=
  { agents := fun _ =>
      { sessionId, status := .idle, events := [], nextStep := []
        nextTurn := [] }
    root := 0
    durable := 0
    rootCurrent := true
    detaching := false
    bridge
    caller := some none
    pause := ⟨none, false, []⟩
    requests := fun _ => none
    prompts := [] }

/-- `rooted`, `replied`, `flushed` and `prompted` end an await; `bridged` is
the transaction behind the bridge, whose reply may be lost; `resume` is the
continuation of a request that has its answer. -/
inductive Action where
  | answerWait (ref : Nat) (params : Params)
  | continueWait (ref : Nat) (params : Params)
  | rooted (ref : Nat) (succeeded : Bool)
  | bridged (ref : Nat) (leased : Bool)
  | replied (ref : Nat) (succeeded : Bool)
  | flushed (ref : Nat) (succeeded : Bool)
  | resume (ref : Nat)
  | prompted (ref : Nat) (succeeded : Bool)
  | event (event : Event)
  | status (status : AgentStatus)
  | inbox (nextStep nextTurn : List JsString)
  | caller (caller : Option (Option JsString))
  | paused (pauseId : JsString)
  | detach (detaching : Bool)
  | close
  | persist (durable : Nat)
  | reopen (keep : Nat)
  | restart (keep : Nat)

inductive Answer where
  | none
  | waiting
  | rejected
  | answered (adoption : Adoption)
  | prompted (prompt : Prompt)

/-- A request fails. -/
def reject (s : State) (ref : Nat) : State × Answer :=
  (s.setRequest ref none, .rejected)

def wait (s : State) (ref : Nat) (params : Params) (phase : Phase) :
    State × Answer :=
  (s.setRequest ref (some { params, phase }), .waiting)

/-- The question that the parameters name, if it is parked. -/
def parked (s : State) (params : Params) : Option Seen :=
  (pendingNativeWait s.events).bind fun (wait, sequence) =>
    if s.agent.status = .idle ∧ wait.questionId = params.questionId ∧
        wait.turnId = params.input.turnId then
      some { record := s.root, wait, sequence }
    else none

/-- `progressWaitCaller` does not throw. -/
def sameRun (s : State) (progress : Progress) : Bool :=
  s.caller = some progress.runId

def typed (params : Params) : TypedInput :=
  { params.input with kind := askUser }

/-- `answerNativeWait` hands its answer to the journal. -/
def deliver (host : WaitHost) (s : State) (ref : Nat) (params : Params)
    (outer : Option Seen) (work : Work) : State × Answer :=
  match deliverDshInput host.toInputHost s.agent
      (some work.inner.wait.toPendingQuestion) true none (typed params) [] with
  | .error _ => reject s ref
  | .ok (agent, stage) =>
    wait (s.setAgent agent) ref params
      (.delivering outer work stage agent.events.length)

/-- `answerNativeWait`, once it has the root. -/
def answerNativeWait (host : WaitHost) (s : State) (ref : Nat)
    (params : Params) (outer : Option Seen) : State × Answer :=
  match parked s params with
  | none => reject s ref
  | some inner =>
    match structuredUserQuestionAnswer host.toInputHost
        inner.wait.toPendingQuestion params.input.text with
    | some (some answer) =>
      let work : Work := { inner, answer, resolved := none }
      match programQuestionProgress inner.wait.questionId with
      | none => deliver host s ref params outer work
      | some progress =>
        if s.bridge ∧ sameRun s progress then
          wait s ref params (.checking outer work none)
        else reject s ref
    | _ => reject s ref

/-- `isCurrent()` of the delivery. -/
def isCurrent (s : State) (work : Work) : Bool :=
  s.asserts work.inner.record &&
    (pendingNativeWait s.events).any
      (fun found => found.1.questionId = work.inner.wait.questionId) &&
    s.agent.status = .idle

/-- The delivery has its proof. -/
def proved (s : State) (ref : Nat) (params : Params) (outer : Option Seen)
    (work : Work) (proof : Except InputError Inspection) : State × Answer :=
  match proof, outer with
  | .ok (.adopted _), some outer => wait s ref params (.answered outer work)
  | .ok (.adopted adoption), none =>
    (s.setRequest ref none, .answered adoption)
  | _, _ => reject s ref

/-- The delivery after a flush. -/
def delivered (host : WaitHost) (s : State) (ref : Nat) (params : Params)
    (outer : Option Seen) (work : Work) (stage : Stage) : State × Answer :=
  let inspect := inspectDshInput host.toInputHost (s.agents work.inner.record)
    (typed params) none
  match stage with
  | .known previous => proved s ref params outer work (.ok previous)
  | .asked question answer =>
    if isCurrent s work then
      let agent := (applyDelivery s.agent (typed params)
        (.asked question answer)).1
      wait (s.setAgent agent) ref params
        (.delivering outer { work with resolved := some answer } .applied
          agent.events.length)
    else proved s ref params outer work inspect
  | _ => proved s ref params outer work inspect

/-- The dispatch intent goes into the journal. -/
def dispatch (s : State) (ref : Nat) (params : Params) (outer : Seen)
    (work : Work) : State × Answer :=
  if s.asserts outer.record then
    let agent := s.agent.append (.waitContinued
      { questionId := outer.wait.questionId, inputId := params.input.inputId })
    wait (s.setAgent agent) ref params
      (.dispatching outer work agent.events.length)
  else reject s ref

/-- `continueNativeWait`, once it has its answer. -/
def continueNativeWait (host : WaitHost) (s : State) (ref : Nat)
    (params : Params) (outer : Seen) (work : Work) : State × Answer :=
  if s.asserts outer.record = false then reject s ref
  else
    match programQuestionProgress outer.wait.questionId with
    | none => dispatch s ref params outer work
    | some progress =>
      match structuredUserQuestionAnswer host.toInputHost
          outer.wait.toPendingQuestion params.input.text with
      | some (some answers) =>
        match decisionOf answers with
        | none => reject s ref
        | some decision =>
          if sameRun s progress then
            wait s ref params (.deciding outer work decision none)
          else reject s ref
      | _ => reject s ref

/-- The flush of a record that is current makes its events durable. -/
def flush (s : State) (record written : Nat) : State :=
  if record = s.root then { s with durable := max s.durable written } else s

def promptOf (host : WaitHost) (params : Params) (outer : Seen) (work : Work) :
    Prompt :=
  { params
    outer
    work
    text := continuation host work.inner.wait
      (work.resolved.getD work.answer) }

/-- The root on its next record. -/
def reopened (s : State) (keep : Nat) : State :=
  { s with
    agents := Function.update s.agents (s.root + 1)
      { s.agent with
        status := .idle
        events := s.events.take keep
        nextStep := []
        nextTurn := [] }
    root := s.root + 1
    durable := (s.events.take keep).length
    rootCurrent := true
    detaching := false }

def step (host : WaitHost) (s : State) : Action → State × Answer
  | .answerWait ref params =>
    if (s.requests ref).isSome then (s, .none)
    else wait s ref params (.answering none)
  | .continueWait ref params =>
    if (s.requests ref).isSome then (s, .none)
    else wait s ref params .entering
  | .rooted ref succeeded =>
    match s.requests ref with
    | some ⟨params, .entering⟩ =>
      if succeeded ∧ s.asserts s.root then
        match parked s params with
        | some outer => wait s ref params (.answering (some outer))
        | none => reject s ref
      else reject s ref
    | some ⟨params, .answering outer⟩ =>
      if succeeded ∧ s.asserts s.root then
        answerNativeWait host s ref params outer
      else reject s ref
    | _ => (s, .none)
  | .bridged ref leased =>
    match s.requests ref with
    | some ⟨params, .checking outer work none⟩ =>
      wait s ref params
        (.checking outer work (some (s.pause.check leased)))
    | some ⟨params, .deciding outer work decision none⟩ =>
      match programQuestionProgress outer.wait.questionId with
      | none => (s, .none)
      | some progress =>
        match s.pause.decide leased progress.pauseId decision with
        | some pause =>
          wait { s with pause } ref params
            (.deciding outer work decision (some true))
        | none =>
          wait s ref params
            (.deciding outer work decision (some false))
    | _ => (s, .none)
  | .replied ref succeeded =>
    match s.requests ref with
    | some ⟨params, .checking outer work (some reply)⟩ =>
      match programQuestionProgress work.inner.wait.questionId, reply with
      | some progress, some (some pauseId) =>
        if succeeded ∧ s.asserts work.inner.record ∧
            pauseId = progress.pauseId then
          deliver host s ref params outer work
        else reject s ref
      | _, _ => reject s ref
    | some ⟨params, .deciding outer work decision (some decided)⟩ =>
      if succeeded ∧ decided ∧ s.asserts outer.record ∧
          decision = .continue then
        dispatch s ref params outer work
      else reject s ref
    | _ => (s, .none)
  | .flushed ref succeeded =>
    match s.requests ref with
    | some ⟨params, .delivering outer work stage written⟩ =>
      if succeeded then
        delivered host (flush s work.inner.record written) ref params outer
          work stage
      else reject s ref
    | some ⟨params, .dispatching outer work written⟩ =>
      if succeeded ∧ s.asserts outer.record then
        wait (flush s outer.record written) ref params
          (.prompting outer work)
      else reject s ref
    | _ => (s, .none)
  | .resume ref =>
    match s.requests ref with
    | some ⟨params, .answered outer work⟩ =>
      continueNativeWait host s ref params outer work
    | _ => (s, .none)
  | .prompted ref succeeded =>
    match s.requests ref with
    | some ⟨params, .prompting outer work⟩ =>
      if succeeded then
        let prompt := promptOf host params outer work
        ({ s.setRequest ref none with prompts := s.prompts ++ [prompt] },
          .prompted prompt)
      else reject s ref
    | _ => (s, .none)
  | .event event =>
    if isContinued event then (s, .none)
    else (s.setAgent (s.agent.append event), .none)
  | .status status => (s.setAgent { s.agent with status }, .none)
  | .inbox nextStep nextTurn =>
    (s.setAgent { s.agent with nextStep, nextTurn }, .none)
  | .caller caller => ({ s with caller }, .none)
  | .paused pauseId =>
    if s.pause.pauseId.isSome ∨ s.pause.canceled then (s, .none)
    else ({ s with pause := { s.pause with pauseId := some pauseId } }, .none)
  | .detach detaching => ({ s with detaching }, .none)
  | .close => ({ s with rootCurrent := false }, .none)
  | .persist durable =>
    ({ s with durable := max s.durable (min durable s.events.length) }, .none)
  | .reopen keep =>
    if s.durable ≤ keep then (reopened s keep, .none) else (s, .none)
  | .restart keep =>
    if s.durable ≤ keep then
      ({ reopened s keep with requests := fun _ => none }, .none)
    else (s, .none)

/-- Everything that can happen to the parked questions of a root. -/
def waits (host : WaitHost) : Machine State Action Answer := ⟨step host⟩

end Allrice.DshWaits
