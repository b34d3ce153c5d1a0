/-
The Run that a worker has bound to its Host.  Tools and models are called by
agents of the native registry; the hooks here let a call through only for the
root of the Run and for the subagents below it.
-/
import Allrice.JsString
import Allrice.Runs
import Allrice.Table

namespace Allrice.RunAdmission

/-- An agent object, with what its session's header says. -/
structure Agent where
  object : Nat
  id : JsString
  session : Nat
  subagent : Bool
  parentSession : Option JsString
deriving DecidableEq

structure RootRecord where
  agent : Agent
  epoch : Nat
deriving DecidableEq

/-- What the hooks read of the Host and of the native registries; all of it
changes at any time. -/
structure Host where
  detaching : Bool
  terminated : Bool
  ready : Bool
  epoch : Nat
  roots : JsString → Option RootRecord
  agents : List Agent
  sessions : JsString → Option Nat
  ownedBy : JsString → Agent → Bool
  provider : JsString
  model : JsString

/-- How the loop of `identity` ends; `unfinished` when the fuel of the model is
too little for it. -/
inductive Climb where
  | reached (seen : List Agent)
  | denied
  | unfinished
deriving DecidableEq

namespace Host

/-- `ctx.agents.get(id)`. -/
def get (host : Host) (id : JsString) : Option Agent :=
  host.agents.find? fun agent => agent.id = id

def isRootCurrent (host : Host) (record : RootRecord) (sessionId : JsString) :
    Bool :=
  !host.terminated && host.ready && host.roots sessionId == some record &&
    record.epoch == host.epoch &&
    host.get sessionId == some record.agent &&
    host.sessions sessionId == some record.agent.session

/-- Whether `assertRoot` passes. -/
def assertRoot (host : Host) (record : RootRecord) (sessionId : JsString) :
    Bool :=
  !host.detaching && host.isRootCurrent record sessionId

/-- From an agent up to the root, through registered subagents that their
parents own.  Gives back the agents below the root. -/
def climb (host : Host) (root : Agent) :
    Nat → List Agent → Option Agent → Climb
  | 0, _, _ => .unfinished
  | fuel + 1, seen, cursor =>
    if cursor = some root then .reached seen
    else
      match cursor with
      | none => .denied
      | some agent =>
        if agent ∈ seen ∨ host.get agent.id ≠ some agent then .denied
        else
          match agent.parentSession.bind host.get with
          | none => .denied
          | some parent =>
            if agent.subagent && host.ownedBy agent.id parent then
              climb host root fuel (agent :: seen) (some parent)
            else .denied

end Host

inductive AdmissionError where
  | runNotActive
  | rootNotLive
  | sessionDenied
  | cwdDenied
  | modelDenied
  | alreadyBound
  | completing
  | unavailable
deriving DecidableEq

structure Identity where
  runId : JsString
  nativeSessionId : JsString
  rootSessionId : JsString
  parentSessionId : Option JsString
  delegationDepth : Nat
deriving DecidableEq

/-- What is bound.  `run` tells one such object from another; `signal` does so
for its abort controllers. -/
structure Binding where
  run : Nat
  record : RootRecord
  runId : JsString
  waiting : Nat
  inputClosed : Bool
  signal : Nat
  aborted : Bool
  closing : Bool

inductive Kind where
  | created
  | tool
  | model
  | input
deriving DecidableEq

inductive Stage where
  | directory
  | authorizing
deriving DecidableEq

/-- A hook that waits for an answer, with the Run it has seen. -/
structure Call where
  ref : Nat
  kind : Kind
  agent : Agent
  run : Nat
  caller : Identity
  stage : Stage
deriving DecidableEq

/-- What `inputWindow` gives out. -/
structure Window where
  run : Nat
  runId : JsString
  signal : Nat
deriving DecidableEq

structure State where
  host : Host
  binding : Option Binding
  identities : Table JsString Identity Identity.nativeSessionId
  nextRun : Nat
  calls : List Call
  beginning : List (Nat × JsString)
  waits : List Nat
  /-- The `allrice.run-session` notifications, with the Run of each. -/
  announced : List (Nat × Identity)

def State.initial (host : Host) : State :=
  { host
    binding := none
    identities := Table.empty
    nextRun := 0
    calls := []
    beginning := []
    waits := []
    announced := [] }

abbrev Checked := Except AdmissionError

namespace State

/-- `current()`, for the Run that is bound. -/
def current (s : State) : Checked Binding :=
  match s.binding with
  | none => .error .runNotActive
  | some bound =>
    if bound.closing then .error .runNotActive
    else if s.host.assertRoot bound.record bound.record.agent.id then
      .ok bound
    else .error .rootNotLive

/-- `current(runId)`. -/
def currentOf (s : State) (runId : JsString) : Checked Binding :=
  match s.binding with
  | none => .error .runNotActive
  | some bound =>
    if runId ≠ bound.runId then .error .runNotActive else s.current

/-- `if (current() !== state) throw Error('RUN_NOT_ACTIVE')`. -/
def stillCurrent (s : State) (run : Nat) : Checked Unit := do
  let bound ← s.current
  if bound.run ≠ run then .error .runNotActive

def identity (s : State) (agent : Option Agent) : Checked Identity := do
  let bound ← s.current
  let root := bound.record.agent
  match agent, s.host.climb root (s.host.agents.length + 1) [] agent with
  | some agent, .reached seen =>
    .ok
      { runId := bound.runId
        nativeSessionId := agent.id
        rootSessionId := root.id
        parentSessionId := if agent = root then none else agent.parentSession
        delegationDepth := seen.length }
  | _, _ => .error .sessionDenied

def live (s : State) (agent : Option Agent) : Checked Identity := do
  let value ← s.identity agent
  if (s.identities.find? value.nativeSessionId).isNone then
    .error .sessionDenied
  else .ok value

def announce (s : State) (agent : Option Agent) : Checked State := do
  let bound ← s.current
  let value ← s.identity agent
  pure
    { s with
      identities := s.identities.put value
      announced := s.announced ++ [(bound.run, value)] }

/-- Announce one agent after the other; the first that is denied ends it. -/
def announceAll : State → List Agent → State × Option AdmissionError
  | s, [] => (s, none)
  | s, agent :: rest =>
    match s.announce (some agent) with
    | .error error => (s, some error)
    | .ok next => next.announceAll rest

/-- `accepting(runId, receiptOnly)`. -/
def accepting (s : State) (running : Bool) (runId : JsString)
    (receiptOnly : Bool) : Checked Binding := do
  let bound ← s.currentOf runId
  if receiptOnly = false ∧
      (bound.inputClosed ∨ (running = false ∧ bound.waiting = 0)) then
    .error .completing
  else .ok bound

end State

def Binding.closeInput (bound : Binding) : Binding :=
  { bound with inputClosed := true, aborted := true }

/-- What reaches the Host, and the answers to what its hooks wait for.
`running` is whether the root agent is running at that time. -/
inductive Action where
  | world (host : Host)
  | begin (ref : Nat) (runId : JsString)
  | rooted (ref : Nat) (record : Option RootRecord)
  | finish (runId : JsString)
  | stop
  | closeInput (runId : JsString)
  | prompt (runId : JsString)
  | confirm (run : Nat) (runId : JsString)
  | accepting (running : Bool) (runId : JsString) (receiptOnly : Bool)
  | inputWindow (running : Bool) (runId : JsString)
  | checkWindow (running : Bool) (window : Window)
  | wait
  | waited (run : Nat)
  | started (id : JsString) (isLocal : Bool)
  | created (ref : Nat) (agent : Agent)
  | request (agent : Agent)
  | guard (agent : Agent)
  | tool (ref : Nat) (agent : Agent)
  | model (ref : Nat) (sessionId provider model : JsString)
  | authorizeInput (ref : Nat) (runId : JsString)
  | directory (ref : Nat) (inside : Option Bool)
  | authorized (ref : Nat) (granted : Bool)
  | attribution (id : JsString)

inductive Answer where
  | done
  | failed (error : AdmissionError)
  | bound (run : Nat)
  | prompted (run : Nat)
  | closed (run : Nat)
  | accepted (run : Nat)
  | window (window : Window)
  | waits (call : Call)
  | passes (agent : Agent)
  | proceeds (call : Call)
  | attributed (value : Identity)
deriving DecidableEq

/-- What a check answers when it leaves the state as it is. -/
def answer {α : Type} (s : State) (checked : Checked α) (use : α → Answer) :
    State × Answer :=
  match checked with
  | .error error => (s, .failed error)
  | .ok value => (s, use value)

/-- A hook of `agent` begins to wait at `stage`. -/
def enter (s : State) (ref : Nat) (kind : Kind) (stage : Stage)
    (agent : Option Agent) (checked : Checked Identity) : State × Answer :=
  match agent, s.current, checked with
  | some agent, .ok bound, .ok caller =>
    let call := ⟨ref, kind, agent, bound.run, caller, stage⟩
    ({ s with calls := call :: s.calls }, .waits call)
  | _, _, .error error => (s, .failed error)
  | _, .error error, _ => (s, .failed error)
  | none, _, _ => (s, .failed .sessionDenied)

/-- The hook that `ref` stands for, if it waits at `stage`. -/
def State.waitingCall (s : State) (ref : Nat) (stage : Stage) : Option Call :=
  s.calls.find? fun call => call.ref = ref ∧ call.stage = stage

def step (s : State) : Action → State × Answer
  | .world host => ({ s with host }, .done)
  | .begin ref runId =>
    if s.binding.isSome ∨ runId = [] then (s, .failed .alreadyBound)
    else ({ s with beginning := (ref, runId) :: s.beginning }, .done)
  | .rooted ref record =>
    match s.beginning.find? (fun waiting => waiting.1 = ref), record with
    | none, _ => (s, .done)
    | some waiting, none =>
      ({ s with beginning := s.beginning.erase waiting },
        .failed .unavailable)
    | some waiting, some record =>
      let s := { s with beginning := s.beginning.erase waiting }
      if s.binding.isSome then (s, .failed .alreadyBound)
      else
        let bound : Binding :=
          { run := s.nextRun
            record
            runId := waiting.2
            waiting := 0
            inputClosed := false
            signal := 0
            aborted := false
            closing := false }
        let s :=
          { s with
            binding := some bound
            identities := Table.empty
            nextRun := s.nextRun + 1 }
        match s.announceAll (record.agent ::
            s.host.agents.filter (· ≠ record.agent)) with
        | (s, some error) => (s, .failed error)
        | (s, none) => (s, .bound bound.run)
  | .finish runId =>
    match s.binding with
    | none => (s, .failed .runNotActive)
    | some bound =>
      if bound.runId ≠ runId then (s, .failed .runNotActive)
      else
        ({ s with binding := none, identities := Table.empty },
          .closed bound.run)
  | .stop =>
    match s.binding with
    | none => (s, .done)
    | some bound =>
      ({ s with binding := some { bound.closeInput with closing := true } },
        .closed bound.run)
  | .closeInput runId =>
    match s.binding with
    | none => (s, .failed .runNotActive)
    | some bound =>
      if bound.runId ≠ runId then (s, .failed .runNotActive)
      else
        ({ s with binding := some bound.closeInput }, .closed bound.run)
  | .prompt runId =>
    match s.currentOf runId with
    | .error error => (s, .failed error)
    | .ok bound =>
      ({ s with
          binding := some
            { bound with
              inputClosed := false
              aborted := false
              signal :=
                if bound.aborted then bound.signal + 1
                else bound.signal } },
        .prompted bound.run)
  | .confirm run runId =>
    match s.currentOf runId with
    | .error error => (s, .failed error)
    | .ok bound =>
      if bound.run ≠ run ∨ bound.inputClosed then
        (s, .failed .completing)
      else (s, .accepted bound.run)
  | .accepting running runId receiptOnly =>
    answer s (s.accepting running runId receiptOnly) fun bound =>
      if receiptOnly then .done else .accepted bound.run
  | .inputWindow running runId =>
    answer s (s.accepting running runId false) fun bound =>
      .window ⟨bound.run, runId, bound.signal⟩
  | .checkWindow running window =>
    match s.accepting running window.runId false with
    | .error error => (s, .failed error)
    | .ok bound =>
      -- An older controller was aborted before it was replaced.
      if bound.run ≠ window.run ∨ bound.signal ≠ window.signal ∨
          bound.aborted then
        (s, .failed .completing)
      else (s, .accepted bound.run)
  | .wait =>
    match s.current with
    | .error error => (s, .failed error)
    | .ok bound =>
      ({ s with
          binding := some { bound with waiting := bound.waiting + 1 }
          waits := bound.run :: s.waits },
        .done)
  | .waited run =>
    if run ∈ s.waits then
      let s := { s with waits := s.waits.erase run }
      match s.binding with
      | none => (s, .closed run)
      | some bound =>
        if bound.run ≠ run then (s, .closed run)
        else
          ({ s with
              binding := some
                { bound.closeInput with waiting := bound.waiting - 1 } },
            .closed run)
    else (s, .done)
  | .started id isLocal =>
    if isLocal then
      match s.announce (s.host.get id) with
      | .error error => (s, .failed error)
      | .ok next => (next, .done)
    else (s, .done)
  | .created ref agent =>
    if agent.subagent then
      enter s ref .created .directory (some agent) (s.identity (some agent))
    else (s, .done)
  | .request agent =>
    answer s (s.live (some agent)) fun _ => .passes agent
  | .guard agent =>
    answer s (s.live (some agent)) fun _ => .passes agent
  | .tool ref agent =>
    enter s ref .tool .directory (some agent) (s.live (some agent))
  | .model ref sessionId provider model =>
    let agent := s.host.get sessionId
    enter s ref .model .directory agent do
      let caller ← s.live agent
      if provider ≠ s.host.provider ∨ model ≠ s.host.model then
        .error .modelDenied
      else .ok caller
  | .authorizeInput ref runId =>
    match s.currentOf runId with
    | .error error => (s, .failed error)
    | .ok bound =>
      enter s ref .input .authorizing (some bound.record.agent)
        (s.live (some bound.record.agent))
  | .directory ref inside =>
    match s.waitingCall ref .directory with
    | none => (s, .done)
    | some call =>
      let s := { s with calls := s.calls.erase call }
      match inside with
      | none => (s, .failed .unavailable)
      | some false => (s, .failed .cwdDenied)
      | some true =>
        match s.stillCurrent call.run with
        | .error error => (s, .failed error)
        | .ok _ =>
          if call.kind = .created then (s, .passes call.agent)
          else
            let call := { call with stage := .authorizing }
            ({ s with calls := call :: s.calls }, .waits call)
  | .authorized ref granted =>
    match s.waitingCall ref .authorizing with
    | none => (s, .done)
    | some call =>
      let s := { s with calls := s.calls.erase call }
      if granted = false then (s, .failed .unavailable)
      else if call.kind = .input then
        answer s (s.stillCurrent call.run) fun _ => .done
      else
        answer s (s.live (some call.agent)) fun _ => .proceeds call
  | .attribution id =>
    match s.identities.find? id with
    | none => (s, .failed .sessionDenied)
    | some value => (s, .attributed value)

def admission : Machine State Action Answer := ⟨step⟩

end Allrice.RunAdmission
