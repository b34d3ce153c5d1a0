/-
The one root session of a Host and the SDK that owns it.  Opening, closing and
recovery run as promises that wait for one another; a step here is what happens
between two awaits.
-/
import Allrice.JsString
import Allrice.Runs

namespace Allrice.SdkRoot

inductive Phase where
  | uninitialized
  | initializing
  | idle
  | opening
  | ready
  | closing
  | closed
  | recovering
  | failed
deriving DecidableEq

/-- An agent object and its session object. -/
structure Agent where
  object : Nat
  session : Nat
deriving DecidableEq

structure RootRecord where
  agent : Agent
  epoch : Nat
deriving DecidableEq

/-- What changes around the root: the native registries, and whether a question
is being detached. -/
structure World where
  detaching : Bool
  agents : JsString → Option Agent
  sessions : JsString → Option Nat

/-- The agent of a session, where both registries know it. -/
def World.live (world : World) (sessionId : JsString) : Option Agent :=
  (world.agents sessionId).filter fun agent =>
    world.sessions sessionId == some agent.session

/-- `this.initializing`. -/
structure Initializing where
  op : Nat
  epoch : Nat

inductive OpenStage where
  | reading
  | resuming
  | settled (record : Option RootRecord)
deriving DecidableEq

/-- `this.opening`, with the recovery that asked for it. -/
structure Opening where
  op : Nat
  epoch : Nat
  sessionId : JsString
  resumeOnly : Bool
  owner : Option Nat
  stage : OpenStage

/-- The parts of closing that come after the waiting. -/
inductive Work where
  | drain
  | cancel
  | flush
  | shutdown (sdk : Nat)
  | clearQuestion
  | flushProgress
  | flushAccounting

/-- `settled` is the end of the promise, `finished` that of the call which
started it. -/
inductive CloseStage where
  | initializing (op : Option Nat)
  | opening (op : Option Nat)
  | recovering
  | working (steps : List Work) (failed live : Bool)
  | settled (succeeded : Bool)
  | finished (succeeded : Bool)

/-- `this.closing`, with the recovery that was pending when it began. -/
structure Closing where
  op : Nat
  sessionId : Option JsString
  recovery : Option Nat
  stage : CloseStage

inductive RecoverStage where
  | preceding (op : Option Nat)
  | initializing (sdk : Nat)
  | ensuring (sdk op : Nat)
  | ensured (sdk : Nat) (succeeded : Bool)
  | shutting (sdk : Nat)
  | settled (succeeded : Bool)

/-- `this.recovering`. -/
structure Recovering where
  op : Nat
  epoch : Nat
  sessionId : JsString
  stage : RecoverStage

/-- `AllRiceSdkRoot`.  `shut` are the SDK objects whose shutdown succeeded;
`next` numbers SDK objects and promises. -/
structure State where
  phase : Phase
  epoch : Nat
  terminated : Bool
  initialized : Bool
  rootId : Option JsString
  roots : JsString → Option RootRecord
  sdk : Nat
  shut : List Nat
  pending : List Nat
  initializing : Option Initializing
  opening : Option Opening
  closing : Option Closing
  recovering : Option Recovering
  next : Nat
  world : World

def State.initial (world : World) : State :=
  { phase := .uninitialized
    epoch := 0
    terminated := false
    initialized := false
    rootId := none
    roots := fun _ => none
    sdk := 0
    shut := []
    pending := []
    initializing := none
    opening := none
    closing := none
    recovering := none
    next := 1
    world }

namespace State

def isRootCurrent (s : State) (record : RootRecord) (sessionId : JsString) :
    Bool :=
  !s.terminated && s.phase == .ready && s.roots sessionId == some record &&
    record.epoch == s.epoch &&
    s.world.agents sessionId == some record.agent &&
    s.world.sessions sessionId == some record.agent.session

def requireRoot (s : State) (sessionId : JsString) : Option RootRecord :=
  if s.world.detaching then none
  else (s.roots sessionId).filter fun record =>
    s.isRootCurrent record sessionId

end State

inductive Answer where
  | none
  | refused
  | root (record : RootRecord)
  | joined (op : Nat)
  | began (op : Nat)
  | nothingToClose
  | created (sdk before : Nat)
  | ready (recovery : Option Nat)
  | rejected (op : Nat)
  | resolved (op : Nat)
deriving DecidableEq

/-- `ensureRoot`, up to its first await.  `published` is whether the questions
of a root that is ready could be published. -/
def ensureRoot (s : State) (sessionId : JsString) (resumeOnly : Bool)
    (owner : Option Nat) (published : Bool) : State × Answer :=
  if s.terminated ∨ s.initialized = false ∨ sessionId = [] then (s, .refused)
  else if s.rootId.any (· ≠ sessionId) then (s, .refused)
  else if s.phase = .ready then
    match s.requireRoot sessionId with
    | none => (s, .refused)
    | some record =>
      if published then (s, .root record) else (s, .refused)
  else if s.phase ≠ .idle ∧ s.phase ≠ .opening then (s, .refused)
  else
    match s.opening with
    | some opening => (s, .joined opening.op)
    | none =>
      ({ s with
          rootId := some sessionId
          phase := .opening
          opening := some
            ⟨s.next, s.epoch, sessionId, resumeOnly, owner, .reading⟩
          next := s.next + 1 },
        .began s.next)

/-- `closeRoot`, up to its first await. -/
def closeRoot (s : State) (sessionId : Option JsString) : State × Answer :=
  if s.rootId.any (fun rootId => some rootId ≠ sessionId) then (s, .refused)
  else if s.phase = .closed ∧ s.recovering = none then (s, .nothingToClose)
  else
    match s.closing with
    | some closing =>
      -- A recovery that waits for this close is invalid from now on.
      ({ s with
          epoch := if s.recovering.isSome then s.epoch + 1 else s.epoch },
        .joined closing.op)
    | none =>
      ({ s with
          phase := .closing
          epoch := s.epoch + 1
          closing := some
            { op := s.next
              sessionId
              recovery := s.recovering.map Recovering.op
              stage := .initializing (s.initializing.map Initializing.op) }
          next := s.next + 1 },
        .began s.next)

/-- The close that a recovery waits for. -/
def Answer.preceding : Answer → Option Nat
  | .joined op => some op
  | .began op => some op
  | _ => Option.none

/-- `recoverRoot`, up to its first await. -/
def recoverRoot (s : State) (sessionId : JsString) : State × Answer :=
  if sessionId = [] then (s, .refused)
  else if s.terminated ∨ s.initialized = false ∨ s.phase = .failed then
    (s, .refused)
  else if s.rootId.any (· ≠ sessionId) then (s, .refused)
  else
    match s.recovering with
    | some recovering => (s, .joined recovering.op)
    | none =>
      let s := { s with rootId := some sessionId }
      let (s, preceding) :=
        if s.phase = .closed then (s, Option.none)
        else
          let (s, answer) := closeRoot s (some sessionId)
          (s, answer.preceding)
      ({ s with
          recovering := some
            ⟨s.next, s.epoch, sessionId, .preceding preceding⟩
          next := s.next + 1 },
        .began s.next)

/-- What was found in the store. -/
inductive Stored where
  | found
  | missing
  | unreadable
deriving DecidableEq

def Opening.current (opening : Opening) (s : State) : Bool :=
  s.epoch == opening.epoch && s.phase == .opening

/-- The opening promise settles. -/
def State.settleOpening (s : State) (opening : Opening)
    (record : Option RootRecord) : State :=
  { s with opening := some { opening with stage := .settled record } }

/-- The stored session has been looked for. -/
def read (s : State) (stored : Stored) : State × Answer :=
  match s.opening with
  | some opening =>
    if opening.stage ≠ .reading then (s, .none)
    else if stored = .unreadable ∨
        (stored = .missing ∧ opening.resumeOnly) then
      (s.settleOpening opening none, .none)
    else if opening.current s = false then
      (s.settleOpening opening none, .none)
    else
      ({ s with opening := some { opening with stage := .resuming } },
        .none)
  | none => (s, .none)

/-- The SDK has resumed the session, or not. -/
def resumed (s : State) (succeeded published : Bool) : State × Answer :=
  match s.opening with
  | some opening =>
    if opening.stage ≠ .resuming then (s, .none)
    else if succeeded = false ∨ opening.current s = false then
      (s.settleOpening opening none, .none)
    else
      match s.world.live opening.sessionId with
      | none => (s.settleOpening opening none, .none)
      | some agent =>
        let record := ⟨agent, opening.epoch⟩
        let s :=
          { s with
            roots := Function.update s.roots opening.sessionId
              (some record)
            phase := .ready }
        (s.settleOpening opening (if published then some record else none),
          .ready opening.owner)
  | none => (s, .none)

/-- A recovery learns what has become of the opening it waits for. -/
def Recovering.informed (recovering : Recovering) (opening : Nat)
    (succeeded : Bool) : Recovering :=
  match recovering.stage with
  | .ensuring sdk op =>
    if op = opening then
      { recovering with stage := .ensured sdk succeeded }
    else recovering
  | _ => recovering

/-- `ensureRoot` after its await. -/
def opened (s : State) : State × Answer :=
  match s.opening with
  | some opening =>
    match opening.stage with
    | .settled record =>
      ({ s with
          phase :=
            if record = none ∧ s.phase ≠ .closing then .failed
            else s.phase
          opening := none
          recovering := s.recovering.map fun recovering =>
            recovering.informed opening.op record.isSome },
        .none)
    | _ => (s, .none)
  | none => (s, .none)

/-- The work of a close: an adopted root is stopped and flushed around the
shutdown of the SDK. -/
def State.closeWork (s : State) (live : Bool) : List Work :=
  (if live then [Work.drain, .cancel, .flush] else []) ++
    [Work.shutdown s.sdk] ++
    (if live then [Work.clearQuestion, .flushProgress] else []) ++
    [Work.flushAccounting]

/-- The adopted record, if the registries still show its agent. -/
def State.adopted (s : State) (sessionId : Option JsString) : Bool :=
  match sessionId with
  | none => false
  | some sessionId =>
    (s.roots sessionId).any fun record =>
      s.world.agents sessionId == some record.agent &&
        s.world.sessions sessionId == some record.agent.session

/-- A close goes on once what it waits for is over. -/
def closeOn (s : State) : State × Answer :=
  match s.closing with
  | some closing =>
    match closing.stage with
    | .initializing op =>
      if op.isSome ∧ s.initializing.map Initializing.op = op then
        (s, .none)
      else
        ({ s with
            closing := some
              { closing with
                stage := .opening (s.opening.map Opening.op) } },
          .none)
    | .opening op =>
      if op.isSome ∧ s.opening.map Opening.op = op then (s, .none)
      else
        ({ s with closing := some { closing with stage := .recovering } },
          .none)
    | .recovering =>
      if closing.recovery.isSome ∧
          s.recovering.map Recovering.op = closing.recovery then
        (s, .none)
      else
        let live := s.adopted closing.sessionId
        ({ s with
            closing := some
              { closing with
                stage := .working (s.closeWork live) false live } },
          .none)
    | _ => (s, .none)
  | none => (s, .none)

def Work.shuts : Work → List Nat
  | .shutdown sdk => [sdk]
  | _ => []

/-- One part of the work is done; a failure is kept and the rest goes on. -/
def worked (s : State) (succeeded : Bool) : State × Answer :=
  match s.closing with
  | some closing =>
    match closing.stage with
    | .working (work :: rest) failed live =>
      let failed := failed || !succeeded
      let shut := if succeeded then work.shuts ++ s.shut else s.shut
      if rest ≠ [] then
        ({ s with
            shut
            closing := some
              { closing with stage := .working rest failed live } },
          .none)
      else if failed then
        ({ s with
            shut
            closing := some { closing with stage := .settled false } },
          .none)
      else
        ({ s with
            shut
            roots := fun _ => none
            phase := .closed
            closing := some { closing with stage := .settled true } },
          .none)
    | _ => (s, .none)
  | none => (s, .none)

/-- The first `closeRoot` after its await; a failed close stays. -/
def closed (s : State) : State × Answer :=
  match s.closing with
  | some closing =>
    match closing.stage with
    | .settled true =>
      ({ s with
          closing :=
            if s.phase = .failed then
              some { closing with stage := .finished true }
            else none },
        .resolved closing.op)
    | .settled false =>
      ({ s with
          phase := .failed
          closing := some { closing with stage := .finished false } },
        .rejected closing.op)
    | _ => (s, .none)
  | none => (s, .none)

/-- What has become of a close: `none` while it runs. -/
def State.closeResult (s : State) (op : Nat) : Option Bool :=
  match s.closing with
  | none => some true
  | some closing =>
    if closing.op ≠ op then some true
    else
      match closing.stage with
      | .finished succeeded => some succeeded
      | _ => none

def State.settleRecovery (s : State) (recovering : Recovering)
    (stage : RecoverStage) : State :=
  { s with recovering := some { recovering with stage } }

/-- A recovery goes on after the close before it. -/
def recoverOn (s : State) : State × Answer :=
  match s.recovering with
  | some recovering =>
    match recovering.stage with
    | .preceding op =>
      match op.elim (some true) s.closeResult with
      | none => (s, .none)
      | some false => (s.settleRecovery recovering (.settled false), .none)
      | some true =>
        if s.terminated ∨ s.epoch ≠ recovering.epoch ∨
            s.phase ≠ .closed then
          (s.settleRecovery recovering (.settled false), .none)
        else
          let before := s.sdk
          let s := { s with phase := .recovering, sdk := s.next }
          ({ s.settleRecovery recovering (.initializing s.sdk) with
              next := s.next + 1 },
            .created s.sdk before)
    | _ => (s, .none)
  | none => (s, .none)

/-- The new SDK has been initialized, or not. -/
def recoverInitialized (s : State) (succeeded published : Bool) :
    State × Answer :=
  match s.recovering with
  | some recovering =>
    match recovering.stage with
    | .initializing sdk =>
      if succeeded = false ∨ s.terminated ∨ s.epoch ≠ recovering.epoch ∨
          s.phase ≠ .recovering then
        (s.settleRecovery recovering (.shutting sdk), .none)
      else
        match ensureRoot { s with phase := .idle } recovering.sessionId
            true (some recovering.op) published with
        | (s, .joined op) =>
          (s.settleRecovery recovering (.ensuring sdk op), .none)
        | (s, .began op) =>
          (s.settleRecovery recovering (.ensuring sdk op), .none)
        | (s, .root _) =>
          (s.settleRecovery recovering (.settled true), .none)
        | (s, _) =>
          (s.settleRecovery recovering (.shutting sdk), .none)
    | _ => (s, .none)
  | none => (s, .none)

def recoverEnsured (s : State) : State × Answer :=
  match s.recovering with
  | some recovering =>
    match recovering.stage with
    | .ensured sdk succeeded =>
      (s.settleRecovery recovering
        (if succeeded then .settled true else .shutting sdk), .none)
    | _ => (s, .none)
  | none => (s, .none)

/-- The SDK of a recovery that failed has been shut down, or not. -/
def recoverShut (s : State) (succeeded : Bool) : State × Answer :=
  match s.recovering with
  | some recovering =>
    match recovering.stage with
    | .shutting sdk =>
      if succeeded then
        let s :=
          { s with
            shut := sdk :: s.shut
            phase :=
              if s.phase ≠ Phase.closing ∧ s.terminated = false then
                .failed
              else s.phase }
        (s.settleRecovery recovering (.settled false), .none)
      else (s.settleRecovery recovering (.settled false), .none)
    | _ => (s, .none)
  | none => (s, .none)

/-- `recoverRoot` after its await. -/
def recovered (s : State) : State × Answer :=
  match s.recovering with
  | some recovering =>
    match recovering.stage with
    | .settled _ => ({ s with recovering := none }, .none)
    | _ => (s, .none)
  | none => (s, .none)

/-- `initializeSdk`, up to its first await. -/
def initializeSdk (s : State) : State × Answer :=
  if s.terminated ∨ s.phase ≠ .uninitialized then (s, .refused)
  else
    ({ s with pending := s.next :: s.pending, next := s.next + 1 },
      .began s.next)

/-- The working directory has been resolved, or not. -/
def resolvedPath (s : State) (call : Nat) (succeeded : Bool) :
    State × Answer :=
  if call ∈ s.pending then
    let s := { s with pending := s.pending.erase call }
    if succeeded = false ∨ s.terminated ∨ s.phase ≠ .uninitialized then
      (s, .refused)
    else
      ({ s with
          phase := .initializing
          initializing := some ⟨call, s.epoch⟩ },
        .none)
  else (s, .none)

/-- `initializeSdk` after its last await. -/
def initialized (s : State) (succeeded : Bool) : State × Answer :=
  match s.initializing with
  | some initializing =>
    let s := { s with initializing := none }
    if succeeded = false ∨ s.terminated ∨ s.epoch ≠ initializing.epoch ∨
        s.phase ≠ .initializing then
      (s, .refused)
    else ({ s with phase := .idle, initialized := true }, .none)
  | none => (s, .none)

inductive Action where
  | world (world : World)
  | initializeSdk
  | resolvedPath (call : Nat) (succeeded : Bool)
  | initialized (succeeded : Bool)
  | ensureRoot (sessionId : JsString) (resumeOnly published : Bool)
  | read (stored : Stored)
  | resumed (succeeded published : Bool)
  | opened
  | closeRoot (sessionId : JsString)
  | closeOn
  | worked (succeeded : Bool)
  | closed
  | recoverRoot (sessionId : JsString)
  | recoverOn
  | recoverInitialized (succeeded published : Bool)
  | recoverEnsured
  | recoverShut (succeeded : Bool)
  | recovered
  | shutdown
  | requireRoot (sessionId : JsString)

def step (s : State) : Action → State × Answer
  | .world world => ({ s with world }, .none)
  | .initializeSdk => initializeSdk s
  | .resolvedPath call succeeded => resolvedPath s call succeeded
  | .initialized succeeded => initialized s succeeded
  | .ensureRoot sessionId resumeOnly published =>
    ensureRoot s sessionId resumeOnly none published
  | .read stored => read s stored
  | .resumed succeeded published => resumed s succeeded published
  | .opened => opened s
  | .closeRoot sessionId => closeRoot s (some sessionId)
  | .closeOn => closeOn s
  | .worked succeeded => worked s succeeded
  | .closed => closed s
  | .recoverRoot sessionId => recoverRoot s sessionId
  | .recoverOn => recoverOn s
  | .recoverInitialized succeeded published =>
    recoverInitialized s succeeded published
  | .recoverEnsured => recoverEnsured s
  | .recoverShut succeeded => recoverShut s succeeded
  | .recovered => recovered s
  | .shutdown => closeRoot { s with terminated := true } s.rootId
  | .requireRoot sessionId =>
    match s.requireRoot sessionId with
    | none => (s, .refused)
    | some record => (s, .root record)

def sdkRoot : Machine State Action Answer := ⟨step⟩

end Allrice.SdkRoot
