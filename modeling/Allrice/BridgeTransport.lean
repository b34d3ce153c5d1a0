/-
The two ways of a bridge request: a socket that may come and go, and HTTP where
the request has not left over the socket or may be repeated.  Every event of a
socket, every timer and every continuation behind an `await` is a step.
-/
import Allrice.Runs

namespace Allrice.BridgeTransport

def maximumPending : Nat := 8

def bridgeSocketMaximumFrameBytes : Nat := 750000

inductive Operation
  | next
  | start
  | heartbeat
  | output
  | receipts
  | service

/-- A request as the transport sees it. -/
structure Input where
  /-- Its server and token are the transport's. -/
  identity : Bool
  /-- The operation of a `POST` on a path that has one. -/
  action : Option Operation
  /-- The frame passes its schema. -/
  wellFormed : Bool
  claimRecovery : Bool
  size : Nat

/-- What may be asked again although it has been sent. -/
def Input.repeatable (input : Input) : Bool :=
  match input.action with
  | some .next => input.claimRecovery
  | some .start => false
  | _ => true

inductive ReadyState
  | connecting
  | opened
  | closing
  | closed
deriving DecidableEq

/-- Where a request is: `connecting` waits for a connection, `connected` has
its answer, and the two last before HTTP are promises that were kept or
broken. -/
inductive Stage
  | unissued
  | connecting (socket : Nat) (creator : Bool)
  | connected (value : Bool)
  | sent (socket : Nat)
  | answered
  | unavailable (sent : Bool)
  | http
  | settled
deriving DecidableEq

/-- A request is handed to a socket or to HTTP, or its promise is settled. -/
inductive Happening
  | transmitted (id : Nat) (socket : Option Nat)
  | settled (id : Nat)
deriving DecidableEq

structure Transport where
  enabled : Bool
  socket : Option Nat
  created : Nat
  readyState : Nat → ReadyState
  ready : Bool
  closed : Bool
  connecting : Option Nat
  /-- What the promise of a connection has come to. -/
  outcome : Nat → Option Bool
  /-- Its `finally` has run. -/
  finished : Nat → Bool
  credentialRejected : Bool
  welcomed : Bool
  pending : List (Nat × Nat)
  issued : Nat
  input : Nat → Input
  stage : Nat → Stage
  log : List Happening

def noInput : Input := ⟨true, none, true, false, 0⟩

def Transport.initial (enabled : Bool) : Transport where
  enabled := enabled
  socket := none
  created := 0
  readyState _ := .connecting
  ready := false
  closed := false
  connecting := none
  outcome _ := none
  finished _ := false
  credentialRejected := false
  welcomed := false
  pending := []
  issued := 0
  input _ := noInput
  stage _ := .unissued
  log := []

namespace Transport

def setStage (s : Transport) (id : Nat) (stage : Stage) : Transport :=
  { s with stage := Function.update s.stage id stage }

def settleRequest (s : Transport) (id : Nat) : Transport :=
  { s.setStage id .settled with log := s.log ++ [.settled id] }

/-- `bridgeRequest`: its `fetch` is called at once. -/
def bridgeRequest (s : Transport) (id : Nat) : Transport :=
  { s.setStage id .http with log := s.log ++ [.transmitted id none] }

/-- `settle` of a connection. -/
def settle (s : Transport) (socket : Nat) (value : Bool) : Transport :=
  match s.outcome socket with
  | some _ => s
  | none => { s with outcome := Function.update s.outcome socket (some value) }

def terminate (s : Transport) (socket : Nat) : Transport :=
  { s with
    readyState := Function.update s.readyState socket
      (if s.readyState socket = .closed then .closed else .closing) }

/-- Every pending request is rejected as sent. -/
def rejectPending (s : Transport) : Transport :=
  { s with
    pending := []
    stage := fun id =>
      if id ∈ s.pending.map Prod.fst then .unavailable true else s.stage id }

def failed (s : Transport) (socket : Nat) : Transport :=
  if s.socket ≠ some socket then s
  else
    (({ s with ready := false, socket := none } : Transport).rejectPending
      ).settle socket false

/-- A new socket, with a promise for its connection. -/
def openSocket (s : Transport) : Transport :=
  { s with
    socket := some s.created
    created := s.created + 1
    connecting := some s.created }

/-- `connect` up to where it first waits, for a request; `early` is before the
next time that a connection may be made. -/
def connectFor (s : Transport) (id : Nat) (early : Bool) : Transport :=
  if s.credentialRejected then s.settleRequest id
  else if s.closed ∨ s.enabled = false then s.setStage id (.connected false)
  else if s.ready ∧ s.socket.any (s.readyState · = .opened) then
    s.setStage id (.connected true)
  else
    match s.connecting with
    | some socket => s.setStage id (.connecting socket false)
    | none =>
      if early then s.setStage id (.connected false)
      else s.openSocket.setStage id (.connecting s.created true)

/-- A new request, whose number is `s.issued`. -/
def issue (s : Transport) (input : Input) : Transport :=
  { s with
    issued := s.issued + 1
    input := Function.update s.input s.issued input }

/-- `request` up to where it first waits. -/
def request (s : Transport) (input : Input) (early : Bool) : Transport :=
  let id := s.issued
  let s := s.issue input
  if s.closed then s.settleRequest id
  else if input.identity = false then s.settleRequest id
  else if input.action = none ∨ s.enabled = false then s.bridgeRequest id
  else if input.wellFormed = false then s.settleRequest id
  else s.connectFor id early

/-- `rpc` behind its connection; `crowded` is a buffer without room. -/
def rpc (s : Transport) (id : Nat) (value crowded : Bool) : Transport :=
  match s.socket with
  | none => s.setStage id (.unavailable false)
  | some socket =>
    if value = false ∨ s.closed ∨ s.ready = false then
      s.setStage id (.unavailable false)
    else if bridgeSocketMaximumFrameBytes < (s.input id).size then
      s.settleRequest id
    else if maximumPending ≤ s.pending.length ∨ crowded then
      s.setStage id (.unavailable false)
    else if s.readyState socket = .connecting then
      -- `socket.send` throws.
      (s.setStage id (.unavailable true)).terminate socket
    else
      { s.setStage id (.sent socket) with
        pending := s.pending ++ [(id, socket)]
        log := s.log ++ [.transmitted id (some socket)] }

/-- The continuation of a request behind its `await`. -/
def proceed (s : Transport) (id : Nat) (crowded : Bool) : Transport :=
  match s.stage id with
  | .connecting socket creator =>
    match s.outcome socket with
    | some value =>
      if s.finished socket = false then s
      else if creator && s.credentialRejected then s.settleRequest id
      else s.setStage id (.connected value)
    | none => s
  | .connected value => s.rpc id value crowded
  | .answered => s.settleRequest id
  | .unavailable sent =>
    if s.closed then s.settleRequest id
    else if sent && !(s.input id).repeatable then s.settleRequest id
    else s.bridgeRequest id
  | _ => s

/-- The `finally` of a connection. -/
def finish (s : Transport) (socket : Nat) : Transport :=
  if (s.outcome socket).isSome ∧ s.finished socket = false then
    { s with
      connecting := none
      finished := Function.update s.finished socket true }
  else s

/-- The timer of a request that has been sent. -/
def sendTimeout (s : Transport) (id : Nat) : Transport :=
  match s.stage id with
  | .sent socket =>
    ({ s.setStage id (.unavailable true) with
      pending := s.pending.filter (·.1 ≠ id) } : Transport).terminate socket
  | _ => s

/-- The timer of a connection, unless it has been settled. -/
def connectTimeout (s : Transport) (socket : Nat) : Transport :=
  match s.outcome socket with
  | some _ => s
  | none => (s.settle socket false).terminate socket

def protocolFailed (s : Transport) (socket : Nat) : Transport :=
  (s.failed socket).terminate socket

def welcome (s : Transport) (socket : Nat) (agrees : Bool) : Transport :=
  if s.socket ≠ some socket then s
  else if s.ready ∨ agrees = false then s.protocolFailed socket
  else
    ({ s with ready := true, welcomed := true } : Transport).settle socket true

def response (s : Transport) (socket id : Nat) : Transport :=
  if s.socket ≠ some socket then s
  else if s.ready = false then s.protocolFailed socket
  else if id ∈ s.pending.map Prod.fst then
    { s.setStage id .answered with
      pending := s.pending.filter (·.1 ≠ id) }
  else s

/-- A frame for a listener; it may throw. -/
def event (s : Transport) (socket : Nat) (accepted : Bool) : Transport :=
  if s.socket ≠ some socket then s
  else if s.ready = false ∨ accepted = false then s.protocolFailed socket
  else s

/-- The reconnection timer. -/
def reconnect (s : Transport) (early : Bool) : Transport :=
  if s.closed ∨ s.enabled = false ∨ s.credentialRejected then s
  else if s.ready ∧ s.socket.any (s.readyState · = .opened) then s
  else if s.connecting.isSome ∨ early then s
  else s.openSocket

def close (s : Transport) : Transport :=
  match s.socket with
  | some socket => ({ s with closed := true } : Transport).terminate socket
  | none => { s with closed := true }

end Transport

inductive Action
  | request (input : Input) (early : Bool)
  | proceed (id : Nat) (crowded : Bool)
  | finish (socket : Nat)
  | sendTimeout (id : Nat)
  | connectTimeout (socket : Nat)
  | opened (socket : Nat)
  | welcome (socket : Nat) (agrees : Bool)
  | response (socket id : Nat)
  | event (socket : Nat) (accepted : Bool)
  | malformed (socket : Nat)
  | error (socket : Nat)
  | sendFailed (socket : Nat)
  | closeEvent (socket : Nat)
  | unexpectedResponse (socket : Nat) (denied : Bool)
  | reconnect (early : Bool)
  | httpDone (id : Nat)
  | close

def transportStep (s : Transport) : Action → Transport
  | .request input early => s.request input early
  | .proceed id crowded => s.proceed id crowded
  | .finish socket => s.finish socket
  | .sendTimeout id => s.sendTimeout id
  | .connectTimeout socket => s.connectTimeout socket
  | .opened socket =>
    if s.readyState socket = .connecting then
      { s with readyState := Function.update s.readyState socket .opened }
    else s
  | .welcome socket agrees => s.welcome socket agrees
  | .response socket id => s.response socket id
  | .event socket accepted => s.event socket accepted
  | .malformed socket => s.protocolFailed socket
  | .error socket => s.protocolFailed socket
  | .sendFailed socket => s.terminate socket
  | .closeEvent socket =>
    s.failed socket |> fun s =>
      { s with readyState := Function.update s.readyState socket .closed }
  | .unexpectedResponse socket denied =>
    ({ s with credentialRejected := s.credentialRejected || denied } :
      Transport).protocolFailed socket
  | .reconnect early => s.reconnect early
  | .httpDone id =>
    match s.stage id with
    | .http => s.settleRequest id
    | _ => s
  | .close => s.close

def bridgeDualTransport : Machine Transport Action Unit where
  step s action := (transportStep s action, ())

end Allrice.BridgeTransport
