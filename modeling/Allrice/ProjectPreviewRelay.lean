/-
One channel of the preview relay.  What the service gives is taken from its
socket or its response by a loop that sends a frame and waits for the
acknowledgement, while frames of the peer, timers and the end of the channel
come in between: every continuation behind an `await` is a step of its own.
-/
import Allrice.Runs

namespace Allrice.ProjectPreview

def maximumHttpBytes : Nat := 16000000

/-- What the peer may send on a channel. -/
def maximumInput (websocket : Bool) : Nat :=
  if websocket then 16000000 else maximumHttpBytes

def maximumWaitingBytes : Nat := 1000000

def pieceBytes : Nat := 250000

/-- A frame to the peer; what a response says is left out. -/
inductive ClientFrame
  | response
  | data (sequence : Nat) (bytes : List UInt8)
  | ended (error : Bool)
deriving DecidableEq

/-- What happens on a channel, in order: a frame is sent, an acknowledgement is
accepted, the channel is closed. -/
inductive Happening
  | sent (frame : ClientFrame)
  | acknowledged (sequence : Nat)
  | closed
deriving DecidableEq

inductive Settled
  | pending
  | resolved
  | rejected
deriving DecidableEq

/-- A data frame that is being sent: registered first, handed to the connection
by a microtask of its own, and awaited together with its acknowledgement. -/
structure SendCall where
  sequence : Nat
  bytes : List UInt8
  transmitted : Bool
  answer : Settled
  ack : Settled

/-- A callback in the queue of the service's socket. -/
inductive Item
  | message (bytes : List UInt8)
  | close
deriving DecidableEq

/-- The loop that takes what the service gives: before its next round, waiting
for a frame, with an exception on its way, behind the normal end. -/
inductive Pump
  | unstarted
  | requesting
  | responding
  | idle
  | sending (size : Nat)
  | failed (size : Nat)
  | ending
  | done
deriving DecidableEq

/-- What the queue of the channel waits for. -/
inductive Task
  | verifying
  | connecting
  | handshaking
  | responding
  | idle
  | writing
  | fetching
  | fetched
  | failed
deriving DecidableEq

/-- A frame of the peer in the queue. -/
inductive Queued
  | data (bytes : List UInt8)
  | ended

structure Entry where
  websocket : Bool
  /-- The relay still knows the channel by its id. -/
  present : Bool
  closed : Bool
  socket : Bool
  ready : Bool
  size : Nat
  body : List UInt8
  queue : List Queued
  task : Task
  sequence : Nat
  pending : Option Nat
  call : Option SendCall
  released : Bool
  waiting : Nat
  items : List Item
  total : Nat
  pieces : List (List UInt8)
  pump : Pump
  produced : List UInt8
  log : List Happening

def Entry.opened (websocket : Bool) : Entry where
  websocket := websocket
  present := true
  closed := false
  socket := false
  ready := false
  size := 0
  body := []
  queue := []
  task := .verifying
  sequence := 0
  pending := none
  call := none
  released := false
  waiting := 0
  items := []
  total := 0
  pieces := []
  pump := if websocket then .idle else .unstarted
  produced := []
  log := []

namespace Entry

def send (e : Entry) (frame : ClientFrame) : Entry :=
  { e with log := e.log ++ [.sent frame] }

def rejectAck (call : SendCall) : SendCall :=
  { call with ack := if call.ack = .pending then .rejected else call.ack }

/-- `e.end`. -/
def endChannel (e : Entry) : Entry :=
  if e.closed then e
  else
    { e with
      closed := true
      present := false
      call := if e.pending.isSome then e.call.map rejectAck else e.call
      pending := none
      log := e.log ++ [.closed] }

/-- An end with an error, and the end of the channel. -/
def abort (e : Entry) : Entry := (e.send (.ended true)).endChannel

/-- `e.send` of a data frame, up to where it first waits; `none` is thrown. -/
def sendData (e : Entry) (alive : Bool) (bytes : List UInt8) : Option Entry :=
  if e.closed ∨ e.pending.isSome ∨ alive = false then none
  else
    some { e with
      sequence := e.sequence + 1
      pending := some (e.sequence + 1)
      call := some ⟨e.sequence + 1, bytes, false, .pending, .pending⟩ }

/-- The loop awaits `e.send`. -/
def pumpData (e : Entry) (alive : Bool) (bytes : List UInt8) : Entry :=
  match e.sendData alive bytes with
  | some e => { e with pump := .sending bytes.length }
  | none => { e with pump := .failed bytes.length }

/-- The microtask that hands the frame to the connection. -/
def transmit (e : Entry) : Entry :=
  match e.call with
  | some call =>
    if call.transmitted then e
    else
      { e with
        call := some { call with transmitted := true }
        log := e.log ++ [.sent (.data call.sequence call.bytes)] }
  | none => e

/-- The connection has taken the frame, or not. -/
def answered (e : Entry) (taken : Bool) : Entry :=
  match e.call with
  | some call =>
    if call.transmitted ∧ call.answer = .pending then
      { e with
        call := some
          { call with answer := if taken then .resolved else .rejected } }
    else e
  | none => e

/-- The timer of the acknowledgement. -/
def timeout (e : Entry) : Entry :=
  if e.pending.isSome then { e with call := e.call.map rejectAck } else e

/-- `receive` of an acknowledgement. -/
def ack (e : Entry) (sequence : Nat) (alive : Bool) : Entry :=
  if e.present = false then e
  else if e.pending ≠ some sequence ∨ alive = false then e.abort
  else
    { e with
      pending := none
      call := e.call.map fun call =>
        { call with
          ack := if call.ack = .pending then .resolved else call.ack }
      log := e.log ++ [.acknowledged sequence] }

/-- `e.send` goes on: both promises are kept, or one is broken.  Its microtask
was queued before either, so the frame has been handed over. -/
def settle (e : Entry) : Entry :=
  match e.call, e.pump with
  | some call, .sending size =>
    if call.transmitted then
      let pending :=
        if e.pending = some call.sequence then none else e.pending
      if call.answer = .rejected ∨ call.ack = .rejected then
        { e with call := none, pending := pending, pump := .failed size }
      else if call.answer = .resolved ∧ call.ack = .resolved then
        { e with
          call := none
          pending := pending
          pump := .idle
          waiting := e.waiting - size }
      else e
    else e
  | _, _ => e

def clientData (e : Entry) (bytes : List UInt8) : Entry :=
  if e.present = false then e
  else
    let size := e.size + bytes.length
    if maximumInput e.websocket < size then
      ({ e with size } : Entry).endChannel
    else { e with size, queue := e.queue ++ [.data bytes] }

def clientEnded (e : Entry) (error : Bool) : Entry :=
  if e.present = false then e
  else if error then e.endChannel
  else { e with queue := e.queue ++ [.ended] }

/-- The next callback of the queue; a response to the peer's end is fetched by
the loop below. -/
def runTask (e : Entry) (alive : Bool) : Entry :=
  match e.task, e.queue with
  | .idle, queued :: queue =>
    let e := { e with queue }
    if e.closed then e
    else if alive = false then { e with task := .failed }
    else
      match queued with
      | .data bytes =>
        if e.websocket then
          if e.ready = false ∨ e.socket = false then
            { e with task := .failed }
          else { e with task := .writing }
        else { e with body := e.body ++ bytes }
      | .ended =>
        if e.websocket then e.endChannel
        else { e with body := [], task := .fetching, pump := .requesting }
  | _, _ => e

/-- What the queue awaited has come: `open` goes on, a write has ended, the
response has been fetched. -/
def taskGoesOn (e : Entry) (succeeded alive : Bool) : Entry :=
  match e.task with
  | .verifying =>
    if succeeded && alive then { e with task := .connecting }
    else { e with task := .failed }
  | .connecting =>
    if succeeded = false then { e with task := .failed }
    else if e.websocket then { e with task := .handshaking, socket := true }
    else { e with task := .idle }
  | .handshaking =>
    if succeeded && alive then
      ({ e with task := .responding, ready := true } : Entry).send .response
    else { e with task := .failed }
  | .responding =>
    if succeeded then { e with task := .idle, released := true }
    else { e with task := .failed }
  | .writing =>
    if succeeded then { e with task := .idle } else { e with task := .failed }
  | .fetching => if succeeded then e else { e with task := .failed }
  | .fetched => ({ e with task := .idle } : Entry).endChannel
  | .failed => ({ e with task := .idle } : Entry).abort
  | .idle => e

def message (e : Entry) (bytes : List UInt8) : Entry :=
  if e.websocket = false ∨ e.socket = false ∨ .close ∈ e.items then e
  else
    let e :=
      { e with
        waiting := e.waiting + bytes.length
        produced := e.produced ++ bytes }
    if maximumWaitingBytes < e.waiting then e.endChannel
    else { e with items := e.items ++ [Item.message bytes] }

def socketClosed (e : Entry) (normal : Bool) : Entry :=
  if e.websocket = false ∨ e.socket = false then e
  else if normal = false then e.abort
  else { e with items := e.items ++ [Item.close] }

/-- The next callback of that queue; both readings of the target are its own. -/
def take (e : Entry) (alive aliveAgain : Bool) : Entry :=
  match e.pump, e.items with
  | .idle, item :: items =>
    if e.websocket ∧ e.released then
      let e := { e with items }
      match item with
      | .message bytes =>
        if e.closed = false ∧ alive = true then e.pumpData aliveAgain bytes
        else { e with waiting := e.waiting - bytes.length }
      | .close =>
        if e.closed then e
        else { e.send (.ended false) with pump := .ending }
    else e
  | _, _ => e

/-- The pieces of a chunk. -/
def piecesOf (bytes : List UInt8) : List (List UInt8) :=
  if bytes = [] then []
  else bytes.take pieceBytes :: piecesOf (bytes.drop pieceBytes)
termination_by bytes.length
decreasing_by
  rename_i hbytes
  have hlength := List.length_pos_iff.2 hbytes
  rw [List.length_drop]
  simp only [pieceBytes]
  omega

def responded (e : Entry) : Entry :=
  match e.pump with
  | .requesting => { e.send .response with pump := .responding }
  | _ => e

def responseTaken (e : Entry) (taken : Bool) : Entry :=
  match e.pump with
  | .responding =>
    if taken then { e with pump := .idle } else { e with pump := .failed 0 }
  | _ => e

def chunk (e : Entry) (bytes : List UInt8) (alive : Bool) : Entry :=
  match e.pump, e.pieces with
  | .idle, [] =>
    if e.websocket then e
    else
      let e :=
        { e with
          total := e.total + bytes.length
          produced := e.produced ++ bytes }
      if maximumHttpBytes < e.total ∨ alive = false then
        { e with pump := .failed 0 }
      else { e with pieces := piecesOf bytes }
  | _, _ => e

def piece (e : Entry) (alive : Bool) : Entry :=
  match e.pump, e.pieces with
  | .idle, bytes :: pieces =>
    if e.websocket then e
    else ({ e with pieces } : Entry).pumpData alive bytes
  | _, _ => e

def responseFailed (e : Entry) : Entry :=
  match e.pump with
  | .idle => if e.websocket then e else { e with pump := .failed 0 }
  | _ => e

def finish (e : Entry) : Entry :=
  match e.pump, e.pieces with
  | .idle, [] =>
    if e.websocket then e
    else { e.send (.ended false) with pump := .ending }
  | _, _ => e

/-- The loop behind its normal end. -/
def endSent (e : Entry) (threw : Bool) : Entry :=
  match e.pump with
  | .ending =>
    if e.websocket then ({ e with pump := .done } : Entry).endChannel
    else if e.task = .fetching then
      { e with pump := .done, task := if threw then .failed else .fetched }
    else { e with pump := .done }
  | _ => e

/-- The `catch` behind the loop. -/
def caught (e : Entry) : Entry :=
  match e.pump with
  | .failed size =>
    if e.websocket then
      ({ e with pump := .idle, waiting := e.waiting - size } :
        Entry).endChannel
    else if e.task = .fetching then
      { e with pump := .done, task := .failed }
    else { e with pump := .done }
  | _ => e

end Entry

inductive Action
  | ack (sequence : Nat) (alive : Bool)
  | clientData (bytes : List UInt8)
  | clientEnded (error : Bool)
  | timeout
  | transmit
  | answered (taken : Bool)
  | settle
  | runTask (alive : Bool)
  | taskGoesOn (succeeded alive : Bool)
  | message (bytes : List UInt8)
  | socketFailed
  | socketClosed (normal : Bool)
  | take (alive aliveAgain : Bool)
  | responded
  | responseTaken (taken : Bool)
  | chunk (bytes : List UInt8) (alive : Bool)
  | piece (alive : Bool)
  | responseFailed
  | finish
  | endSent (threw : Bool)
  | caught
  | close

def relayStep (e : Entry) : Action → Entry
  | .ack sequence alive => e.ack sequence alive
  | .clientData bytes => e.clientData bytes
  | .clientEnded error => e.clientEnded error
  | .timeout => e.timeout
  | .transmit => e.transmit
  | .answered taken => e.answered taken
  | .settle => e.settle
  | .runTask alive => e.runTask alive
  | .taskGoesOn succeeded alive => e.taskGoesOn succeeded alive
  | .message bytes => e.message bytes
  | .socketFailed => if e.socket then e.endChannel else e
  | .socketClosed normal => e.socketClosed normal
  | .take alive aliveAgain => e.take alive aliveAgain
  | .responded => e.responded
  | .responseTaken taken => e.responseTaken taken
  | .chunk bytes alive => e.chunk bytes alive
  | .piece alive => e.piece alive
  | .responseFailed => e.responseFailed
  | .finish => e.finish
  | .endSent threw => e.endSent threw
  | .caught => e.caught
  | .close => if e.present then e.endChannel else e

def projectPreviewRelay : Machine Entry Action Unit where
  step e action := (relayStep e action, ())

end Allrice.ProjectPreview
