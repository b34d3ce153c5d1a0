/-
The gateway between Bridge sockets and the server.  A socket is admitted by the
authority and then carries requests, terminal frames and preview frames; every
piece of work that the gateway starts is owned by its connection, its channel
or the gateway itself, and a closing owner waits for what it owns.

A task stands for one asynchronous body, a call for one question to the
authority and a send for one frame under way.  Their lists only grow, and a
number names what stands at that place.
-/
import Allrice.RuntimeIdentity
import Allrice.Runs

namespace Allrice.BridgeGateway

def bridgeSocketMaximumFrameBytes : Nat := 750000

def bridgeSocketMaximumBufferedBytes : Nat := 1500000

def terminalMaximumScreenBytes : Nat := 2 * 1024 * 1024

/-- What a terminal channel may hold. -/
def terminalBytes : Nat := terminalMaximumScreenBytes + 512 * 1024

/-- What all terminal channels may hold, and what all requests may hold. -/
def gatewayTerminalBytes : Nat := 16 * 1024 * 1024

def gatewayRequestBytes : Nat := 8 * 1024 * 1024

structure Target where
  deviceId : Uuid
  organizationId : Uuid
  workspaceId : Uuid
deriving DecidableEq

/-- The part of a connection that `upgrade` runs.  `leaving` waits for the raw
socket of a connection that was not handed off. -/
inductive Phase
  | registering
  | checking (call : Nat)
  | live
  | leaving
  | releasing
  | retired
deriving DecidableEq

/-- How far the `done` of a terminated client has come. -/
inductive Ending
  | none
  | waiting
  | draining
  | settling
  | releasing
  | ended (ok : Bool)
deriving DecidableEq

/-- `target` is known once the authority has registered the connection;
`members` are the channels that its termination closed; `releases` counts the
calls of `authority.release`, `released` is the answer. -/
structure Client where
  phase : Phase
  target : Option Target
  socketClosed : Bool
  closing : Bool
  owned : Bool
  alive : Bool
  checking : Bool
  wakeupPending : Bool
  pending : Int
  pendingBytes : Int
  requestIds : List Uuid
  members : List Nat
  ending : Ending
  releases : Nat
  released : Option Bool

def Client.upgrading : Client :=
  { phase := .registering
    target := none
    socketClosed := false
    closing := false
    owned := false
    alive := true
    checking := false
    wakeupPending := false
    pending := 0
    pendingBytes := 0
    requestIds := []
    members := []
    ending := .none
    releases := 0
    released := none }

inductive Kind
  | terminal | preview
deriving DecidableEq

/-- How far the `done` of a closed channel has come. -/
inductive ChannelEnding
  | none
  | draining
  | closing
  | ended (ok : Bool)
deriving DecidableEq

/-- `opened` says that its opener got a handle, `closes` counts the calls of
`onClose`.  A channel is in the registry as long as it is not closed. -/
structure Channel where
  kind : Kind
  client : Nat
  id : Uuid
  bytes : Int
  sequence : Nat
  consuming : Bool
  opened : Bool
  closed : Bool
  terminal : Bool
  owned : Bool
  ending : ChannelEnding
  closes : Nat

inductive PreviewFrame
  | response
  | data (sequence : Nat)
  | finish (error : Bool)

inductive Frame
  | terminal (ended : Bool)
  | preview (frame : PreviewFrame)

inductive Purpose
  | request (id : Uuid)
  | frame (channel : Nat) (frame : Frame)
  | heartbeat
  | wakeup
  | recheck
  | opening (channel : Nat)
  | push (channel : Nat)

/-- `asking` awaits `current`, `answered` holds what it returned, `handling`
awaits the handler and `sending` a frame; `finishing` is left by the last
callback of the promise.  A request asks a second time after its dispatch. -/
inductive Stage
  | queued
  | asking (again : Bool) (call : Nat)
  | answered (again : Bool) (ok : Bool)
  | handling
  | sending (send : Nat)
  | finishing
  | finished
deriving DecidableEq

/-- `arrived` is how many calls the authority had been asked before; `handed`
says that the dispatch or the handler was called. -/
structure Task where
  client : Nat
  purpose : Purpose
  size : Nat
  arrived : Nat
  stage : Stage
  handed : Bool

/-- A call of `authority.current`; a rejection counts as the answer no. -/
structure Call where
  client : Nat
  renew : Bool
  started : Bool
  answer : Option Bool

inductive SendStage
  | deferred
  | flying
  | settled (ok : Bool)
deriving DecidableEq

/-- `notice` is the channel that waits for its own end notice. -/
structure Send where
  client : Nat
  notice : Option Nat
  stage : SendStage

/-- What `close` waits for. -/
structure Closing where
  channels : List Nat
  clients : List Nat
  unsubscribed : Option Bool
  drained : Bool
  serverClosed : Bool
  result : Option Bool

/-- `wire` holds the connections of the frames that were sent. -/
structure Gateway where
  clients : List Client
  channels : List Channel
  tasks : List Task
  calls : List Call
  sends : List Send
  pendingBytes : Int
  stopping : Bool
  cleanupFailed : Bool
  closing : Option Closing
  wire : List Nat

def Gateway.initial : Gateway :=
  ⟨[], [], [], [], [], 0, false, false, none, []⟩

namespace Gateway

def setClient (g : Gateway) (c : Nat) (f : Client → Client) : Gateway :=
  { g with clients := g.clients.modify c f }

def setChannel (g : Gateway) (e : Nat) (f : Channel → Channel) : Gateway :=
  { g with channels := g.channels.modify e f }

def setTask (g : Gateway) (t : Nat) (f : Task → Task) : Gateway :=
  { g with tasks := g.tasks.modify t f }

def setCall (g : Gateway) (k : Nat) (f : Call → Call) : Gateway :=
  { g with calls := g.calls.modify k f }

def setSend (g : Gateway) (s : Nat) (f : Send → Send) : Gateway :=
  { g with sends := g.sends.modify s f }

def goTo (g : Gateway) (t : Nat) (stage : Stage) : Gateway :=
  g.setTask t fun task => { task with stage }

/-- A new task; `handed` is set by the step that calls its handler. -/
def spawn (g : Gateway) (client : Nat) (purpose : Purpose) (size : Nat) :
    Gateway :=
  { g with
    tasks := g.tasks ++
      [⟨client, purpose, size, g.calls.length, .queued, false⟩] }

def isClosing (g : Gateway) (c : Nat) : Bool :=
  g.clients[c]?.elim true Client.closing

def isClosed (g : Gateway) (e : Nat) : Bool :=
  g.channels[e]?.elim true Channel.closed

end Gateway

open Gateway

/-- What a step reads of its surroundings: `enabled`, the state of the socket,
and whether its buffers have room. -/
structure Wire where
  enabled : Bool
  opened : Bool
  fits : Bool

/-- Where a channel stands when its client is terminated; the client is closing,
so no notice is sent. -/
def Channel.shut (channel : Channel) : Channel :=
  if channel.closed then channel
  else { channel with closed := true, ending := .draining }

/-- The channels of a client, as its sets hold them. -/
def membersOf (g : Gateway) (c : Nat) : List Nat :=
  (List.range g.channels.length).filter fun e =>
    match g.channels[e]? with
    | some channel => channel.client == c && channel.owned
    | none => false

def terminate (g : Gateway) (c : Nat) : Gateway :=
  if g.isClosing c then g
  else
    { g.setClient c fun client =>
        { client with
          closing := true
          members := membersOf g c
          ending := .waiting } with
      channels := g.channels.map fun channel =>
        if channel.client = c ∧ channel.owned then channel.shut
        else channel }

/-- Where a frame is sent, the number of the send is returned. -/
def sendAsync (g : Gateway) (c : Nat) (wire : Wire)
    (notice : Option Nat) : Gateway × Option Nat :=
  if g.stopping || g.isClosing c || !wire.opened then (g, none)
  else if !wire.fits then (terminate g c, none)
  else
    ({ g with sends := g.sends ++ [⟨c, notice, .deferred⟩] },
      some g.sends.length)

/-- The sends that nothing awaits. -/
def send (g : Gateway) (c : Nat) (wire : Wire) : Gateway :=
  (sendAsync g c wire none).1

/-- Ask the authority.  Where `current` returns at once, there is no call. -/
def current (g : Gateway) (c : Nat) (renew : Bool) (wire : Wire) :
    Gateway × Option Nat :=
  if g.stopping || !wire.enabled || g.isClosing c then (g, none)
  else
    ({ g with calls := g.calls ++ [⟨c, renew, false, none⟩] },
      some g.calls.length)

/-- A task asks the authority. -/
def ask (g : Gateway) (t : Nat) (c : Nat) (again renew : Bool) (wire : Wire) :
    Gateway :=
  match current g c renew wire with
  | (g, none) => g.goTo t (.answered again false)
  | (g, some k) => g.goTo t (.asking again k)

def requestClose (g : Gateway) (e : Nat) (wire : Wire) : Gateway :=
  match g.channels[e]? with
  | none => g
  | some channel =>
    if channel.closed then g
    else
      let g := g.setChannel e fun channel => { channel with closed := true }
      let g :=
        if !channel.terminal && !g.isClosing channel.client then
          (sendAsync g channel.client wire (some e)).1
        else g
      g.setChannel e fun channel => { channel with ending := .draining }

/-- The channel of the registry. -/
def registered (g : Gateway) (kind : Kind) (id : Uuid) : Option Nat :=
  (List.range g.channels.length).find? fun e =>
    match g.channels[e]? with
    | some channel => channel.kind == kind && channel.id == id && !channel.closed
    | none => false

def previewOwner (g : Gateway) (c : Nat) (kind : Kind) (id : Uuid) : Gateway :=
  { g with
    channels := g.channels ++
      [⟨kind, c, id, 0, 1, false, false, false, false, true, .none, 0⟩] }

/-- A connection that was handed off and is not terminated. -/
def isConnected (client : Client) : Bool :=
  client.phase == .live && !client.closing

/-- `openTerminal` and `openPreview` on a connection to the target: the slot is
taken before the authority is asked. -/
def openChannel (g : Gateway) (kind : Kind) (target : Target) (c : Nat)
    (id : Uuid) (wire : Wire) : Gateway :=
  if g.stopping || !wire.enabled then g
  else if g.clients[c]?.all fun client =>
      !(isConnected client && client.target == some target) then g
  else if 64 ≤ g.channels.countP (fun channel =>
        channel.kind == kind && channel.owned) ∨
      8 ≤ g.channels.countP (fun channel =>
        channel.kind == kind && channel.owned && channel.client == c) ∨
      (registered g kind id).isSome then g
  else (previewOwner g c kind id).spawn c (.opening g.channels.length) 0

/-- The `send` of an opened handle; a preview's refuses at once. -/
def push (g : Gateway) (e : Nat) : Gateway :=
  match g.channels[e]? with
  | none => g
  | some channel =>
    if !channel.opened then g
    else if channel.kind = .preview ∧
        (channel.closed || g.isClosing channel.client || g.stopping) then g
    else g.spawn channel.client (.push e) 0

/-- What a message parses as. -/
inductive Message
  | terminal (frame : Option (Uuid × Bool))
  | preview (frame : Option (Uuid × PreviewFrame))
  | request (id : Option Uuid)
  | binary

def terminalFrame (g : Gateway) (c size : Nat) (id : Uuid) (ended : Bool) :
    Gateway :=
  match registered g .terminal id with
  | none => g
  | some e =>
    match g.channels[e]? with
    | none => g
    | some channel =>
      if channel.client ≠ c then terminate g c
      else
        let counted :=
          { g.setChannel e fun channel =>
              { channel with bytes := channel.bytes + size } with
            pendingBytes := g.pendingBytes + size }
        if terminalBytes < channel.bytes + size ∨
            gatewayTerminalBytes < g.pendingBytes + size then
          terminate counted c
        else counted.spawn c (.frame e (.terminal ended)) size

/-- A data frame must be the next one, and the one before it consumed. -/
def outOfOrder (channel : Channel) : PreviewFrame → Bool
  | .data sequence => sequence != channel.sequence || channel.consuming
  | _ => false

def Channel.take (channel : Channel) : PreviewFrame → Channel
  | .data _ =>
    { channel with sequence := channel.sequence + 1, consuming := true }
  | _ => channel

def previewFrame (g : Gateway) (c size : Nat) (id : Uuid)
    (frame : PreviewFrame) : Gateway :=
  match registered g .preview id with
  | none => g
  | some e =>
    match g.channels[e]? with
    | none => g
    | some channel =>
      if channel.client ≠ c then terminate g c
      else if outOfOrder channel frame then terminate g c
      else
        let counted := g.setChannel e fun channel =>
          { channel.take frame with bytes := channel.bytes + size }
        if bridgeSocketMaximumBufferedBytes < channel.bytes + size then
          terminate counted c
        else counted.spawn c (.frame e (.preview frame)) size

/-- The limits on requests that are under way. -/
def inputBackpressure (g : Gateway) (client : Client) (size : Nat) : Prop :=
  8 ≤ client.pending ∨
    bridgeSocketMaximumBufferedBytes < client.pendingBytes + size ∨
    gatewayRequestBytes < g.pendingBytes + size

instance (g : Gateway) (client : Client) (size : Nat) :
    Decidable (inputBackpressure g client size) :=
  inferInstanceAs (Decidable (_ ∨ _ ∨ _))

def requestFrame (g : Gateway) (c size : Nat) (client : Client)
    (request : Option Uuid) : Gateway :=
  if inputBackpressure g client size then terminate g c
  else
    match request with
    | none => terminate g c
    | some id =>
      if id ∈ client.requestIds then terminate g c
      else
        { g.setClient c fun client =>
            { client with
              pending := client.pending + 1
              pendingBytes := client.pendingBytes + size
              requestIds := id :: client.requestIds } with
          pendingBytes := g.pendingBytes + size }.spawn c (.request id) size

/-- The socket's message handler.  A text frame that is too long is taken for a
request, as which it does not parse unless it is one. -/
def message (g : Gateway) (c size : Nat) (message : Message) : Gateway :=
  match g.clients[c]? with
  | none => g
  | some client =>
    if client.phase ≠ .live ∨ g.stopping = true ∨ client.closing = true then g
    else
      match message with
      | .binary => terminate g c
      | .request request => requestFrame g c size client request
      | .terminal frame =>
        if bridgeSocketMaximumFrameBytes < size then
          requestFrame g c size client none
        else
          match frame with
          | none => terminate g c
          | some (id, ended) => terminalFrame g c size id ended
      | .preview frame =>
        if bridgeSocketMaximumFrameBytes < size then
          requestFrame g c size client none
        else
          match frame with
          | none => terminate g c
          | some (id, frame) => previewFrame g c size id frame

/-- Frames of one channel, and requests of one client, wait for the one
before. -/
def sameQueue (first second : Task) : Bool :=
  match first.purpose, second.purpose with
  | .request _, .request _ => first.client == second.client
  | .frame e _, .frame e' _ => e == e'
  | _, _ => false

def behind (g : Gateway) (t : Nat) (task : Task) : Bool :=
  (g.tasks.take t).any fun other =>
    sameQueue other task && other.stage != .finished

/-- The body begins. -/
def begin (g : Gateway) (t : Nat) (task : Task) (wire : Wire) : Gateway :=
  let stopped (e : Nat) : Bool :=
    g.stopping || g.isClosed e || g.isClosing task.client
  match task.purpose with
  | .request _ | .wakeup | .recheck | .opening _ =>
    ask g t task.client false false wire
  | .heartbeat =>
    if g.clients[task.client]?.any Client.alive then
      ask g t task.client false true wire
    else (terminate g task.client).goTo t .finishing
  | .frame e _ =>
    if stopped e then g.goTo t .finishing
    else ask g t task.client false false wire
  | .push e =>
    if (g.channels[e]?.any fun channel => channel.kind == .terminal) &&
        stopped e then g.goTo t .finishing
    else ask g t task.client false false wire

/-- The handler of a frame is called. -/
def hand (g : Gateway) (t : Nat) : Gateway :=
  g.setTask t fun task => { task with stage := .handling, handed := true }

/-- A normal end must not become an abort. -/
def Channel.noteEnd (channel : Channel) : Frame → Channel
  | .terminal true => { channel with terminal := true }
  | .preview (.finish false) => { channel with terminal := true }
  | _ => channel

/-- The body goes on once `current` has returned. -/
def decided (g : Gateway) (t : Nat) (task : Task) (again ok : Bool)
    (wire : Wire) : Gateway :=
  let c := task.client
  match task.purpose with
  | .request _ =>
    if !ok then (terminate g c).goTo t .finishing
    else if g.stopping || g.isClosing c then g.goTo t .finishing
    else if again then (send g c wire).goTo t .finishing
    else hand g t
  | .frame e frame =>
    if !ok then (terminate g c).goTo t .finishing
    else if g.stopping || g.isClosed e || g.isClosing c then
      g.goTo t .finishing
    else hand (g.setChannel e fun channel => channel.noteEnd frame) t
  | .heartbeat =>
    if !ok then (terminate g c).goTo t .finishing
    else if g.stopping || g.isClosing c then g.goTo t .finishing
    else (g.setClient c fun client => { client with alive := false }).goTo t
      .finishing
  | .wakeup =>
    if ok then (send g c wire).goTo t .finishing
    else (terminate g c).goTo t .finishing
  | .recheck =>
    if ok then g.goTo t .finishing
    else (terminate g c).goTo t .finishing
  | .opening e =>
    if !ok || g.isClosed e || g.stopping then
      (requestClose g e wire).goTo t .finishing
    else
      match sendAsync g c wire none with
      | (g, some s) => g.goTo t (.sending s)
      | (g, none) => (requestClose g e wire).goTo t .finishing
  | .push e =>
    if !ok then (terminate g c).goTo t .finishing
    else if g.stopping || g.isClosed e || g.isClosing c then
      g.goTo t .finishing
    else
      match sendAsync g c wire none with
      | (g, some s) => g.goTo t (.sending s)
      | (g, none) => g.goTo t .finishing

/-- The dispatch or the handler has settled. -/
def handled (g : Gateway) (t : Nat) (task : Task) (ok : Bool) (wire : Wire) :
    Gateway :=
  match task.purpose with
  | .request _ =>
    if ok then ask g t task.client true false wire
    else (terminate g task.client).goTo t .finishing
  | .frame e frame =>
    if !ok then (requestClose g e wire).goTo t .finishing
    else
      match frame with
      | .preview (.data _) =>
        if g.isClosed e || g.isClosing task.client then
          g.goTo t .finishing
        else
          match sendAsync (g.setChannel e fun channel =>
              { channel with consuming := false }) task.client wire none
              with
          | (g, some s) => g.goTo t (.sending s)
          | (g, none) => (requestClose g e wire).goTo t .finishing
      | .terminal true => (requestClose g e wire).goTo t .finishing
      | .preview (.finish _) => (requestClose g e wire).goTo t .finishing
      | .terminal false => g.goTo t .finishing
      | .preview .response => g.goTo t .finishing
  | _ => g

/-- The awaited send has settled. -/
def sent (g : Gateway) (t : Nat) (task : Task) (ok : Bool) (wire : Wire) :
    Gateway :=
  match task.purpose with
  | .frame e _ =>
    if ok then g.goTo t .finishing
    else (requestClose g e wire).goTo t .finishing
  | .opening e =>
    if !ok || g.isClosed e || g.stopping || g.isClosing task.client then
      (requestClose g e wire).goTo t .finishing
    else
      (g.setChannel e fun channel => { channel with opened := true }).goTo t
        .finishing
  | _ => g.goTo t .finishing

/-- The last callback gives back what the task had taken. -/
def finish (g : Gateway) (t : Nat) (task : Task) : Gateway :=
  let g := g.goTo t .finished
  match task.purpose with
  | .request id =>
    { g.setClient task.client fun client =>
        { client with
          pending := client.pending - 1
          pendingBytes := client.pendingBytes - task.size
          requestIds := client.requestIds.erase id } with
      pendingBytes := g.pendingBytes - task.size }
  | .frame e (.terminal _) =>
    { g.setChannel e fun channel =>
        { channel with bytes := channel.bytes - task.size } with
      pendingBytes := g.pendingBytes - task.size }
  | .frame e _ =>
    g.setChannel e fun channel =>
      { channel with bytes := channel.bytes - task.size }
  | .heartbeat =>
    g.setClient task.client fun client => { client with checking := false }
  | .wakeup =>
    g.setClient task.client fun client =>
      { client with wakeupPending := false }
  | _ => g

/-- A task goes on from where it stands.  `outcome` is what its handler
answers, or that `current` has run out of its time. -/
def advance (g : Gateway) (t : Nat) (outcome : Bool) (wire : Wire) : Gateway :=
  match g.tasks[t]? with
  | none => g
  | some task =>
    match task.stage with
    | .queued => if behind g t task then g else begin g t task wire
    | .asking again k =>
      if !outcome then g.goTo t (.answered again false)
      else
        match g.calls[k]?.bind Call.answer with
        | none => g
        | some answer => g.goTo t (.answered again (answer &&
            !g.stopping && wire.enabled && !g.isClosing task.client))
    | .answered again ok => decided g t task again ok wire
    | .handling => handled g t task outcome wire
    | .sending s =>
      match g.sends[s]?.map Send.stage with
      | some (.settled ok) => sent g t task ok wire
      | _ => g
    | .finishing => finish g t task
    | .finished => g

/-- The deferred body asks the authority. -/
def startCall (g : Gateway) (k : Nat) : Gateway :=
  g.setCall k fun call => { call with started := true }

/-- The first answer is the answer. -/
def Call.settle (answer : Bool) (call : Call) : Call :=
  if call.started && call.answer.isNone then { call with answer := some answer }
  else call

def settleCall (g : Gateway) (k : Nat) (answer : Bool) : Gateway :=
  g.setCall k (Call.settle answer)

/-- The deferred body of a send looks at the connection again. -/
def flush (g : Gateway) (s : Nat) (wire : Wire) : Gateway :=
  match g.sends[s]? with
  | none => g
  | some found =>
    if found.stage ≠ .deferred then g
    else if g.stopping || g.isClosing found.client || !wire.opened then
      g.setSend s fun found => { found with stage := .settled false }
    else
      { g.setSend s fun found => { found with stage := .flying } with
        wire := g.wire ++ [found.client] }

/-- The callback of a send that was put on the socket. -/
def settleSend (g : Gateway) (s : Nat) (ok : Bool) : Gateway :=
  match g.sends[s]? with
  | none => g
  | some found =>
    if found.stage ≠ .flying then g
    else
      (if ok then g else terminate g found.client).setSend s fun found =>
        { found with stage := .settled ok }

/-- The connections whose upgrade has not ended. -/
def authenticating (g : Gateway) : Nat :=
  g.clients.countP fun client =>
    client.phase != .live && client.phase != .retired

/-- `acceptable` is the check of the request line and its headers. -/
def upgrade (g : Gateway) (maximumConnections : Nat) (acceptable : Bool)
    (wire : Wire) : Gateway :=
  if g.stopping || !wire.enabled || !acceptable then g
  else if maximumConnections ≤
        g.clients.countP Client.owned + authenticating g ∨
      32 ≤ authenticating g then g
  else { g with clients := g.clients ++ [.upgrading] }

/-- Not handed off: the socket is destroyed and its close awaited. -/
def leave (g : Gateway) (c : Nat) : Gateway :=
  g.setClient c fun client => { client with phase := .leaving }

/-- `authority.register` answers with the connection or fails; `destroyed` is
the state of the raw socket. -/
def registerAnswers (g : Gateway) (c : Nat) (target : Option Target)
    (destroyed : Bool) (wire : Wire) : Gateway :=
  match g.clients[c]? with
  | none => g
  | some client =>
    if client.phase ≠ .registering then g
    else
      match target with
      | none => leave g c
      | some target =>
        let g := g.setClient c fun client =>
          { client with target := some target }
        if destroyed || g.stopping || !wire.enabled then leave g c
        else
          { g.setClient c fun client =>
              { client with phase := .checking g.calls.length } with
            calls := g.calls ++ [⟨c, false, true, none⟩] }

/-- The authority's first answer decides on the hand-off. -/
def handOff (g : Gateway) (c : Nat) (destroyed upgraded : Bool)
    (wire : Wire) : Gateway :=
  match g.clients[c]? with
  | none => g
  | some client =>
    match client.phase with
    | .checking k =>
      match g.calls[k]?.bind Call.answer with
      | none => g
      | some answer =>
        if !answer || destroyed || g.stopping || !wire.enabled ||
            !upgraded then leave g c
        else
          send (g.setClient c fun client =>
            { client with phase := .live, owned := true }) c wire
    | _ => g

/-- The raw socket has closed. -/
def socketCloses (g : Gateway) (c : Nat) : Gateway :=
  g.setClient c fun client => { client with socketClosed := true }

/-- The socket of a client reports an error or its end. -/
def drop (g : Gateway) (c : Nat) : Gateway :=
  match g.clients[c]? with
  | none => g
  | some client => if client.phase = .live then terminate g c else g

/-- The work of a client: its tasks on the connection, its calls and its
sends. -/
def Task.onClient (c : Nat) (task : Task) : Bool :=
  task.client == c && match task.purpose with
    | .request _ | .heartbeat | .wakeup | .recheck => true
    | .frame _ _ | .opening _ | .push _ => false

def clientDrained (g : Gateway) (c : Nat) : Bool :=
  (g.tasks.all fun task => !task.onClient c || task.stage == .finished) &&
    (g.calls.all fun call => call.client != c || call.answer.isSome) &&
    g.sends.all fun send => send.client != c ||
      match send.stage with
      | .settled _ => true
      | _ => false

/-- The work of a channel: its frames, its opener, its pushes and its notice. -/
def Task.onChannel (e : Nat) (task : Task) : Bool :=
  match task.purpose with
  | .frame e' _ | .opening e' | .push e' => e' == e
  | .request _ | .heartbeat | .wakeup | .recheck => false

def channelDrained (g : Gateway) (e : Nat) : Bool :=
  (g.tasks.all fun task => !task.onChannel e || task.stage == .finished) &&
    g.sends.all fun send => send.notice != some e ||
      match send.stage with
      | .settled _ => true
      | _ => false

def endingOf (g : Gateway) (e : Nat) : ChannelEnding :=
  g.channels[e]?.elim .none Channel.ending

def settledEnding : ChannelEnding → Bool
  | .ended _ => true
  | _ => false

/-- The `done` of a client, one await after the other; `ok` is the answer of
`authority.release`. -/
def advanceDone (g : Gateway) (c : Nat) (ok : Bool) : Gateway :=
  match g.clients[c]? with
  | none => g
  | some client =>
    match client.ending with
    | .none => g
    | .waiting =>
      if client.socketClosed then
        g.setClient c fun client => { client with ending := .draining }
      else g
    | .draining =>
      if clientDrained g c then
        g.setClient c fun client => { client with ending := .settling }
      else g
    | .settling =>
      if client.members.all fun e => settledEnding (endingOf g e) then
        g.setClient c fun client =>
          { client with
            ending := .releasing
            releases := client.releases + 1 }
      else g
    | .releasing =>
      g.setClient c fun client =>
        { client with
          released := some ok
          ending := .ended (ok && client.members.all fun e =>
            endingOf g e == .ended true) }
    | .ended _ => g

/-- The `finally` of an upgrade that was not handed off. -/
def advanceLeaving (g : Gateway) (c : Nat) (ok : Bool) : Gateway :=
  match g.clients[c]? with
  | none => g
  | some client =>
    match client.phase with
    | .leaving =>
      if !client.socketClosed then g
      else if client.target.isSome then
        g.setClient c fun client =>
          { client with
            phase := .releasing
            releases := client.releases + 1 }
      else g.setClient c fun client => { client with phase := .retired }
    | .releasing =>
      { g.setClient c fun client =>
          { client with phase := .retired, released := some ok } with
        cleanupFailed := g.cleanupFailed || !ok }
    | _ => g

/-- The `done` of a channel; `ok` is the outcome of `onClose`. -/
def advanceChannel (g : Gateway) (e : Nat) (ok : Bool) : Gateway :=
  match g.channels[e]? with
  | none => g
  | some channel =>
    match channel.ending with
    | .draining =>
      if channelDrained g e then
        g.setChannel e fun channel =>
          { channel with
            ending := .closing
            closes := channel.closes + 1 }
      else g
    | .closing =>
      g.setChannel e fun channel => { channel with ending := .ended ok }
    | _ => g

/-- `observeCleanup` hears of a client and of a channel. -/
def observeClient (g : Gateway) (c : Nat) : Gateway :=
  match g.clients[c]? with
  | none => g
  | some client =>
    match client.ending with
    | .ended ok =>
      { g.setClient c fun client => { client with owned := false } with
        cleanupFailed := g.cleanupFailed || !ok }
    | _ => g

def observeChannel (g : Gateway) (e : Nat) : Gateway :=
  match g.channels[e]? with
  | none => g
  | some channel =>
    match channel.ending with
    | .ended ok =>
      { g.setChannel e fun channel => { channel with owned := false } with
        cleanupFailed := g.cleanupFailed || !ok }
    | _ => g

def beat (g : Gateway) (c : Nat) : Gateway :=
  match g.clients[c]? with
  | none => g
  | some client =>
    if g.stopping || !isConnected client || client.checking then g
    else
      (g.setClient c fun client => { client with checking := true }).spawn c
        .heartbeat 0

/-- A notice for the device of the client: of work, or of another kind. -/
def notify (g : Gateway) (c : Nat) (work : Bool) : Gateway :=
  match g.clients[c]? with
  | none => g
  | some client =>
    if g.stopping || !isConnected client then g
    else if !work then g.spawn c .recheck 0
    else if client.wakeupPending then g
    else
      (g.setClient c fun client =>
        { client with wakeupPending := true }).spawn c .wakeup 0

def ownedChannels (g : Gateway) : List Nat :=
  (List.range g.channels.length).filter fun e =>
    g.channels[e]?.any Channel.owned

def ownedClients (g : Gateway) : List Nat :=
  (List.range g.clients.length).filter fun c =>
    g.clients[c]?.any Client.owned

def close (g : Gateway) (wire : Wire) : Gateway :=
  match g.closing with
  | some _ => g
  | none =>
    let channels := ownedChannels g
    let clients := ownedClients g
    let g := { g with
      stopping := true
      closing := some ⟨channels, clients, none, false, false, none⟩ }
    let g := channels.foldl (fun g e => requestClose g e wire) g
    clients.foldl terminate g

/-- The gateway's own work: upgrades and openers. -/
def gatewayDrained (g : Gateway) : Bool :=
  (g.clients.all fun client =>
      client.phase == .live || client.phase == .retired) &&
    g.tasks.all fun task => task.stage == .finished ||
      match task.purpose with
      | .opening _ => false
      | _ => true

def clientEnded (g : Gateway) (c : Nat) : Bool :=
  match g.clients[c]?.map Client.ending with
  | some (.ended _) => true
  | _ => false

inductive ClosingStep
  | unsubscribed (ok : Bool)
  | drained
  | serverClosed
  | settled

/-- What `close` awaits has settled without a failure. -/
def cleanlyEnded (g : Gateway) (closing : Closing) : Bool :=
  !g.cleanupFailed && closing.unsubscribed == some true &&
    (closing.channels.all fun e => endingOf g e == .ended true) &&
    closing.clients.all fun c =>
      g.clients[c]?.map Client.ending == some (.ended true)

/-- The awaits of `close`, each when what it awaits has settled. -/
def advanceClosing (g : Gateway) : ClosingStep → Gateway
  | .unsubscribed ok =>
    { g with closing := g.closing.map fun closing =>
        { closing with
          unsubscribed := closing.unsubscribed.orElse fun _ => some ok } }
  | .drained =>
    if gatewayDrained g then
      { g with closing := g.closing.map fun closing =>
          { closing with drained := true } }
    else g
  | .serverClosed =>
    { g with closing := g.closing.map fun closing =>
        if closing.drained && closing.unsubscribed.isSome &&
            (closing.channels.all fun e => settledEnding (endingOf g e)) &&
            closing.clients.all (clientEnded g) then
          { closing with serverClosed := true }
        else closing }
  | .settled =>
    { g with closing := g.closing.map fun closing =>
        if closing.serverClosed && closing.result.isNone then
          { closing with result := some (cleanlyEnded g closing) }
        else closing }

inductive Action
  | upgrade (acceptable : Bool) (wire : Wire)
  | registerAnswers (client : Nat) (target : Option Target)
      (destroyed : Bool) (wire : Wire)
  | handOff (client : Nat) (destroyed upgraded : Bool) (wire : Wire)
  | socketCloses (client : Nat)
  | drop (client : Nat)
  | message (client size : Nat) (message : Message)
  | advance (task : Nat) (outcome : Bool) (wire : Wire)
  | startCall (call : Nat)
  | settleCall (call : Nat) (answer : Bool)
  | flush (send : Nat) (wire : Wire)
  | settleSend (send : Nat) (ok : Bool)
  | beat (client : Nat)
  | notify (client : Nat) (work : Bool)
  | openChannel (kind : Kind) (target : Target) (client : Nat) (id : Uuid)
      (wire : Wire)
  | push (channel : Nat)
  | closeChannel (channel : Nat) (wire : Wire)
  | advanceDone (client : Nat) (ok : Bool)
  | advanceLeaving (client : Nat) (ok : Bool)
  | advanceChannel (channel : Nat) (ok : Bool)
  | observeClient (client : Nat)
  | observeChannel (channel : Nat)
  | close (wire : Wire)
  | advanceClosing (step : ClosingStep)

def gateway (maximumConnections : Nat) : Machine Gateway Action Unit where
  step g action :=
    (match action with
      | .upgrade acceptable wire =>
        upgrade g maximumConnections acceptable wire
      | .registerAnswers c target destroyed wire =>
        registerAnswers g c target destroyed wire
      | .handOff c destroyed upgraded wire =>
        handOff g c destroyed upgraded wire
      | .socketCloses c => socketCloses g c
      | .drop c => drop g c
      | .message c size frame => message g c size frame
      | .advance t outcome wire => advance g t outcome wire
      | .startCall k => startCall g k
      | .settleCall k answer => settleCall g k answer
      | .flush s wire => flush g s wire
      | .settleSend s ok => settleSend g s ok
      | .beat c => beat g c
      | .notify c work => notify g c work
      | .openChannel kind target c id wire =>
        openChannel g kind target c id wire
      | .push e => push g e
      | .closeChannel e wire => requestClose g e wire
      | .advanceDone c ok => advanceDone g c ok
      | .advanceLeaving c ok => advanceLeaving g c ok
      | .advanceChannel e ok => advanceChannel g e ok
      | .observeClient c => observeClient g c
      | .observeChannel e => observeChannel g e
      | .close wire => close g wire
      | .advanceClosing step => advanceClosing g step, ())

end Allrice.BridgeGateway
