/-
Capacity slots of the cloud sandboxes.  A slot is held by a placeholder
container under the slot's name, which is never started.  Executions take the
slots that they need, create their container, check that the slots are still
theirs and start it; on the way they reclaim the slots of attempts that seem
abandoned.  A fence keeps the name of an attempt without a container while its
slot is withdrawn.
-/
import Allrice.ContainerDaemon
import Allrice.Runs

namespace Allrice.SandboxSlots

open ContainerDaemon

abbrev Attempt := Nat

inductive Name
  | slot (number : Nat)
  | attempt (attempt : Attempt)
deriving DecidableEq

/-- The labels of a placeholder, of an attempt's container, and of a fence. -/
inductive Labels
  | slot (owner : Attempt) (expires : Int)
  | attempt (attempt : Attempt)
  | fence (owner : Attempt) (reservation : ContainerId)
deriving DecidableEq

abbrev Container := ContainerDaemon.Container Name Labels
abbrev Daemon := ContainerDaemon.Daemon Name Labels
abbrev Request := ContainerDaemon.Request Name Labels
abbrev Query := ContainerDaemon.Query Name Labels
abbrev Reply := ContainerDaemon.Reply Name Labels

structure Held where
  slot : Nat
  id : ContainerId
deriving DecidableEq

/-- The reclamation of an examined placeholder, before each of its requests; a
fence comes with the placeholder that its label names. -/
inductive Reclaim
  | inspecting (existing : Container) (owner : Attempt)
  | fencing (existing : Container) (owner : Attempt)
  | reading (existing : Container) (owner : Attempt)
      (fence reservation : ContainerId)
  | withdrawing (existing : Container) (owner : Attempt)
      (fence reservation : ContainerId)
  | removing (existing : Container) (owner : Attempt) (abandoned : ContainerId)
  | evicting (existing : Container) (owner : Attempt)
      (fenced : Option (ContainerId × ContainerId))
  | unfencing (existing : Container) (owner : Attempt)
      (fence reservation : ContainerId)
deriving DecidableEq

/-- Who sends a request. -/
inductive Sender
  | execution (attempt : Attempt)
  | reclaimer (stage : Reclaim)
  | cleanup (attempt : Attempt)
deriving DecidableEq

instance : LawfulBEq (Sender × Request) := inferInstance

/-- What a process does next with the daemon. -/
inductive Call
  | send (sender : Sender) (request : Request)
  | ask (query : Query)

def Reclaim.call (stage : Reclaim) : Call :=
  match stage with
  | .inspecting _ owner => .ask (.name (.attempt owner))
  | .fencing existing owner =>
    .send (.reclaimer stage)
      (.create (.attempt owner) (.fence owner existing.id))
  | .reading _ _ _ reservation => .ask (.id reservation)
  | .withdrawing _ _ _ reservation =>
    .send (.reclaimer stage) (.delete reservation)
  | .removing _ _ abandoned => .send (.reclaimer stage) (.delete abandoned)
  | .evicting existing _ _ => .send (.reclaimer stage) (.delete existing.id)
  | .unfencing _ _ fence _ => .send (.reclaimer stage) (.delete fence)

/-- The reclamation goes on, is over for this slot, or throws. -/
inductive Reclaimed
  | goesOn (stage : Reclaim)
  | nextSlot
  | throws

/-- `inspect`: the container under the name of the attempt, unless its labels
are of something else. -/
def ownedBy (owner : Attempt) (container : Container) : Bool :=
  match container.labels with
  | .attempt attempt => attempt == owner
  | .fence attempt _ => attempt == owner
  | .slot _ _ => false

def Reclaim.resume (stage : Reclaim) (reply : Reply) : Reclaimed :=
  match stage with
  | .inspecting existing owner =>
    match reply with
    | .missing => .goesOn (.fencing existing owner)
    | .found abandoned =>
      if !ownedBy owner abandoned then .throws
      else if abandoned.status = .running then .nextSlot
      else
        match abandoned.labels with
        | .fence _ reservation =>
          if abandoned.status = .created then
            .goesOn (.reading existing owner abandoned.id reservation)
          else .throws
        | _ =>
          if abandoned.status = .created then
            .goesOn (.removing existing owner abandoned.id)
          else .goesOn (.evicting existing owner none)
    | _ => .throws
  | .fencing existing owner =>
    match reply with
    | .created fence => .goesOn (.reading existing owner fence existing.id)
    | .conflict => .nextSlot
    | _ => .throws
  | .reading existing owner fence reservation =>
    match reply with
    | .missing => .goesOn (.evicting existing owner (some (fence, reservation)))
    | .found placeholder =>
      match placeholder.labels with
      | .slot attempt _ =>
        if attempt = owner ∧ placeholder.status ≠ .running then
          .goesOn (.withdrawing existing owner fence reservation)
        else .throws
      | _ => .throws
    | _ => .throws
  | .withdrawing existing owner fence reservation =>
    match reply with
    | .done | .missing =>
      .goesOn (.evicting existing owner (some (fence, reservation)))
    | .conflict => .nextSlot
    | _ => .throws
  | .removing existing owner _ =>
    match reply with
    | .done | .missing => .goesOn (.evicting existing owner none)
    | .conflict => .nextSlot
    | _ => .throws
  | .evicting existing owner fenced =>
    match reply with
    | .done | .missing =>
      match fenced with
      | some (fence, reservation) =>
        .goesOn (.unfencing existing owner fence reservation)
      | none => .nextSlot
    | .conflict => .nextSlot
    | _ => .throws
  | .unfencing _ _ _ _ => .nextSlot

/-- What follows the release of the placeholders. -/
inductive Afterwards
  | loop | stop
deriving DecidableEq

/-- `executeWithSlot`, between its requests.  `created` is before the first
check of the lease, which may share a check that began earlier, and `checking`
is within the second one. -/
inductive Execution
  | idle
  | looping
  | claiming (slot : Nat) (held : List Held)
  | reading (slot : Nat) (held : List Held)
  | reclaiming (slot : Nat) (held : List Held) (stage : Reclaim)
  | releasing (held : List Held) (afterwards : Afterwards)
  | admitted (held : List Held)
  | created (held : List Held) (container : ContainerId)
  | checking (held : List Held) (container : ContainerId) (rest : List Held)
  | starting (held : List Held) (container : ContainerId)
  | started (held : List Held)
  | finishing (held : List Held)
  | ended
deriving DecidableEq

/-- The number of slots, and the units and the deadline of each attempt. -/
structure Sizes where
  slots : Nat
  units : Attempt → Nat
  deadline : Attempt → Int

/-- The clock, and what everything that is not modelled decides: whether the
process goes on, and whether a cleanup cleared the mark of an uncertain
creation meanwhile. -/
structure Input where
  now : Int
  proceeds : Bool
  cleared : Bool

def Execution.call (sizes : Sizes) (attempt : Attempt) (input : Input) :
    Execution → Option Call
  | .claiming slot _ =>
    some (.send (.execution attempt)
      (.create (.slot slot)
        (.slot attempt
          (min (sizes.deadline attempt) (input.now + 90000)))))
  | .reading slot _ => some (.ask (.name (.slot slot)))
  | .reclaiming _ _ stage => some stage.call
  | .releasing (first :: _) _ =>
    some (.send (.execution attempt) (.delete first.id))
  | .admitted _ =>
    if input.proceeds then
      some (.send (.execution attempt)
        (.create (.attempt attempt) (.attempt attempt)))
    else none
  | .checking _ _ (first :: _) => some (.ask (.name (.slot first.slot)))
  | .starting _ container =>
    if input.proceeds then
      some (.send (.execution attempt) (.start container))
    else none
  | .finishing _ => some (.ask (.name (.attempt attempt)))
  | _ => none

/-- The rest of a pass over the slots; a partial group is released. -/
def nextSlot (sizes : Sizes) (slot : Nat) (held : List Held) : Execution :=
  if slot + 1 < sizes.slots then .claiming (slot + 1) held
  else .releasing held .loop

/-- A step without a request. -/
def Execution.proceed (sizes : Sizes) (attempt : Attempt) (input : Input) :
    Execution → Execution
  | .looping =>
    if input.proceeds ∧ sizes.units attempt ≤ sizes.slots then
      if 0 < sizes.slots then .claiming 0 [] else .releasing [] .loop
    else .ended
  | .releasing [] .loop => .looping
  | .releasing [] .stop => .ended
  | .admitted held => .finishing held
  | .created held container =>
    if input.proceeds then .checking held container held else .finishing held
  | .checking held container [] =>
    if input.proceeds then .starting held container else .finishing held
  | .starting held _ => .finishing held
  | .started held => .finishing held
  | state => state

/-- An uncertain creation keeps the reservation, unless its mark was cleared. -/
def uncertain (input : Input) (held : List Held) : Execution :=
  if input.cleared then .finishing held else .ended

/-- A step with the reply to its request. -/
def Execution.resume (sizes : Sizes) (attempt : Attempt) (input : Input)
    (reply : Reply) : Execution → Execution
  | .claiming slot held =>
    match reply with
    | .created id =>
      let held := held ++ [Held.mk slot id]
      if held.length < sizes.units attempt then nextSlot sizes slot held
      else .admitted held
    | .conflict => .reading slot held
    | _ => .releasing held .stop
  | .reading slot held =>
    match reply with
    | .missing => nextSlot sizes slot held
    | .found existing =>
      match existing.labels with
      | .slot owner expires =>
        if expires ≤ input.now ∧ existing.status ≠ .running then
          .reclaiming slot held (.inspecting existing owner)
        else nextSlot sizes slot held
      | _ => nextSlot sizes slot held
    | _ => .releasing held .stop
  | .reclaiming slot held stage =>
    match stage.resume reply with
    | .goesOn stage => .reclaiming slot held stage
    | .nextSlot => nextSlot sizes slot held
    | .throws => .releasing held .stop
  | .releasing (_ :: rest) afterwards =>
    match reply with
    | .done | .missing => .releasing rest afterwards
    | _ => .ended
  | .admitted held =>
    match reply with
    | .created id => .created held id
    | _ => uncertain input held
  | .checking held container (first :: rest) =>
    match reply with
    | .found placeholder =>
      if placeholder.id = first.id then .checking held container rest
      else .finishing held
    | _ => .finishing held
  | .starting held _ =>
    match reply with
    | .done => .started held
    | _ => .finishing held
  | .finishing held =>
    match reply with
    | .missing => .releasing held .stop
    | .found container =>
      if ownedBy attempt container && container.status == .exited then
        .releasing held .stop
      else .ended
    | _ => .ended
  | state => state

/-- A step whose request or whose answer was lost. -/
def Execution.lose (input : Input) : Execution → Execution
  | .claiming _ held => .releasing held .stop
  | .reading _ held => .releasing held .stop
  | .reclaiming _ held _ => .releasing held .stop
  | .releasing (_ :: _) _ => .ended
  | .admitted held => uncertain input held
  | .checking held _ _ => .finishing held
  | .starting held _ => .finishing held
  | .finishing _ => .ended
  | state => state

/-- `cleanup`, between its requests. -/
inductive Cleanup
  | inspecting
  | reading (fence reservation : ContainerId)
  | withdrawing (fence reservation : ContainerId)
  | listing (container : ContainerId)
  | sweeping (container : ContainerId) (rest : List ContainerId)
  | dropping (container : ContainerId) (rest : List ContainerId)
  | confirming (container : ContainerId) (rest : List ContainerId)
  | rechecking (container : ContainerId)
  | deleting (container : ContainerId) (exited : Bool)
  | verifying (container : ContainerId) (exited : Bool)
  | returned (exited : Option ContainerId)
  | failed

def isSlotOf (owner : Attempt) : Labels → Bool
  | .slot attempt _ => attempt == owner
  | _ => false

def Cleanup.call (attempt : Attempt) : Cleanup → Option Call
  | .inspecting => some (.ask (.name (.attempt attempt)))
  | .reading _ reservation => some (.ask (.id reservation))
  | .withdrawing _ reservation =>
    some (.send (.cleanup attempt) (.delete reservation))
  | .listing _ => some (.ask (.list (isSlotOf attempt)))
  | .sweeping _ (first :: _) => some (.ask (.id first))
  | .dropping _ (first :: _) =>
    some (.send (.cleanup attempt) (.delete first))
  | .confirming _ (first :: _) => some (.ask (.id first))
  | .rechecking _ => some (.ask (.name (.attempt attempt)))
  | .deleting container _ =>
    some (.send (.cleanup attempt) (.delete container))
  | .verifying _ _ => some (.ask (.name (.attempt attempt)))
  | _ => none

/-- A step without a request: the end of the list. -/
def Cleanup.proceed : Cleanup → Cleanup
  | .sweeping container [] => .rechecking container
  | state => state

def Cleanup.resume (attempt : Attempt) (reply : Reply) : Cleanup → Cleanup
  | .inspecting =>
    match reply with
    | .missing => .returned none
    | .found container =>
      if !ownedBy attempt container || container.status = .running then
        .failed
      else
        match container.labels with
        | .fence _ reservation =>
          if container.status = .created then
            .reading container.id reservation
          else .failed
        | _ =>
          if container.status = .exited then .listing container.id
          else .deleting container.id false
    | _ => .failed
  | .reading fence reservation =>
    match reply with
    | .missing => .deleting fence false
    | .found placeholder =>
      if isSlotOf attempt placeholder.labels ∧
          placeholder.status ≠ .running then
        .withdrawing fence reservation
      else .failed
    | _ => .failed
  | .withdrawing fence _ =>
    match reply with
    | .done | .missing => .deleting fence false
    | _ => .failed
  | .listing container =>
    match reply with
    | .ids ids => .sweeping container ids
    | _ => .failed
  | .sweeping container (first :: rest) =>
    match reply with
    | .missing => .sweeping container rest
    | .found placeholder =>
      match placeholder.name, placeholder.labels with
      | .slot _, .slot owner _ =>
        if owner = attempt ∧ placeholder.status = .created then
          .dropping container (first :: rest)
        else .failed
      | _, _ => .failed
    | _ => .failed
  | .dropping container rest =>
    match reply with
    | .done | .missing => .confirming container rest
    | _ => .failed
  | .confirming container (_ :: rest) =>
    match reply with
    | .missing => .sweeping container rest
    | _ => .failed
  | .rechecking container =>
    match reply with
    | .found current =>
      if ownedBy attempt current ∧ current.id = container ∧
          current.status = .exited then
        .deleting container true
      else .failed
    | _ => .failed
  | .deleting container exited =>
    match reply with
    | .done => .verifying container exited
    | _ => .failed
  | .verifying container exited =>
    match reply with
    | .missing => .returned (if exited then some container else none)
    | _ => .failed
  | state => state

structure CleanupRun where
  attempt : Attempt
  stage : Cleanup

/-- `orphans` are the requests whose senders no longer wait, on their way to the
daemon.  `admissions` and `deletions` belong to the statements only: what each
attempt was admitted with, and what was deleted for whom. -/
structure State where
  daemon : Daemon
  executions : Attempt → Execution
  cleanups : List CleanupRun
  orphans : List (Sender × Request)
  admissions : Attempt → Option (List Held)
  deletions : List (Sender × Container)

def State.initial : State :=
  ⟨.empty, fun _ => .idle, [], [], fun _ => none, []⟩

inductive Action
  | begin (attempt : Attempt)
  | run (attempt : Attempt) (input : Input)
  | lose (attempt : Attempt) (input : Input)
  | crash (attempt : Attempt) (input : Input)
  | beginCleanup (attempt : Attempt)
  | runCleanup (number : Nat)
  | loseCleanup (number : Nat)
  | arrive (sender : Sender) (request : Request)
  | exit (container : ContainerId)

/-- The daemon serves a request. -/
def State.serve (s : State) (sender : Sender) (request : Request) :
    State × Reply :=
  let deleted :=
    match request with
    | .delete id =>
      match s.daemon.ofId id with
      | some c => if c.status = .running then [] else [(sender, c)]
      | none => []
    | _ => []
  ({ s with
      daemon := (s.daemon.serve request).1
      deletions := s.deletions ++ deleted },
    (s.daemon.serve request).2)

/-- A process moves on; an execution that is admitted remembers with what. -/
def State.moveTo (s : State) (attempt : Attempt) (next : Execution) : State :=
  { s with
    executions := Function.update s.executions attempt next
    admissions :=
      match next with
      | .admitted held => Function.update s.admissions attempt (some held)
      | _ => s.admissions }

def State.abandon (s : State) (call : Option Call) : State :=
  match call with
  | some (.send sender request) =>
    { s with orphans := s.orphans ++ [(sender, request)] }
  | _ => s

def step (sizes : Sizes) (s : State) : Action → State
  | .begin attempt =>
    if s.executions attempt = .idle then s.moveTo attempt .looping else s
  | .run attempt input =>
    let state := s.executions attempt
    match state.call sizes attempt input with
    | none => s.moveTo attempt (state.proceed sizes attempt input)
    | some (.ask query) =>
      s.moveTo attempt
        (state.resume sizes attempt input (s.daemon.answer query))
    | some (.send sender request) =>
      (s.serve sender request).1.moveTo attempt
        (state.resume sizes attempt input (s.serve sender request).2)
  | .lose attempt input =>
    let state := s.executions attempt
    (s.abandon (state.call sizes attempt input)).moveTo attempt
      (state.lose input)
  | .crash attempt input =>
    (s.abandon ((s.executions attempt).call sizes attempt input)).moveTo
      attempt .ended
  | .beginCleanup attempt =>
    { s with cleanups := s.cleanups ++ [⟨attempt, .inspecting⟩] }
  | .runCleanup number =>
    match s.cleanups[number]? with
    | none => s
    | some run =>
      match run.stage.call run.attempt with
      | none =>
        { s with
          cleanups := s.cleanups.set number
            { run with stage := run.stage.proceed } }
      | some (.ask query) =>
        { s with
          cleanups := s.cleanups.set number
            { run with
              stage := run.stage.resume run.attempt
                (s.daemon.answer query) } }
      | some (.send sender request) =>
        { (s.serve sender request).1 with
          cleanups := s.cleanups.set number
            { run with
              stage := run.stage.resume run.attempt
                (s.serve sender request).2 } }
  | .loseCleanup number =>
    match s.cleanups[number]? with
    | none => s
    | some run =>
      { s.abandon (run.stage.call run.attempt) with
        cleanups := s.cleanups.set number { run with stage := .failed } }
  | .arrive sender request =>
    if (sender, request) ∈ s.orphans then
      { (s.serve sender request).1 with
        orphans := s.orphans.erase (sender, request) }
    else s
  | .exit container => { s with daemon := s.daemon.exit container }

def sandboxes (sizes : Sizes) : Machine State Action Unit where
  step := fun s action => (step sizes s action, ())

end Allrice.SandboxSlots
