/-
The projection of one action attempt: its statuses, the signals that move it
and the table of legal transitions.  The function at the centre is
`advanceRuntimeOperation`; everything about runs of it is derived from the
list of what one accepted signal can do.
-/
import Allrice.RuntimeIdentity
import Allrice.Runs

namespace Allrice

inductive RuntimeOperationStatus where
  | planned
  | waitingUser
  | waitingDevice
  | waitingDependency
  | ready
  | dispatched
  | running
  | cancelRequested
  | unknown
  | succeeded
  | failed
  | canceled
  | partialResult
deriving DecidableEq

/-- The statuses that a result may carry. -/
inductive RuntimeResultStatus where
  | succeeded
  | failed
  | canceled
  | partialResult
deriving DecidableEq

def RuntimeResultStatus.toStatus :
    RuntimeResultStatus → RuntimeOperationStatus
  | .succeeded => .succeeded
  | .failed => .failed
  | .canceled => .canceled
  | .partialResult => .partialResult

inductive RuntimeEffects where
  | none
  | applied
  | partialEffects
deriving DecidableEq

structure RuntimeOperationResult where
  status : RuntimeResultStatus
  effects : RuntimeEffects
  evidence : RuntimeEvidenceRef
deriving DecidableEq

/-- An outcome must describe known effects truthfully. -/
def RuntimeOperationResult.Valid (result : RuntimeOperationResult) : Prop :=
  ¬((result.status = .canceled ∧ result.effects ≠ .none) ∨
    (result.status = .partialResult ∧ result.effects ≠ .partialEffects) ∨
    (result.status = .succeeded ∧ result.effects = .partialEffects))

instance RuntimeOperationResult.decidableValid
    (result : RuntimeOperationResult) :
    Decidable result.Valid :=
  inferInstanceAs (Decidable (¬_))

def isTerminalRuntimeOperationStatus : RuntimeOperationStatus → Bool
  | .succeeded | .failed | .canceled | .partialResult => true
  | _ => false

/-- The statuses before any dispatch. -/
def isPreDispatch : RuntimeOperationStatus → Bool
  | .planned | .waitingUser | .waitingDevice | .waitingDependency | .ready =>
    true
  | _ => false

/-- One action attempt projection, not the Run or a process lifecycle. -/
structure RuntimeOperationSnapshot where
  binding : RuntimeActionBinding
  stepId : Option Uuid
  agentInstanceId : Option Uuid
  processId : Option Uuid
  cancelRequestId : Option Uuid
  idempotencyKey : Uuid
  status : RuntimeOperationStatus
  result : Option RuntimeOperationResult
deriving DecidableEq

/-- What the snapshot schema requires. -/
structure RuntimeOperationSnapshot.Valid (snapshot : RuntimeOperationSnapshot) :
    Prop where
  binding : snapshot.binding.Valid
  result : ∀ result ∈ snapshot.result, result.Valid
  intent : snapshot.status = .cancelRequested →
    snapshot.cancelRequestId.isSome
  preparation : isPreDispatch snapshot.status = true →
    snapshot.processId = none ∧ snapshot.cancelRequestId = none
  terminal : isTerminalRuntimeOperationStatus snapshot.status =
    snapshot.result.isSome
  agreement : ∀ result ∈ snapshot.result,
    result.status.toStatus = snapshot.status

theorem RuntimeOperationSnapshot.valid_iff
    (snapshot : RuntimeOperationSnapshot) :
    snapshot.Valid ↔
      snapshot.binding.Valid ∧ (∀ result ∈ snapshot.result, result.Valid) ∧
      (snapshot.status = .cancelRequested →
        snapshot.cancelRequestId.isSome) ∧
      (isPreDispatch snapshot.status = true →
        snapshot.processId = none ∧ snapshot.cancelRequestId = none) ∧
      isTerminalRuntimeOperationStatus snapshot.status =
        snapshot.result.isSome ∧
      (∀ result ∈ snapshot.result,
        result.status.toStatus = snapshot.status) :=
  ⟨fun h => ⟨h.binding, h.result, h.intent, h.preparation, h.terminal,
      h.agreement⟩,
    fun ⟨h₁, h₂, h₃, h₄, h₅, h₆⟩ => ⟨h₁, h₂, h₃, h₄, h₅, h₆⟩⟩

instance RuntimeOperationSnapshot.decidableValid
    (snapshot : RuntimeOperationSnapshot) :
    Decidable snapshot.Valid :=
  decidable_of_iff _ snapshot.valid_iff.symm

inductive WaitingReason where
  | user
  | device
  | dependency
deriving DecidableEq

def WaitingReason.status : WaitingReason → RuntimeOperationStatus
  | .user => .waitingUser
  | .device => .waitingDevice
  | .dependency => .waitingDependency

inductive UncertainReason where
  | connectionLost
  | leaseLost
  | receiptMissing
deriving DecidableEq

inductive StoppedEffects where
  | none
  | partialEffects
deriving DecidableEq

def StoppedEffects.toEffects : StoppedEffects → RuntimeEffects
  | .none => .none
  | .partialEffects => .partialEffects

inductive RuntimeOperationSignal where
  | waiting (reason : WaitingReason)
  | ready
  | dispatched
  | started (processId : Option Uuid)
  | transportAck
  | cancelRequested (requestId : Uuid)
  | uncertain (reason : UncertainReason)
  | outcome (result : RuntimeOperationResult)
  | stopped (evidence : RuntimeEvidenceRef) (effects : StoppedEffects)
deriving DecidableEq

/-- Cancellation requires stopped evidence, so no outcome is `canceled`. -/
def RuntimeOperationSignal.Valid : RuntimeOperationSignal → Prop
  | .outcome result => result.Valid ∧ result.status ≠ .canceled
  | _ => True

instance RuntimeOperationSignal.decidableValid :
    (signal : RuntimeOperationSignal) → Decidable signal.Valid
  | .outcome _ => inferInstanceAs (Decidable (_ ∧ _))
  | .waiting _ | .ready | .dispatched | .started _ | .transportAck
  | .cancelRequested _ | .uncertain _ | .stopped _ _ =>
    inferInstanceAs (Decidable True)

def knownOutcomes : List RuntimeOperationStatus :=
  [.succeeded, .failed, .partialResult]

def waitingStatuses : List RuntimeOperationStatus :=
  [.waitingUser, .waitingDevice, .waitingDependency]

/-- The table of legal transitions. -/
def transitions : RuntimeOperationStatus → List RuntimeOperationStatus
  | .planned => waitingStatuses ++ [.ready, .cancelRequested]
  | .waitingUser =>
    [.waitingDevice, .waitingDependency, .ready, .cancelRequested]
  | .waitingDevice =>
    [.waitingUser, .waitingDependency, .ready, .cancelRequested]
  | .waitingDependency =>
    [.waitingUser, .waitingDevice, .ready, .cancelRequested]
  | .ready => waitingStatuses ++ [.dispatched, .cancelRequested]
  | .dispatched =>
    [.running, .unknown, .cancelRequested] ++ knownOutcomes
  | .running => [.unknown, .cancelRequested] ++ knownOutcomes
  | .cancelRequested => [.unknown] ++ knownOutcomes ++ [.canceled]
  | .unknown => knownOutcomes ++ [.canceled]
  | .succeeded | .failed | .canceled | .partialResult => []

def canTransitionRuntimeOperation (source target : RuntimeOperationStatus) :
    Bool :=
  target ∈ transitions source

inductive AdvanceError where
  | invalidSnapshot
  | invalidSignal
  | processIdentityChanged
  | illegalTransition (source target : RuntimeOperationStatus)
deriving DecidableEq

/-- The snapshot schema applied to a snapshot. -/
def parseSnapshot (snapshot : RuntimeOperationSnapshot) :
    Except AdvanceError RuntimeOperationSnapshot :=
  if snapshot.Valid then .ok snapshot else .error .invalidSnapshot

/-- Move to a status when the table allows it, and parse the outcome. -/
def moveTo (snapshot : RuntimeOperationSnapshot)
    (status : RuntimeOperationStatus) (processId cancelRequestId : Option Uuid)
    (result : Option RuntimeOperationResult) :
    Except AdvanceError RuntimeOperationSnapshot :=
  if canTransitionRuntimeOperation snapshot.status status then
    parseSnapshot { snapshot with status, processId, cancelRequestId, result }
  else .error (.illegalTransition snapshot.status status)

/-- The result that a stopped receipt stands for. -/
def stoppedResult (evidence : RuntimeEvidenceRef) (effects : StoppedEffects) :
    RuntimeOperationResult :=
  { status := match effects with
      | .none => .canceled
      | .partialEffects => .partialResult
    effects := effects.toEffects
    evidence }

/-- The body of `advanceRuntimeOperation` after both inputs were parsed. -/
def applySignal (snapshot : RuntimeOperationSnapshot) :
    RuntimeOperationSignal → Except AdvanceError RuntimeOperationSnapshot
  | .transportAck => .ok snapshot
  | .waiting reason =>
    moveTo snapshot reason.status snapshot.processId
      snapshot.cancelRequestId none
  | .ready =>
    moveTo snapshot .ready snapshot.processId snapshot.cancelRequestId none
  | .dispatched =>
    moveTo snapshot .dispatched snapshot.processId snapshot.cancelRequestId
      none
  | .started processId =>
    if snapshot.processId ≠ none ∧ processId ≠ snapshot.processId then
      .error .processIdentityChanged
    else if snapshot.status ∈
        [RuntimeOperationStatus.cancelRequested, .unknown, .running] then
      parseSnapshot { snapshot with processId }
    else moveTo snapshot .running processId snapshot.cancelRequestId none
  | .cancelRequested requestId =>
    let cancelRequestId := some (snapshot.cancelRequestId.getD requestId)
    if snapshot.status ∈
        [RuntimeOperationStatus.unknown, .cancelRequested] then
      parseSnapshot { snapshot with cancelRequestId }
    else
      moveTo snapshot .cancelRequested snapshot.processId cancelRequestId
        none
  | .uncertain _ =>
    if snapshot.status = .unknown then .ok snapshot
    else
      moveTo snapshot .unknown snapshot.processId snapshot.cancelRequestId
        none
  | .outcome result =>
    moveTo snapshot result.status.toStatus snapshot.processId
      snapshot.cancelRequestId (some result)
  | .stopped evidence effects =>
    let result := stoppedResult evidence effects
    moveTo snapshot result.status.toStatus snapshot.processId
      snapshot.cancelRequestId (some result)

/-- Pure projection of already authenticated, durably ordered evidence. -/
def advanceRuntimeOperation (snapshot : RuntimeOperationSnapshot)
    (signal : RuntimeOperationSignal) :
    Except AdvanceError RuntimeOperationSnapshot :=
  if ¬snapshot.Valid then .error .invalidSnapshot
  else if ¬signal.Valid then .error .invalidSignal
  else applySignal snapshot signal

variable {snapshot next : RuntimeOperationSnapshot}

theorem parseSnapshot_eq_ok :
    parseSnapshot snapshot = .ok next ↔ snapshot.Valid ∧ next = snapshot := by
  unfold parseSnapshot
  split
  · simp_all [eq_comm]
  · simp_all

variable {processId cancelRequestId : Option Uuid}
  {result : Option RuntimeOperationResult} {signal : RuntimeOperationSignal}

theorem moveTo_eq_ok {status : RuntimeOperationStatus} :
    moveTo snapshot status processId cancelRequestId result = .ok next ↔
      canTransitionRuntimeOperation snapshot.status status = true ∧
        next.Valid ∧
        next = { snapshot with status, processId, cancelRequestId, result } := by
  unfold moveTo
  split
  · rename_i h
    rw [parseSnapshot_eq_ok]
    constructor
    · rintro ⟨hvalid, rfl⟩
      exact ⟨h, hvalid, rfl⟩
    · rintro ⟨_, hvalid, rfl⟩
      exact ⟨hvalid, rfl⟩
  · simp_all

/-- A signal is accepted only by a valid snapshot, when the signal itself is
valid. -/
theorem advance_eq_ok :
    advanceRuntimeOperation snapshot signal = .ok next ↔
      snapshot.Valid ∧ signal.Valid ∧ applySignal snapshot signal = .ok next := by
  unfold advanceRuntimeOperation
  split
  · simp_all
  · split <;> simp_all

/-- What one accepted signal can do to a snapshot: everything that later
arguments need to know about the nine kinds of signals. -/
structure SignalStep (snapshot next : RuntimeOperationSnapshot) : Prop where
  valid : next.Valid
  binding : next.binding = snapshot.binding
  stepId : next.stepId = snapshot.stepId
  agentInstanceId : next.agentInstanceId = snapshot.agentInstanceId
  idempotencyKey : next.idempotencyKey = snapshot.idempotencyKey
  move : next.status = snapshot.status ∨
    canTransitionRuntimeOperation snapshot.status next.status = true
  absorbed : isTerminalRuntimeOperationStatus snapshot.status = true →
    next = snapshot
  process : snapshot.processId ≠ none → next.processId = snapshot.processId
  intent : snapshot.cancelRequestId ≠ none →
    next.cancelRequestId = snapshot.cancelRequestId

theorem no_transition_from_terminal {source target : RuntimeOperationStatus}
    (h : isTerminalRuntimeOperationStatus source = true) :
    canTransitionRuntimeOperation source target = false := by
  cases source <;>
    simp_all [isTerminalRuntimeOperationStatus, canTransitionRuntimeOperation,
      transitions]

/-- A move through the table is a signal step as soon as the two identities
are kept. -/
theorem SignalStep.of_moveTo {status : RuntimeOperationStatus}
    (h : moveTo snapshot status processId cancelRequestId result = .ok next)
    (hprocess : snapshot.processId ≠ none → processId = snapshot.processId)
    (hintent : snapshot.cancelRequestId ≠ none →
      cancelRequestId = snapshot.cancelRequestId) :
    SignalStep snapshot next := by
  obtain ⟨hmove, hvalid, rfl⟩ := moveTo_eq_ok.1 h
  refine ⟨hvalid, rfl, rfl, rfl, rfl, .inr hmove, ?_, hprocess, hintent⟩
  intro hterminal
  rw [no_transition_from_terminal hterminal] at hmove
  simp at hmove

/-- A change of the identities that leaves the status alone is a signal step
outside the terminal statuses. -/
theorem SignalStep.of_parse (processId cancelRequestId : Option Uuid)
    (h : parseSnapshot { snapshot with processId, cancelRequestId } = .ok next)
    (hopen : isTerminalRuntimeOperationStatus snapshot.status = false)
    (hprocess : snapshot.processId ≠ none → processId = snapshot.processId)
    (hintent : snapshot.cancelRequestId ≠ none →
      cancelRequestId = snapshot.cancelRequestId) :
    SignalStep snapshot next := by
  obtain ⟨hvalid, rfl⟩ := parseSnapshot_eq_ok.1 h
  refine ⟨hvalid, rfl, rfl, rfl, rfl, .inl rfl, ?_, hprocess, hintent⟩
  intro hterminal
  rw [hopen] at hterminal
  simp at hterminal

theorem SignalStep.refl (h : snapshot.Valid) : SignalStep snapshot snapshot :=
  ⟨h, rfl, rfl, rfl, rfl, .inl rfl, fun _ => rfl, fun _ => rfl,
    fun _ => rfl⟩

theorem getD_of_ne_none {α : Type} {o : Option α} {d : α} (h : o ≠ none) :
    some (o.getD d) = o := by
  cases o with
  | none => exact absurd rfl h
  | some a => rfl

/-- The inversion lemma of `advanceRuntimeOperation`. -/
theorem advance_step (h : advanceRuntimeOperation snapshot signal = .ok next) :
    SignalStep snapshot next := by
  obtain ⟨hvalid, _, happly⟩ := advance_eq_ok.1 h
  cases signal with
  | waiting reason | ready | dispatched =>
    exact .of_moveTo happly (fun _ => rfl) (fun _ => rfl)
  | started processId =>
    simp only [applySignal] at happly
    split at happly
    · simp at happly
    · rename_i hsame
      have hprocess : snapshot.processId ≠ none →
          processId = snapshot.processId := by
        intro hset
        by_contra hne
        exact hsame ⟨hset, hne⟩
      split at happly
      · rename_i hstatus
        refine .of_parse processId snapshot.cancelRequestId
          happly ?_ hprocess (fun _ => rfl)
        simp only [List.mem_cons, List.not_mem_nil, or_false] at hstatus
        rcases hstatus with hs | hs | hs <;> rw [hs] <;> rfl
      · exact .of_moveTo happly hprocess (fun _ => rfl)
  | transportAck =>
    simp only [applySignal, Except.ok.injEq] at happly
    exact happly ▸ .refl hvalid
  | cancelRequested requestId =>
    simp only [applySignal] at happly
    split at happly
    · rename_i hstatus
      refine .of_parse snapshot.processId
        (some (snapshot.cancelRequestId.getD requestId)) happly ?_ (fun _ => rfl) getD_of_ne_none
      simp only [List.mem_cons, List.not_mem_nil, or_false] at hstatus
      rcases hstatus with hs | hs <;> rw [hs] <;> rfl
    · exact .of_moveTo happly (fun _ => rfl) getD_of_ne_none
  | uncertain reason =>
    simp only [applySignal] at happly
    split at happly
    · simp only [Except.ok.injEq] at happly
      exact happly ▸ .refl hvalid
    · exact .of_moveTo happly (fun _ => rfl) (fun _ => rfl)
  | outcome result | stopped evidence effects =>
    exact .of_moveTo happly (fun _ => rfl) (fun _ => rfl)

/-- Whether a signal was accepted. -/
inductive SignalAnswer where
  | accepted
  | rejected (error : AdvanceError)

/-- A snapshot that receives signals; a signal that throws is dropped. -/
def operationProjection :
    Machine RuntimeOperationSnapshot RuntimeOperationSignal SignalAnswer where
  step snapshot signal :=
    match advanceRuntimeOperation snapshot signal with
    | .ok next => (next, .accepted)
    | .error error => (snapshot, .rejected error)

/-- What every run of signals keeps. -/
structure Retained (snapshot next : RuntimeOperationSnapshot) : Prop where
  binding : next.binding = snapshot.binding
  idempotencyKey : next.idempotencyKey = snapshot.idempotencyKey
  absorbed : isTerminalRuntimeOperationStatus snapshot.status = true →
    next = snapshot
  process : snapshot.processId ≠ none → next.processId = snapshot.processId
  intent : snapshot.cancelRequestId ≠ none →
    next.cancelRequestId = snapshot.cancelRequestId

theorem Retained.refl (snapshot : RuntimeOperationSnapshot) :
    Retained snapshot snapshot :=
  ⟨rfl, rfl, fun _ => rfl, fun _ => rfl, fun _ => rfl⟩

theorem Retained.trans {a b c : RuntimeOperationSnapshot}
    (hab : Retained a b) (hbc : Retained b c) : Retained a c where
  binding := hbc.binding.trans hab.binding
  idempotencyKey := hbc.idempotencyKey.trans hab.idempotencyKey
  absorbed := by
    intro h
    have hba := hab.absorbed h
    subst hba
    exact hbc.absorbed h
  process := by
    intro h
    have hba := hab.process h
    rw [hbc.process (hba ▸ h), hba]
  intent := by
    intro h
    have hba := hab.intent h
    rw [hbc.intent (hba ▸ h), hba]

theorem SignalStep.retained (h : SignalStep snapshot next) :
    Retained snapshot next :=
  ⟨h.binding, h.idempotencyKey, h.absorbed, h.process, h.intent⟩

theorem projection_step_valid (snapshot : RuntimeOperationSnapshot)
    (signal : RuntimeOperationSignal) (h : snapshot.Valid) :
    (operationProjection.step snapshot signal).1.Valid := by
  cases hadvance : advanceRuntimeOperation snapshot signal with
  | ok next => simpa [operationProjection, hadvance] using (advance_step hadvance).valid
  | error error => simpa [operationProjection, hadvance] using h

theorem projection_step_retained (snapshot : RuntimeOperationSnapshot)
    (signal : RuntimeOperationSignal) :
    Retained snapshot (operationProjection.step snapshot signal).1 := by
  cases hadvance : advanceRuntimeOperation snapshot signal with
  | ok next =>
    simpa [operationProjection, hadvance] using
      (advance_step hadvance).retained
  | error error =>
    simpa [operationProjection, hadvance] using Retained.refl snapshot

/-- Every snapshot that signals reach from a valid one is valid. -/
theorem projection_valid (h : snapshot.Valid)
    (signals : List RuntimeOperationSignal) :
    (operationProjection.after snapshot signals).Valid :=
  Machine.after_invariant _ projection_step_valid h signals

/-- Terminal snapshots, the process and the cancellation intent survive every
further run of signals. -/
theorem projection_retained (snapshot : RuntimeOperationSnapshot)
    (signals : List RuntimeOperationSignal) :
    Retained snapshot (operationProjection.after snapshot signals) :=
  Machine.after_rel (fun _ => True) Retained Retained.refl Retained.trans
    (fun _ _ _ => trivial) (fun s a _ => projection_step_retained s a) trivial
    signals

end Allrice
