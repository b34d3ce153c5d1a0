/-
What is measured of one run.  The spans of the content checks are not kept:
overlapping calls add to sums of starts, to a count of active checks and to the
start of the busy period that they share.
-/
import Allrice.JsString
import Allrice.Runs
import Allrice.TimeSpans

namespace Allrice.DshRunTiming

inductive Point
  | preparationCompleted
  | firstNativeChunk
  | firstVisibleText
  | nativeTurnEnded
  | beforePublication
  | publicationCompleted
deriving DecidableEq

inductive Phase
  | nativeDispatch
  | modelAdmission
  | toolDispatch
  | sceneLoad
  | personalSkill
  | inputGate
  | deliveryRepair
  | afterNativeResult
  | beforeDeliveryValidation
  | beforePublication
  | other
deriving DecidableEq

def contentPhases : List Phase :=
  [.nativeDispatch, .modelAdmission, .toolDispatch, .sceneLoad,
    .personalSkill, .inputGate, .deliveryRepair, .afterNativeResult,
    .beforeDeliveryValidation, .beforePublication, .other]

inductive Outcome
  | completed
  | partly
  | failed
  | aborted
  | waiting

/-- `Number.MAX_SAFE_INTEGER`. -/
def maxSafeInteger : ℚ := 9007199254740991

def maxModelSpans : Nat := 256

def bounded (value : ℚ) : ℚ := min maxSafeInteger (max 0 value)

def isIdentityUnit (unit : UInt16) : Bool :=
  let n := unit.toNat
  (0x61 ≤ n && n ≤ 0x7A) || (0x41 ≤ n && n ≤ 0x5A) ||
    (0x30 ≤ n && n ≤ 0x39) || n == 0x5F || n == 0x2E || n == 0x3A || n == 0x2D

def identity (value : JsString) : Option JsString :=
  if 0 < value.length ∧ value.length ≤ 200 ∧ value.all isIdentityUnit then
    some value
  else none

def counter (value : ℚ) : Option ℚ :=
  if value.den = 1 ∧ |value| ≤ maxSafeInteger ∧ 0 ≤ value then some value
  else none

structure ContentCheckTotals where
  calls : ℚ
  failed : ℚ
  pending : ℚ
  durationMs : ℚ

structure ContentPhaseState where
  calls : Nat
  failed : Nat
  pending : Nat
  durationMs : ℚ
  pendingStarts : ℚ

structure ModelSpan where
  callId : JsString
  start : ℚ
  stop : Option ℚ

structure ContentChecks where
  calls : ℚ
  failed : ℚ
  pending : ℚ
  sumMs : ℚ
  unionMs : ℚ
  phases : Phase → ContentCheckTotals

structure ModelChain where
  calls : Nat
  completed : Nat
  durationMs : ℚ
  unclosed : Nat
  unclosedDurationMs : ℚ
  truncated : Bool

/-- The fields that are the same in every report are left out. -/
structure Report where
  runId : Option JsString
  sessionId : Option JsString
  attempt : Option ℚ
  generation : Option ℚ
  outcome : Outcome
  elapsedMs : ℚ
  points : Point → Option ℚ
  contentChecks : ContentChecks
  modelChain : ModelChain

/-- What a check that was measured has in its own variables: its phase, its
start, and, once it has ended in time, its end and whether it failed. -/
structure Observed where
  phase : Phase
  start : ℚ
  ended : Option (ℚ × Bool)

/-- One call of `checkContent`, and what it returned or threw. -/
structure Call (ε : Type) where
  observed : Option Observed
  result : Option (Except ε Unit)

structure Options where
  runId : Option JsString
  sessionId : Option JsString
  attempt : ℚ
  generation : ℚ

structure State (ε : Type) where
  options : Options
  origin : Option ℚ
  lastElapsedMs : ℚ
  finished : Bool
  marks : Point → Option ℚ
  checks : Phase → ContentPhaseState
  activeChecks : Nat
  unionStart : ℚ
  checkUnionMs : ℚ
  models : List ModelSpan
  modelsTruncated : Bool
  calls : List (Call ε)
  reports : List Report

/-- `none` for a name that is none of the names, and for a reading of the clock
that threw or was no finite number. -/
inductive Action (ε : Type)
  | mark (point : Option Point) (reading : Option ℚ)
  | checkContent (phase : Option Phase) (reading : Option ℚ)
  | settle (call : Nat) (result : Except ε Unit) (reading : Option ℚ)
  | modelStarted (callId : JsString) (reading : Option ℚ)
  | modelFinished (callId : JsString) (reading : Option ℚ)
  | finish (outcome : Option Outcome) (reading : Option ℚ)

def State.initial (ε : Type) (options : Options) (reading : Option ℚ) :
    State ε where
  options := options
  origin := reading
  lastElapsedMs := 0
  finished := false
  marks _ := none
  checks _ := ⟨0, 0, 0, 0, 0⟩
  activeChecks := 0
  unionStart := 0
  checkUnionMs := 0
  models := []
  modelsTruncated := false
  calls := []
  reports := []

namespace State

variable {ε : Type} (s : State ε)

def elapsed (reading : Option ℚ) : State ε :=
  match reading with
  | some value =>
    { s with
      origin := some (s.origin.getD value)
      lastElapsedMs := bounded
        (max s.lastElapsedMs (value - s.origin.getD value)) }
  | none => s

def mark (point : Option Point) (reading : Option ℚ) : State ε :=
  match point with
  | none => s
  | some point =>
    if s.finished then s
    else if point = .nativeTurnEnded ∨ s.marks point = none then
      let s := s.elapsed reading
      { s with
        marks := Function.update s.marks point (some s.lastElapsedMs) }
    else s

/-- Up to the moment at which the operation is called. -/
def checkContent (phase : Option Phase) (reading : Option ℚ) : State ε :=
  if s.finished then { s with calls := s.calls ++ [⟨none, none⟩] }
  else
    let phase := phase.getD .other
    let s := s.elapsed reading
    let start := s.lastElapsedMs
    let entry := s.checks phase
    { s with
      checks := Function.update s.checks phase
        { entry with
          calls := entry.calls + 1
          pending := entry.pending + 1
          pendingStarts := entry.pendingStarts + start }
      activeChecks := s.activeChecks + 1
      unionStart := if s.activeChecks = 0 then start else s.unionStart
      calls := s.calls ++ [⟨some ⟨phase, start, none⟩, none⟩] }

def failed : Except ε Unit → Bool
  | .ok _ => false
  | .error _ => true

/-- What `finally` does for a call that is measured. -/
def checkEnded (observed : Observed) (failed : Bool) : State ε :=
  let stop := s.lastElapsedMs
  let entry := s.checks observed.phase
  { s with
    checks := Function.update s.checks observed.phase
      { entry with
        durationMs := entry.durationMs + (stop - observed.start)
        pending := entry.pending - 1
        pendingStarts := entry.pendingStarts - observed.start
        failed := if failed then entry.failed + 1 else entry.failed }
    activeChecks := s.activeChecks - 1
    checkUnionMs :=
      if s.activeChecks - 1 = 0 then s.checkUnionMs + (stop - s.unionStart)
      else s.checkUnionMs }

/-- The operation of a call has returned or thrown. -/
def settle (call : Nat) (result : Except ε Unit) (reading : Option ℚ) :
    State ε :=
  match s.calls[call]? with
  | some ⟨observed, none⟩ =>
    match observed, s.finished with
    | some observed, false =>
      let s := (s.elapsed reading).checkEnded observed (failed result)
      let ended :=
        { observed with ended := some (s.lastElapsedMs, failed result) }
      { s with calls := s.calls.set call ⟨some ended, some result⟩ }
    | observed, _ =>
      { s with calls := s.calls.set call ⟨observed, some result⟩ }
  | _ => s

def modelStarted (callId : JsString) (reading : Option ℚ) : State ε :=
  match identity callId with
  | none => s
  | some id =>
    if s.finished ∨ id ∈ s.models.map (·.callId) then s
    else if maxModelSpans ≤ s.models.length then
      { s with modelsTruncated := true }
    else
      let s := s.elapsed reading
      { s with models := s.models ++ [⟨id, s.lastElapsedMs, none⟩] }

def modelFinished (callId : JsString) (reading : Option ℚ) : State ε :=
  match identity callId with
  | none => s
  | some id =>
    if s.finished = false ∧
        ∃ span ∈ s.models, span.callId = id ∧ span.stop = none then
      let s := s.elapsed reading
      { s with
        models := s.models.map fun span =>
          if span.callId = id then
            { span with stop := some s.lastElapsedMs }
          else span }
    else s

def phaseTotals (phase : Phase) : ContentCheckTotals :=
  let entry := s.checks phase
  { calls := bounded entry.calls
    failed := bounded entry.failed
    pending := bounded entry.pending
    durationMs := bounded
      (entry.durationMs + entry.pending * s.lastElapsedMs -
        entry.pendingStarts) }

def contentChecks : ContentChecks :=
  let sumOf := fun (field : ContentCheckTotals → ℚ) =>
    contentPhases.foldl (fun sum phase => sum + field (s.phaseTotals phase)) 0
  { calls := bounded (sumOf (·.calls))
    failed := bounded (sumOf (·.failed))
    pending := bounded (sumOf (·.pending))
    sumMs := bounded (sumOf (·.durationMs))
    unionMs := bounded (s.checkUnionMs +
      if 0 < s.activeChecks then s.lastElapsedMs - s.unionStart else 0)
    phases := s.phaseTotals }

def addSpan (chain : ModelChain) (span : ModelSpan) : ModelChain :=
  match span.stop with
  | none =>
    { chain with
      unclosed := chain.unclosed + 1
      unclosedDurationMs :=
        chain.unclosedDurationMs + (s.lastElapsedMs - span.start) }
  | some stop =>
    { chain with
      completed := chain.completed + 1
      durationMs := chain.durationMs + (stop - span.start) }

def modelChain : ModelChain :=
  let chain := s.models.foldl s.addSpan
    ⟨s.models.length, 0, 0, 0, 0, s.modelsTruncated⟩
  { chain with
    durationMs := bounded chain.durationMs
    unclosedDurationMs := bounded chain.unclosedDurationMs }

def report (outcome : Option Outcome) : Report where
  runId := s.options.runId.bind identity
  sessionId := s.options.sessionId.bind identity
  attempt := counter s.options.attempt
  generation := counter s.options.generation
  outcome := outcome.getD .failed
  elapsedMs := s.lastElapsedMs
  points := s.marks
  contentChecks := s.contentChecks
  modelChain := s.modelChain

def finish (outcome : Option Outcome) (reading : Option ℚ) : State ε :=
  if s.finished then s
  else
    let s := { s with finished := true }.elapsed reading
    { s with reports := s.reports ++ [s.report outcome] }

def step : Action ε → State ε
  | .mark point reading => s.mark point reading
  | .checkContent phase reading => s.checkContent phase reading
  | .settle call result reading => s.settle call result reading
  | .modelStarted callId reading => s.modelStarted callId reading
  | .modelFinished callId reading => s.modelFinished callId reading
  | .finish outcome reading => s.finish outcome reading

end State

def machine (ε : Type) : Machine (State ε) (Action ε) Unit where
  step s action := (s.step action, ())

end Allrice.DshRunTiming
