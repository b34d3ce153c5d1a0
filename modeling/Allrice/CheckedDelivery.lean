/-
Proofs of checked final deliveries inside one worker.  A proof sticks to the
object that carries the answer, and only a transfer moves it to another one.
Objects are known by their identity; everything else about them may change
between two calls.
-/
import Allrice.Runs
import Allrice.RuntimeIdentity
import Allrice.Utf8Text

namespace Allrice.CheckedDelivery

open JsString (ofString)

abbrev Obj := Nat
abbrev Callable := Nat

inductive Key
  | name (text : JsString)
  | symbol (number : Nat)
deriving DecidableEq

/-- `other` is every value that no check here accepts. -/
inductive Value
  | text (text : JsString)
  | integer (value : Int)
  | function (function : Callable)
  | object (object : Obj)
  | other
deriving DecidableEq

/-- An own property, as its descriptor shows it. -/
inductive Property
  | data (value : Value)
  | accessor
deriving DecidableEq

/-- `ordinary`: the prototype is `Object.prototype` or null. -/
structure Shape where
  ordinary : Bool
  properties : AList fun _ : Key => Property

structure FinalDeliveryProof where
  nativeSessionId : JsString
  publicMessageId : JsString
  durableSeq : Int
  nativeBindingId : JsString
  nativeCandidateDigest : JsString
  candidateDigest : JsString
  factSetDigest : JsString
  attempt : Int
  generation : Int
deriving DecidableEq

/-- `identity` stands for the identity of the frozen object. -/
structure CommitBinding where
  identity : Nat
  proof : FinalDeliveryProof
  guard : Obj
  assertCurrent : Callable
deriving DecidableEq

structure Entry where
  identity : Nat
  answer : JsString
  proof : FinalDeliveryProof
  commit : Option CommitBinding
deriving DecidableEq

structure ExecutionCoverage where
  required : Bool
  output : Option Obj
  entry : Option Entry
deriving DecidableEq

/-- `isProxy` never changes for an object. -/
structure DeliveryHost where
  isProxy : Obj → Bool
  sha256 : List UInt8 → JsString

structure State where
  heap : Obj → Shape
  commitGuards : Obj → Option CommitBinding
  deliveries : Obj → Option Entry
  executions : Obj → Option ExecutionCoverage
  identities : Nat

def State.initial (heap : Obj → Shape) : State :=
  ⟨heap, fun _ => none, fun _ => none, fun _ => none, 0⟩

section Checks

variable (host : DeliveryHost) (s : State)

def object (value : Value) : Option Obj :=
  match value with
  | .object o => if host.isProxy o then none else some o
  | _ => none

def plain (value : Value) : Option Obj :=
  (object host value).filter fun o => (s.heap o).ordinary

/-- `Object.getOwnPropertyDescriptor(object, key)?.value`, of data properties
only. -/
def dataValue (o : Obj) (key : String) : Option Value :=
  match (s.heap o).properties.lookup (.name (ofString key)) with
  | some (.data value) => some value
  | _ => none

def isBlank (text : JsString) : Bool := text.trim.isEmpty

def answer (value : Value) : Option JsString := do
  let o ← plain host s value
  match dataValue s o "answer" with
  | some (.text text) => if isBlank text then none else some text
  | _ => none

def digest (text : JsString) : JsString :=
  ofString "sha256:" ++ host.sha256 (Utf8Text.encode text)

/-- `[a-f0-9]`. -/
def isHexUnit (unit : UInt16) : Bool :=
  let n := unit.toNat
  (0x30 ≤ n && n ≤ 0x39) || (0x61 ≤ n && n ≤ 0x66)

/-- `/^sha256:[a-f0-9]{64}$/`. -/
def isSha256 (text : JsString) : Bool :=
  let initial := ofString "sha256:"
  initial.isPrefixOf text &&
    (text.drop initial.length).length == 64 &&
    (text.drop initial.length).all isHexUnit

def text (o : Obj) (key : String) : Option JsString :=
  match dataValue s o key with
  | some (.text text) => if isBlank text then none else some text
  | _ => none

def integer (o : Obj) (key : String) (minimum : Int) : Option Int :=
  match dataValue s o key with
  | some (.integer value) =>
    if value.natAbs ≤ maxSafeInteger ∧ minimum ≤ value then some value
    else none
  | _ => none

/-- The nine fields and nothing else. -/
def snapshot (value : Value) : Option FinalDeliveryProof := do
  let o ← plain host s value
  if (s.heap o).properties.keys.length ≠ 9 then none
  let nativeCandidateDigest ← text s o "nativeCandidateDigest"
  let candidateDigest ← text s o "candidateDigest"
  let factSetDigest ← text s o "factSetDigest"
  if !isSha256 nativeCandidateDigest || !isSha256 candidateDigest ||
      !isSha256 factSetDigest then none
  return {
    nativeSessionId := ← text s o "nativeSessionId"
    publicMessageId := ← text s o "publicMessageId"
    durableSeq := ← integer s o "durableSeq" 0
    nativeBindingId := ← text s o "nativeBindingId"
    nativeCandidateDigest, candidateDigest, factSetDigest
    attempt := ← integer s o "attempt" 1
    generation := ← integer s o "generation" 0 }

/-- The function that the guard object carries now. -/
def guardFunction (o : Obj) : Option Callable :=
  match dataValue s o "assertCurrent" with
  | some (.function f) => some f
  | _ => none

def assertCommit (binding : CommitBinding) : Bool :=
  guardFunction s binding.guard == some binding.assertCurrent

def assertAnswer (value : Value) (entry : Entry) : Bool :=
  entry.commit.all (assertCommit s) &&
    (answer host s value).any fun current =>
      current == entry.answer &&
        digest host current == entry.proof.candidateDigest

end Checks

def bindCheckedFinalDeliveryCommitGuard (host : DeliveryHost) (s : State)
    (proof guard : Value) : Option State := do
  let safe ← snapshot host s proof
  let key ← object host proof
  let guard ← object host guard
  let assertCurrent ← guardFunction s guard
  match s.commitGuards key with
  | some existing =>
    if !assertCommit s existing || existing.guard ≠ guard ||
        existing.proof ≠ safe then none
    else some s
  | none =>
    some { s with
      commitGuards := Function.update s.commitGuards key
        (some ⟨s.identities, safe, guard, assertCurrent⟩)
      identities := s.identities + 1 }

def attachCheckedFinalDelivery (host : DeliveryHost) (s : State)
    (target proof : Value) : Option State := do
  let current ← answer host s target
  let safe ← snapshot host s proof
  let key ← object host proof
  let commit := s.commitGuards key
  if commit.any fun binding =>
      !assertCommit s binding || binding.proof ≠ safe then none
  if digest host current ≠ safe.candidateDigest then none
  let o ← object host target
  match s.deliveries o with
  | some existing =>
    if !assertAnswer host s target existing || existing.proof ≠ safe ||
        existing.commit ≠ commit then none
    else some s
  | none =>
    some { s with
      deliveries := Function.update s.deliveries o
        (some ⟨s.identities, current, safe, commit⟩)
      identities := s.identities + 1 }

def getCheckedFinalDelivery (host : DeliveryHost) (s : State)
    (target : Value) : Option (Option FinalDeliveryProof) :=
  match (object host target).bind s.deliveries with
  | none => some none
  | some entry =>
    if assertAnswer host s target entry then some (some entry.proof) else none

def checkedFinalDeliveryCheckpointGuard (host : DeliveryHost) (s : State)
    (target : Value) : Option Obj := do
  let entry ← (object host target).bind s.deliveries
  let commit ← entry.commit
  if assertAnswer host s target entry && assertCommit s commit then
    some commit.guard
  else none

def transferCheckedFinalDelivery (host : DeliveryHost) (s : State)
    (source target : Value) : Option State := do
  let entry ← (object host source).bind s.deliveries
  if !assertAnswer host s source entry || !assertAnswer host s target entry then
    none
  let o ← object host target
  if (s.deliveries o).any (· ≠ entry) then none
  some { s with deliveries := Function.update s.deliveries o (some entry) }

def beginCheckedFinalDeliveryExecution (host : DeliveryHost) (s : State)
    (scope : Value) : Option State := do
  let scope ← object host scope
  if (s.executions scope).isSome then none
  some { s with
    executions := Function.update s.executions scope (some ⟨false, none, none⟩) }

def requireCheckedFinalDelivery (host : DeliveryHost) (s : State)
    (scope : Value) : Option State := do
  let scope ← object host scope
  let state ← s.executions scope
  if state.output.isSome then none
  some { s with
    executions := Function.update s.executions scope
      (some { state with required := true }) }

def transferCheckedFinalDeliveryForExecution (host : DeliveryHost) (s : State)
    (scope source target : Value) : Option State := do
  let scope ← object host scope
  match (s.executions scope).filter (·.required) with
  | none =>
    let before ← getCheckedFinalDelivery host s source
    let after ← getCheckedFinalDelivery host s target
    if before.isSome || after.isSome then none else some s
  | some state =>
    let entry ← (object host source).bind s.deliveries
    if entry.commit.isNone || state.entry.any (· ≠ entry) then none
    if state.output.any fun output => target ≠ .object output then none
    let next ← transferCheckedFinalDelivery host s source target
    let output ← object host target
    some { next with
      executions := Function.update next.executions scope
        (some { state with entry := some entry, output := some output }) }

inductive CheckedFinalDeliveryCoverage
  | uncovered
  | checkedNativeV1 (proof : FinalDeliveryProof) (checkedDelivery : Obj)
deriving DecidableEq

def readCheckedFinalDeliveryForExecution (host : DeliveryHost) (s : State)
    (scope result : Value) : Option CheckedFinalDeliveryCoverage := do
  let scope ← object host scope
  let state ← s.executions scope
  let proof ← getCheckedFinalDelivery host s result
  if !state.required then
    if proof.isSome then none else some .uncovered
  else
    let proof ← proof
    let o ← object host result
    if state.output ≠ some o || s.deliveries o ≠ state.entry then none
    let entry ← s.deliveries o
    let commit ← entry.commit
    if assertCommit s commit then some (.checkedNativeV1 proof commit.guard)
    else none

inductive Action
  | mutate (o : Obj) (shape : Shape)
  | bind (proof guard : Value)
  | attach (target proof : Value)
  | get (target : Value)
  | checkpoint (target : Value)
  | transfer (source target : Value)
  | begin (scope : Value)
  | require (scope : Value)
  | transferForExecution (scope source target : Value)
  | read (scope result : Value)

inductive Answer
  | done
  | unavailable
  | proof (proof : Option FinalDeliveryProof)
  | guard (guard : Obj)
  | coverage (coverage : CheckedFinalDeliveryCoverage)
deriving DecidableEq

/-- A call either goes through or throws and changes nothing. -/
def settle (s : State) (next : Option State) : State × Answer :=
  match next with
  | some next => (next, .done)
  | none => (s, .unavailable)

def step (host : DeliveryHost) (s : State) : Action → State × Answer
  | .mutate o shape =>
    ({ s with heap := Function.update s.heap o shape }, .done)
  | .bind proof guard =>
    settle s (bindCheckedFinalDeliveryCommitGuard host s proof guard)
  | .attach target proof =>
    settle s (attachCheckedFinalDelivery host s target proof)
  | .get target =>
    (s, ((getCheckedFinalDelivery host s target).map .proof).getD
      .unavailable)
  | .checkpoint target =>
    (s, ((checkedFinalDeliveryCheckpointGuard host s target).map
      .guard).getD .unavailable)
  | .transfer source target =>
    settle s (transferCheckedFinalDelivery host s source target)
  | .begin scope => settle s (beginCheckedFinalDeliveryExecution host s scope)
  | .require scope => settle s (requireCheckedFinalDelivery host s scope)
  | .transferForExecution scope source target =>
    settle s (transferCheckedFinalDeliveryForExecution host s scope source
      target)
  | .read scope result =>
    (s, ((readCheckedFinalDeliveryForExecution host s scope result).map
      .coverage).getD .unavailable)

def calls (host : DeliveryHost) : Machine State Action Answer where
  step := step host

end Allrice.CheckedDelivery
