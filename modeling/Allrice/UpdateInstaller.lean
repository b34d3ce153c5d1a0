/-
The installer of bridge updates.  A step is one change of the managed directory;
between any two of them the process may crash.
-/
import Allrice.JsonText
import Allrice.Pattern
import Allrice.Runs
import Allrice.RuntimeIdentity
import Allrice.Utf8Text

namespace Allrice.UpdateInstaller

open DigitText JsonText Utf8Text

inductive TransactionPhase where
  | prepared
  | pendingHealth
  | readyHealth
  | healthy
  | recovering
  | rolledBack
deriving DecidableEq

def TransactionPhase.text : TransactionPhase → JsString
  | .prepared => JsString.ofString "prepared"
  | .pendingHealth => JsString.ofString "pending-health"
  | .readyHealth => JsString.ofString "ready-health"
  | .healthy => JsString.ofString "healthy"
  | .recovering => JsString.ofString "recovering"
  | .rolledBack => JsString.ofString "rolled-back"

def digits : Pattern := .many Pattern.isDigit 1

/-- `/^\d+\.\d+\.\d+(?:-dev\.\d+)?$/`. -/
def isVersion (text : JsString) : Bool :=
  (Pattern.sequence [digits, Pattern.literal ".", digits, Pattern.literal ".",
    digits, .either (.both (Pattern.literal "-dev.") digits) .empty]
    ).matchesWhole text

/-- `/^[a-f0-9-]{36}$/`. -/
def isTransactionId (text : JsString) : Bool :=
  text.length == 36 && text.all fun unit =>
    Pattern.isDigit unit || Pattern.among "abcdef-" unit

abbrev TransactionId := { id : JsString // isTransactionId id = true }

/-- What the checks of the metadata and those of a saved state allow. -/
structure Release where
  version : JsString
  sequence : Nat
  isVersion : isVersion version = true
  isSequence : 1 ≤ sequence ∧ sequence ≤ maxSafeInteger

structure Transaction extends Release where
  id : TransactionId
  previous : Bool
  phase : TransactionPhase

/-- `JSON.stringify(transaction)`. -/
def Transaction.text (t : Transaction) : JsString :=
  JsString.ofString "\x7b\"v\":1,\"id\":" ++ quote t.id ++
    JsString.ofString ",\"version\":" ++ quote t.version ++
    JsString.ofString ",\"sequence\":" ++ digitsOf 10 t.sequence ++
    JsString.ofString ",\"previous\":" ++ booleanText t.previous ++
    JsString.ofString ",\"phase\":" ++ quote t.phase.text ++ [closeBrace]

/-- The size that `state` accepts; `save` does not ask for it. -/
def isReadable (t : Transaction) : Bool := (encode t.text).length ≤ 1024

/-- The app, `rollback-<id>.app`, `failed-<id>.app`, the staging directories
with what was extracted, and `update-state.json`. -/
structure Directory (Bundle : Type) where
  app : Option Bundle
  rollback : TransactionId → Option Bundle
  failed : TransactionId → Option Bundle
  staged : TransactionId → Option (Option Bundle)
  state : Option Transaction

/-- Nothing is under way: `healthy`, `rolled-back`, or no state at all. -/
def isSettled (state : Option Transaction) : Bool :=
  state.all fun t => t.phase = .healthy || t.phase = .rolledBack

/-- `randomUUID()` draws an id that has no files yet. -/
def isNew {Bundle : Type} (directory : Directory Bundle) (id : TransactionId) :
    Bool :=
  (directory.staged id).isNone && (directory.rollback id).isNone &&
    (directory.failed id).isNone

/-- The step that an operation takes next.  `install` makes its staging
directory, extracts, saves, keeps the app, replaces it and saves again;
`recover` saves, puts the app aside, restores the backup if there was one, and
saves. -/
inductive Operation (Bundle : Type) where
  | stage (id : TransactionId) (release : Release) (candidate : Bundle)
  | extract (id : TransactionId) (release : Release) (candidate : Bundle)
  | prepare (id : TransactionId) (release : Release)
  | keep (transaction : Transaction)
  | replace (transaction : Transaction)
  | pend (transaction : Transaction)
  | mark (transaction : Transaction) (backupExists : Bool)
  | discard (transaction : Transaction) (backupExists : Bool)
  | restore (transaction : Transaction)
  | roll (transaction : Transaction)
  | ready (transaction : Transaction)
  | confirm (transaction : Transaction)

/-- The directory and the operation that holds its lock.  The rest is history:
the app when the last installation began, the sequences that were accepted and
the transactions that were reported ready. -/
structure State (Bundle : Type) where
  directory : Directory Bundle
  operation : Option (Operation Bundle)
  before : Option Bundle
  accepted : List Nat
  reported : List (TransactionId × JsString)

inductive InstallError where
  | busy
  | recoveryRequired
  | downgradeBlocked
  | rejected
  | unmanagedInstall
  | recoveryUnconfirmed
  | healthMismatch
  | stateUnsafe
deriving DecidableEq

inductive Answer where
  | none
  | failed (error : InstallError)
  | done
deriving DecidableEq

variable {Bundle : Type}

def State.initial (directory : Directory Bundle) : State Bundle where
  directory := directory
  operation := none
  before := directory.app
  accepted := []
  reported := []

namespace State

def begin (s : State Bundle) (operation : Operation Bundle) :
    State Bundle × Answer :=
  ({ s with operation := some operation }, .none)

def finish (s : State Bundle) : State Bundle × Answer :=
  ({ s with operation := none }, .done)

def fail (s : State Bundle) (error : InstallError) : State Bundle × Answer :=
  ({ s with operation := none }, .failed error)

/-- `save`. -/
def save (s : State Bundle) (transaction : Transaction) : State Bundle :=
  { s with directory := { s.directory with state := some transaction } }

/-- `state`, and what is done with it. -/
def withState (s : State Bundle)
    (next : Option Transaction → State Bundle × Answer) :
    State Bundle × Answer :=
  if s.directory.state.all isReadable then next s.directory.state
  else s.fail .stateUnsafe

end State

/-- The checks of `install`; `verified` is the rest of the metadata's. -/
def install (s : State Bundle) (id : TransactionId) (release : Release)
    (environmentSequence : Nat) (verified : Bool) (candidate : Bundle) :
    State Bundle × Answer :=
  s.withState fun prior =>
  if isSettled prior = false then s.fail .recoveryRequired
  else if verified = false then s.fail .rejected
  else if release.sequence ≤
      max environmentSequence ((prior.map (·.sequence)).getD 0) then
    s.fail .downgradeBlocked
  else if prior.isNone ∧ s.directory.app.isSome then s.fail .unmanagedInstall
  else { s with before := s.directory.app }.begin (.stage id release candidate)

/-- The steps of `install`. -/
def installStep (s : State Bundle) : Operation Bundle → State Bundle × Answer
  | .stage id release candidate =>
    { s with
      directory :=
        { s.directory with
          staged := Function.update s.directory.staged id (some none) }
      }.begin (.extract id release candidate)
  | .extract id release candidate =>
    { s with
      directory :=
        { s.directory with
          staged :=
            Function.update s.directory.staged id (some (some candidate)) }
      }.begin (.prepare id release)
  | .prepare id release =>
    let previous := s.directory.app.isSome
    let transaction : Transaction :=
      { toRelease := release, id, previous, phase := .prepared }
    { s.save transaction with
      accepted := s.accepted ++ [release.sequence] }.begin
        (if previous then .keep transaction else .replace transaction)
  | .keep transaction =>
    { s with
      directory :=
        { s.directory with
          app := none
          rollback := Function.update s.directory.rollback transaction.id
            s.directory.app } }.begin (.replace transaction)
  | .replace transaction =>
    { s with
      directory :=
        { s.directory with
          app := (s.directory.staged transaction.id).join
          staged :=
            Function.update s.directory.staged transaction.id (some none) }
      }.begin (.pend transaction)
  | .pend transaction =>
    (s.save { transaction with phase := .pendingHealth }).finish
  | _ => (s, .none)

/-- What `recover` reads, and its checks. -/
def recover (s : State Bundle) : State Bundle × Answer :=
  s.withState fun state =>
  match state with
  | none => s.finish
  | some t =>
    if t.phase = .healthy ∨ t.phase = .rolledBack then s.finish
    else
      let backupExists := (s.directory.rollback t.id).isSome
      let failedExists := (s.directory.failed t.id).isSome
      if t.previous = true ∧ backupExists = false then
        if s.directory.app = none ∨
            ¬(t.phase = .prepared ∧ failedExists = false ∨
              t.phase = .recovering ∧ failedExists = true) then
          s.fail .recoveryUnconfirmed
        else s.begin (.roll t)
      else s.begin (.mark t backupExists)

/-- The steps of `recover`. -/
def recoverStep (s : State Bundle) : Operation Bundle → State Bundle × Answer
  | .mark t backupExists =>
    (s.save { t with phase := .recovering }).begin
      (if s.directory.app.isSome then .discard t backupExists
      else if backupExists then .restore t else .roll t)
  | .discard t backupExists =>
    if (s.directory.failed t.id).isSome then s.fail .recoveryUnconfirmed
    else
      { s with
        directory :=
          { s.directory with
            app := none
            failed := Function.update s.directory.failed t.id
              s.directory.app } }.begin
        (if backupExists then .restore t else .roll t)
  | .restore t =>
    { s with
      directory :=
        { s.directory with
          app := s.directory.rollback t.id
          rollback := Function.update s.directory.rollback t.id none }
      }.begin (.roll t)
  | .roll t => (s.save { t with phase := .rolledBack }).finish
  | _ => (s, .none)

/-- The transaction that is reported on, in its phase. -/
def isReported (state : Option Transaction) (phase : TransactionPhase)
    (version id : JsString) : Option Transaction :=
  state.filter fun t => t.phase = phase && t.version = version && t.id.1 = id

def reportReady (s : State Bundle) (version id : JsString) :
    State Bundle × Answer :=
  s.withState fun state =>
  match isReported state .pendingHealth version id with
  | none => s.fail .healthMismatch
  | some t => s.begin (.ready t)

def confirmHealthy (s : State Bundle) (version id : JsString) :
    State Bundle × Answer :=
  s.withState fun state =>
  match isReported state .readyHealth version id with
  | none => s.fail .healthMismatch
  | some t => s.begin (.confirm t)

/-- The saves of `reportReady` and `confirmHealthy`. -/
def healthStep (s : State Bundle) : Operation Bundle → State Bundle × Answer
  | .ready t =>
    { s.save { t with phase := .readyHealth } with
      reported := s.reported ++ [(t.id, t.version)] }.finish
  | .confirm t => (s.save { t with phase := .healthy }).finish
  | _ => (s, .none)

/-- The lock lets one operation in at a time; an id that is not new cannot be
drawn.  `advance` is the next change of the directory. -/
inductive Action (Bundle : Type) where
  | install (id : TransactionId) (release : Release)
      (environmentSequence : Nat) (verified : Bool) (candidate : Bundle)
  | recover
  | reportReady (version id : JsString)
  | confirmHealthy (version id : JsString)
  | advance
  | crash

def advance (s : State Bundle) (operation : Operation Bundle) :
    State Bundle × Answer :=
  match operation with
  | .mark _ _ | .discard _ _ | .restore _ | .roll _ => recoverStep s operation
  | .ready _ | .confirm _ => healthStep s operation
  | _ => installStep s operation

def start (s : State Bundle) : Action Bundle → State Bundle × Answer
  | .install id release environmentSequence verified candidate =>
    if isNew s.directory id then
      install s id release environmentSequence verified candidate
    else (s, .none)
  | .recover => recover s
  | .reportReady version id => reportReady s version id
  | .confirmHealthy version id => confirmHealthy s version id
  | _ => (s, .none)

def step (s : State Bundle) (action : Action Bundle) : State Bundle × Answer :=
  match s.operation, action with
  | _, .crash => ({ s with operation := none }, .none)
  | some operation, .advance => advance s operation
  | some _, _ => (s, .failed .busy)
  | none, _ => start s action

def installer : Machine (State Bundle) (Action Bundle) Answer := ⟨step⟩

/-- `recover`, to its end. -/
def recovery : List (Action Bundle) :=
  [.recover, .advance, .advance, .advance, .advance]

end Allrice.UpdateInstaller
