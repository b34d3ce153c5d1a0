/-
The tree of subagents below a session, put together from the catalogs of
sessions that are attached.  A session's catalog is followed only after the
session has shown itself to be the one that its parent's catalog names.
-/
import Allrice.JsString

namespace Allrice.LiveSubagents

inductive Mode
  | oneShot
  | continuable
  | unknown
deriving DecidableEq

inductive Source
  | live
  | prepared
deriving DecidableEq

/-- An entry of a `subagentCatalog`. -/
structure CatalogEntry where
  id : JsString
  mode : Mode
  label : Option JsString
  createdAt : Int

/-- The `subagent` projection. -/
structure Identity where
  mode : Mode
  label : Option JsString
  seq : Int

/-- An event of a session: whether it is a `subagent/descriptor`. -/
structure SessionEvent where
  descriptor : Bool
  seq : Int

structure Header where
  id : JsString
  parentSession : Option JsString
  isSeeded : Bool
  createdAt : Int

structure Cut where
  source : Source
  cursor : Int

/-- What is seen of a session.  `shown` is what a row shows of its title, task,
timing, usage and reply, or nothing where these do not pass the schema. -/
structure Observation (δ : Type) where
  header : Header
  cut : Cut
  events : List SessionEvent
  inheritedEventCount : Nat
  identity : Option Identity
  catalog : Option (List CatalogEntry)
  shown : Option δ

inductive QueryError
  | notLive
  | catalogUnavailable
  | rootMismatch
  | schema
  | corrupt
  | unavailable
  | aborted

structure Agent where
  id : JsString
  session : JsString
  running : Option Bool

/-- The sessions that are attached, what observing one of them gives, and the
agents, where there are any. -/
structure Registry (δ : Type) where
  attached : List JsString
  observeSession : JsString → Except QueryError (Observation δ)
  agents : Option (List Agent)

inductive Reason
  | corrupt
  | unavailable
  | unsupported
  | identityMismatch
  | parentUnverified

/-- A catalog entry that has not been visited. -/
structure Row where
  id : JsString
  parentId : JsString
  depth : Nat
  mode : Mode
  label : Option JsString

structure ChildSummary (δ : Type) where
  id : JsString
  parentId : JsString
  depth : Nat
  mode : Mode
  parentAvailable : Option Bool
  label : Option JsString
  running : Option Bool
  observation : Cut
  shown : δ

inductive Descendant (δ : Type)
  | diagnostic (id parentId : JsString) (depth : Nat) (reason : Reason)
  | child (summary : ChildSummary δ)

structure Summary (δ : Type) where
  rootId : JsString
  root : Cut
  descendants : List (Descendant δ)

/-- `observed` are the calls of `observeSession`; `checks` counts how often the
signal has been looked at. -/
structure Walk (δ : Type) where
  pending : List Row
  trusted : List JsString
  descendants : List (Descendant δ)
  observed : List JsString
  checks : Nat

namespace Descendant

variable {δ : Type}

def id : Descendant δ → JsString
  | .diagnostic id _ _ _ => id
  | .child summary => summary.id

def parentId : Descendant δ → JsString
  | .diagnostic _ parentId _ _ => parentId
  | .child summary => summary.parentId

/-- The id of a row that is a child. -/
def childId : Descendant δ → Option JsString
  | .diagnostic _ _ _ _ => none
  | .child summary => some summary.id

end Descendant

/-- `liveChildren`. -/
def liveChildren {δ : Type} (parent : Observation δ) (parentId : JsString)
    (depth : Nat) : Option (List Row) :=
  parent.catalog.map fun catalog =>
    catalog.map fun entry =>
      { id := entry.id, parentId, depth, mode := entry.mode,
        label := entry.label }

section Query

variable {δ : Type} (registry : Registry δ)

/-- `observe`: an observation is kept, a failure is not. -/
def observe (w : Walk δ) (id : JsString) :
    Walk δ × Except QueryError (Observation δ) :=
  if id ∈ w.observed ∧ (registry.observeSession id).isOk then
    (w, registry.observeSession id)
  else if id ∉ registry.attached then (w, .error .notLive)
  else
    ({ w with observed := w.observed ++ [id] }, registry.observeSession id)

/-- The child is the one that the row and the parent's catalog name. -/
def verified (row : Row) (child parent : Observation δ) : Bool :=
  child.header.id == row.id && child.header.parentSession == some row.parentId &&
    child.identity.any fun identity =>
      identity.mode == row.mode && identity.label == row.label &&
        (child.events.drop child.inheritedEventCount).any (fun event =>
          event.descriptor && event.seq == identity.seq) &&
        parent.catalog.any fun catalog =>
          catalog.any fun entry =>
            entry.id == row.id && entry.mode == identity.mode &&
              entry.label == identity.label &&
              entry.createdAt == child.header.createdAt

def findAgent (id : JsString) : Option Agent :=
  registry.agents.bind fun agents => agents.find? (·.id == id)

/-- A row that has passed its schema. -/
def summarize (root : Observation δ) (row : Row)
    (child parent : Observation δ) : Option (ChildSummary δ) :=
  let parentAgent := findAgent registry row.parentId
  let agent := findAgent registry row.id
  if root.cut.cursor < -1 ∨ child.cut.cursor < -1 then none
  else
    child.shown.map fun shown =>
      { id := row.id
        parentId := row.parentId
        depth := row.depth
        mode := row.mode
        parentAvailable :=
          if root.cut.source = .live ∧ parent.cut.source = .live ∧
              registry.agents.isSome ∧
              parentAgent.all (·.session == row.parentId) then
            some parentAgent.isSome
          else none
        label := row.label
        running :=
          if root.cut.source = .live ∧ child.cut.source = .live then
            (agent.filter (·.session == row.id)).bind Agent.running
          else none
        observation := child.cut
        shown }

/-- What comes of a row whose parent is trusted. -/
inductive Visit (δ : Type)
  | child (summary : ChildSummary δ) (rows : List Row)
  | mismatch
  | failed (error : QueryError)

def visit (root : Observation δ) (row : Row) (w : Walk δ) :
    Walk δ × Visit δ :=
  match observe registry w row.id with
  | (w, .error error) => (w, .failed error)
  | (w, .ok child) =>
    match observe registry w row.parentId with
    | (w, .error error) => (w, .failed error)
    | (w, .ok parent) =>
      if verified row child parent = false then (w, .mismatch)
      else
        match summarize registry root row child parent,
          liveChildren child row.id (row.depth + 1) with
        | none, _ => (w, .failed .schema)
        | some _, none => (w, .failed .catalogUnavailable)
        | some summary, some rows => (w, .child summary rows)

def diagnose (w : Walk δ) (row : Row) (reason : Reason) : Walk δ :=
  { w with
    descendants := w.descendants ++
      [.diagnostic row.id row.parentId row.depth reason] }

def reasonOf : QueryError → Reason
  | .corrupt => .corrupt
  | _ => .unavailable

/-- One row; `aborted` says what the signal is at each check. -/
def step (aborted : ℕ → Bool) (root : Observation δ) (row : Row)
    (w : Walk δ) : Except (Walk δ) (Walk δ) :=
  if aborted w.checks then .error w
  else
    let w := { w with checks := w.checks + 1 }
    if row.id ∈ w.trusted then .ok w
    else if row.parentId ∉ w.trusted then
      .ok (diagnose w row .parentUnverified)
    else if row.mode = .unknown then .ok (diagnose w row .unsupported)
    else
      match visit registry root row w with
      | (w, .mismatch) => .ok (diagnose w row .identityMismatch)
      | (w, .failed error) =>
        if aborted w.checks then .error w
        else
          .ok (diagnose { w with checks := w.checks + 1 } row
            (reasonOf error))
      | (w, .child summary rows) =>
        .ok
          { w with
            pending := rows ++ w.pending
            trusted := row.id :: w.trusted
            descendants := w.descendants ++ [.child summary] }

/-- The work list, for so many rows at most.  A walk that was aborted is on the
left. -/
def walk (aborted : ℕ → Bool) (root : Observation δ) :
    ℕ → Walk δ → Option (Except (Walk δ) (Walk δ))
  | fuel, w =>
    match w.pending, fuel with
    | [], _ => some (.ok w)
    | _ :: _, 0 => none
    | row :: rest, fuel + 1 =>
      match step registry aborted root row { w with pending := rest } with
      | .error w => some (.error w)
      | .ok w => walk aborted root fuel w

/-- The result of a call, and the sessions that it has observed. -/
structure Answer (δ : Type) where
  observed : List JsString
  result : Except QueryError (Summary δ)

end Query

end Allrice.LiveSubagents
