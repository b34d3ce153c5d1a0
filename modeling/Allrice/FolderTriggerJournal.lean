/-
The folder-trigger tables of the journal: the scopes that have a baseline, the
last snapshot of each, and the events that wait for delivery or have been
delivered.  One transaction moves the snapshot and stores its events.
-/
import Allrice.FileCommandJournal
import Allrice.FolderTrigger

namespace Allrice

open Tx

structure FolderScopeRow where
  scopeKey : Checksum
  ruleDigest : Checksum
  root : FolderTriggerRootIdentity

structure FolderFileRow where
  scopeKey : Checksum
  path : JsString
  expected : LocalFileVersion
deriving DecidableEq

def FolderFileRow.key (row : FolderFileRow) : Checksum × JsString :=
  (row.scopeKey, row.path)

structure FolderEventRow where
  eventId : Uuid
  scopeKey : Checksum
  fingerprint : Checksum
  body : Option FolderTriggerEvent
  delivered : Bool

structure FolderTables where
  scopes : Table Checksum FolderScopeRow FolderScopeRow.scopeKey
  files : Table (Checksum × JsString) FolderFileRow FolderFileRow.key
  events : Table Uuid FolderEventRow FolderEventRow.eventId

inductive FolderErrorCode where
  | identityMismatch
  | inputInvalid
  | rootChanged
  | scopeMismatch
  | admissionExpired
  | baselineIncomplete
  | capacityReached
  | eventConflict
  | pendingEvents
deriving DecidableEq

/-- Why a call failed; only `policy` failures are `BridgeJournalError`s. -/
inductive FolderFailure where
  | policy (code : FolderErrorCode)
  | schema
  | constraint
deriving DecidableEq

def FolderFailure.poisons : FolderFailure → Bool
  | .policy _ => false
  | .schema | .constraint => true

/-- The clock and what other tables of the journal take up, as one commit
reads them. -/
structure FolderFacts where
  now : Int
  databaseBytes : Nat
  activeEntries : Nat
  activeServices : Nat
deriving DecidableEq

abbrev FolderTx := Tx FolderFailure FolderTables

section Host

variable (host : FolderTriggerHost)

/-- The scope of a rule; a rule or root other than the stored one is
refused. -/
def folderScope (rule : FolderTriggerRule)
    (root : Option FolderTriggerRootIdentity) :
    FolderTx (Option FolderScopeRow) := do
  let tables ← get
  match tables.scopes.find? (folderTriggerRuleKey host rule) with
  | none => pure none
  | some row => do
      rejectIf (row.ruleDigest ≠ folderTriggerRuleFingerprint host rule)
        (.policy .scopeMismatch)
      rejectIf (∃ current ∈ root, row.root ≠ current) (.policy .rootChanged)
      pure (some row)

def folderFiles (tables : FolderTables) (rule : FolderTriggerRule) :
    List FolderTriggerFile :=
  ((tables.files.rows.filter fun row =>
    row.scopeKey = folderTriggerRuleKey host rule).insertionSort
      fun row other => host.pathLe row.path other.path = true).map
        fun row => ⟨row.path, row.expected⟩

def folderCapacity (limits : JournalLimits) (facts : FolderFacts)
    (additionalBytes additionalEvents : Nat) : FolderTx Unit := do
  let tables ← get
  let pending := (tables.events.rows.filter fun row => !row.delivered).length
  rejectIf (min 1000 limits.entries < pending + additionalEvents ∨
    limits.bytes < facts.databaseBytes + facts.activeEntries * reservePerEntry +
      facts.activeServices * reservePerService + additionalBytes + 32768)
    (.policy .capacityReached)

/-- Files by their path: `new Map(files.map((file) => [file.path, file]))`. -/
def filesByPath (files : List FolderTriggerFile) :
    Table JsString FolderTriggerFile FolderTriggerFile.path :=
  Table.empty.putAll files

/-- A scan that saw every file of its folder. -/
def FolderTriggerScan.isWhole (scan : FolderTriggerScan) : Bool :=
  scan.complete && !scan.truncated

/-- The snapshot after a scan: a whole one replaces it, another is merged. -/
def nextFiles (previous : List FolderTriggerFile)
    (scan : FolderTriggerScan) : List FolderTriggerFile :=
  if scan.isWhole then (filesByPath scan.files).rows
  else (filesByPath (previous ++ scan.files)).rows

/-- The files whose version is not the one of the snapshot. -/
def changedFiles (previous : List FolderTriggerFile)
    (scan : FolderTriggerScan) : List FolderTriggerFile :=
  scan.files.filter fun file =>
    ((filesByPath previous).find? file.path).map (·.expected) ≠
      some file.expected

def folderTriggerEvent (rule : FolderTriggerRule) (observedAt : JsString)
    (file : FolderTriggerFile) : FolderTriggerEvent where
  eventId := folderTriggerEventId host rule file
  ruleId := rule.automationId
  revision := rule.revision
  grantId := rule.folderGrantId
  grantVersion := rule.folderGrantVersion
  path := file.path
  expected := file.expected
  observedAt

/-- How many events are remembered, delivered ones included. -/
def maximumEvents (limits : JournalLimits) : Nat :=
  max 32 (min 10000 (limits.entries * 4))

/-- `INSERT INTO folder_trigger_events`, whose second constraint is one event
for each scope and fingerprint. -/
def insertTriggerEvent (row : FolderEventRow) : FolderTx Unit := do
  let tables ← get
  rejectIf (∃ other ∈ tables.events.rows, other.scopeKey = row.scopeKey ∧
    other.fingerprint = row.fingerprint) .constraint
  let events ← expect (tables.events.insert? row) .constraint
  set { tables with events }

/-- Store one event, or find it stored; what waits for delivery is queued. -/
def storeEvent (limits : JournalLimits) (key : Checksum)
    (event : FolderTriggerEvent) : FolderTx (Option FolderTriggerEvent) := do
  let fingerprint := host.digestFile event.path event.expected
  let tables ← get
  match tables.events.find? event.eventId with
  | some existing => do
      rejectIf (existing.scopeKey ≠ key ∨ existing.fingerprint ≠ fingerprint)
        (.policy .eventConflict)
      if existing.delivered then pure none
      else do
        let body ← expect existing.body .schema
        pure (some body)
  | none => do
      rejectIf (maximumEvents limits ≤ tables.events.rows.length)
        (.policy .capacityReached)
      insertTriggerEvent ⟨event.eventId, key, fingerprint, some event, false⟩
      pure (some event)

def storeEvents (limits : JournalLimits) (key : Checksum) :
    List FolderTriggerEvent → FolderTx (List FolderTriggerEvent)
  | [] => pure []
  | event :: rest => do
      let queued ← storeEvent host limits key event
      let more ← storeEvents limits key rest
      pure (queued.toList ++ more)

/-- The files of one scope are deleted and inserted anew. -/
def replaceFiles (key : Checksum) (files : List FolderTriggerFile) :
    FolderTx Unit := do
  let tables ← get
  let kept := tables.files.deleteWhere fun row => row.scopeKey = key
  let files ← expect (Table.insertAll?
    (files.map fun file => ⟨key, file.path, file.expected⟩) kept) .constraint
  set { tables with files }

def insertScope (row : FolderScopeRow) : FolderTx Unit := do
  let tables ← get
  let scopes ← expect (tables.scopes.insert? row) .constraint
  set { tables with scopes }

def commitFolderTriggerSnapshot (limits : JournalLimits)
    (facts : FolderFacts) (rule : FolderTriggerRule)
    (root : FolderTriggerRootIdentity) (scan : FolderTriggerScan)
    (observedAt : JsString) : FolderTx (List FolderTriggerEvent) := do
  rejectIf (∃ expires ∈ host.parseDate rule.admissionExpiresAt,
    expires ≤ facts.now) (.policy .admissionExpired)
  let stored ← folderScope host rule (some root)
  rejectIf (stored = none ∧ scan.isWhole = false)
    (.policy .baselineIncomplete)
  let tables ← get
  rejectIf (stored = none ∧ 32 ≤ tables.scopes.rows.length)
    (.policy .capacityReached)
  let previous := folderFiles host tables rule
  let files := nextFiles previous scan
  let bytes := host.snapshotBytes files
  rejectIf (folderTriggerMaximumFiles < files.length ∨
    folderTriggerMaximumSnapshotBytes < bytes) (.policy .capacityReached)
  let changed := if stored = none then [] else changedFiles previous scan
  let events := changed.map (folderTriggerEvent host rule observedAt)
  let fresh := events.filter fun event =>
    tables.events.find? event.eventId = none
  rejectIf (∃ event ∈ fresh, 8192 < host.eventBytes event)
    (.policy .capacityReached)
  folderCapacity limits facts
    (bytes + (fresh.map host.eventBytes).sum + JsString.byteLength root.path +
      4096) fresh.length
  let key := folderTriggerRuleKey host rule
  whenever (stored = none)
    (insertScope ⟨key, folderTriggerRuleFingerprint host rule, root⟩)
  let queued ← storeEvents host limits key events
  replaceFiles key files
  pure queued

def forgetFolderTriggerPath (rule : FolderTriggerRule)
    (root : FolderTriggerRootIdentity) (path : JsString) : FolderTx Unit := do
  let stored ← folderScope host rule (some root)
  rejectIf (stored = none) (.policy .baselineIncomplete)
  modify fun tables => { tables with
    files := tables.files.deleteWhere fun row =>
      row.scopeKey = folderTriggerRuleKey host rule && row.path = path }

/-- The root and files of a rule whose baseline is complete. -/
def folderTriggerSnapshot (rule : FolderTriggerRule) :
    FolderTx (Option (FolderTriggerRootIdentity × List FolderTriggerFile)) := do
  let stored ← folderScope host rule none
  let tables ← get
  pure (stored.map fun row => (row.root, folderFiles host tables rule))

/-- The oldest undelivered events of a rule; `none` is a limit that is not
finite. -/
def pendingFolderTriggers (rule : FolderTriggerRule) (limit : Option Int) :
    FolderTx (List FolderTriggerEvent) := do
  let stored ← folderScope host rule none
  if stored = none then pure []
  else do
    let limit ← expect limit (.policy .inputInvalid)
    let tables ← get
    let waiting := tables.events.rows.filter fun row =>
      row.scopeKey = folderTriggerRuleKey host rule && !row.delivered
    expect ((waiting.take (min 32 (max 1 limit)).toNat).mapM (·.body)) .schema

def acknowledgeFolderTrigger (rule : FolderTriggerRule) (eventId : Uuid) :
    FolderTx Unit := do
  let _ ← folderScope host rule none
  let tables ← get
  let key := folderTriggerRuleKey host rule
  rejectIf (∃ existing ∈ tables.events.find? eventId,
    existing.scopeKey ≠ key) (.policy .scopeMismatch)
  set { tables with
    events := tables.events.updateWhere
      (fun row => row.eventId = eventId && row.scopeKey = key)
      (fun row => { row with body := none, delivered := true })
      fun _ => rfl }

def retireFolderTrigger (rule : FolderTriggerRule) : FolderTx Unit := do
  let _ ← folderScope host rule none
  let tables ← get
  let key := folderTriggerRuleKey host rule
  rejectIf (∃ row ∈ tables.events.rows, row.scopeKey = key ∧
    row.delivered = false) (.policy .pendingEvents)
  set { tables with
    scopes := tables.scopes.deleteWhere fun row => row.scopeKey = key
    files := tables.files.deleteWhere fun row => row.scopeKey = key
    events := tables.events.deleteWhere fun row => row.scopeKey = key }

/-- A call on the folder triggers. -/
inductive FolderCall where
  | snapshot (rule : FolderTriggerRule)
  | commit (rule : FolderTriggerRule) (root : FolderTriggerRootIdentity)
      (scan : FolderTriggerScan) (observedAt : JsString) (facts : FolderFacts)
  | forget (rule : FolderTriggerRule) (root : FolderTriggerRootIdentity)
      (path : JsString)
  | pending (rule : FolderTriggerRule) (limit : Option Int)
  | acknowledge (rule : FolderTriggerRule) (eventId : Uuid)
  | retire (rule : FolderTriggerRule)
deriving DecidableEq

inductive FolderResult where
  | snapshot (stored : Option (FolderTriggerRootIdentity ×
      List FolderTriggerFile))
  | queued (events : List FolderTriggerEvent)
  | done
deriving DecidableEq

/-- `this.folderRule(input)`. -/
def folderRule (input : FolderTriggerRule) :
    Except FolderFailure FolderTriggerRule :=
  if input.isValid host then
    let rule := normalizeFolderTriggerRule input
    if rule.deviceId ≠ host.deviceId then .error (.policy .identityMismatch)
    else .ok rule
  else .error .schema

/-- What a commit checks before its transaction. -/
def commitChecks (rule : FolderTriggerRule)
    (root : FolderTriggerRootIdentity) (scan : FolderTriggerScan)
    (observedAt : JsString) : Except FolderFailure Unit :=
  if root.isValid = false ∨ scan.isValid = false then .error .schema
  else if root.path.head? ≠ some 0x2F then .error (.policy .rootChanged)
  else if ¬(scan.files.map (·.path)).Nodup ∨
      ¬scan.files.all (fun file => folderTriggerMatches host rule file.path) then
    .error (.policy .inputInvalid)
  else if host.parseDate observedAt = none then .error .schema
  else .ok ()

/-- What a call checks before its transaction, which works on the normalized
rule. -/
def FolderCall.checks : FolderCall → Except FolderFailure FolderCall
  | .snapshot input => (folderRule host input).map .snapshot
  | .commit input root scan observedAt facts => do
      let rule ← folderRule host input
      commitChecks host rule root scan observedAt
      pure (.commit rule root scan observedAt facts)
  | .forget input root path => do
      let rule ← folderRule host input
      if root.isValid = false then .error .schema
      else if folderTriggerMatches host rule path = false then
        .error (.policy .inputInvalid)
      else pure (.forget rule root path)
  | .pending input limit => (folderRule host input).map (.pending · limit)
  | .acknowledge input eventId =>
    (folderRule host input).map (.acknowledge · eventId)
  | .retire input => (folderRule host input).map .retire

def FolderCall.run (limits : JournalLimits) :
    FolderCall → FolderTx FolderResult
  | .snapshot rule => .snapshot <$> folderTriggerSnapshot host rule
  | .commit rule root scan observedAt facts =>
    .queued <$>
      commitFolderTriggerSnapshot host limits facts rule root scan observedAt
  | .forget rule root path =>
    (fun _ => .done) <$> forgetFolderTriggerPath host rule root path
  | .pending rule limit => .queued <$> pendingFolderTriggers host rule limit
  | .acknowledge rule eventId =>
    (fun _ => .done) <$> acknowledgeFolderTrigger host rule eventId
  | .retire rule => (fun _ => .done) <$> retireFolderTrigger host rule

def FolderCall.writes : FolderCall → Bool
  | .snapshot _ | .pending _ _ => false
  | _ => true

/-- Opening the journal recovers nothing in these tables. -/
def folderShell : StoreShell FolderTables JournalLimits FolderCall Empty
    FolderResult FolderFailure where
  plan := fun _ => []
  recover := fun item _ => item.elim
  checks := fun _ => FolderCall.checks host
  run := fun limits call => FolderCall.run host limits call
  writes := FolderCall.writes
  poisons := FolderFailure.poisons

abbrev FolderMachineState :=
  StoreState FolderTables JournalLimits FolderCall Empty

abbrev FolderAction := StoreAction JournalLimits FolderCall

abbrev FolderAnswer := StoreAnswer FolderCall FolderResult FolderFailure

/-- The folder triggers of one device over any number of processes. -/
def folderMachine :
    Machine FolderMachineState FolderAction FolderAnswer :=
  (folderShell host).machine

end Host

end Allrice
