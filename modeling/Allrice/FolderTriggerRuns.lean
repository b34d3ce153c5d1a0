/-
Runs of the folder triggers.  What a commit does to the snapshot and to the
events of its scope is said once, in `Committed`; an event waits in its table
until it is acknowledged.
-/
import Allrice.FolderTriggerJournal

namespace Allrice

open Tx

variable {host : FolderTriggerHost}

/-- One event for each scope and fingerprint, and the body of an event that
waits for delivery. -/
structure FoldersSound (host : FolderTriggerHost) (tables : FolderTables) :
    Prop where
  unique : ∀ row ∈ tables.events.rows, ∀ other ∈ tables.events.rows,
    row.scopeKey = other.scopeKey → row.fingerprint = other.fingerprint →
      row = other
  body : ∀ row ∈ tables.events.rows, row.delivered = false →
    ∃ event, row.body = some event ∧ event.eventId = row.eventId ∧
      row.fingerprint = host.digestFile event.path event.expected

/-- The row of an event that waits for delivery. -/
def eventRow (host : FolderTriggerHost) (key : Checksum)
    (event : FolderTriggerEvent) : FolderEventRow :=
  ⟨event.eventId, key, host.digestFile event.path event.expected, some event,
    false⟩

/-- The event is stored, delivered or not. -/
def HasEvent (host : FolderTriggerHost) (tables : FolderTables)
    (key : Checksum) (event : FolderTriggerEvent) : Prop :=
  ∃ row ∈ tables.events.rows, row.eventId = event.eventId ∧
    row.scopeKey = key ∧
      row.fingerprint = host.digestFile event.path event.expected

/-- What storing a list of events does. -/
structure Stores (host : FolderTriggerHost) (key : Checksum)
    (events : List FolderTriggerEvent) (tables next : FolderTables) : Prop where
  sound : FoldersSound host next
  scopes : next.scopes = tables.scopes
  files : next.files = tables.files
  added : ∃ added, next.events.rows = tables.events.rows ++ added ∧
    ∀ row ∈ added, ∃ event ∈ events, row = eventRow host key event
  stored : ∀ event ∈ events, HasEvent host next key event

theorem insertEvent_stores {key : Checksum} {event : FolderTriggerEvent}
    {tables next : FolderTables} {result : Unit}
    (hsound : FoldersSound host tables)
    (h : insertTriggerEvent (eventRow host key event) tables = .ok (result, next)) :
    Stores host key [event] tables next := by
  simp only [insertTriggerEvent, get_bind_eq_ok, rejectIf_bind_eq_ok,
    expect_bind_eq_ok, set_eq_ok, Prod.mk.injEq] at h
  obtain ⟨hfresh, events, hinsert, _, rfl⟩ := h
  have hrows := (Table.insert?_eq_some hinsert).2
  have hnone : ∀ other ∈ tables.events.rows,
      other.scopeKey = key → other.fingerprint ≠
        host.digestFile event.path event.expected := by
    intro other hother hkey hfingerprint
    exact hfresh ⟨other, hother, hkey, hfingerprint⟩
  refine ⟨⟨?_, ?_⟩, rfl, rfl, ⟨_, hrows, ?_⟩, ?_⟩
  · intro row hrow other hother hkey hfingerprint
    rw [hrows, List.mem_append, List.mem_singleton] at hrow hother
    rcases hrow with hrow | rfl
    · rcases hother with hother | rfl
      · exact hsound.unique row hrow other hother hkey hfingerprint
      · exact absurd hfingerprint (hnone row hrow hkey)
    · rcases hother with hother | rfl
      · exact absurd hfingerprint.symm (hnone other hother hkey.symm)
      · rfl
  · intro row hrow hwaiting
    rw [hrows, List.mem_append, List.mem_singleton] at hrow
    rcases hrow with hrow | rfl
    · exact hsound.body row hrow hwaiting
    · exact ⟨event, rfl, rfl, rfl⟩
  · intro row hrow
    exact ⟨event, List.mem_singleton_self _, List.mem_singleton.mp hrow⟩
  · intro stored hstored
    rw [List.mem_singleton.mp hstored]
    refine ⟨eventRow host key event, ?_, rfl, rfl, rfl⟩
    rw [hrows]
    exact List.mem_append_right _ (List.mem_singleton_self _)

variable {tables next : FolderTables} {result : Unit} {key : Checksum}
  {scan : FolderTriggerScan} {limits : JournalLimits} {s : FolderMachineState}
  {event : FolderTriggerEvent}

theorem storeEvent_stores {queued : Option FolderTriggerEvent}
    (hsound : FoldersSound host tables)
    (h : storeEvent host limits key event tables = .ok (queued, next)) :
    Stores host key [event] tables next := by
  simp only [storeEvent, get_bind_eq_ok] at h
  cases hfound : tables.events.find? event.eventId with
  | some existing =>
    simp only [hfound, rejectIf_bind_eq_ok] at h
    obtain ⟨hsame, h⟩ := h
    obtain ⟨hmem, hid⟩ := Table.find?_eq_some_iff.mp hfound
    have hnext : next = tables := by
      rw [ite_eq_ok] at h
      rcases h with ⟨_, h⟩ | ⟨_, h⟩
      · rw [pure_eq_ok, Prod.mk.injEq] at h
        exact h.2
      · simp only [expect_bind_eq_ok, pure_eq_ok, Prod.mk.injEq] at h
        obtain ⟨_, _, _, hnext⟩ := h
        exact hnext
    subst hnext
    have hkey : existing.scopeKey = key :=
      not_not.mp fun hne => hsame (.inl hne)
    have hfingerprint : existing.fingerprint =
        host.digestFile event.path event.expected :=
      not_not.mp fun hne => hsame (.inr hne)
    refine ⟨hsound, rfl, rfl, ⟨[], (List.append_nil _).symm, ?_⟩, ?_⟩
    · intro row hrow
      cases hrow
    · intro stored hstored
      rw [List.mem_singleton.mp hstored]
      exact ⟨existing, hmem, hid, hkey, hfingerprint⟩
  | none =>
    simp only [hfound, rejectIf_bind_eq_ok] at h
    obtain ⟨_, h⟩ := h
    simp only [bind_eq_ok, pure_eq_ok, Prod.mk.injEq] at h
    obtain ⟨_, between, hinsert, _, rfl⟩ := h
    exact insertEvent_stores hsound hinsert

/-- A stored event stays stored while events are only added. -/
theorem HasEvent.mono {added : List FolderEventRow}
    (h : HasEvent host tables key event)
    (hrows : next.events.rows = tables.events.rows ++ added) :
    HasEvent host next key event := by
  obtain ⟨row, hrow, hfacts⟩ := h
  exact ⟨row, hrows ▸ List.mem_append_left _ hrow, hfacts⟩

variable {events queued : List FolderTriggerEvent}
  {files previous : List FolderTriggerFile} {call : FolderCall}
  {row : FolderEventRow}

theorem Stores.trans {more : List FolderTriggerEvent}
    {first second third : FolderTables}
    (h : Stores host key events first second)
    (h' : Stores host key more second third) :
    Stores host key (events ++ more) first third := by
  obtain ⟨added, hadded, hfrom⟩ := h.added
  obtain ⟨added', hadded', hfrom'⟩ := h'.added
  refine ⟨h'.sound, h'.scopes.trans h.scopes, h'.files.trans h.files,
    ⟨added ++ added', ?_, ?_⟩, ?_⟩
  · rw [hadded', hadded, List.append_assoc]
  · intro row hrow
    rcases List.mem_append.mp hrow with hrow | hrow
    · obtain ⟨event, hevent, heq⟩ := hfrom row hrow
      exact ⟨event, List.mem_append_left _ hevent, heq⟩
    · obtain ⟨event, hevent, heq⟩ := hfrom' row hrow
      exact ⟨event, List.mem_append_right _ hevent, heq⟩
  · intro event hevent
    rcases List.mem_append.mp hevent with hevent | hevent
    · exact (h.stored event hevent).mono hadded'
    · exact h'.stored event hevent

/-- By induction on the events: each is stored in the tables that the ones
before it left. -/
theorem storeEvents_stores (hsound : FoldersSound host tables)
    (h : storeEvents host limits key events tables = .ok (queued, next)) :
    Stores host key events tables next ∧ (events = [] → queued = []) := by
  induction events generalizing tables queued with
  | nil =>
    rw [storeEvents, pure_eq_ok, Prod.mk.injEq] at h
    obtain ⟨rfl, rfl⟩ := h
    refine ⟨⟨hsound, rfl, rfl, ⟨[], (List.append_nil _).symm, ?_⟩, ?_⟩,
      fun _ => rfl⟩
    · intro row hrow
      cases hrow
    · intro event hevent
      cases hevent
  | cons event rest ih =>
    simp only [storeEvents, bind_eq_ok, pure_eq_ok, Prod.mk.injEq] at h
    obtain ⟨first, between, hfirst, more, last, hrest, _, rfl⟩ := h
    have hstores := storeEvent_stores hsound hfirst
    have hmore := (ih hstores.sound hrest).1
    exact ⟨hstores.trans hmore, fun hnil => by cases hnil⟩

/-- The version that the snapshot of a scope holds of a file. -/
def InSnapshot (tables : FolderTables) (key : Checksum) (path : JsString)
    (expected : LocalFileVersion) : Prop :=
  (⟨key, path, expected⟩ : FolderFileRow) ∈ tables.files.rows

theorem mem_folderFiles {rule : FolderTriggerRule} {file : FolderTriggerFile} :
    file ∈ folderFiles host tables rule ↔
      InSnapshot tables (folderTriggerRuleKey host rule) file.path
        file.expected := by
  simp only [folderFiles, List.mem_map, List.mem_insertionSort,
    List.mem_filter, decide_eq_true_eq, InSnapshot]
  constructor
  · rintro ⟨row, ⟨hrow, hkey⟩, rfl⟩
    rw [← hkey]
    exact hrow
  · intro h
    exact ⟨_, ⟨h, rfl⟩, rfl⟩

theorem folderFiles_nodup (tables : FolderTables) (rule : FolderTriggerRule) :
    ((folderFiles host tables rule).map FolderTriggerFile.path).Nodup := by
  have hperm : ((folderFiles host tables rule).map
      FolderTriggerFile.path).Perm ((tables.files.rows.filter fun row =>
        row.scopeKey = folderTriggerRuleKey host rule).map
          FolderFileRow.path) := by
    simp only [folderFiles, List.map_map]
    exact (List.perm_insertionSort _ _).map _
  rw [hperm.nodup_iff]
  have hkeys : ((tables.files.rows.filter fun row =>
      row.scopeKey = folderTriggerRuleKey host rule).map
        FolderFileRow.key).Nodup :=
    tables.files.unique.sublist (List.filter_sublist.map _)
  rw [List.nodup_iff_pairwise_ne, List.pairwise_map] at hkeys ⊢
  refine List.Pairwise.imp_of_mem ?_ hkeys
  intro row other hrow hother hne heq
  have hrow := of_decide_eq_true (List.mem_filter.mp hrow).2
  have hother := of_decide_eq_true (List.mem_filter.mp hother).2
  exact hne (Prod.ext (hrow.trans hother.symm) heq)

theorem mem_filesByPath (h : (files.map FolderTriggerFile.path).Nodup)
    {file : FolderTriggerFile} :
    file ∈ (filesByPath files).rows ↔ file ∈ files := by
  rw [filesByPath, Table.mem_putAll h]
  constructor
  · rintro (hfile | ⟨hfile, _⟩)
    · exact hfile
    · cases hfile
  · exact .inl

/-- A whole scan is the next snapshot; another adds to the one before. -/
theorem mem_nextFiles (hprevious : (previous.map FolderTriggerFile.path).Nodup)
    (hscan : (scan.files.map FolderTriggerFile.path).Nodup)
    {file : FolderTriggerFile} :
    file ∈ nextFiles previous scan ↔ file ∈ scan.files ∨
      (scan.isWhole = false ∧ file ∈ previous ∧
        ∀ other ∈ scan.files, other.path ≠ file.path) := by
  cases hwhole : scan.isWhole with
  | true => simp [nextFiles, hwhole, mem_filesByPath hscan]
  | false =>
    have happend : filesByPath (previous ++ scan.files) =
        (filesByPath previous).putAll scan.files := by
      simp only [filesByPath, Table.putAll, List.foldl_append]
    simp [nextFiles, hwhole, happend, Table.mem_putAll hscan,
      mem_filesByPath hprevious]

theorem mem_changedFiles {file : FolderTriggerFile}
    (hprevious : (previous.map FolderTriggerFile.path).Nodup)
    (hfile : file ∈ scan.files) (hnew : file ∉ previous) :
    file ∈ changedFiles previous scan := by
  refine List.mem_filter.mpr ⟨hfile, decide_eq_true ?_⟩
  intro hsame
  obtain ⟨stored, hstored, hexpected⟩ := Option.map_eq_some_iff.mp hsame
  obtain ⟨hmem, hpath⟩ := Table.find?_eq_some_iff.mp hstored
  rw [mem_filesByPath hprevious] at hmem
  have heq : stored = file := by
    cases stored
    cases file
    simp only at hpath hexpected
    rw [hpath, hexpected]
  exact hnew (heq ▸ hmem)

theorem replaceFiles_next
    (h : replaceFiles key files tables = .ok (result, next)) :
    next.scopes = tables.scopes ∧ next.events = tables.events ∧
      next.files.rows = (tables.files.rows.filter fun row =>
        !decide (row.scopeKey = key)) ++
          files.map fun file => ⟨key, file.path, file.expected⟩ := by
  simp only [replaceFiles, get_bind_eq_ok, expect_bind_eq_ok, set_eq_ok,
    Prod.mk.injEq] at h
  obtain ⟨inserted, hinsert, _, rfl⟩ := h
  exact ⟨rfl, rfl, Table.rows_insertAll? hinsert⟩

/-- What an accepted scan does. -/
structure Committed (host : FolderTriggerHost) (key : Checksum)
    (scan : FolderTriggerScan) (tables next : FolderTables)
    (queued : List FolderTriggerEvent) : Prop where
  /-- A first scan is whole and gives no event. -/
  baseline : tables.scopes.find? key = none →
    scan.isWhole = true ∧ queued = [] ∧
      next.events.rows = tables.events.rows
  /-- Later, a version that the snapshot does not hold has an event. -/
  changed : tables.scopes.find? key ≠ none → ∀ file ∈ scan.files,
    ¬InSnapshot tables key file.path file.expected →
      ∃ row ∈ next.events.rows, row.scopeKey = key ∧
        row.fingerprint = host.digestFile file.path file.expected ∧
        row.eventId = host.digestEvent key file.path file.expected
  added : ∃ added, next.events.rows = tables.events.rows ++ added ∧
    ∀ row ∈ added, row.scopeKey = key ∧ row.delivered = false ∧
      ∃ file ∈ scan.files,
        row.fingerprint = host.digestFile file.path file.expected
  /-- A whole scan replaces the snapshot, another is merged into it. -/
  snapshot : ∀ path expected, InSnapshot next key path expected ↔
    (⟨path, expected⟩ : FolderTriggerFile) ∈ scan.files ∨
      (scan.isWhole = false ∧ InSnapshot tables key path expected ∧
        ∀ file ∈ scan.files, file.path ≠ path)
  others : ∀ other path expected, other ≠ key →
    (InSnapshot next other path expected ↔
      InSnapshot tables other path expected)
  scope : next.scopes.find? key ≠ none

theorem folderScope_spec {rule : FolderTriggerRule}
    {root : Option FolderTriggerRootIdentity} {stored : Option FolderScopeRow}
    (h : folderScope host rule root tables = .ok (stored, next)) :
    next = tables ∧
      stored = tables.scopes.find? (folderTriggerRuleKey host rule) := by
  simp only [folderScope, get_bind_eq_ok] at h
  cases hfound : tables.scopes.find? (folderTriggerRuleKey host rule) with
  | none =>
    simp only [hfound, pure_eq_ok, Prod.mk.injEq] at h
    exact ⟨h.2, h.1⟩
  | some row =>
    simp only [hfound, rejectIf_bind_eq_ok, pure_eq_ok,
      Prod.mk.injEq] at h
    exact ⟨h.2.2.2, h.2.2.1⟩

theorem insertScope_next {row : FolderScopeRow}
    (h : insertScope row tables = .ok (result, next)) :
    next.files = tables.files ∧ next.events = tables.events ∧
      next.scopes.find? row.scopeKey = some row := by
  simp only [insertScope, get_bind_eq_ok, expect_bind_eq_ok, set_eq_ok,
    Prod.mk.injEq] at h
  obtain ⟨scopes, hinsert, _, rfl⟩ := h
  refine ⟨rfl, rfl, ?_⟩
  rw [Table.find?_insert? hinsert, if_pos rfl]

theorem folderCapacity_next {facts : FolderFacts} {bytes events : Nat}
    (h : folderCapacity limits facts bytes events tables = .ok (result, next)) :
    next = tables := by
  simp only [folderCapacity, get_bind_eq_ok, rejectIf_eq_ok,
    Prod.mk.injEq] at h
  exact h.2.2

theorem FoldersSound.of_events (h : FoldersSound host tables)
    (heq : next.events = tables.events) : FoldersSound host next := by
  refine ⟨?_, ?_⟩
  · rw [heq]
    exact h.unique
  · rw [heq]
    exact h.body

/-- The files of a scope before a commit, as the commit reads them. -/
theorem snapshot_after {rule : FolderTriggerRule}
    (hscan : (scan.files.map FolderTriggerFile.path).Nodup)
    (hrows : next.files.rows = (tables.files.rows.filter fun row =>
        !decide (row.scopeKey = folderTriggerRuleKey host rule)) ++
      (nextFiles (folderFiles host tables rule) scan).map fun file =>
        ⟨folderTriggerRuleKey host rule, file.path, file.expected⟩) :
    (∀ path expected,
      InSnapshot next (folderTriggerRuleKey host rule) path expected ↔
        (⟨path, expected⟩ : FolderTriggerFile) ∈ scan.files ∨
          (scan.isWhole = false ∧
            InSnapshot tables (folderTriggerRuleKey host rule) path expected ∧
            ∀ file ∈ scan.files, file.path ≠ path)) ∧
    ∀ other path expected, other ≠ folderTriggerRuleKey host rule →
      (InSnapshot next other path expected ↔
        InSnapshot tables other path expected) := by
  have hmem : ∀ row : FolderFileRow, row ∈ next.files.rows ↔
      (row ∈ tables.files.rows ∧
        row.scopeKey ≠ folderTriggerRuleKey host rule) ∨
      (row.scopeKey = folderTriggerRuleKey host rule ∧
        (⟨row.path, row.expected⟩ : FolderTriggerFile) ∈
          nextFiles (folderFiles host tables rule) scan) := by
    intro row
    rw [hrows, List.mem_append, List.mem_filter, List.mem_map]
    simp only [Bool.not_eq_true', decide_eq_false_iff_not]
    refine or_congr_right ?_
    constructor
    · rintro ⟨file, hfile, rfl⟩
      exact ⟨rfl, hfile⟩
    · rintro ⟨hkey, hfile⟩
      exact ⟨_, hfile, by rw [← hkey]⟩
  constructor
  · intro path expected
    rw [InSnapshot, hmem]
    simp only [ne_eq, not_true_eq_false, and_false, true_and, false_or]
    rw [mem_nextFiles (folderFiles_nodup tables rule) hscan, mem_folderFiles]
  · intro other path expected hother
    rw [InSnapshot, hmem]
    simp [hother, InSnapshot]

theorem commit_spec {facts : FolderFacts} {rule : FolderTriggerRule}
    {root : FolderTriggerRootIdentity} {observedAt : JsString}
    (hsound : FoldersSound host tables)
    (hscan : (scan.files.map FolderTriggerFile.path).Nodup)
    (h : commitFolderTriggerSnapshot host limits facts rule root scan
      observedAt tables = .ok (queued, next)) :
    FoldersSound host next ∧
      Committed host (folderTriggerRuleKey host rule) scan tables next
        queued := by
  simp only [commitFolderTriggerSnapshot, rejectIf_bind_eq_ok] at h
  obtain ⟨_, h⟩ := h
  rw [bind_eq_ok] at h
  obtain ⟨stored, after, hstored, h⟩ := h
  obtain ⟨rfl, hstored⟩ := folderScope_spec hstored
  simp only [rejectIf_bind_eq_ok, get_bind_eq_ok] at h
  obtain ⟨hwhole, _, _, _, h⟩ := h
  rw [bind_eq_ok] at h
  obtain ⟨_, after, hcapacity, h⟩ := h
  cases folderCapacity_next hcapacity
  rw [bind_eq_ok] at h
  obtain ⟨_, based, hbased, h⟩ := h
  simp only [bind_eq_ok, pure_eq_ok, Prod.mk.injEq] at h
  obtain ⟨_, filled, hevents, _, last, hfiles, rfl, rfl⟩ := h
  have hscope : based.files = after.files ∧ based.events = after.events ∧
      based.scopes.find? (folderTriggerRuleKey host rule) ≠ none := by
    rw [whenever_eq_ok] at hbased
    rcases hbased with ⟨_, hinsert⟩ | ⟨hold, heq⟩
    · obtain ⟨hfiles, hevents, hfound⟩ := insertScope_next hinsert
      exact ⟨hfiles, hevents, by rw [hfound]; simp⟩
    · cases heq
      exact ⟨rfl, rfl, hstored ▸ hold⟩
  obtain ⟨hstores, hnone⟩ := storeEvents_stores
    (hsound.of_events hscope.2.1) hevents
  obtain ⟨hscopes, hlast, hrows⟩ := replaceFiles_next hfiles
  rw [hstores.files, hscope.1] at hrows
  have hsnapshot := snapshot_after hscan hrows
  obtain ⟨added, hadded, hfrom⟩ := hstores.added
  refine ⟨hstores.sound.of_events hlast, ?_, ?_, ?_, hsnapshot.1,
    hsnapshot.2, ?_⟩
  · intro hfirst
    rw [hfirst] at hstored
    have hwhole : scan.isWhole = true := by
      cases hcase : scan.isWhole with
      | true => rfl
      | false => exact absurd ⟨hstored, hcase⟩ hwhole
    have hnoEvents : added = [] := by
      rw [List.eq_nil_iff_forall_not_mem]
      intro row hrow
      obtain ⟨event, hevent, _⟩ := hfrom row hrow
      simp [hstored] at hevent
    refine ⟨hwhole, hnone (by simp [hstored]), ?_⟩
    rw [hlast, hadded, hnoEvents, List.append_nil, hscope.2.1]
  · intro hlater file hfile hnew
    rw [← hstored] at hlater
    have hchanged : file ∈ changedFiles (folderFiles host after rule) scan :=
      mem_changedFiles (folderFiles_nodup after rule) hfile
        (fun hmem => hnew (mem_folderFiles.mp hmem))
    obtain ⟨row, hrow, hid, hkey, hfingerprint⟩ := hstores.stored
      (folderTriggerEvent host rule observedAt file) (by
        rw [if_neg hlater]
        exact List.mem_map_of_mem hchanged)
    exact ⟨row, hlast ▸ hrow, hkey, hfingerprint, hid⟩
  · refine ⟨added, by rw [hlast, hadded, hscope.2.1], ?_⟩
    intro row hrow
    obtain ⟨event, hevent, rfl⟩ := hfrom row hrow
    refine ⟨rfl, rfl, ?_⟩
    by_cases hfirst : stored = none
    · simp [hfirst] at hevent
    · rw [if_neg hfirst] at hevent
      obtain ⟨file, hfile, rfl⟩ := List.mem_map.mp hevent
      exact ⟨file, (List.mem_filter.mp hfile).1, rfl⟩
  · rw [hscopes, hstores.scopes]
    exact hscope.2.2

/-- What every call keeps of the events: an event that waits for delivery
stays as it is, or the call acknowledges it. -/
def KeepsWaiting (host : FolderTriggerHost) (call : FolderCall)
    (tables next : FolderTables) : Prop :=
  ∀ row ∈ tables.events.rows, row.delivered = false →
    row ∈ next.events.rows ∨
      (∃ rule, call = .acknowledge rule row.eventId ∧
        folderTriggerRuleKey host rule = row.scopeKey) ∧
      { row with body := none, delivered := true } ∈ next.events.rows

theorem acknowledge_spec {rule : FolderTriggerRule} {eventId : Uuid}
    (hsound : FoldersSound host tables)
    (h : acknowledgeFolderTrigger host rule eventId tables =
      .ok (result, next)) :
    FoldersSound host next ∧
      KeepsWaiting host (.acknowledge rule eventId) tables next := by
  rw [acknowledgeFolderTrigger, bind_eq_ok] at h
  obtain ⟨_, after, hscope, h⟩ := h
  obtain ⟨rfl, _⟩ := folderScope_spec hscope
  simp only [get_bind_eq_ok, rejectIf_bind_eq_ok, set_eq_ok,
    Prod.mk.injEq] at h
  obtain ⟨_, _, rfl⟩ := h
  have hrows : ∀ row : FolderEventRow, row ∈ (after.events.updateWhere
      (fun row => row.eventId = eventId &&
        row.scopeKey = folderTriggerRuleKey host rule)
      (fun row => { row with body := none, delivered := true })
      fun _ => rfl).rows ↔ ∃ old ∈ after.events.rows,
        (if (old.eventId = eventId &&
            old.scopeKey = folderTriggerRuleKey host rule) = true then
          { old with body := none, delivered := true } else old) = row :=
    fun row => List.mem_map
  refine ⟨⟨?_, ?_⟩, ?_⟩
  · intro row hrow other hother hkey hfingerprint
    obtain ⟨old, hold, rfl⟩ := (hrows row).mp hrow
    obtain ⟨old', hold', rfl⟩ := (hrows other).mp hother
    have hsame : old = old' := by
      refine hsound.unique old hold old' hold' ?_ ?_
      · split at hkey <;> split at hkey <;> exact hkey
      · split at hfingerprint <;> split at hfingerprint <;>
          exact hfingerprint
    rw [hsame]
  · intro row hrow hwaiting
    obtain ⟨old, hold, rfl⟩ := (hrows row).mp hrow
    split at hwaiting
    · cases hwaiting
    · rename_i hother
      rw [if_neg hother]
      exact hsound.body old hold hwaiting
  · intro row hrow hwaiting
    by_cases hacked : (row.eventId = eventId &&
        row.scopeKey = folderTriggerRuleKey host rule) = true
    · refine .inr ⟨⟨rule, ?_, ?_⟩, (hrows _).mpr ⟨row, hrow, if_pos hacked⟩⟩
      · simp only [Bool.and_eq_true, decide_eq_true_eq] at hacked
        rw [hacked.1]
      · simp only [Bool.and_eq_true, decide_eq_true_eq] at hacked
        exact hacked.2.symm
    · exact .inl ((hrows row).mpr ⟨row, hrow, if_neg hacked⟩)

theorem retire_spec {rule : FolderTriggerRule}
    (hsound : FoldersSound host tables)
    (h : retireFolderTrigger host rule tables = .ok (result, next)) :
    FoldersSound host next ∧
      KeepsWaiting host (.retire rule) tables next := by
  rw [retireFolderTrigger, bind_eq_ok] at h
  obtain ⟨_, after, hscope, h⟩ := h
  obtain ⟨rfl, _⟩ := folderScope_spec hscope
  simp only [get_bind_eq_ok, rejectIf_bind_eq_ok, set_eq_ok,
    Prod.mk.injEq] at h
  obtain ⟨hnone, _, rfl⟩ := h
  have hrows : ∀ row : FolderEventRow, row ∈ (after.events.deleteWhere
      fun row => row.scopeKey = folderTriggerRuleKey host rule).rows ↔
        row ∈ after.events.rows ∧
          row.scopeKey ≠ folderTriggerRuleKey host rule := by
    intro row
    simp [Table.deleteWhere]
  refine ⟨⟨?_, ?_⟩, ?_⟩
  · intro row hrow other hother
    exact hsound.unique row ((hrows row).mp hrow).1 other
      ((hrows other).mp hother).1
  · intro row hrow
    exact hsound.body row ((hrows row).mp hrow).1
  · intro row hrow hwaiting
    refine .inl ((hrows row).mpr ⟨hrow, fun hkey => ?_⟩)
    exact hnone ⟨row, hrow, hkey, hwaiting⟩

theorem forget_spec {rule : FolderTriggerRule}
    {root : FolderTriggerRootIdentity} {path : JsString}
    (h : forgetFolderTriggerPath host rule root path tables =
      .ok (result, next)) : next.events = tables.events := by
  rw [forgetFolderTriggerPath, bind_eq_ok] at h
  obtain ⟨_, after, hscope, h⟩ := h
  obtain ⟨rfl, _⟩ := folderScope_spec hscope
  simp only [rejectIf_bind_eq_ok, modify_eq_ok, Prod.mk.injEq] at h
  obtain ⟨_, _, rfl⟩ := h
  rfl

theorem pending_spec {rule : FolderTriggerRule} {limit : Option Int}
    {result : List FolderTriggerEvent}
    (h : pendingFolderTriggers host rule limit tables = .ok (result, next)) :
    next = tables := by
  rw [pendingFolderTriggers, bind_eq_ok] at h
  obtain ⟨_, after, hscope, h⟩ := h
  obtain ⟨rfl, _⟩ := folderScope_spec hscope
  rw [ite_eq_ok] at h
  rcases h with ⟨_, h⟩ | ⟨_, h⟩
  · rw [pure_eq_ok, Prod.mk.injEq] at h
    exact h.2
  · simp only [expect_bind_eq_ok, get_bind_eq_ok, expect_eq_ok,
      Prod.mk.injEq] at h
    obtain ⟨_, _, _, _, _, hnext⟩ := h
    exact hnext

theorem snapshot_spec {rule : FolderTriggerRule}
    {result : Option (FolderTriggerRootIdentity × List FolderTriggerFile)}
    (h : folderTriggerSnapshot host rule tables = .ok (result, next)) :
    next = tables := by
  rw [folderTriggerSnapshot, bind_eq_ok] at h
  obtain ⟨_, after, hscope, h⟩ := h
  obtain ⟨rfl, _⟩ := folderScope_spec hscope
  simp only [get_bind_eq_ok, pure_eq_ok, Prod.mk.injEq] at h
  exact h.2

theorem commitChecks_nodup {rule : FolderTriggerRule}
    {root : FolderTriggerRootIdentity} {observedAt : JsString} {passed : Unit}
    (h : commitChecks host rule root scan observedAt = .ok passed) :
    (scan.files.map FolderTriggerFile.path).Nodup := by
  by_contra hdup
  unfold commitChecks at h
  split at h
  · cases h
  · split at h
    · cases h
    · rw [if_pos (.inl hdup)] at h
      cases h

/-- A commit that passed its checks has each path once. -/
theorem checks_commit {entered : FolderCall} {rule : FolderTriggerRule}
    {root : FolderTriggerRootIdentity} {observedAt : JsString}
    {facts : FolderFacts}
    (h : FolderCall.checks host entered =
      .ok (.commit rule root scan observedAt facts)) :
    (scan.files.map FolderTriggerFile.path).Nodup := by
  cases entered with
  | commit input root' scan' observedAt' facts' =>
    rw [FolderCall.checks, Except.bind_eq_ok] at h
    obtain ⟨rule', _, h⟩ := h
    rw [Except.bind_eq_ok] at h
    obtain ⟨_, hchecks, h⟩ := h
    cases h
    exact commitChecks_nodup hchecks
  | forget input root' path =>
    rw [FolderCall.checks, Except.bind_eq_ok] at h
    obtain ⟨rule', _, h⟩ := h
    split at h
    · cases h
    · split at h <;> cases h
  | snapshot input | pending input limit | acknowledge input eventId
  | retire input =>
    rw [FolderCall.checks] at h
    cases hrule : folderRule host input <;> rw [hrule] at h <;> cases h

/-- What one transaction does. -/
structure Ran (host : FolderTriggerHost) (call : FolderCall)
    (tables next : FolderTables) (result : FolderResult) : Prop where
  sound : FoldersSound host next
  waiting : KeepsWaiting host call tables next
  committed : ∀ rule root scan observedAt facts queued,
    call = .commit rule root scan observedAt facts → result = .queued queued →
      Committed host (folderTriggerRuleKey host rule) scan tables next queued

theorem Ran.of_events {result : FolderResult}
    (hsound : FoldersSound host tables) (hevents : next.events = tables.events)
    (hcall : ∀ rule root scan observedAt facts,
      call ≠ .commit rule root scan observedAt facts) :
    Ran host call tables next result :=
  ⟨hsound.of_events hevents, fun _ hrow _ => .inl (hevents ▸ hrow),
    fun rule root scan observedAt facts _ h =>
      absurd h (hcall rule root scan observedAt facts)⟩

theorem run_spec {entered : FolderCall} {result : FolderResult}
    (hsound : FoldersSound host tables)
    (hchecked : FolderCall.checks host entered = .ok call)
    (h : FolderCall.run host limits call tables = .ok (result, next)) :
    Ran host call tables next result := by
  cases call with
  | commit rule root scan observedAt facts =>
    rw [FolderCall.run, map_eq_ok] at h
    obtain ⟨queued, hcommit, rfl⟩ := h
    obtain ⟨hnext, hcommitted⟩ :=
      commit_spec hsound (checks_commit hchecked) hcommit
    refine ⟨hnext, ?_, ?_⟩
    · intro row hrow _
      obtain ⟨added, hadded, _⟩ := hcommitted.added
      exact .inl (hadded ▸ List.mem_append_left _ hrow)
    · intro rule' root' scan' observedAt' facts' queued' hcall hresult
      cases hcall
      cases hresult
      exact hcommitted
  | snapshot rule =>
    rw [FolderCall.run, map_eq_ok] at h
    obtain ⟨_, h, _⟩ := h
    exact .of_events hsound (by rw [snapshot_spec h]) (by simp)
  | pending rule limit =>
    rw [FolderCall.run, map_eq_ok] at h
    obtain ⟨_, h, _⟩ := h
    exact .of_events hsound (by rw [pending_spec h]) (by simp)
  | forget rule root path =>
    rw [FolderCall.run, map_eq_ok] at h
    obtain ⟨_, h, _⟩ := h
    exact .of_events hsound (forget_spec h) (by simp)
  | acknowledge rule eventId =>
    rw [FolderCall.run, map_eq_ok] at h
    obtain ⟨_, h, _⟩ := h
    obtain ⟨hnext, hwaiting⟩ := acknowledge_spec hsound h
    exact ⟨hnext, hwaiting, by simp⟩
  | retire rule =>
    rw [FolderCall.run, map_eq_ok] at h
    obtain ⟨_, h, _⟩ := h
    obtain ⟨hnext, hwaiting⟩ := retire_spec hsound h
    exact ⟨hnext, hwaiting, by simp⟩

/-- The step is the transaction that acknowledges the event of the row, whose
tombstone stays. -/
def AcknowledgedIn (host : FolderTriggerHost) (s : FolderMachineState)
    (action : FolderAction) (row : FolderEventRow) : Prop :=
  ∃ store rule result, s.process = .live store ∧
    folderTriggerRuleKey host rule = row.scopeKey ∧
    FolderCall.run host store.config (.acknowledge rule row.eventId) s.table =
      .ok (result, ((folderMachine host).step s action).1.table) ∧
    { row with body := none, delivered := true } ∈
      ((folderMachine host).step s action).1.table.events.rows

theorem step_waiting (h : FoldersSound host s.table) (action : FolderAction)
    (hrow : row ∈ s.table.events.rows) (hwaiting : row.delivered = false) :
    row ∈ ((folderMachine host).step s action).1.table.events.rows ∨
      AcknowledgedIn host s action row := by
  change row ∈ ((folderShell host).step s action).1.table.events.rows ∨ _
  cases (folderShell host).step_durable s action with
  | same htable hsilent =>
    rw [htable]
    exact .inl hrow
  | recovered config item rest hprocess htable hsilent => exact item.elim
  | called store call result hprocess hcalls hchecked hanswer htable =>
    obtain ⟨entered, hchecked⟩ := hchecked
    rcases (run_spec h hchecked htable).waiting row hrow hwaiting with
      hstays | ⟨⟨rule, rfl, hkey⟩, htombstone⟩
    · exact .inl hstays
    · exact .inr ⟨store, rule, result, hprocess, hkey, htable, htombstone⟩

namespace FolderTriggerWitness

def device : FolderTriggerHost where
  deviceId := 11
  parseDate := fun _ => some 1000
  lowerCase := id
  normalizeNfc := id
  digestKey := fun automationId _ _ _ _ => automationId
  digestRule := fun key _ _ _ => key
  digestEvent := fun _ _ version => version.version
  digestFile := fun _ version => version.version
  snapshotBytes := fun files => 300 * files.length
  eventBytes := fun _ => 500
  pathLe := JsValue.codeUnitsLe

def rule : FolderTriggerRule where
  automationId := 7
  revision := 1
  deviceId := 11
  folderGrantId := 12
  folderGrantVersion := 1
  relativePath := JsString.ofString "."
  extensions := [JsString.ofString "pdf"]
  ignorePaths := []
  admissionExpiresAt := JsString.ofString "2026-01-02T00:00:00.000Z"

def root : FolderTriggerRootIdentity :=
  ⟨JsString.ofString "/r", 1, 2, 1, 1⟩

def facts : FolderFacts := ⟨0, 8192, 0, 0⟩

def observedAt : JsString := JsString.ofString "2026-01-01T00:00:00.000Z"

def file : FolderTriggerFile :=
  ⟨JsString.ofString "a.pdf",
    ⟨5, 8, 6, JsString.ofString "application/pdf"⟩⟩

/-- The baseline of an empty folder, on the way to its transaction. -/
def entered : List FolderAction :=
  [.openStore ⟨10, 8000000⟩, .recover .none,
    .enter (.commit rule root ⟨[], true, false⟩ observedAt facts) .pass]

end FolderTriggerWitness

end Allrice
