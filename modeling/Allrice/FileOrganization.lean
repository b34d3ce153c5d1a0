/-
A plan that moves, renames and copies files of an authorized folder, the
receipts of its execution, and the plan that takes the moves back.
-/
import Allrice.LocalPythonArchive
import Allrice.RuntimeDispatch

namespace Allrice

/-- `LocalFilePathSchema`. -/
def localFilePath (path : JsString) : Bool :=
  0 < path.length && path.length ≤ 1024 && path.head? != some 0x2F &&
    path.all (fun unit => unit != 0x5C) &&
    (JsString.codePoints path).all (fun character =>
      character.head?.any fun unit =>
        32 ≤ unit.toNat && unit.toNat != 127) &&
    (splitPath path).all (fun part =>
      part != [] && part != [0x2E] && part != [0x2E, 0x2E])

/-- The path of a file in a changeset. -/
def relativePath (path : String) : Bool :=
  JsString.lengthOf path ≤ 1024 &&
    isRuntimeRelativePath (JsString.ofString path)

/-- `FileOrganizationItemSchema`. -/
structure FileOrganizationItem.Valid (item : FileOrganizationItem) : Prop where
  path : localFilePath (JsString.ofString item.path) = true
  target : localFilePath (JsString.ofString item.target) = true
  size : item.source.sizeBytes ≤ 9000000
  differ : item.path ≠ item.target

/-- The sources and destinations of a plan. -/
def proposalPaths (operations : List FileOrganizationItem) : List String :=
  operations.flatMap fun item => [item.path, item.target]

section Lower

variable (toLocaleLowerCase : String → String)

/-- `FileOrganizationProposalSchema`. -/
structure FileOrganizationProposal (operations : List FileOrganizationItem) :
    Prop where
  nonempty : 0 < operations.length
  bound : operations.length ≤ 32
  items : ∀ item ∈ operations, item.Valid
  distinct : ((proposalPaths operations).map toLocaleLowerCase).Nodup
  apart : ∀ a ∈ proposalPaths operations, ∀ b ∈ proposalPaths operations,
    ¬(toLocaleLowerCase b ++ "/").toList.isPrefixOf
      (toLocaleLowerCase a).toList
  bytes : (operations.map (·.source.sizeBytes)).sum ≤ 128000000

/-- The file of a changeset that carries an item. -/
def organizedFile (item : FileOrganizationItem) : ChangesetFile where
  path := item.path
  before := none
  after := none
  organization := some item

/-- A payload with `comparisonScope: 'file_organization'`. -/
structure ValidOrganization (arguments : ChangesetArguments) : Prop where
  valid : arguments.Valid
  scope : arguments.fileOrganization = true
  organized : ∀ file ∈ arguments.files, relativePath file.path = true ∧
    ∃ item, file = organizedFile item
  proposal : FileOrganizationProposal toLocaleLowerCase
    (arguments.files.filterMap (·.organization))

end Lower

/-- What a receipt that is not `applied` may say about its item. -/
def unappliedMatches (result : ChangesetFileResult)
    (detail : OrganizationResult) : Bool :=
  detail.file.isNone && (result.status = .unknown || !detail.sourceRemoved)

/-- One receipt of `fileOrganizationResultMatches`. -/
def organizationReceiptMatches (file : ChangesetFile)
    (receipt : ChangesetFileResult) : Bool :=
  let sums := changesetFileChecksums file
  match file.organization, receipt.organization with
  | some item, some detail =>
    receipt.path = file.path &&
      receipt.beforeChecksum = sums.beforeChecksum &&
      receipt.afterChecksum = sums.afterChecksum &&
      detail.target = item.target && detail.operation = item.operation &&
      if receipt.status = .applied then
        changesetFileAppliedMatches file receipt
      else unappliedMatches receipt detail
  | _, _ => false

/-- Partial and unknown receipts retain the same ordered plan; they cannot
invent a write. -/
def fileOrganizationResultMatches (arguments : ChangesetArguments)
    (results : List ChangesetFileResult) : Bool :=
  arguments.fileOrganization && results.length = arguments.files.length &&
    (arguments.files.zip results).all fun (file, receipt) =>
      organizationReceiptMatches file receipt

/-- Copy outputs remain; only confirmed moves are reversible, with fresh
destination identity. -/
def fileOrganizationRestoration (files : List ChangesetFile)
    (results : List ChangesetFileResult) : List ChangesetFile :=
  files.reverse.flatMap fun file =>
    match file.organization with
    | none => []
    | some item =>
      if item.operation = .copy then []
      else
        let receipt := results.find? (changesetFileAppliedMatches file)
        match (receipt.bind (·.organization)).bind (·.file) with
        | none => []
        | some version =>
          [organizedFile { item with
            path := item.target
            target := item.path
            source := version }]

/-- An item with its receipt. -/
abbrev OrganizedEntry := FileOrganizationItem × ChangesetFileResult

/-- The identity that a receipt gives for the file at the destination. -/
def OrganizedEntry.version (entry : OrganizedEntry) :
    Option NativeFileVersion :=
  entry.2.organization.bind (·.file)

/-- An applied move. -/
def OrganizedEntry.reversible (entry : OrganizedEntry) : Bool :=
  entry.2.status = .applied && entry.1.operation != .copy

/-- The way back. -/
def OrganizedEntry.exchanged (entry : OrganizedEntry) : FileOrganizationItem :=
  { entry.1 with
    path := entry.1.target
    target := entry.1.path
    source := entry.version.getD entry.1.source }

/-- The applied moves, the last one first, each the other way round. -/
def exchangedItems (entries : List OrganizedEntry) :
    List FileOrganizationItem :=
  (entries.filter OrganizedEntry.reversible).reverse.map
    OrganizedEntry.exchanged

theorem exchangedItems_cons (entry : OrganizedEntry)
    (rest : List OrganizedEntry) :
    exchangedItems (entry :: rest) = exchangedItems rest ++
      if entry.reversible then [entry.exchanged] else [] := by
  by_cases h : entry.reversible = true
  · simp [exchangedItems, h]
  · simp [exchangedItems, h]

/-- A receipt that fits its item. -/
structure OrganizedEntry.Matches (entry : OrganizedEntry) : Prop where
  path : entry.2.path = entry.1.path
  applied : entry.2.status = .applied →
    changesetFileAppliedMatches (organizedFile entry.1) entry.2 = true

theorem applied_status {file : ChangesetFile} {result : ChangesetFileResult}
    (h : changesetFileAppliedMatches file result = true) :
    result.status = .applied ∧ result.path = file.path := by
  simp only [changesetFileAppliedMatches, Bool.and_eq_true,
    decide_eq_true_eq] at h
  exact ⟨h.1.1.1.1, h.1.1.1.2⟩

variable {entry : OrganizedEntry} {entries : List OrganizedEntry}

/-- The receipt of an applied item gives the identity of the file at the
destination, with the content of the source. -/
theorem OrganizedEntry.Matches.version (h : entry.Matches)
    (happlied : entry.2.status = .applied) :
    ∃ version, entry.version = some version ∧
      version.checksum = entry.1.source.checksum ∧
      version.sizeBytes = entry.1.source.sizeBytes := by
  have hmatches := h.applied happlied
  cases hdetail : entry.2.organization with
  | none =>
    simp [changesetFileAppliedMatches, organizedFile, hdetail] at hmatches
  | some detail =>
    simp only [changesetFileAppliedMatches, organizedFile, hdetail,
      Bool.and_eq_true, decide_eq_true_eq] at hmatches
    obtain ⟨-, ⟨⟨⟨⟨-, hchecksum⟩, hsize⟩, -⟩, -⟩⟩ := hmatches
    obtain ⟨version, hfile, hsum⟩ := Option.map_eq_some_iff.mp hchecksum
    rw [hfile] at hsize
    refine ⟨version, ?_, hsum, ?_⟩
    · rw [OrganizedEntry.version, hdetail]
      exact hfile
    · exact Option.some.inj hsize

/-- The receipt found for an item is its own. -/
theorem find_receipt
    (hmatches : ∀ entry ∈ entries, OrganizedEntry.Matches entry)
    (hpaths : (entries.map fun entry => entry.1.path).Nodup)
    (hentry : entry ∈ entries) :
    (entries.map Prod.snd).find?
        (changesetFileAppliedMatches (organizedFile entry.1)) =
      if entry.2.status = .applied then some entry.2 else none := by
  have hown : ∀ other ∈ entries,
      changesetFileAppliedMatches (organizedFile entry.1) other.2 = true →
        other = entry := by
    intro other hother happlied
    have hpath := (applied_status happlied).2
    rw [(hmatches other hother).path] at hpath
    exact List.inj_on_of_nodup_map hpaths hother hentry hpath
  split
  · rename_i happlied
    have hentry_matches := (hmatches entry hentry).applied happlied
    cases hfind : (entries.map Prod.snd).find?
        (changesetFileAppliedMatches (organizedFile entry.1)) with
    | none =>
      rw [List.find?_eq_none] at hfind
      exact absurd hentry_matches
        (hfind entry.2 (List.mem_map_of_mem hentry))
    | some found =>
      obtain ⟨other, hother, rfl⟩ :=
        List.mem_map.mp (List.mem_of_find?_eq_some hfind)
      rw [hown other hother (List.find?_some hfind)]
  · rename_i happlied
    rw [List.find?_eq_none]
    intro result hresult hfound
    obtain ⟨other, hother, rfl⟩ := List.mem_map.mp hresult
    rw [hown other hother hfound] at hfound
    exact happlied (applied_status hfound).1

theorem restoration_eq
    (hmatches : ∀ entry ∈ entries, OrganizedEntry.Matches entry)
    (hpaths : (entries.map fun entry => entry.1.path).Nodup) :
    fileOrganizationRestoration
        (entries.map fun entry => organizedFile entry.1)
        (entries.map Prod.snd) =
      (exchangedItems entries).map organizedFile := by
  have hone : ∀ entry ∈ entries.reverse,
      (match (organizedFile entry.1).organization with
        | none => []
        | some item =>
          if item.operation = .copy then []
          else
            let receipt := (entries.map Prod.snd).find?
              (changesetFileAppliedMatches (organizedFile entry.1))
            match (receipt.bind (·.organization)).bind (·.file) with
            | none => []
            | some version =>
              [organizedFile { item with
                path := item.target
                target := item.path
                source := version }]) =
        if entry.reversible then [organizedFile entry.exchanged] else [] := by
    intro entry hentry
    have hentry := List.mem_reverse.mp hentry
    have hfind := find_receipt hmatches hpaths hentry
    simp only [organizedFile] at hfind
    simp only [organizedFile, hfind, OrganizedEntry.reversible]
    by_cases hcopy : entry.1.operation = .copy
    · simp [hcopy]
    · by_cases happlied : entry.2.status = .applied
      · obtain ⟨version, hversion, -⟩ :=
          (hmatches entry hentry).version happlied
        have hfile : entry.2.organization.bind (·.file) = some version :=
          hversion
        simp [hcopy, happlied, hfile, OrganizedEntry.exchanged, hversion]
      · simp [hcopy, happlied]
  rw [fileOrganizationRestoration, ← List.map_reverse, List.flatMap_map]
  rw [List.flatMap_congr hone, exchangedItems, ← List.filter_reverse]
  induction entries.reverse with
  | nil => rfl
  | cons entry rest ih =>
    rw [List.flatMap_cons, ih]
    by_cases h : entry.reversible = true <;> simp [h]

end Allrice
