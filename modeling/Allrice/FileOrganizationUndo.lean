/-
Taking a file organization back: the restoration is a valid plan, and run
after the moves it brings every file to where it was.
-/
import Allrice.FileOrganization

namespace Allrice

/-- The items of a plan with their receipts. -/
def organizedEntries (arguments : ChangesetArguments)
    (results : List ChangesetFileResult) : List OrganizedEntry :=
  (arguments.files.filterMap (·.organization)).zip results

section Entries

variable {toLocaleLowerCase : String → String}
  {arguments : ChangesetArguments} {results : List ChangesetFileResult}

theorem organized_files {files : List ChangesetFile}
    (h : ∀ file ∈ files, ∃ item, file = organizedFile item) :
    files = (files.filterMap (·.organization)).map organizedFile := by
  induction files with
  | nil => rfl
  | cons file rest ih =>
    obtain ⟨item, rfl⟩ := h file List.mem_cons_self
    have hrest := ih fun other hother =>
      h other (List.mem_cons_of_mem _ hother)
    simpa [organizedFile] using hrest

theorem ValidOrganization.files
    (h : ValidOrganization toLocaleLowerCase arguments) :
    arguments.files =
      (arguments.files.filterMap (·.organization)).map organizedFile :=
  organized_files fun file hfile => (h.organized file hfile).2

theorem ValidOrganization.length
    (h : ValidOrganization toLocaleLowerCase arguments)
    (hmatches : fileOrganizationResultMatches arguments results = true) :
    (arguments.files.filterMap (·.organization)).length = results.length := by
  simp only [fileOrganizationResultMatches, Bool.and_eq_true,
    decide_eq_true_eq] at hmatches
  have hlength := congrArg List.length h.files
  rw [List.length_map] at hlength
  exact hlength.symm.trans hmatches.1.2.symm

theorem ValidOrganization.items_eq
    (h : ValidOrganization toLocaleLowerCase arguments)
    (hmatches : fileOrganizationResultMatches arguments results = true) :
    (organizedEntries arguments results).map Prod.fst =
      arguments.files.filterMap (·.organization) :=
  List.map_fst_zip (h.length hmatches).le

theorem ValidOrganization.results_eq
    (h : ValidOrganization toLocaleLowerCase arguments)
    (hmatches : fileOrganizationResultMatches arguments results = true) :
    (organizedEntries arguments results).map Prod.snd = results :=
  List.map_snd_zip (h.length hmatches).ge

theorem ValidOrganization.files_eq
    (h : ValidOrganization toLocaleLowerCase arguments)
    (hmatches : fileOrganizationResultMatches arguments results = true) :
    (organizedEntries arguments results).map
      (fun entry => organizedFile entry.1) = arguments.files := by
  have hfiles := congrArg (List.map organizedFile) (h.items_eq hmatches)
  rw [← h.files, List.map_map] at hfiles
  exact hfiles

/-- The receipts fit the items one by one. -/
theorem ValidOrganization.entries_match
    (h : ValidOrganization toLocaleLowerCase arguments)
    (hmatches : fileOrganizationResultMatches arguments results = true) :
    ∀ entry ∈ organizedEntries arguments results,
      OrganizedEntry.Matches entry := by
  intro entry hentry
  have hall := hmatches
  simp only [fileOrganizationResultMatches, Bool.and_eq_true,
    List.all_eq_true] at hall
  have hzip : arguments.files.zip results =
      (organizedEntries arguments results).map fun entry =>
        (organizedFile entry.1, entry.2) := by
    conv_lhs => rw [h.files]
    rw [organizedEntries, List.zip_map_left]
    rfl
  have hreceipt := hall.2 (organizedFile entry.1, entry.2)
    (hzip ▸ List.mem_map_of_mem hentry)
  cases hdetail : entry.2.organization with
  | none => simp [organizationReceiptMatches, organizedFile, hdetail] at hreceipt
  | some detail =>
    simp only [organizationReceiptMatches, organizedFile, hdetail,
      Bool.and_eq_true, decide_eq_true_eq] at hreceipt
    obtain ⟨⟨⟨⟨⟨hpath, -⟩, -⟩, -⟩, -⟩, hstatus⟩ := hreceipt
    refine ⟨of_decide_eq_true hpath, fun happlied => ?_⟩
    rw [if_pos happlied] at hstatus
    exact hstatus

end Entries

variable {entries : List OrganizedEntry}

theorem exchangedItems_paths {path : String}
    (h : path ∈ proposalPaths (exchangedItems entries)) :
    path ∈ proposalPaths (entries.map Prod.fst) := by
  simp only [proposalPaths, List.mem_flatMap, exchangedItems, List.mem_map,
    List.mem_reverse, List.mem_filter] at h ⊢
  obtain ⟨item, ⟨entry, ⟨hentry, -⟩, rfl⟩, hpath⟩ := h
  refine ⟨entry.1, ⟨entry, hentry, rfl⟩, ?_⟩
  simpa [OrganizedEntry.exchanged, or_comm] using hpath

theorem proposalPaths_append (left right : List FileOrganizationItem) :
    proposalPaths (left ++ right) =
      proposalPaths left ++ proposalPaths right :=
  List.flatMap_append

/-- The paths of the way back are distinct when those of the plan are. -/
theorem exchangedItems_nodup {β : Type} (f : String → β)
    (h : ((proposalPaths (entries.map Prod.fst)).map f).Nodup) :
    ((proposalPaths (exchangedItems entries)).map f).Nodup := by
  induction entries with
  | nil => simp [exchangedItems, proposalPaths]
  | cons entry rest ih =>
    have hsplit : proposalPaths ((entry :: rest).map Prod.fst) =
        [entry.1.path, entry.1.target] ++
          proposalPaths (rest.map Prod.fst) := rfl
    rw [hsplit, List.map_append, List.nodup_append] at h
    obtain ⟨hhead, htail, hapart⟩ := h
    rw [exchangedItems_cons, proposalPaths_append, List.map_append,
      List.nodup_append]
    refine ⟨ih htail, ?_, ?_⟩
    · split
      · simp only [List.map_cons, List.map_nil, List.nodup_cons,
          List.mem_singleton] at hhead
        simpa [proposalPaths, OrganizedEntry.exchanged, eq_comm]
          using hhead.1
      · simp [proposalPaths]
    · intro a ha b hb hab
      obtain ⟨path, hpath, rfl⟩ := List.mem_map.mp ha
      have hold : f path ∈ (proposalPaths (rest.map Prod.fst)).map f :=
        List.mem_map_of_mem (exchangedItems_paths hpath)
      have hnew : b ∈ [entry.1.path, entry.1.target].map f := by
        split at hb
        · simpa [proposalPaths, OrganizedEntry.exchanged, or_comm] using hb
        · simp [proposalPaths] at hb
      exact hapart b hnew (f path) hold hab.symm

theorem exchangedItems_bytes
    (hmatches : ∀ entry ∈ entries, OrganizedEntry.Matches entry) :
    ((exchangedItems entries).map (·.source.sizeBytes)).sum ≤
      ((entries.map Prod.fst).map (·.source.sizeBytes)).sum := by
  induction entries with
  | nil => simp [exchangedItems]
  | cons entry rest ih =>
    have hrest := ih fun other hother =>
      hmatches other (List.mem_cons_of_mem _ hother)
    rw [exchangedItems_cons, List.map_append, List.sum_append]
    simp only [List.map_cons, List.sum_cons]
    split
    · rename_i hreversible
      have happlied : entry.2.status = .applied := by
        simp only [OrganizedEntry.reversible, Bool.and_eq_true,
          decide_eq_true_eq] at hreversible
        exact hreversible.1
      obtain ⟨version, hversion, -, hsize⟩ :=
        (hmatches entry List.mem_cons_self).version happlied
      have hsame : entry.exchanged.source.sizeBytes =
          entry.1.source.sizeBytes := by
        simp [OrganizedEntry.exchanged, hversion, hsize]
      simp only [List.map_cons, List.map_nil, List.sum_cons, List.sum_nil,
        hsame]
      omega
    · simp only [List.map_nil, List.sum_nil]
      omega

theorem exchangedItems_length (entries : List OrganizedEntry) :
    (exchangedItems entries).length ≤ entries.length := by
  simp only [exchangedItems, List.length_map, List.length_reverse]
  exact List.length_filter_le _ _

variable {toLocaleLowerCase : String → String}

/-- The way back of a valid plan is a valid plan, if there is one. -/
theorem exchangedItems_proposal
    (h : FileOrganizationProposal toLocaleLowerCase (entries.map Prod.fst))
    (hmatches : ∀ entry ∈ entries, OrganizedEntry.Matches entry)
    (hsome : exchangedItems entries ≠ []) :
    FileOrganizationProposal toLocaleLowerCase (exchangedItems entries) where
  nonempty := List.length_pos_of_ne_nil hsome
  bound := by
    have hlength := exchangedItems_length entries
    have hbound := h.bound
    rw [List.length_map] at hbound
    omega
  items := by
    intro item hitem
    simp only [exchangedItems, List.mem_map, List.mem_reverse,
      List.mem_filter] at hitem
    obtain ⟨entry, ⟨hentry, hreversible⟩, rfl⟩ := hitem
    have hvalid := h.items entry.1 (List.mem_map_of_mem hentry)
    simp only [OrganizedEntry.reversible, Bool.and_eq_true,
      decide_eq_true_eq] at hreversible
    obtain ⟨version, hversion, -, hsize⟩ :=
      (hmatches entry hentry).version hreversible.1
    refine ⟨hvalid.target, hvalid.path, ?_, hvalid.differ.symm⟩
    have hbytes : entry.exchanged.source = version := by
      simp [OrganizedEntry.exchanged, hversion]
    rw [hbytes, hsize]
    exact hvalid.size
  distinct := exchangedItems_nodup toLocaleLowerCase h.distinct
  apart := by
    intro a ha b hb
    exact h.apart a (exchangedItems_paths ha) b (exchangedItems_paths hb)
  bytes := (exchangedItems_bytes hmatches).trans h.bytes

/-- A text that starts with another text and a slash. -/
theorem isPrefixOf_slash {p q : String}
    (h : (q ++ "/").toList.isPrefixOf p.toList = true) :
    ∃ rest, p = q ++ "/" ++ rest := by
  obtain ⟨rest, hrest⟩ := List.isPrefixOf_iff_prefix.mp h
  refine ⟨String.ofList rest, ?_⟩
  apply String.toList_injective
  rw [String.toList_append, String.toList_ofList, hrest]

/-- The payload of the restoration. -/
def restoreArguments (arguments : ChangesetArguments)
    (files : List ChangesetFile) : ChangesetArguments :=
  { arguments with direction := .restore, files := files }

theorem organizedFile_items (items : List FileOrganizationItem) :
    (items.map organizedFile).filterMap (·.organization) = items := by
  induction items with
  | nil => rfl
  | cons item rest ih => simpa [organizedFile] using ih

/-- A valid plan is a valid payload if its sources may be paths of a
changeset. -/
theorem FileOrganizationProposal.payload
    (hlower : ∀ directory rest, toLocaleLowerCase (directory ++ "/" ++ rest) =
      toLocaleLowerCase directory ++ "/" ++ toLocaleLowerCase rest)
    {items : List FileOrganizationItem}
    (h : FileOrganizationProposal toLocaleLowerCase items)
    (hpaths : ∀ item ∈ items, relativePath item.path = true)
    {arguments : ChangesetArguments}
    (hscope : arguments.fileOrganization = true) :
    ValidOrganization toLocaleLowerCase
      (restoreArguments arguments (items.map organizedFile)) := by
  have hsources : (items.map organizedFile).map (·.path) =
      items.map (·.path) := by
    rw [List.map_map]
    rfl
  have hmem : ∀ path ∈ items.map (·.path), path ∈ proposalPaths items := by
    intro path hpath
    obtain ⟨item, hitem, rfl⟩ := List.mem_map.mp hpath
    exact List.mem_flatMap.mpr ⟨item, hitem, List.mem_cons_self⟩
  have hdistinct : (items.map (·.path)).Nodup := by
    have hall := List.Nodup.of_map _ h.distinct
    rw [proposalPaths, List.nodup_flatMap] at hall
    rw [List.Nodup, List.pairwise_map]
    apply hall.2.imp
    intro left right hdisjoint hsame
    exact hdisjoint List.mem_cons_self (by simp [hsame])
  refine ⟨⟨?_, ?_, ?_, ?_, ?_, ?_⟩, hscope, ?_, ?_⟩
  · simpa [restoreArguments] using h.nonempty
  · simpa [restoreArguments] using h.bound
  · exact hsources ▸ hdistinct
  · intro p hp q hq hprefix
    rw [restoreArguments, hsources] at hp hq
    obtain ⟨rest, rfl⟩ := isPrefixOf_slash hprefix
    apply h.apart _ (hmem _ hp) q (hmem q hq)
    rw [hlower, List.isPrefixOf_iff_prefix, String.toList_append,
      String.toList_append, String.toList_append]
    exact List.prefix_append _ _
  · intro file hfile
    obtain ⟨item, -, rfl⟩ := List.mem_map.mp hfile
    exact .inr (.inr rfl)
  · intro file hfile
    obtain ⟨item, -, rfl⟩ := List.mem_map.mp hfile
    exact hscope.symm
  · intro file hfile
    obtain ⟨item, hitem, rfl⟩ := List.mem_map.mp hfile
    exact ⟨hpaths item hitem, item, rfl⟩
  · rw [restoreArguments, organizedFile_items]
    exact h

/-- A file with the identity that a survey of it finds. -/
structure StoredFile (κ : Type) where
  content : κ
  version : NativeFileVersion

/-- The files of a folder, by their paths. -/
abbrev FileSystem (κ : Type) := String → Option (StoredFile κ)

section Files

variable {κ : Type}

/-- Copies or moves one file, if the source is the expected one and the
destination is free.  The new file has the identity `version`. -/
def FileOrganizationItem.perform (item : FileOrganizationItem)
    (version : NativeFileVersion) (fs : FileSystem κ) :
    Option (FileSystem κ) :=
  match fs item.path with
  | none => none
  | some file =>
    if file.version = item.source ∧ (fs item.target).isNone then
      let rest :=
        if item.operation = .copy then fs
        else Function.update fs item.path none
      some (Function.update rest item.target (some ⟨file.content, version⟩))
    else none

/-- What a plan did to the files.  An applied item took effect as its receipt
says; of the others it is known only that they left other paths alone. -/
inductive TookEffect :
    List OrganizedEntry → FileSystem κ → FileSystem κ → Prop
  | nil (fs : FileSystem κ) : TookEffect [] fs fs
  | applied {entry : OrganizedEntry} {rest : List OrganizedEntry}
      {fs middle last : FileSystem κ} {version : NativeFileVersion}
      (happlied : entry.2.status = .applied)
      (hversion : entry.version = some version)
      (hperform : entry.1.perform version fs = some middle)
      (hrest : TookEffect rest middle last) :
      TookEffect (entry :: rest) fs last
  | other {entry : OrganizedEntry} {rest : List OrganizedEntry}
      {fs middle last : FileSystem κ}
      (hstatus : entry.2.status ≠ .applied)
      (hframe : ∀ path, path ≠ entry.1.path → path ≠ entry.1.target →
        middle path = fs path)
      (hrest : TookEffect rest middle last) :
      TookEffect (entry :: rest) fs last

/-- The items of a plan one after the other. -/
def performItems (renew : FileOrganizationItem → NativeFileVersion) :
    List FileOrganizationItem → FileSystem κ → Option (FileSystem κ)
  | [], fs => some fs
  | item :: rest, fs =>
    (item.perform (renew item) fs).bind (performItems renew rest)

/-- Runs a plan: all sources are surveyed before the first side effect. -/
def executeFileOrganization
    (renew : FileOrganizationItem → NativeFileVersion)
    (items : List FileOrganizationItem) (fs : FileSystem κ) :
    Option (FileSystem κ) :=
  if items.all (fun item =>
      (fs item.path).any fun file => file.version = item.source) then
    performItems renew items fs
  else none

variable {fs last : FileSystem κ} {entries : List OrganizedEntry}
  {item : FileOrganizationItem} {path : String}

/-- An item whose turn it is, with its file. -/
theorem FileOrganizationItem.perform_eq {version : NativeFileVersion}
    {next : FileSystem κ} (h : item.perform version fs = some next)
    (hne : item.path ≠ item.target) :
    ∃ file, fs item.path = some file ∧ file.version = item.source ∧
      fs item.target = none ∧
      next item.target = some ⟨file.content, version⟩ ∧
      next item.path =
        (if item.operation = .copy then some file else none) ∧
      ∀ path, path ≠ item.path → path ≠ item.target →
        next path = fs path := by
  rw [perform] at h
  split at h
  · exact absurd h (Option.some_ne_none _).symm
  · rename_i file hfile
    split at h
    · rename_i hready
      have hnext := Option.some.inj h
      refine ⟨file, hfile, hready.1, Option.isNone_iff_eq_none.mp hready.2,
        ?_, ?_, ?_⟩
      · rw [← hnext, Function.update_self]
      · rw [← hnext, Function.update_of_ne hne]
        split
        · exact hfile
        · rw [Function.update_self]
      · intro path hpath htarget
        rw [← hnext, Function.update_of_ne htarget]
        split
        · rfl
        · rw [Function.update_of_ne hpath]
    · exact absurd h (Option.some_ne_none _).symm

theorem FileOrganizationItem.perform_some (version : NativeFileVersion)
    {file : StoredFile κ} (hfile : fs item.path = some file)
    (hversion : file.version = item.source) (htarget : fs item.target = none) :
    ∃ next, item.perform version fs = some next := by
  rw [perform, hfile]
  exact ⟨_, if_pos ⟨hversion, by rw [htarget]; rfl⟩⟩

theorem proposalPaths_cons (item : FileOrganizationItem)
    (rest : List FileOrganizationItem) :
    proposalPaths (item :: rest) =
      [item.path, item.target] ++ proposalPaths rest := rfl

variable {rest items : List FileOrganizationItem} {after : FileSystem κ}

/-- The paths of an item are not those of the items after it. -/
theorem nodup_cons_paths (h : (proposalPaths (item :: rest)).Nodup) :
    item.path ≠ item.target ∧ (proposalPaths rest).Nodup ∧
      ∀ path ∈ proposalPaths rest, path ≠ item.path ∧ path ≠ item.target := by
  rw [proposalPaths_cons, List.nodup_append] at h
  obtain ⟨hhead, htail, hapart⟩ := h
  refine ⟨by simpa using hhead, htail, ?_⟩
  intro path hpath
  exact ⟨fun hsame => hapart item.path (by simp) path hpath hsame.symm,
    fun hsame => hapart item.target (by simp) path hpath hsame.symm⟩

theorem path_mem (h : item ∈ items) :
    item.path ∈ proposalPaths items ∧ item.target ∈ proposalPaths items :=
  ⟨List.mem_flatMap.mpr ⟨item, h, by simp⟩,
    List.mem_flatMap.mpr ⟨item, h, by simp⟩⟩

theorem not_mem_of_apart
    (h : ∀ path ∈ proposalPaths rest, path ≠ item.path ∧ path ≠ item.target) :
    item.path ∉ proposalPaths rest ∧ item.target ∉ proposalPaths rest :=
  ⟨fun hmem => (h _ hmem).1 rfl, fun hmem => (h _ hmem).2 rfl⟩

/-- Paths that are not in the plan are left alone. -/
theorem TookEffect.frame (h : TookEffect entries fs last)
    (hpaths : (proposalPaths (entries.map Prod.fst)).Nodup)
    (hpath : path ∉ proposalPaths (entries.map Prod.fst)) :
    last path = fs path := by
  induction h with
  | nil fs => rfl
  | applied happlied hversion hperform hrest ih =>
    rw [List.map_cons] at hpaths hpath
    obtain ⟨hne, htail, -⟩ := nodup_cons_paths hpaths
    rw [proposalPaths_cons, List.mem_append, not_or] at hpath
    obtain ⟨hown, hrestpath⟩ := hpath
    simp only [List.mem_cons, List.not_mem_nil, or_false, not_or] at hown
    obtain ⟨-, -, -, -, -, -, hframe⟩ :=
      FileOrganizationItem.perform_eq hperform hne
    rw [ih htail hrestpath, hframe path hown.1 hown.2]
  | other hstatus hframe hrest ih =>
    rw [List.map_cons] at hpaths hpath
    obtain ⟨-, htail, -⟩ := nodup_cons_paths hpaths
    rw [proposalPaths_cons, List.mem_append, not_or] at hpath
    obtain ⟨hown, hrestpath⟩ := hpath
    simp only [List.mem_cons, List.not_mem_nil, or_false, not_or] at hown
    rw [ih htail hrestpath, hframe path hown.1 hown.2]

/-- Where the files of an applied item are after the run of the plan. -/
structure Landed (entry : OrganizedEntry) (fs last : FileSystem κ)
    (file : StoredFile κ) (version : NativeFileVersion) : Prop where
  source : fs entry.1.path = some file
  free : fs entry.1.target = none
  confirmed : entry.version = some version
  target : last entry.1.target = some ⟨file.content, version⟩
  left : last entry.1.path =
    if entry.1.operation = .copy then some file else none

theorem TookEffect.landed (h : TookEffect entries fs last)
    (hpaths : (proposalPaths (entries.map Prod.fst)).Nodup)
    {entry : OrganizedEntry} (hentry : entry ∈ entries)
    (happlied : entry.2.status = .applied) :
    ∃ file version, Landed entry fs last file version := by
  induction h with
  | nil fs => exact absurd hentry List.not_mem_nil
  | @applied head rest fs middle last version hstatus hversion hperform hrest
      ih =>
      rw [List.map_cons] at hpaths
      obtain ⟨hne, htail, hapart⟩ := nodup_cons_paths hpaths
      obtain ⟨file, hfile, -, hfree, htarget, hleft, hframe⟩ :=
        FileOrganizationItem.perform_eq hperform hne
      rcases List.mem_cons.mp hentry with rfl | hmem
      · obtain ⟨hpath, hdestination⟩ := not_mem_of_apart hapart
        refine ⟨file, version, hfile, hfree, hversion, ?_, ?_⟩
        · rw [hrest.frame htail hdestination, htarget]
        · rw [hrest.frame htail hpath, hleft]
      · obtain ⟨file, version, hlanded⟩ := ih htail hmem
        have hmemitem := path_mem (List.mem_map_of_mem (f := Prod.fst) hmem)
        obtain ⟨hpp, hpt⟩ := hapart _ hmemitem.1
        obtain ⟨htp, htt⟩ := hapart _ hmemitem.2
        exact ⟨file, version,
          (hframe _ hpp hpt).symm.trans hlanded.source,
          (hframe _ htp htt).symm.trans hlanded.free,
          hlanded.confirmed, hlanded.target, hlanded.left⟩
  | @other head rest fs middle last hstatus hframe hrest ih =>
    rw [List.map_cons] at hpaths
    obtain ⟨-, htail, hapart⟩ := nodup_cons_paths hpaths
    rcases List.mem_cons.mp hentry with rfl | hmem
    · exact absurd happlied hstatus
    · obtain ⟨file, version, hlanded⟩ := ih htail hmem
      have hmemitem := path_mem (List.mem_map_of_mem (f := Prod.fst) hmem)
      obtain ⟨hpp, hpt⟩ := hapart _ hmemitem.1
      obtain ⟨htp, htt⟩ := hapart _ hmemitem.2
      exact ⟨file, version,
        (hframe _ hpp hpt).symm.trans hlanded.source,
        (hframe _ htp htt).symm.trans hlanded.free,
        hlanded.confirmed, hlanded.target, hlanded.left⟩

/-- Moves whose sources are there and whose destinations are free all
succeed. -/
theorem performItems_moves (renew : FileOrganizationItem → NativeFileVersion)
    (hpaths : (proposalPaths items).Nodup)
    (hmoves : ∀ item ∈ items, item.operation ≠ .copy)
    (hready : ∀ item ∈ items, fs item.target = none ∧
      ∃ file, fs item.path = some file ∧ file.version = item.source) :
    ∃ last, performItems renew items fs = some last ∧
      (∀ path, path ∉ proposalPaths items → last path = fs path) ∧
      ∀ item ∈ items, last item.path = none ∧
        (last item.target).map StoredFile.content =
          (fs item.path).map StoredFile.content := by
  induction items generalizing fs with
  | nil => exact ⟨fs, rfl, fun _ _ => rfl, by simp⟩
  | cons item rest ih =>
    obtain ⟨hne, htail, hapart⟩ := nodup_cons_paths hpaths
    obtain ⟨htarget, file, hfile, hversion⟩ :=
      hready item List.mem_cons_self
    obtain ⟨middle, hmiddle⟩ :=
      FileOrganizationItem.perform_some (renew item) hfile hversion htarget
    obtain ⟨found, hfound, -, -, hmoved, hleft, hframe⟩ :=
      FileOrganizationItem.perform_eq hmiddle hne
    have hfoundfile : found = file :=
      Option.some.inj (hfound.symm.trans hfile)
    rw [if_neg (hmoves item List.mem_cons_self)] at hleft
    have hsame : ∀ other ∈ rest, middle other.path = fs other.path ∧
        middle other.target = fs other.target := by
      intro other hother
      obtain ⟨hpp, hpt⟩ := hapart _ (path_mem hother).1
      obtain ⟨htp, htt⟩ := hapart _ (path_mem hother).2
      exact ⟨hframe _ hpp hpt, hframe _ htp htt⟩
    have hrestready : ∀ other ∈ rest, middle other.target = none ∧
        ∃ file, middle other.path = some file ∧
          file.version = other.source := by
      intro other hother
      rw [(hsame other hother).1, (hsame other hother).2]
      exact hready other (List.mem_cons_of_mem _ hother)
    obtain ⟨last, hlast, hother, hitems⟩ := ih htail
      (fun other hmem => hmoves other (List.mem_cons_of_mem _ hmem))
      hrestready
    refine ⟨last, ?_, ?_, ?_⟩
    · rw [performItems, hmiddle]
      exact hlast
    · intro path hpath
      rw [proposalPaths_cons, List.mem_append, not_or] at hpath
      obtain ⟨hown, hrestpath⟩ := hpath
      simp only [List.mem_cons, List.not_mem_nil, or_false, not_or] at hown
      rw [hother path hrestpath, hframe path hown.1 hown.2]
    · intro other hmem
      rcases List.mem_cons.mp hmem with rfl | hmem
      · obtain ⟨hpath, hdestination⟩ := not_mem_of_apart hapart
        rw [hother _ hpath, hother _ hdestination, hleft, hmoved, hfile,
          hfoundfile]
        exact ⟨rfl, rfl⟩
      · obtain ⟨hpath, hcontent⟩ := hitems other hmem
        rw [(hsame other hmem).1] at hcontent
        exact ⟨hpath, hcontent⟩

/-- What is where, whatever the identity of the files. -/
def contentAt (fs : FileSystem κ) (path : String) : Option κ :=
  (fs path).map StoredFile.content

/-- The restoration runs to its end, and a path that no unapplied item names
and no copy went to holds what it held before the plan. -/
theorem restoration_executes (renew : FileOrganizationItem → NativeFileVersion)
    (hpaths : (proposalPaths (entries.map Prod.fst)).Nodup)
    (heffect : TookEffect entries fs after) :
    ∃ last, executeFileOrganization renew (exchangedItems entries) after =
        some last ∧
      (∀ path, path ∉ proposalPaths (exchangedItems entries) →
        last path = after path) ∧
      ∀ entry ∈ entries, entry.reversible = true →
        last entry.1.target = none ∧
          contentAt last entry.1.path = contentAt fs entry.1.path := by
  have hnodup : (proposalPaths (exchangedItems entries)).Nodup := by
    have hmapped := exchangedItems_nodup id (by simpa using hpaths)
    simpa using hmapped
  have hready : ∀ item ∈ exchangedItems entries, after item.target = none ∧
      ∃ file, after item.path = some file ∧ file.version = item.source := by
    intro item hitem
    simp only [exchangedItems, List.mem_map, List.mem_reverse,
      List.mem_filter] at hitem
    obtain ⟨entry, ⟨hentry, hreversible⟩, rfl⟩ := hitem
    simp only [OrganizedEntry.reversible, Bool.and_eq_true,
      decide_eq_true_eq, bne_iff_ne] at hreversible
    obtain ⟨file, version, hlanded⟩ :=
      heffect.landed hpaths hentry hreversible.1
    have hleft := hlanded.left
    rw [if_neg hreversible.2] at hleft
    refine ⟨hleft, _, hlanded.target, ?_⟩
    rw [OrganizedEntry.exchanged, hlanded.confirmed]
    rfl
  have hmoves : ∀ item ∈ exchangedItems entries, item.operation ≠ .copy := by
    intro item hitem
    simp only [exchangedItems, List.mem_map, List.mem_reverse,
      List.mem_filter] at hitem
    obtain ⟨entry, ⟨-, hreversible⟩, rfl⟩ := hitem
    simp only [OrganizedEntry.reversible, Bool.and_eq_true,
      bne_iff_ne] at hreversible
    exact hreversible.2
  obtain ⟨last, hlast, hframe, hitems⟩ :=
    performItems_moves renew hnodup hmoves hready
  refine ⟨last, ?_, hframe, ?_⟩
  · rw [executeFileOrganization, if_pos]
    · exact hlast
    · rw [List.all_eq_true]
      intro item hitem
      obtain ⟨-, file, hfile, hversion⟩ := hready item hitem
      simp [hfile, hversion]
  · intro entry hentry hreversible
    have hmem : entry.exchanged ∈ exchangedItems entries := by
      rw [exchangedItems]
      apply List.mem_map_of_mem
      rw [List.mem_reverse, List.mem_filter]
      exact ⟨hentry, hreversible⟩
    obtain ⟨hgone, hback⟩ := hitems entry.exchanged hmem
    simp only [OrganizedEntry.reversible, Bool.and_eq_true,
      decide_eq_true_eq] at hreversible
    obtain ⟨file, version, hlanded⟩ :=
      heffect.landed hpaths hentry hreversible.1
    refine ⟨hgone, ?_⟩
    change (last entry.1.path).map _ = (after entry.1.target).map _ at hback
    rw [contentAt, contentAt, hback, hlanded.target, hlanded.source]
    rfl

theorem mem_proposalPaths :
    path ∈ proposalPaths (entries.map Prod.fst) ↔
      ∃ entry ∈ entries, path = entry.1.path ∨ path = entry.1.target := by
  simp [proposalPaths]

theorem mem_exchangedPaths :
    path ∈ proposalPaths (exchangedItems entries) ↔
      ∃ entry ∈ entries, entry.reversible = true ∧
        (path = entry.1.path ∨ path = entry.1.target) := by
  simp only [proposalPaths, exchangedItems, List.mem_flatMap, List.mem_map,
    List.mem_reverse, List.mem_filter]
  constructor
  · rintro ⟨item, ⟨entry, ⟨hentry, hreversible⟩, rfl⟩, hpath⟩
    refine ⟨entry, hentry, hreversible, ?_⟩
    simpa [OrganizedEntry.exchanged, or_comm] using hpath
  · rintro ⟨entry, hentry, hreversible, hpath⟩
    refine ⟨entry.exchanged, ⟨entry, ⟨hentry, hreversible⟩, rfl⟩, ?_⟩
    simpa [OrganizedEntry.exchanged, or_comm] using hpath

/-- Two entries of a plan share no path. -/
theorem entry_of_path (hpaths : (proposalPaths (entries.map Prod.fst)).Nodup)
    {left right : OrganizedEntry} (hleft : left ∈ entries)
    (hright : right ∈ entries) (hl : path = left.1.path ∨ path = left.1.target)
    (hr : path = right.1.path ∨ path = right.1.target) : left = right := by
  induction entries with
  | nil => exact absurd hleft List.not_mem_nil
  | cons head rest ih =>
    rw [List.map_cons] at hpaths
    obtain ⟨-, htail, hapart⟩ := nodup_cons_paths hpaths
    have hnew : ∀ other ∈ rest,
        (path = other.1.path ∨ path = other.1.target) →
          ¬(path = head.1.path ∨ path = head.1.target) := by
      intro other hother hpath
      have hmem := mem_proposalPaths.mpr ⟨other, hother, hpath⟩
      exact not_or.mpr (hapart path hmem)
    rcases List.mem_cons.mp hleft with hl_head | hl_rest <;>
      rcases List.mem_cons.mp hright with hr_head | hr_rest
    · rw [hl_head, hr_head]
    · exact absurd (hl_head ▸ hl) (hnew right hr_rest hr)
    · exact absurd (hr_head ▸ hr) (hnew left hl_rest hl)
    · exact ih htail hl_rest hr_rest

/-- What the files are like when the restoration has run: copies remain, items
that were not applied are left as they are, and all else is as it was. -/
structure Restored (entries : List OrganizedEntry)
    (fs after last : FileSystem κ) : Prop where
  original : ∀ path,
    (∀ entry ∈ entries, path = entry.1.path ∨ path = entry.1.target →
      entry.2.status = .applied) →
    (∀ entry ∈ entries, entry.1.operation = .copy → path ≠ entry.1.target) →
    contentAt last path = contentAt fs path
  copies : ∀ entry ∈ entries, entry.2.status = .applied →
    entry.1.operation = .copy →
      last entry.1.target = after entry.1.target ∧
        contentAt last entry.1.target = contentAt fs entry.1.path
  unapplied : ∀ entry ∈ entries, entry.2.status ≠ .applied →
    last entry.1.path = after entry.1.path ∧
      last entry.1.target = after entry.1.target

theorem restored_of_execution
    (hpaths : (proposalPaths (entries.map Prod.fst)).Nodup)
    (heffect : TookEffect entries fs after)
    (hframe : ∀ path, path ∉ proposalPaths (exchangedItems entries) →
      last path = after path)
    (hback : ∀ entry ∈ entries, entry.reversible = true →
      last entry.1.target = none ∧
        contentAt last entry.1.path = contentAt fs entry.1.path) :
    Restored entries fs after last := by
  have hkept : ∀ entry ∈ entries, entry.reversible = false → ∀ path,
      path = entry.1.path ∨ path = entry.1.target →
        last path = after path := by
    intro entry hentry hreversible path hpath
    apply hframe
    intro hmem
    obtain ⟨other, hother, hrev, hotherpath⟩ := mem_exchangedPaths.mp hmem
    have hsame := entry_of_path hpaths hentry hother hpath hotherpath
    rw [hsame, hrev] at hreversible
    exact Bool.false_ne_true hreversible.symm
  constructor
  · intro path happlied hcopies
    by_cases hplanned : path ∈ proposalPaths (entries.map Prod.fst)
    · obtain ⟨entry, hentry, hpath⟩ := mem_proposalPaths.mp hplanned
      have hstatus := happlied entry hentry hpath
      obtain ⟨file, version, hlanded⟩ := heffect.landed hpaths hentry hstatus
      by_cases hcopy : entry.1.operation = .copy
      · have hsource : path = entry.1.path :=
          hpath.resolve_right (hcopies entry hentry hcopy)
        have hreversible : entry.reversible = false := by
          simp [OrganizedEntry.reversible, hcopy]
        have hleft := hlanded.left
        rw [if_pos hcopy] at hleft
        rw [contentAt, contentAt, hkept entry hentry hreversible path hpath,
          hsource, hleft, hlanded.source]
      · have hreversible : entry.reversible = true := by
          simp [OrganizedEntry.reversible, hcopy, hstatus]
        obtain ⟨hgone, hcontent⟩ := hback entry hentry hreversible
        rcases hpath with rfl | rfl
        · exact hcontent
        · rw [contentAt, contentAt, hgone, hlanded.free]
    · have hexchanged : path ∉ proposalPaths (exchangedItems entries) :=
        fun hmem => hplanned (exchangedItems_paths hmem)
      rw [contentAt, contentAt, hframe path hexchanged,
        heffect.frame hpaths hplanned]
  · intro entry hentry hstatus hcopy
    obtain ⟨file, version, hlanded⟩ := heffect.landed hpaths hentry hstatus
    have hreversible : entry.reversible = false := by
      simp [OrganizedEntry.reversible, hcopy]
    have hsame := hkept entry hentry hreversible entry.1.target (.inr rfl)
    refine ⟨hsame, ?_⟩
    rw [contentAt, contentAt, hsame, hlanded.target, hlanded.source]
    rfl
  · intro entry hentry hstatus
    have hreversible : entry.reversible = false := by
      simp [OrganizedEntry.reversible, hstatus]
    exact ⟨hkept entry hentry hreversible _ (.inl rfl),
      hkept entry hentry hreversible _ (.inr rfl)⟩

end Files

/-- The restoration consists of the applied moves, last first and the other
way round.  If there is one, it is a valid plan, and a valid payload where its
sources may be paths of a changeset; and it brings the files back. -/
theorem file_organization_undo {toLocaleLowerCase : String → String}
    (hlower : ∀ directory rest, toLocaleLowerCase (directory ++ "/" ++ rest) =
      toLocaleLowerCase directory ++ "/" ++ toLocaleLowerCase rest)
    {arguments : ChangesetArguments} {results : List ChangesetFileResult}
    (hvalid : ValidOrganization toLocaleLowerCase arguments)
    (hmatches : fileOrganizationResultMatches arguments results = true) :
    let entries := organizedEntries arguments results
    let files := fileOrganizationRestoration arguments.files results
    files = (exchangedItems entries).map organizedFile ∧
      (files ≠ [] → FileOrganizationProposal toLocaleLowerCase
        (files.filterMap (·.organization))) ∧
      (files ≠ [] → (∀ file ∈ files, relativePath file.path = true) →
        ValidOrganization toLocaleLowerCase
          (restoreArguments arguments files)) ∧
      ∀ (κ : Type) (fs after : FileSystem κ)
        (renew : FileOrganizationItem → NativeFileVersion),
        TookEffect entries fs after →
        ∃ last, executeFileOrganization renew
            (files.filterMap (·.organization)) after = some last ∧
          Restored entries fs after last := by
  intro entries files
  have hentries := hvalid.entries_match hmatches
  have hproposal : FileOrganizationProposal toLocaleLowerCase
      (entries.map Prod.fst) := by
    rw [hvalid.items_eq hmatches]
    exact hvalid.proposal
  have hpaths : (proposalPaths (entries.map Prod.fst)).Nodup :=
    List.Nodup.of_map _ hproposal.distinct
  have hsources : (entries.map fun entry => entry.1.path).Nodup := by
    have hdistinct := hvalid.valid.2.2.1
    rw [← hvalid.files_eq hmatches, List.map_map] at hdistinct
    exact hdistinct
  have hfiles : files = (exchangedItems entries).map organizedFile := by
    have hrestoration := restoration_eq hentries hsources
    rw [hvalid.files_eq hmatches, hvalid.results_eq hmatches] at hrestoration
    exact hrestoration
  have hitems : files.filterMap (·.organization) = exchangedItems entries := by
    rw [hfiles, organizedFile_items]
  have hplan : files ≠ [] → FileOrganizationProposal toLocaleLowerCase
      (exchangedItems entries) := by
    intro hsome
    apply exchangedItems_proposal hproposal hentries
    rintro hnone
    exact hsome (by rw [hfiles, hnone]; rfl)
  refine ⟨hfiles, ?_, ?_, ?_⟩
  · rw [hitems]
    exact hplan
  · intro hsome hrelative
    rw [hfiles] at hrelative ⊢
    apply (hplan hsome).payload hlower _ hvalid.scope
    intro item hitem
    exact hrelative (organizedFile item) (List.mem_map_of_mem hitem)
  · intro κ fs after renew heffect
    obtain ⟨last, hlast, hframe, hback⟩ :=
      restoration_executes renew hpaths heffect
    rw [hitems]
    exact ⟨last, hlast, restored_of_execution hpaths heffect hframe hback⟩

namespace FileOrganizationWitness

def version (n : Nat) : NativeFileVersion := ⟨n, 100, n + 40⟩

def moved : FileOrganizationItem :=
  ⟨"inbox/a.txt", .move, "done/a.txt", version 1⟩

def copied : FileOrganizationItem :=
  ⟨"inbox/b.txt", .copy, "kept/b.txt", version 2⟩

def receiptOf (item : FileOrganizationItem) : ChangesetFileResult where
  path := item.path
  status := .applied
  beforeChecksum := some item.source.checksum
  afterChecksum := some item.source.checksum
  errorCode := none
  organization := some {
    target := item.target
    operation := item.operation
    stage := "complete"
    sourceRemoved := item.operation != .copy
    file := some { item.source with version := 90 }
    recovery := some ⟨item.target, some item.source.checksum⟩ }

def plan (items : List FileOrganizationItem) : ChangesetArguments where
  artifactId := 1
  checksum := 2
  direction := .apply
  fileOrganization := true
  files := items.map organizedFile

theorem moved_valid : moved.Valid :=
  ⟨by decide, by decide, by decide, by decide⟩

theorem copied_valid : copied.Valid :=
  ⟨by decide, by decide, by decide, by decide⟩

theorem both_valid : ValidOrganization id (plan [moved, copied]) where
  valid := by decide
  scope := rfl
  organized := by
    intro file hfile
    simp only [plan, List.map_cons, List.map_nil, List.mem_cons,
      List.not_mem_nil, or_false] at hfile
    rcases hfile with rfl | rfl
    · exact ⟨by decide, moved, rfl⟩
    · exact ⟨by decide, copied, rfl⟩
  proposal := by
    constructor
    · decide
    · decide
    · intro item hitem
      have hitem : item ∈ [moved, copied] := hitem
      simp only [List.mem_cons, List.not_mem_nil, or_false] at hitem
      rcases hitem with rfl | rfl
      · exact moved_valid
      · exact copied_valid
    · decide
    · decide
    · decide

theorem file_organization_undo_moved :
    fileOrganizationResultMatches (plan [moved, copied])
        [receiptOf moved, receiptOf copied] = true ∧
      fileOrganizationRestoration (plan [moved, copied]).files
          [receiptOf moved, receiptOf copied] =
        (exchangedItems (organizedEntries (plan [moved, copied])
          [receiptOf moved, receiptOf copied])).map organizedFile ∧
      FileOrganizationProposal id
        ((fileOrganizationRestoration (plan [moved, copied]).files
          [receiptOf moved, receiptOf copied]).filterMap
            (·.organization)) := by
  have hmatches : fileOrganizationResultMatches (plan [moved, copied])
      [receiptOf moved, receiptOf copied] = true := by
    decide
  have hlower : ∀ directory rest : String,
      id (directory ++ "/" ++ rest) = id directory ++ "/" ++ id rest := by
    intro directory rest
    rfl
  obtain ⟨hfiles, hproposal, -⟩ :=
    file_organization_undo hlower both_valid hmatches
  exact ⟨hmatches, hfiles, hproposal (by decide)⟩

/-- A plan of copies only has no way back: what is returned is not a plan. -/
theorem no_restoration_of_copies :
    ValidOrganization id (plan [copied]) ∧
      fileOrganizationResultMatches (plan [copied]) [receiptOf copied] =
        true ∧
      ¬FileOrganizationProposal id
        ((fileOrganizationRestoration (plan [copied]).files
          [receiptOf copied]).filterMap (·.organization)) := by
  refine ⟨?_, by decide, ?_⟩
  · constructor
    · decide
    · rfl
    · intro file hfile
      rw [List.mem_singleton.mp hfile]
      exact ⟨by decide, copied, rfl⟩
    · constructor
      · decide
      · decide
      · intro item hitem
        rw [List.mem_singleton.mp hitem]
        exact copied_valid
      · decide
      · decide
      · decide
  · intro h
    have hnonempty := h.nonempty
    revert hnonempty
    decide

end FileOrganizationWitness

end Allrice
