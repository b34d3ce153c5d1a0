/-
What the namespace of an archive accepts.  Adding a list of entries succeeds
exactly when every path is well formed and no two of the names that the entries
bring along are in each other's way, which does not depend on the order.
-/
import Allrice.FileArchive

namespace Allrice.FileArchives

/-- A path, and whether it is a folder marker. -/
structure PathEntry where
  path : JsString
  directory : Bool

/-- One name that an entry declares: the entry's own, or a folder above it. -/
structure PathPart where
  spelling : JsString
  directory : Bool
  leaf : Bool

namespace PathEntry

def name (entry : PathEntry) : JsString :=
  entryName entry.path entry.directory

def names (entry : PathEntry) : List JsString := splitPath entry.name

/-- What `add` checks before it looks at other entries. -/
def WellFormed (entry : PathEntry) : Prop :=
  ¬(entry.path = [] ∨ maximumPathBytes < (Utf8Text.encode entry.path).length ∨
    hasControlCharacters entry.path ∨
    isPlainPath entry.path entry.directory = false)

/-- The first `i + 1` names of an entry. -/
def part (entry : PathEntry) (i : Nat) : PathPart where
  spelling := List.intercalate [0x2F] (entry.names.take (i + 1))
  directory := !(i + 1 == entry.names.length) || entry.directory
  leaf := i + 1 == entry.names.length

def parts (entry : PathEntry) : List PathPart :=
  (List.range entry.names.length).map entry.part

/-- The folders that an entry stands for: those above it, and its own. -/
def folders (entry : PathEntry) : List JsString :=
  (entry.parts.filter PathPart.directory).map PathPart.spelling

end PathEntry

section Host

variable (host : FileArchiveHost)

/-- The name under which a file system may find a path. -/
def fold (spelling : JsString) : JsString :=
  host.toLowerCase (host.toUpperCase (host.normalizeNfc spelling))

/-- Two names can stand beside each other, whichever comes first. -/
def Compatible (first second : PathPart) : Prop :=
  fold host first.spelling = fold host second.spelling →
    first.spelling = second.spelling ∧ first.directory = true ∧
      second.directory = true ∧ ¬(first.leaf = true ∧ second.leaf = true)

/-- Add the entries one after the other. -/
def addAll : ArchivePaths → List PathEntry → Archived ArchivePaths
  | paths, [] => .ok paths
  | paths, entry :: rest =>
    match addPath host paths entry.path entry.directory with
    | .ok (next, _) => addAll next rest
    | .error error => .error error

def Accepted (entries : List PathEntry) : Prop :=
  ∃ paths, addAll host .empty entries = .ok paths

/-- What can be relied on in an accepted set. -/
structure SafeSet (entries : List PathEntry) : Prop where
  files : ((entries.filter (!·.directory)).map (fold host ·.name)).Nodup
  ancestors : ∀ file ∈ entries, file.directory = false →
    ∀ other ∈ entries, ∀ folder ∈ other.folders,
      fold host folder ≠ fold host file.name
  markers : ((entries.filter (·.directory)).map (fold host ·.name)).Nodup
  plain : ∀ entry ∈ entries, ∀ name ∈ entry.names,
    name ≠ [] ∧ name ≠ [0x2E] ∧ name ≠ [0x2E, 0x2E]

end Host

section Declared

variable {host : FileArchiveHost}

theorem Compatible.symm {first second : PathPart}
    (h : Compatible host first second) : Compatible host second first := by
  intro hfold
  obtain ⟨hspelling, hfirst, hsecond, hleaf⟩ := h hfold.symm
  exact ⟨hspelling.symm, hsecond, hfirst, fun hboth => hleaf hboth.symm⟩

/-- Declare one name. -/
def declare (host : FileArchiveHost) (paths : ArchivePaths) (part : PathPart) :
    Archived ArchivePaths :=
  let key := fold host part.spelling
  let previous := paths.find? key
  if previous.any (fun mark => mark.spelling != part.spelling ||
      !mark.directory || !part.directory || (part.leaf && mark.declared)) then
    .error .pathConflict
  else
    .ok (paths.put
      { key
        spelling := part.spelling
        directory := part.directory
        declared := previous.any PathMark.declared || part.leaf })

/-- The table holds what the names seen so far say, and nothing else. -/
structure Recorded (host : FileArchiveHost) (paths : ArchivePaths)
    (seen : List PathPart) : Prop where
  found : ∀ part ∈ seen, ∃ mark,
    paths.find? (fold host part.spelling) = some mark ∧
      mark.spelling = part.spelling ∧ mark.directory = part.directory ∧
        (part.leaf = true → mark.declared = true)
  known : ∀ key mark, paths.find? key = some mark →
    (∃ part ∈ seen, fold host part.spelling = key) ∧
      (mark.declared = true →
        ∃ part ∈ seen, fold host part.spelling = key ∧ part.leaf = true)

theorem Recorded.empty : Recorded host .empty [] where
  found := nofun
  known key mark hfind := by
    rw [Table.find?_empty] at hfind
    cases hfind

variable {entries : List PathEntry} {paths : ArchivePaths}
  {seen : List PathPart} {entry : PathEntry}

/-- A name is refused when it is in the way of one that was seen. -/
theorem declare_eq_ok (h : Recorded host paths seen) (part : PathPart) :
    (∃ next, declare host paths part = .ok next) ↔
      ∀ other ∈ seen, Compatible host other part := by
  unfold declare
  simp only
  constructor
  · rintro ⟨next, hnext⟩ other hother hfold
    split at hnext
    · cases hnext
    · rename_i hpass
      obtain ⟨mark, hmark, hspelling, hdirectory, hleaf⟩ := h.found other hother
      rw [hfold] at hmark
      rw [hmark] at hpass
      simp only [Option.any_some, Bool.or_eq_true, bne_iff_ne, ne_eq,
        Bool.not_eq_eq_eq_not, Bool.not_true, Bool.and_eq_true, not_or,
        Decidable.not_not, Bool.not_eq_false] at hpass
      obtain ⟨⟨⟨hsame, hfolder⟩, hpart⟩, hdeclared⟩ := hpass
      refine ⟨hspelling.symm.trans hsame, ?_, hpart, fun hboth => ?_⟩
      · rw [← hdirectory]
        exact hfolder
      · exact hdeclared ⟨hboth.2, hleaf hboth.1⟩
  · intro hcompatible
    split
    · rename_i hconflict
      obtain ⟨mark, hmark, hbad⟩ := (Option.any_eq_true _ _).1 hconflict
      obtain ⟨⟨other, hother, hkey⟩, hdeclared⟩ := h.known _ mark hmark
      obtain ⟨found, hfound, hspelling, hdirectory, -⟩ := h.found other hother
      rw [hkey, hmark] at hfound
      obtain rfl : mark = found := Option.some.inj hfound
      obtain ⟨hsame, hfolder, hpart, -⟩ := hcompatible other hother hkey
      rw [hspelling, hdirectory, hsame, hfolder, hpart] at hbad
      simp only [bne_self_eq_false, Bool.not_true, Bool.or_self, Bool.false_or,
        Bool.and_eq_true] at hbad
      obtain ⟨declared, hmem, hfold, hleaf⟩ := hdeclared hbad.2
      exact absurd ⟨hleaf, hbad.1⟩ (hcompatible declared hmem hfold).2.2.2
    · exact ⟨_, rfl⟩

theorem Recorded.declare {next : ArchivePaths} (h : Recorded host paths seen)
    {part : PathPart} (hnext : declare host paths part = .ok next) :
    Recorded host next (seen ++ [part]) := by
  have hcompatible := (declare_eq_ok h part).1 ⟨next, hnext⟩
  unfold FileArchives.declare at hnext
  simp only at hnext
  split at hnext
  · cases hnext
  · obtain rfl := Except.ok.inj hnext
    constructor
    · intro other hother
      rw [Table.find?_put]
      rcases List.mem_append.1 hother with hother | hother
      · obtain ⟨mark, hmark, hspelling, hdirectory, hleaf⟩ :=
          h.found other hother
        split
        · rename_i hkey
          obtain ⟨hsame, hfolder, hpart, -⟩ :=
            hcompatible other hother hkey.symm
          refine ⟨_, rfl, hsame.symm, hpart.trans hfolder.symm,
            fun hotherLeaf => ?_⟩
          rw [← hkey] at hmark
          rw [hmark]
          simp only [Option.any_some, hleaf hotherLeaf, Bool.true_or]
        · exact ⟨mark, hmark, hspelling, hdirectory, hleaf⟩
      · obtain rfl := List.mem_singleton.1 hother
        rw [if_pos rfl]
        refine ⟨_, rfl, rfl, rfl, fun hleaf => ?_⟩
        simp only [hleaf, Bool.or_true]
    · intro key mark hmark
      rw [Table.find?_put] at hmark
      split at hmark
      · rename_i hkey
        obtain rfl := Option.some.inj hmark
        refine ⟨⟨part, by simp, hkey⟩, fun hdeclared => ?_⟩
        simp only [Bool.or_eq_true] at hdeclared
        rcases hdeclared with hearlier | hleaf
        · obtain ⟨previous, hprevious, hearlier⟩ :=
            (Option.any_eq_true _ _).1 hearlier
          obtain ⟨other, hother, hfold, hleaf⟩ :=
            (h.known _ previous hprevious).2 hearlier
          exact ⟨other, List.mem_append_left _ hother, hfold.trans hkey, hleaf⟩
        · exact ⟨part, by simp, hkey, hleaf⟩
      · obtain ⟨⟨other, hother, hfold⟩, hdeclared⟩ := h.known key mark hmark
        refine ⟨⟨other, List.mem_append_left _ hother, hfold⟩, fun hmark => ?_⟩
        obtain ⟨declared, hmem, hrest⟩ := hdeclared hmark
        exact ⟨declared, List.mem_append_left _ hmem, hrest⟩

/-- Names one after the other. -/
theorem declare_entries (h : Recorded host paths seen) (parts : List PathPart) :
    ((∃ next, parts.foldlM (declare host) paths = .ok next) ↔
        (∀ other ∈ seen, ∀ part ∈ parts, Compatible host other part) ∧
          parts.Pairwise (Compatible host)) ∧
      ∀ next, parts.foldlM (declare host) paths = .ok next →
        Recorded host next (seen ++ parts) := by
  induction parts generalizing paths seen with
  | nil =>
    refine ⟨⟨fun _ => ⟨by simp, .nil⟩, fun _ => ⟨paths, rfl⟩⟩, ?_⟩
    intro next hnext
    obtain rfl : paths = next := Except.ok.inj hnext
    rw [List.append_nil]
    exact h
  | cons part rest ih =>
    rw [List.foldlM_cons]
    cases hpart : declare host paths part with
    | error error =>
      constructor
      · constructor
        · rintro ⟨next, hnext⟩
          cases hnext
        · rintro ⟨hseen, -⟩
          obtain ⟨next, hnext⟩ := (declare_eq_ok h part).2
            fun other hother => hseen other hother part List.mem_cons_self
          rw [hpart] at hnext
          cases hnext
      · intro next hnext
        cases hnext
    | ok next =>
      have hnext := h.declare hpart
      have hcompatible := (declare_eq_ok h part).1 ⟨next, hpart⟩
      obtain ⟨hiff, hrecorded⟩ := ih hnext
      rw [List.append_assoc, List.singleton_append] at hrecorded
      refine ⟨?_, hrecorded⟩
      change (∃ last, rest.foldlM (declare host) next = .ok last) ↔ _
      rw [hiff, List.pairwise_cons]
      constructor
      · rintro ⟨hseen, hrest⟩
        refine ⟨fun other hother later hlater => ?_,
          fun later hlater => hseen part (by simp) later hlater, hrest⟩
        rcases List.mem_cons.1 hlater with rfl | hlater
        · exact hcompatible other hother
        · exact hseen other (List.mem_append_left _ hother) later hlater
      · rintro ⟨hseen, hfirst, hrest⟩
        refine ⟨fun other hother later hlater => ?_, hrest⟩
        rcases List.mem_append.1 hother with hother | hother
        · exact hseen other hother later (List.mem_cons_of_mem _ hlater)
        · rw [List.mem_singleton.1 hother]
          exact hfirst later hlater

/-- A well-formed entry is as good as its names. -/
theorem addPath_pass (h : entry.WellFormed) (paths : ArchivePaths) :
    addPath host paths entry.path entry.directory =
      entry.parts.foldlM (declare host) paths >>= fun next =>
        pure (next, entry.name) := by
  rw [addPath, failIf, if_neg h, PathEntry.parts, List.foldlM_map]
  rfl

theorem addPath_refuse (h : ¬entry.WellFormed) (paths : ArchivePaths) :
    addPath host paths entry.path entry.directory = .error .unsafePath := by
  rw [addPath, failIf, if_pos (Decidable.not_not.1 h)]
  rfl

/-- The whole list. -/
theorem addAll_eq_ok (h : Recorded host paths seen) (entries : List PathEntry) :
    (∃ next, addAll host paths entries = .ok next) ↔
      (∀ entry ∈ entries, entry.WellFormed) ∧
        (∀ other ∈ seen, ∀ part ∈ entries.flatMap PathEntry.parts,
          Compatible host other part) ∧
          (entries.flatMap PathEntry.parts).Pairwise (Compatible host) := by
  induction entries generalizing paths seen with
  | nil =>
    exact ⟨fun _ => ⟨by simp, by simp, .nil⟩, fun _ => ⟨paths, rfl⟩⟩
  | cons entry rest ih =>
    rw [addAll, List.flatMap_cons, List.pairwise_append,
      List.forall_mem_cons]
    by_cases hgood : entry.WellFormed
    case neg =>
      rw [addPath_refuse hgood]
      constructor
      · intro hnext
        obtain ⟨next, hnext⟩ := hnext
        cases hnext
      · intro hall
        exact absurd hall.1.1 hgood
    case pos =>
      rw [addPath_pass hgood]
      obtain ⟨hiff, hrecorded⟩ := declare_entries h entry.parts
      cases hparts : entry.parts.foldlM (declare host) paths with
      | error error =>
        constructor
        · intro hnext
          obtain ⟨next, hnext⟩ := hnext
          cases hnext
        · rintro ⟨-, hseen, hown, -⟩
          obtain ⟨next, hnext⟩ := hiff.2
            ⟨fun other hother part hpart => hseen other hother part
              (List.mem_append_left _ hpart), hown⟩
          rw [hparts] at hnext
          cases hnext
      | ok next =>
        obtain ⟨hseen, hown⟩ := hiff.1 ⟨next, hparts⟩
        change (∃ last, addAll host next rest = .ok last) ↔ _
        rw [ih (hrecorded next hparts)]
        constructor
        · rintro ⟨hgoods, hlater, hrest⟩
          refine ⟨⟨hgood, hgoods⟩, fun other hother part hpart => ?_, hown,
            hrest, fun part hpart later hmem =>
              hlater part (List.mem_append_right _ hpart) later hmem⟩
          rcases List.mem_append.1 hpart with hpart | hpart
          · exact hseen other hother part hpart
          · exact hlater other (List.mem_append_left _ hother) part hpart
        · rintro ⟨⟨-, hgoods⟩, hseen', -, hrest, hlater⟩
          refine ⟨hgoods, fun other hother part hpart => ?_, hrest⟩
          rcases List.mem_append.1 hother with hother | hother
          · exact hseen' other hother part (List.mem_append_right _ hpart)
          · exact hlater other hother part hpart

theorem accepted_iff (entries : List PathEntry) :
    Accepted host entries ↔ (∀ entry ∈ entries, entry.WellFormed) ∧
      (entries.flatMap PathEntry.parts).Pairwise (Compatible host) := by
  rw [Accepted, addAll_eq_ok .empty]
  exact and_congr_right fun _ => and_iff_right nofun

/-- The order of the entries says nothing about the names they bring along. -/
theorem accepted_perm {others : List PathEntry} (h : entries.Perm others)
    (haccepted : Accepted host entries) : Accepted host others := by
  rw [accepted_iff] at haccepted ⊢
  obtain ⟨hgood, hpairs⟩ := haccepted
  constructor
  · intro entry hentry
    exact hgood entry (h.mem_iff.2 hentry)
  · exact ((h.flatMap_right PathEntry.parts).pairwise_iff Compatible.symm).1
      hpairs

namespace PathEntry

/-- The name of the entry itself, among those it declares. -/
def own (entry : PathEntry) : PathPart :=
  entry.part (entry.names.length - 1)

theorem names_length_pos (entry : PathEntry) : 0 < entry.names.length :=
  List.length_pos_of_ne_nil (List.splitOn_ne_nil _ _)

theorem own_mem (entry : PathEntry) : entry.own ∈ entry.parts := by
  apply List.mem_map_of_mem
  rw [List.mem_range]
  have hpos := entry.names_length_pos
  omega

theorem own_last (entry : PathEntry) :
    entry.names.length - 1 + 1 = entry.names.length :=
  Nat.sub_add_cancel entry.names_length_pos

theorem own_spelling (entry : PathEntry) : entry.own.spelling = entry.name := by
  rw [own, part, own_last, List.take_length]
  exact List.intercalate_splitOn _

theorem own_leaf (entry : PathEntry) : entry.own.leaf = true := by
  rw [own, part, own_last]
  exact beq_self_eq_true _

theorem own_directory (entry : PathEntry) :
    entry.own.directory = entry.directory := by
  rw [own, part, own_last, beq_self_eq_true]
  rfl

end PathEntry

/-- Two entries of an accepted set never go by one name. -/
theorem own_names_differ
    (h : (entries.flatMap PathEntry.parts).Pairwise (Compatible host)) :
    entries.Pairwise fun first second =>
      fold host first.name ≠ fold host second.name := by
  apply (List.pairwise_flatMap.1 h).2.imp
  intro first second hbetween hfold
  have hown := hbetween first.own first.own_mem second.own second.own_mem
  rw [Compatible, first.own_spelling, second.own_spelling] at hown
  exact (hown hfold).2.2.2 ⟨first.own_leaf, second.own_leaf⟩

theorem nodup_names
    (h : (entries.flatMap PathEntry.parts).Pairwise (Compatible host))
    (keep : PathEntry → Bool) :
    ((entries.filter keep).map (fold host ·.name)).Nodup := by
  apply List.pairwise_map.2
  apply List.Pairwise.filter
  exact own_names_differ h

instance : Std.Symm (Compatible host) where
  symm _ _ := Compatible.symm

/-- No folder goes by the name of a file. -/
theorem folder_ne_file
    (h : (entries.flatMap PathEntry.parts).Pairwise (Compatible host))
    {file other : PathEntry} (hfile : file ∈ entries)
    (hplain : file.directory = false) (hother : other ∈ entries)
    {folder : JsString} (hfolder : folder ∈ other.folders) :
    fold host folder ≠ fold host file.name := by
  intro hfold
  obtain ⟨part, hpart, rfl⟩ := List.mem_map.1 hfolder
  obtain ⟨hpart, hdirectory⟩ := List.mem_filter.1 hpart
  have hne : part ≠ file.own := by
    intro hsame
    rw [hsame, file.own_directory, hplain] at hdirectory
    cases hdirectory
  have hcompatible := h.forall
    (List.mem_flatMap.2 ⟨other, hother, hpart⟩)
    (List.mem_flatMap.2 ⟨file, hfile, file.own_mem⟩) hne
  rw [Compatible, file.own_spelling, file.own_directory, hplain] at hcompatible
  have hfalse := (hcompatible hfold).2.2.1
  cases hfalse

theorem wellFormed_name (h : entry.WellFormed) {name : JsString}
    (hname : name ∈ entry.names) :
    name ≠ [] ∧ name ≠ [0x2E] ∧ name ≠ [0x2E, 0x2E] := by
  rw [PathEntry.WellFormed, not_or, not_or, not_or, Bool.not_eq_false,
    isPlainPath] at h
  obtain ⟨-, -, -, hplain⟩ := h
  simp only [Bool.and_eq_true, Bool.not_eq_true', List.any_eq_false] at hplain
  have hgood := hplain.2 name hname
  simpa [isNoName, and_assoc] using hgood

theorem safeSet (haccepted : Accepted host entries) : SafeSet host entries := by
  obtain ⟨hgood, hpairs⟩ := (accepted_iff entries).1 haccepted
  constructor
  case files => exact nodup_names hpairs _
  case ancestors =>
    intro file hfile hplain other hother folder hfolder
    exact folder_ne_file hpairs hfile hplain hother hfolder
  case markers => exact nodup_names hpairs _
  case plain =>
    intro entry hentry name hname
    exact wellFormed_name (hgood entry hentry) hname

end Declared

/-- Whether a set of entries is accepted does not depend on their order, and no
accepted set has two names that a file system could take for one. -/
theorem archive_paths_any_order (host : FileArchiveHost)
    (entries : List PathEntry) :
    (∀ others, entries.Perm others →
        (Accepted host entries ↔ Accepted host others)) ∧
      (Accepted host entries → SafeSet host entries) := by
  constructor
  · intro others hperm
    exact ⟨accepted_perm hperm, accepted_perm hperm.symm⟩
  · exact safeSet

end Allrice.FileArchives
