/-
What an accepted update archive is.  The entries are read off the directory
without a check; a turn of the loop says of its entry what the look
establishes, and the loop adds up what it says of all of them.  No read leaves
the archive.
-/
import Allrice.UpdateZip

namespace Allrice.UpdateZip

open ByteReader Splice
open Except (bind_eq_ok bind_eq_error)

variable {bytes : List UInt8} {stop start i : Nat} {β α : Type}
  {rest : Nat → Except ZipError β} {r : β} {state next : State}

theorem read16_then (h : (readUInt16LE bytes i >>= rest) = .ok r) :
    rest (le16 bytes i) = .ok r := by
  obtain ⟨n, hn, hrest⟩ := bind_eq_ok.1 h
  unfold readUInt16LE at hn
  split at hn
  · rwa [Except.ok.inj hn]
  · cases hn

theorem read32_then (h : (readUInt32LE bytes i >>= rest) = .ok r) :
    rest (le32 bytes i) = .ok r := by
  obtain ⟨n, hn, hrest⟩ := bind_eq_ok.1 h
  unfold readUInt32LE at hn
  split at hn
  · rwa [Except.ok.inj hn]
  · cases hn

theorem subarray_then {length : Nat} {rest : List UInt8 → Except ZipError β}
    (h : (subarray bytes start (start + length) >>= rest) = .ok r) :
    rest (slice bytes start length) = .ok r := by
  obtain ⟨part, hpart, hrest⟩ := bind_eq_ok.1 h
  unfold subarray at hpart
  split at hpart
  · rw [Nat.add_sub_cancel_left] at hpart
    rwa [Except.ok.inj hpart]
  · cases hpart

variable {p : Prop} {error : ZipError} {u : Unit}
  {minimum turns offset after : Nat} {spans : List (Nat × Nat)}

theorem refuse_then [Decidable p] {rest : Except ZipError β}
    (h : (refuse p error >>= fun _ => rest) = .ok r) : ¬p ∧ rest = .ok r := by
  obtain ⟨_, hp, hrest⟩ := bind_eq_ok.1 h
  exact ⟨refuse_eq_ok.1 hp, hrest⟩

/-- A look that reads within the archive, whatever it finds. -/
def Within {α : Type} (x : Except ZipError α) : Prop := x ≠ .error .outOfRange

theorem Within.ok (a : α) : Within (.ok a : Except ZipError α) :=
  fun h => by cases h

theorem Within.pure (a : α) : Within (Pure.pure a : Except ZipError α) :=
  .ok a

theorem Within.bind {x : Except ZipError α} {f : α → Except ZipError β}
    (hx : Within x) (hf : ∀ a, x = .ok a → Within (f a)) :
    Within (x >>= f) := by
  intro h
  rcases bind_eq_error.1 h with hfirst | ⟨a, hfirst, hrest⟩
  · exact hx hfirst
  · exact hf a hfirst hrest

/-- A check refuses, or what it refuses is not the case. -/
theorem Within.refuse [Decidable p] {rest : Except ZipError β}
    (herror : error ≠ .outOfRange) (hrest : ¬p → Within rest) :
    Within (ByteReader.refuse p error >>= fun _ => rest) := by
  refine .bind ?_ ?_
  · intro h
    exact herror (refuse_eq_error.1 h).2
  · intro _ h
    exact hrest (refuse_eq_ok.1 h)

theorem Within.read16 (hi : i + 2 ≤ bytes.length)
    (hrest : Within (rest (le16 bytes i))) :
    Within (readUInt16LE bytes i >>= rest) := by
  rw [readUInt16LE, if_pos hi]
  exact hrest

theorem Within.read32 (hi : i + 4 ≤ bytes.length)
    (hrest : Within (rest (le32 bytes i))) :
    Within (readUInt32LE bytes i >>= rest) := by
  rw [readUInt32LE, if_pos hi]
  exact hrest

theorem Within.subarray {rest : List UInt8 → Except ZipError β}
    (hstop : stop ≤ bytes.length)
    (hrest : Within (rest (slice bytes start (stop - start)))) :
    Within (UpdateZip.subarray bytes start stop >>= rest) := by
  rw [UpdateZip.subarray, if_pos hstop]
  exact hrest

/-- From here to the end there are fields of the plain kinds only. -/
inductive PlainExtras (bytes : List UInt8) (stop : Nat) : Nat → Prop
  | done : PlainExtras bytes stop stop
  | field {cursor : Nat} (kind : le16 bytes cursor ∈ plainKinds)
      (within : cursor + 4 + le16 bytes (cursor + 2) ≤ stop)
      (rest : PlainExtras bytes stop
        (cursor + 4 + le16 bytes (cursor + 2))) : PlainExtras bytes stop cursor

theorem extras_sound (turns cursor : Nat) (hturns : stop ≤ cursor + turns)
    (hcursor : cursor ≤ stop) (h : extras bytes stop turns cursor = .ok u) :
    PlainExtras bytes stop cursor := by
  induction turns generalizing cursor with
  | zero =>
    have hend : cursor = stop := by omega
    rw [hend]
    exact .done
  | succ turns ih =>
    unfold extras at h
    split at h
    · obtain ⟨_, h⟩ := refuse_then h
      obtain ⟨hplain, h⟩ := refuse_then (read16_then (read16_then h))
      obtain ⟨hstop, h⟩ := refuse_then h
      have hwithin : cursor + 4 + le16 bytes (cursor + 2) ≤ stop :=
        Nat.le_of_not_lt hstop
      exact .field (not_not.1 hplain) hwithin (ih _ (by omega) hwithin h)
    · have hend : cursor = stop := by omega
      rw [hend]
      exact .done

theorem extras_within (hstop : stop ≤ bytes.length) (turns cursor : Nat) :
    Within (extras bytes stop turns cursor) := by
  induction turns generalizing cursor with
  | zero => exact .ok ()
  | succ turns ih =>
    unfold extras
    split
    · refine .refuse (by decide) fun hfour => ?_
      refine .read16 (by omega) ?_
      refine .read16 (by omega) ?_
      refine .refuse (by decide) fun _ => ?_
      exact .refuse (by decide) fun _ => ih _
    · exact .ok ()

theorem findEnd_sound (h : findEnd bytes minimum turns = .ok (some stop)) :
    le32 bytes stop = endSignature ∧
      stop + 22 + le16 bytes (stop + 20) = bytes.length := by
  induction turns with
  | zero => cases h
  | succ turns ih =>
    replace h := read32_then h
    split at h
    · rename_i hend
      replace h := read16_then h
      split at h
      · rename_i hlength
        obtain rfl := Option.some.inj (Except.ok.inj h)
        exact ⟨hend, hlength⟩
      · exact ih h
    · exact ih h

theorem findEnd_within
    (hturns : turns = 0 ∨ minimum + turns + 21 ≤ bytes.length) :
    Within (findEnd bytes minimum turns) := by
  induction turns with
  | zero => exact .ok none
  | succ turns ih =>
    have hrest : Within (findEnd bytes minimum turns) := ih (by omega)
    refine .read32 (by omega) ?_
    split
    · refine .read16 (by omega) ?_
      split
      · exact .pure _
      · exact hrest
    · exact hrest

theorem searchEnd_within (bytes : List UInt8) : Within (searchEnd bytes) :=
  findEnd_within (by omega)

/-- An entry of the central directory, as it stands there. -/
structure CentralEntry where
  flags : Nat
  method : Nat
  packed : Nat
  unpacked : Nat
  mode : Nat
  localAt : Nat
  nameBytes : List UInt8
  extraAt : Nat
  extraEnd : Nat
  next : Nat

def readEntry (bytes : List UInt8) (offset : Nat) : CentralEntry where
  flags := le16 bytes (offset + 8)
  method := le16 bytes (offset + 10)
  packed := le32 bytes (offset + 20)
  unpacked := le32 bytes (offset + 24)
  mode := le32 bytes (offset + 38) / 65536
  localAt := le32 bytes (offset + 42)
  nameBytes := slice bytes (offset + 46) (le16 bytes (offset + 28))
  extraAt := offset + 46 + le16 bytes (offset + 28)
  extraEnd := offset + 46 + le16 bytes (offset + 28) + le16 bytes (offset + 30)
  next := offset + 46 + le16 bytes (offset + 28) + le16 bytes (offset + 30) +
    le16 bytes (offset + 32)

def directory (bytes : List UInt8) : Nat → Nat → List CentralEntry
  | 0, _ => []
  | count + 1, offset =>
    let entry := readEntry bytes offset
    entry :: directory bytes count entry.next

/-- Where the directory has ended. -/
def directoryEnd (bytes : List UInt8) : Nat → Nat → Nat
  | 0, offset => offset
  | count + 1, offset => directoryEnd bytes count (readEntry bytes offset).next

namespace CentralEntry

def name (entry : CentralEntry) : JsString :=
  Utf8Stream.decode entry.nameBytes

/-- Where the data of an entry begins, by its local header. -/
def dataStart (bytes : List UInt8) (entry : CentralEntry) : Nat :=
  entry.localAt + 30 + le16 bytes (entry.localAt + 26) +
    le16 bytes (entry.localAt + 28)

/-- The local header and the data of an entry. -/
def span (bytes : List UInt8) (entry : CentralEntry) : Nat × Nat :=
  (entry.localAt, entry.dataStart bytes + entry.packed)

end CentralEntry

/-- The local header describes the same entry. -/
structure LocalSound (bytes : List UInt8) (start : Nat)
    (entry : CentralEntry) : Prop where
  before : (entry.span bytes).2 ≤ start
  signature : le32 bytes entry.localAt = 0x04034b50
  flags : le16 bytes (entry.localAt + 6) = entry.flags
  method : le16 bytes (entry.localAt + 8) = entry.method
  name : slice bytes (entry.localAt + 30) (le16 bytes (entry.localAt + 26)) =
    entry.nameBytes
  extras : PlainExtras bytes (entry.dataStart bytes)
    (entry.localAt + 30 + le16 bytes (entry.localAt + 26))

/-- What the look establishes of an entry. -/
structure EntrySound (bytes : List UInt8) (start stop : Nat)
    (entry : CentralEntry) : Prop where
  within : entry.next ≤ stop
  flags : entry.flags &&& 0xF7F7 = 0
  method : entry.method = 0 ∨ entry.method = 8
  kind : entry.mode &&& 0xF000 ∈ plainModes
  name : isPlainName entry.name = true
  extras : PlainExtras bytes entry.extraEnd entry.extraAt
  header : LocalSound bytes start entry

theorem localHeader_sound {dataEnd : Nat} {entry : CentralEntry}
    (h : localHeader bytes start entry.localAt entry.flags entry.method
      entry.packed entry.nameBytes = .ok dataEnd) :
    LocalSound bytes start entry ∧ dataEnd = (entry.span bytes).2 := by
  obtain ⟨_, h⟩ := refuse_then h
  obtain ⟨hsigned, h⟩ := refuse_then (read32_then h)
  obtain ⟨hflags, h⟩ := refuse_then (read16_then h)
  obtain ⟨hmethod, h⟩ := refuse_then (read16_then h)
  obtain ⟨hbefore, h⟩ := refuse_then (read16_then (read16_then h))
  obtain ⟨hname, h⟩ := refuse_then (subarray_then h)
  obtain ⟨_, hextras, h⟩ := bind_eq_ok.1 h
  refine ⟨⟨Nat.le_of_not_lt hbefore, not_not.1 hsigned, not_not.1 hflags,
    not_not.1 hmethod, not_not.1 hname, ?_⟩, (Except.ok.inj h).symm⟩
  exact extras_sound _ _ (le_refl _) (Nat.le_add_right _ _) hextras

theorem localHeader_within (hstart : start ≤ bytes.length)
    (localAt flags method packed : Nat) (nameBytes : List UInt8) :
    Within (localHeader bytes start localAt flags method packed nameBytes) := by
  refine .refuse (by decide) fun hheader => ?_
  refine .read32 (by omega) ?_
  refine .refuse (by decide) fun _ => ?_
  refine .read16 (by omega) ?_
  refine .refuse (by decide) fun _ => ?_
  refine .read16 (by omega) ?_
  refine .refuse (by decide) fun _ => ?_
  refine .read16 (by omega) ?_
  refine .read16 (by omega) ?_
  refine .refuse (by decide) fun hdata => ?_
  refine .subarray (by omega) ?_
  refine .refuse (by decide) fun _ => ?_
  exact .bind (extras_within (by omega) _ _) fun _ _ => .pure _

/-- The state after one more entry. -/
def State.add (state : State) (bytes : List UInt8) (entry : CentralEntry) :
    State where
  names := state.names ++ [entry.name]
  filesystemNames := state.filesystemNames ++ [filesystemName entry.name]
  spans := state.spans ++ [entry.span bytes]
  inflated := state.inflated + entry.unpacked

/-- What one turn of the loop says of its entry. -/
structure TurnSound (bytes : List UInt8) (start stop offset : Nat)
    (state next : State) : Prop where
  sound : EntrySound bytes start stop (readEntry bytes offset)
  added : next = state.add bytes (readEntry bytes offset)
  fresh : filesystemName (readEntry bytes offset).name ∉
    state.filesystemNames
  limit : next.inflated ≤ 1024 * 1024 * 1024

theorem centralEntry_sound
    (h : centralEntry bytes start stop offset state = .ok (after, next)) :
    TurnSound bytes start stop offset state next ∧
      after = (readEntry bytes offset).next := by
  obtain ⟨_, h⟩ := refuse_then h
  obtain ⟨_, h⟩ := refuse_then (read32_then h)
  replace h := read32_then (read32_then (read16_then (read16_then h)))
  replace h := read16_then (read16_then (read16_then h))
  replace h := read32_then h
  obtain ⟨hnext, h⟩ := refuse_then (read32_then h)
  obtain ⟨hflags, h⟩ := refuse_then h
  obtain ⟨hmethod, h⟩ := refuse_then h
  obtain ⟨_, h⟩ := refuse_then (read16_then h)
  obtain ⟨hmode, h⟩ := refuse_then h
  obtain ⟨_, hextras, h⟩ := bind_eq_ok.1 (subarray_then h)
  obtain ⟨hpath, h⟩ := refuse_then h
  obtain ⟨dataEnd, hlocal, h⟩ := bind_eq_ok.1 h
  obtain ⟨hlimit, h⟩ := refuse_then h
  obtain ⟨rfl, rfl⟩ := Prod.mk.inj (Except.ok.inj h)
  obtain ⟨hheader, rfl⟩ :=
    @localHeader_sound bytes start dataEnd (readEntry bytes offset) hlocal
  obtain ⟨hplain, hnames⟩ := not_or.1 hpath
  refine ⟨⟨⟨Nat.le_of_not_lt hnext, not_not.1 hflags, ?_, not_not.1 hmode,
    eq_true_of_ne_false hplain, ?_, hheader⟩, rfl, (not_or.1 hnames).2,
    Nat.le_of_not_lt hlimit⟩, rfl⟩
  · exact (not_and_or.1 hmethod).imp not_not.1 not_not.1
  · exact extras_sound _ _ (le_refl _) (Nat.le_add_right _ _) hextras

theorem centralEntry_within (hstart : start ≤ stop)
    (hstop : stop ≤ bytes.length) (offset : Nat) (state : State) :
    Within (centralEntry bytes start stop offset state) := by
  refine .refuse (by decide) fun hheader => ?_
  refine .read32 (by omega) ?_
  refine .refuse (by decide) fun _ => ?_
  refine .read16 (by omega) ?_
  refine .read16 (by omega) ?_
  refine .read32 (by omega) ?_
  refine .read32 (by omega) ?_
  refine .read16 (by omega) ?_
  refine .read16 (by omega) ?_
  refine .read16 (by omega) ?_
  refine .read32 (by omega) ?_
  refine .read32 (by omega) ?_
  refine .refuse (by decide) fun hnext => ?_
  refine .refuse (by decide) fun _ => ?_
  refine .refuse (by decide) fun _ => ?_
  refine .read16 (by omega) ?_
  refine .refuse (by decide) fun _ => ?_
  refine .refuse (by decide) fun _ => ?_
  refine .subarray (by omega) ?_
  refine .bind (extras_within (by omega) _ _) fun _ _ => ?_
  refine .refuse (by decide) fun _ => ?_
  refine .bind (localHeader_within (by omega) _ _ _ _ _) fun _ _ => ?_
  exact .refuse (by decide) fun _ => .pure _

/-- What the loop says of the entries that it has gone over. -/
structure LoopSound (bytes : List UInt8) (start stop : Nat)
    (entries : List CentralEntry) (state next : State) : Prop where
  sound : ∀ entry ∈ entries, EntrySound bytes start stop entry
  names : next.filesystemNames = state.filesystemNames ++
    entries.map fun entry => filesystemName entry.name
  distinct : state.filesystemNames.Nodup → next.filesystemNames.Nodup
  spans : next.spans = state.spans ++ entries.map fun entry => entry.span bytes
  inflated : next.inflated =
    state.inflated + (entries.map (·.unpacked)).sum
  limit : state.inflated ≤ 1024 * 1024 * 1024 →
    next.inflated ≤ 1024 * 1024 * 1024

theorem LoopSound.nil (bytes : List UInt8) (start stop : Nat)
    (state : State) : LoopSound bytes start stop [] state state :=
  ⟨fun _ h => (by cases h), (List.append_nil _).symm, id,
    (List.append_nil _).symm, rfl, id⟩

theorem LoopSound.cons {entries : List CentralEntry} {middle : State}
    (hturn : TurnSound bytes start stop offset state middle)
    (hloop : LoopSound bytes start stop entries middle next) :
    LoopSound bytes start stop (readEntry bytes offset :: entries) state
      next := by
  obtain ⟨hsound, rfl, hfresh, hlimit⟩ := hturn
  refine ⟨?_, ?_, ?_, ?_, ?_, fun _ => hloop.limit hlimit⟩
  · intro entry hentry
    rcases List.mem_cons.1 hentry with rfl | hrest
    · exact hsound
    · exact hloop.sound entry hrest
  · rw [hloop.names, State.add, List.map_cons, List.append_assoc]
    rfl
  · intro hdistinct
    apply hloop.distinct
    apply List.nodup_append.2
    refine ⟨hdistinct, List.nodup_singleton _, ?_⟩
    intro seen hseen added hadded heq
    rw [List.mem_singleton.1 hadded] at heq
    exact hfresh (heq ▸ hseen)
  · rw [hloop.spans, State.add, List.map_cons, List.append_assoc]
    rfl
  · rw [hloop.inflated, State.add, List.map_cons, List.sum_cons]
    exact Nat.add_assoc _ _ _

theorem centralEntries_sound (count offset : Nat)
    (h : centralEntries bytes start stop count offset state =
      .ok (after, next)) :
    LoopSound bytes start stop (directory bytes count offset) state next ∧
      after = directoryEnd bytes count offset := by
  induction count generalizing offset state with
  | zero =>
    obtain ⟨rfl, rfl⟩ := Prod.mk.inj (Except.ok.inj h)
    exact ⟨.nil bytes start stop state, rfl⟩
  | succ count ih =>
    obtain ⟨⟨middle, between⟩, hentry, h⟩ := bind_eq_ok.1 h
    obtain ⟨hturn, rfl⟩ := centralEntry_sound hentry
    obtain ⟨hloop, hafter⟩ := ih _ h
    exact ⟨.cons hturn hloop, hafter⟩

theorem centralEntries_within (hstart : start ≤ stop)
    (hstop : stop ≤ bytes.length) (count offset : Nat) (state : State) :
    Within (centralEntries bytes start stop count offset state) := by
  induction count generalizing offset state with
  | zero => exact .ok _
  | succ count ih =>
    exact .bind (centralEntry_within hstart hstop offset state)
      fun _ _ => ih _ _

/-- One span has ended when the other begins. -/
def Apart (span other : Nat × Nat) : Prop :=
  span.2 ≤ other.1 ∨ other.2 ≤ span.1

theorem not_overlaps_pairwise (hspans : ∀ span ∈ spans, span.1 ≤ span.2)
    (h : overlaps spans = false) :
    spans.Pairwise fun span other => span.2 ≤ other.1 := by
  induction spans with
  | nil => exact .nil
  | cons first rest ih =>
    cases rest with
    | nil => exact List.pairwise_singleton _ _
    | cons second rest =>
      simp only [overlaps, Bool.or_eq_false_iff,
        decide_eq_false_iff_not, not_lt] at h
      have htail := ih (fun span hspan =>
        hspans span (List.mem_cons_of_mem _ hspan)) h.2
      apply List.pairwise_cons.2
      refine ⟨?_, htail⟩
      intro other hother
      rcases List.mem_cons.1 hother with rfl | hrest
      · exact h.1
      · have hsecond := hspans second (by simp)
        have hnext := (List.pairwise_cons.1 htail).1 other hrest
        omega

theorem spans_apart (hspans : ∀ span ∈ spans, span.1 ≤ span.2)
    (h : overlaps (spans.insertionSort fun span other =>
      span.1 ≤ other.1) = false) : spans.Pairwise Apart := by
  have hperm := List.perm_insertionSort
    (fun span other : Nat × Nat => span.1 ≤ other.1) spans
  have hsorted := not_overlaps_pairwise
    (fun span hspan => hspans span (hperm.mem_iff.1 hspan)) h
  have happart : (spans.insertionSort fun span other =>
      span.1 ≤ other.1).Pairwise Apart := hsorted.imp Or.inl
  have hsymm : ∀ {span other : Nat × Nat}, Apart span other →
      Apart other span := Or.symm
  exact (hperm.pairwise_iff hsymm).1 happart

/-- The archive as its last record describes it: where the record stands, and
the entries of the directory before it. -/
structure Preflight (bytes : List UInt8) (stop : Nat)
    (entries : List CentralEntry) : Prop where
  signature : le32 bytes stop = endSignature
  record : stop + 22 + le16 bytes (stop + 20) = bytes.length
  directory : entries =
    directory bytes (le16 bytes (stop + 10)) (le32 bytes (stop + 16))
  directoryEnd :
    directoryEnd bytes (le16 bytes (stop + 10)) (le32 bytes (stop + 16)) = stop
  start : le32 bytes (stop + 16) ≤ stop
  sound : ∀ entry ∈ entries,
    EntrySound bytes (le32 bytes (stop + 16)) stop entry
  distinct : (entries.map fun entry => filesystemName entry.name).Nodup
  apart : (entries.map fun entry => entry.span bytes).Pairwise Apart
  limit : (entries.map (·.unpacked)).sum ≤ 1024 * 1024 * 1024

theorem inspectDirectory_sound (hsignature : le32 bytes stop = endSignature)
    (hrecord : stop + 22 + le16 bytes (stop + 20) = bytes.length)
    (h : inspectDirectory bytes stop = .ok u) :
    ∃ entries, Preflight bytes stop entries := by
  replace h := read32_then (read32_then (read16_then h))
  obtain ⟨_, h⟩ := refuse_then h
  obtain ⟨_, h⟩ := refuse_then (read16_then h)
  obtain ⟨_, h⟩ := refuse_then (read16_then h)
  obtain ⟨hhere, h⟩ := refuse_then (read16_then h)
  obtain ⟨⟨after, state⟩, hentries, h⟩ := bind_eq_ok.1 h
  obtain ⟨hspans, h⟩ := refuse_then h
  obtain ⟨hloop, rfl⟩ := centralEntries_sound _ _ hentries
  obtain ⟨hend, hapart⟩ := not_or.1 hspans
  have hsize := not_not.1 (not_or.1 hhere).2
  generalize hlist : directory bytes (le16 bytes (stop + 10))
    (le32 bytes (stop + 16)) = entries at hloop
  have hnames := hloop.distinct List.nodup_nil
  rw [hloop.names] at hnames
  have hlimit := hloop.limit (Nat.zero_le _)
  rw [hloop.inflated] at hlimit
  have hall := hloop.spans
  refine ⟨entries, hsignature, hrecord, hlist.symm, not_not.1 hend, by omega,
    hloop.sound, hnames, ?_, ?_⟩
  · have hspan : state.spans = entries.map fun entry => entry.span bytes := hall
    rw [← hspan]
    apply spans_apart
    · intro span hmem
      rw [hspan] at hmem
      obtain ⟨entry, _, rfl⟩ := List.mem_map.1 hmem
      simp only [CentralEntry.span, CentralEntry.dataStart]
      omega
    · exact eq_false_of_ne_true hapart
  · have hzero : State.initial.inflated = 0 := rfl
    omega

theorem inspectDirectory_within (hstop : stop + 22 ≤ bytes.length) :
    Within (inspectDirectory bytes stop) := by
  refine .read16 (by omega) ?_
  refine .read32 (by omega) ?_
  refine .read32 (by omega) ?_
  refine .refuse (by decide) fun _ => ?_
  refine .read16 (by omega) ?_
  refine .refuse (by decide) fun _ => ?_
  refine .read16 (by omega) ?_
  refine .refuse (by decide) fun _ => ?_
  refine .read16 (by omega) ?_
  refine .refuse (by decide) fun hhere => ?_
  have hsize := not_not.1 (not_or.1 hhere).2
  refine .bind (centralEntries_within (by omega) (by omega) _ _ _)
    fun _ _ => ?_
  refine .refuse (by decide) fun _ => ?_
  intro h
  have hinvalid := (refuse_eq_error.1 h).2
  cases hinvalid

/-- The place that a search came to. -/
def placeOf : Except ZipError (Option Nat) → Nat
  | .ok (some stop) => stop
  | _ => 0

/-- Where the record at the end was found. -/
def endOf (bytes : List UInt8) : Nat := placeOf (searchEnd bytes)

/-- The entries of the central directory. -/
def entriesOf (bytes : List UInt8) : List CentralEntry :=
  directory bytes (le16 bytes (endOf bytes + 10))
    (le32 bytes (endOf bytes + 16))

/-- No byte string makes the look read outside it; and in an archive that it
accepts every entry has a plain name below the app and is neither a link nor
renamed by an extra field, no two names are equal where case does not count,
every local header has the name, the flags and the method of its entry, the
local records are apart and before the directory, and the declared sizes keep
to the limit. -/
theorem inspect_update_zip (bytes : List UInt8) :
    inspectUpdateZip bytes ≠ .error .outOfRange ∧
      (inspectUpdateZip bytes = .ok () →
        Preflight bytes (endOf bytes) (entriesOf bytes)) := by
  constructor
  · refine Within.bind (searchEnd_within bytes) fun found hfound => ?_
    cases found with
    | none => nofun
    | some stop =>
      have hrecord := (findEnd_sound hfound).2
      exact inspectDirectory_within (by omega)
  · intro h
    obtain ⟨found, hfound, h⟩ := bind_eq_ok.1 h
    cases found with
    | none => cases h
    | some stop =>
      have hend : endOf bytes = stop := congrArg placeOf hfound
      obtain ⟨hsignature, hrecord⟩ := findEnd_sound hfound
      obtain ⟨entries, hflight⟩ :=
        inspectDirectory_sound hsignature hrecord h
      have hentries : entriesOf bytes = entries := by
        rw [entriesOf, hend, hflight.directory]
      rw [hentries, hend]
      exact hflight

/-- No entry is a file and also the folder of another one. -/
def NoFileIsParent (entries : List CentralEntry) : Prop :=
  ∀ entry ∈ entries, entry.mode &&& 0xF000 = 0x8000 →
    ∀ other ∈ entries,
      ¬filesystemName entry.name ++ [0x2F] <+: filesystemName other.name

/-- Without a data descriptor a local header has the sizes of its entry. -/
def LocalSizesAgree (bytes : List UInt8) (entries : List CentralEntry) :
    Prop :=
  ∀ entry ∈ entries, entry.flags &&& 8 = 0 →
    le32 bytes (entry.localAt + 18) = entry.packed ∧
      le32 bytes (entry.localAt + 22) = entry.unpacked

instance (entries : List CentralEntry) : Decidable (NoFileIsParent entries) :=
  inferInstanceAs (Decidable (∀ entry ∈ entries, _ → ∀ other ∈ entries, ¬_))

instance (bytes : List UInt8) (entries : List CentralEntry) :
    Decidable (LocalSizesAgree bytes entries) :=
  inferInstanceAs (Decidable (∀ entry ∈ entries, _ → _ ∧ _))

namespace Written

-- an archive of stored entries without data, whose local headers say that they
-- have some
def u16 (n : Nat) : List UInt8 := [UInt8.ofNat n, UInt8.ofNat (n / 256)]

def u32 (n : Nat) : List UInt8 := u16 n ++ u16 (n / 65536)

def localRecord (name : List UInt8) (size : Nat) : List UInt8 :=
  u32 0x04034b50 ++ List.replicate 14 0 ++ u32 size ++ u32 size ++
    u16 name.length ++ u16 0 ++ name

def centralRecord (name : List UInt8) (localAt : Nat) : List UInt8 :=
  u32 0x02014b50 ++ List.replicate 24 0 ++ u16 name.length ++
    List.replicate 10 0 ++ u16 0x8000 ++ u32 localAt ++ name

/-- The local records and the central directory. -/
def records : List (List UInt8) → Nat → List UInt8 × List UInt8
  | [], _ => ([], [])
  | name :: rest, localAt =>
    let first := localRecord name 7
    let (locals, centrals) := records rest (localAt + first.length)
    (first ++ locals, centralRecord name localAt ++ centrals)

def archive (names : List (List UInt8)) : List UInt8 :=
  let (locals, centrals) := records names 0
  locals ++ centrals ++ u32 endSignature ++ u16 0 ++ u16 0 ++
    u16 names.length ++ u16 names.length ++ u32 centrals.length ++
    u32 locals.length ++ u16 0

/-- `Rice Bridge.app/Contents` as a file, and the two files that every archive
has, below it. -/
def nested : List UInt8 :=
  let folder := Utf8Text.encode (appName ++ JsString.ofString "/Contents")
  archive [folder,
    folder ++ Utf8Text.encode (JsString.ofString "/Info.plist"),
    folder ++ Utf8Text.encode (JsString.ofString "/Resources/RiceBridgeCore")]

theorem nested_accepted : inspectUpdateZip nested = .ok () := by decide +kernel

theorem nested_preflight :
    Preflight nested (endOf nested) (entriesOf nested) :=
  (inspect_update_zip nested).2 nested_accepted

set_option maxRecDepth 20000 in
/-- A file that is the folder of others is accepted, and so are local headers
with other sizes. -/
theorem file_as_parent_accepted :
    inspectUpdateZip nested = .ok () ∧ ¬NoFileIsParent (entriesOf nested) ∧
      ¬LocalSizesAgree nested (entriesOf nested) :=
  ⟨nested_accepted, by decide, by decide⟩

end Written

end Allrice.UpdateZip
