/-
The archive that carries the inputs of a sandbox run into its container.  Its
size is announced before a source is read, from the paths and the declared
sizes alone; the bytes are produced lazily, source by source, and what a source
delivers is held against what it declared.
-/
import Allrice.ArchiveRecords

namespace Allrice.InputArchive

open DigitText Splice Utf8Stream Utf8Text

inductive InputError
  | inputPathChanged
  | inputVersionChanged
  | aborted
  | unreadable
  deriving DecidableEq

/-- A source as it is declared.  Sizes that are no integers are refused like
negative ones. -/
structure RuntimeInputSource where
  path : JsString
  sizeBytes : Int
  checksum : JsString

def header (path : JsString) (size : Nat) (type : JsString) : List UInt8 :=
  (Allrice.header path size type 0o444).bytes

/-- ` key=value`, without its length. -/
def recordText (key value : JsString) : JsString :=
  JsString.ofString " " ++ key ++ JsString.ofString "=" ++ value ++
    JsString.ofString "\n"

/-- One round of the loop that looks for the length of a record. -/
def nextSize (recordLength size : Nat) : Nat :=
  recordLength + digitCount size

/-- The loop ends within four rounds, see `pax_ends`. -/
def pax (key value : JsString) : List UInt8 :=
  let record := encode (recordText key value)
  let size := paxLength record.length 4 (record.length + 1)
  encode (digitsOf 10 size) ++ record

def maximumFieldSize : Nat := 0o77777777777

/-- `/^sha256:[a-f0-9]{64}$/`. -/
def isChecksum (text : JsString) : Bool :=
  let digits := text.drop 7
  text.take 7 == JsString.ofString "sha256:" && digits.length == 64 &&
    digits.all fun unit =>
      (0x61 ≤ unit.toNat && unit.toNat ≤ 0x66) ||
        (0x30 ≤ unit.toNat && unit.toNat ≤ 0x39)

/-- No path leads through another one, and none is there twice. -/
def pathsChanged (paths : List JsString) : Bool :=
  (paths.any fun p => !isRuntimeRelativePath p || paths.any fun q =>
    q != p && (p ++ JsString.ofString "/").isPrefixOf q) ||
    !decide paths.Nodup

/-- A source with the blocks before its bytes. -/
structure InputEntry where
  size : Nat
  checksum : JsString
  blocks : List (List UInt8)
  deriving DecidableEq

def metadataOf (path : JsString) (size : Nat) : List UInt8 :=
  (if 100 < (encode path).length then
    pax (JsString.ofString "path") path
  else []) ++
  if maximumFieldSize < size then
    pax (JsString.ofString "size") (digitsOf 10 size)
  else []

def entryBlocks (index : Nat) (path : JsString) (size : Nat) :
    List (List UInt8) :=
  let name := JsString.ofString "file" ++ digitsOf 10 index
  let metadata := metadataOf path size
  (if metadata ≠ [] then
    [header (JsString.ofString "PaxHeaders/" ++ name) metadata.length
        (JsString.ofString "x"),
      metadata, padding metadata.length]
  else []) ++
  [header (if 100 < (encode path).length then name else path)
    (if maximumFieldSize < size then 0 else size) (JsString.ofString "0")]

def inputEntry (index : Nat) (file : RuntimeInputSource) :
    Except InputError InputEntry :=
  if file.sizeBytes < 0 ∨ 2 ^ 53 ≤ file.sizeBytes ∨
      isChecksum file.checksum = false then
    .error .inputVersionChanged
  else
    let size := file.sizeBytes.toNat
    .ok ⟨size, file.checksum, entryBlocks index file.path size⟩

def inputEntries : Nat → List RuntimeInputSource →
    Except InputError (List InputEntry)
  | _, [] => .ok []
  | index, file :: files => do
      let entry ← inputEntry index file
      let more ← inputEntries (index + 1) files
      return entry :: more

def InputEntry.length (entry : InputEntry) : Nat :=
  (entry.blocks.map List.length).sum + entry.size +
    (padding entry.size).length

/-- The announced size, and the entries that the stream is made of. -/
structure Archive where
  entries : List InputEntry
  size : Nat
  deriving DecidableEq

def createInputArchive (files : List RuntimeInputSource) :
    Except InputError Archive := do
  if pathsChanged (files.map RuntimeInputSource.path) then
    throw .inputPathChanged
  let entries ← inputEntries 0 files
  let size := 1024 + (entries.map InputEntry.length).sum
  if 2 ^ 53 ≤ size then throw .inputVersionChanged
  return ⟨entries, size⟩

/-- What a reader answers.  A signal that is aborted around a read is a failure
of the read. -/
inductive Read
  | value (bytes : List UInt8)
  | failed

/-- How a source behaves: whether the signal is aborted before it, whether it
opens, and what its reader answers before it is done. -/
structure Delivery where
  aborted : Bool
  opens : Bool
  reads : List Read

inductive Part
  | metadata
  | content
  | fill
  | trailer

/-- What the stream has yielded, and the failure that ended it. -/
structure Produced where
  parts : List (Part × List UInt8)
  failure : Option InputError

namespace Produced

def done : Produced := ⟨[], none⟩

def fail (error : InputError) : Produced := ⟨[], some error⟩

def emit (part : Part) (bytes : List UInt8) : Produced :=
  ⟨[(part, bytes)], none⟩

/-- Nothing follows a failure. -/
def andThen (first rest : Produced) : Produced :=
  match first.failure with
  | some _ => first
  | none => ⟨first.parts ++ rest.parts, rest.failure⟩

def bytes (produced : Produced) : List UInt8 :=
  (produced.parts.map Prod.snd).flatten

end Produced

section Stream

variable (digest : List UInt8 → JsString)

/-- The loop over the reads of one source. -/
def readSource (entry : InputEntry) (received : List UInt8) :
    List Read → Produced
  | [] =>
    if received.length ≠ entry.size ∨
        JsString.ofString "sha256:" ++ digest received ≠ entry.checksum then
      .fail .inputVersionChanged
    else .done
  | .failed :: _ => .fail .unreadable
  | .value bytes :: reads =>
    if entry.size < received.length + bytes.length then
      .fail .inputVersionChanged
    else (Produced.emit .content bytes).andThen
      (readSource entry (received ++ bytes) reads)

def entryChunks (entry : InputEntry) (delivery : Delivery) : Produced :=
  if delivery.aborted then .fail .aborted
  else
    (⟨entry.blocks.map fun bytes => (Part.metadata, bytes), none⟩ :
        Produced).andThen
      (if !delivery.opens then .fail .unreadable
      else (readSource digest entry [] delivery.reads).andThen
        (.emit .fill (padding entry.size)))

/-- The stream of an archive; `aborted` is the signal before the trailer. -/
def chunks (aborted : Bool) : List (InputEntry × Delivery) → Produced
  | [] =>
    if aborted then .fail .aborted
    else .emit .trailer (List.replicate 1024 0)
  | (entry, delivery) :: rest =>
    (entryChunks digest entry delivery).andThen (chunks aborted rest)

end Stream

/-- The loop ends, with a length that counts itself. -/
def CountsItself (key value : JsString) : Prop :=
  let record := encode (recordText key value)
  ∃ rounds size : Nat,
    (nextSize record.length)^[rounds] (record.length + 1) = size ∧
      nextSize record.length size = size ∧
        pax key value = encode (digitsOf 10 size) ++ record ∧
          (pax key value).length = size

theorem paxLength_rounds (recordLength : Nat) : ∀ fuel size : Nat,
    ∃ rounds, (nextSize recordLength)^[rounds] size =
      paxLength recordLength fuel size
  | 0, size => ⟨0, rfl⟩
  | fuel + 1, size => by
      obtain ⟨rounds, hrounds⟩ :=
        paxLength_rounds recordLength fuel (nextSize recordLength size)
      refine ⟨rounds + 1, ?_⟩
      rw [Function.iterate_succ_apply, hrounds, paxLength_next]
      rfl

theorem pax_ends (key value : JsString) : CountsItself key value := by
  generalize hrecord : encode (recordText key value) = record
  have hfixed := paxLength_fixed record.length
  obtain ⟨rounds, hrounds⟩ := paxLength_rounds record.length 4
    (record.length + 1)
  generalize hsize : paxLength record.length 4 (record.length + 1) = size at *
  have hpax : pax key value = encode (digitsOf 10 size) ++ record := by
    simp only [pax, hrecord, hsize]
  have hdigits := encode_ascii_length (digits_ascii size)
  simp only [CountsItself, hrecord]
  refine ⟨rounds, size, hrounds, hfixed, hpax, ?_⟩
  rw [hpax, List.length_append, hdigits]
  change record.length + (digitsOf 10 size).length = size at hfixed
  omega

namespace Produced

theorem andThen_failure {first rest : Produced} :
    (first.andThen rest).failure = none ↔
      first.failure = none ∧ rest.failure = none := by
  unfold andThen
  cases hfirst : first.failure with
  | some error => simp [hfirst]
  | none => simp

theorem andThen_bytes {first rest : Produced} (h : first.failure = none) :
    (first.andThen rest).bytes = first.bytes ++ rest.bytes := by
  simp [andThen, h, bytes]

theorem emit_bytes (part : Part) (bytes : List UInt8) :
    (emit part bytes).bytes = bytes := by
  simp [emit, Produced.bytes]

theorem mem_andThen {first rest : Produced} {part : Part × List UInt8} :
    part ∈ (first.andThen rest).parts ↔
      part ∈ first.parts ∨ first.failure = none ∧ part ∈ rest.parts := by
  unfold andThen
  cases hfirst : first.failure with
  | some error | none => simp

end Produced

/-- What the reads of a source make up, unless one of them fails. -/
def contentOf : List Read → Option (List UInt8)
  | [] => some []
  | .failed :: _ => none
  | .value bytes :: reads => (contentOf reads).map (bytes ++ ·)

/-- The bytes are those that were declared. -/
def Fits (digest : List UInt8 → JsString) (entry : InputEntry)
    (content : List UInt8) : Prop :=
  content.length = entry.size ∧
    JsString.ofString "sha256:" ++ digest content = entry.checksum

/-- A source that delivers what its entry announces. -/
def Sends (digest : List UInt8 → JsString) (entry : InputEntry)
    (delivery : Delivery) : Prop :=
  delivery.aborted = false ∧ delivery.opens = true ∧
    ∃ content, contentOf delivery.reads = some content ∧
      Fits digest entry content

section Stream

variable {digest : List UInt8 → JsString}

/-- A source is read to its end exactly when all that it delivers fits. -/
theorem readSource_failure (entry : InputEntry) (reads : List Read)
    (received : List UInt8) :
    (readSource digest entry received reads).failure = none ↔
      ∃ content, contentOf reads = some content ∧
        Fits digest entry (received ++ content) := by
  induction reads generalizing received with
  | nil =>
    simp only [readSource, contentOf, Option.some.injEq, exists_eq_left',
      List.append_nil, Fits]
    split
    · rename_i hother
      simp only [Produced.fail, reduceCtorEq, false_iff, not_and_or]
      exact hother
    · rename_i hsame
      simp only [not_or, not_not] at hsame
      simp [Produced.done, hsame]
  | cons read reads ih =>
    cases read with
    | failed => simp [readSource, contentOf, Produced.fail]
    | value bytes =>
      simp only [readSource, contentOf, Option.map_eq_some_iff]
      split
      · rename_i hlong
        simp only [Produced.fail, reduceCtorEq, false_iff]
        rintro ⟨content, ⟨rest, -, rfl⟩, hlength, -⟩
        simp only [List.length_append] at hlength
        omega
      · rw [Produced.andThen_failure, ih]
        simp [Produced.emit]

theorem readSource_bytes (entry : InputEntry) (reads : List Read)
    (received : List UInt8)
    (h : (readSource digest entry received reads).failure = none) :
    contentOf reads = some (readSource digest entry received reads).bytes := by
  induction reads generalizing received with
  | nil =>
    simp only [readSource] at h ⊢
    split at h
    · simp [Produced.fail] at h
    · rename_i hsame
      rw [if_neg hsame]
      rfl
  | cons read reads ih =>
    cases read with
    | failed => simp [readSource, Produced.fail] at h
    | value bytes =>
      simp only [readSource] at h ⊢
      split at h
      · simp [Produced.fail] at h
      · rename_i hshort
        have hrest := ih (received ++ bytes) (Produced.andThen_failure.1 h).2
        rw [if_neg hshort, Produced.andThen_bytes rfl, contentOf, hrest]
        simp [Produced.emit, Produced.bytes]

theorem readSource_content (entry : InputEntry) (reads : List Read)
    (received : List UInt8) :
    ∀ part ∈ (readSource digest entry received reads).parts,
      part.1 = .content := by
  induction reads generalizing received with
  | nil =>
    unfold readSource
    split <;> simp [Produced.fail, Produced.done]
  | cons read reads ih =>
    cases read with
    | failed => simp [readSource, Produced.fail]
    | value bytes =>
      intro part hpart
      unfold readSource at hpart
      split at hpart
      · simp [Produced.fail] at hpart
      · rcases Produced.mem_andThen.1 hpart with hfirst | ⟨-, hrest⟩
        · simp only [Produced.emit, List.mem_singleton] at hfirst
          rw [hfirst]
        · exact ih _ part hrest

theorem entryChunks_failure (entry : InputEntry) (delivery : Delivery) :
    (entryChunks digest entry delivery).failure = none ↔
      Sends digest entry delivery := by
  have hread := @readSource_failure digest entry delivery.reads []
  simp only [List.nil_append] at hread
  simp only [entryChunks, Sends]
  split
  · rename_i haborted
    simp [Produced.fail, haborted]
  · rename_i haborted
    rw [Produced.andThen_failure]
    split
    · rename_i hopens
      simp only [Bool.not_eq_true'] at hopens
      simp [Produced.fail, hopens]
    · rename_i hopens
      simp only [Bool.not_eq_true', Bool.not_eq_false] at hopens
      rw [Produced.andThen_failure, hread]
      simp [haborted, hopens, Produced.emit]

theorem entryChunks_length (entry : InputEntry) (delivery : Delivery)
    (h : (entryChunks digest entry delivery).failure = none) :
    (entryChunks digest entry delivery).bytes.length = entry.length := by
  obtain ⟨haborted, hopens, content, hcontent, hlength, hsum⟩ :=
    (entryChunks_failure entry delivery).1 h
  have hread : (readSource digest entry [] delivery.reads).failure = none := by
    exact (readSource_failure entry delivery.reads []).2
      ⟨content, hcontent, hlength, hsum⟩
  have hbytes := readSource_bytes entry delivery.reads [] hread
  obtain rfl := Option.some.inj (hcontent.symm.trans hbytes)
  have hblocks : (⟨entry.blocks.map fun bytes => (Part.metadata, bytes),
      none⟩ : Produced).bytes = entry.blocks.flatten := by
    simp [Produced.bytes, Function.comp_def]
  simp only [entryChunks, haborted, hopens, Bool.false_eq_true, if_false,
    Bool.not_true]
  rw [Produced.andThen_bytes rfl, Produced.andThen_bytes hread, hblocks,
    Produced.emit_bytes]
  simp only [List.length_append, List.length_flatten, hlength,
    InputEntry.length]
  omega

theorem entryChunks_no_trailer (entry : InputEntry) (delivery : Delivery) :
    ∀ part ∈ (entryChunks digest entry delivery).parts,
      part.1 ≠ .trailer := by
  intro part hpart
  unfold entryChunks at hpart
  split at hpart
  · simp [Produced.fail] at hpart
  · rcases Produced.mem_andThen.1 hpart with hblock | ⟨-, hrest⟩
    · obtain ⟨bytes, -, rfl⟩ := List.mem_map.1 hblock
      simp
    · split at hrest
      · simp [Produced.fail] at hrest
      · rcases Produced.mem_andThen.1 hrest with hcontent | ⟨-, hfill⟩
        · rw [readSource_content _ _ _ part hcontent]
          simp
        · simp only [Produced.emit, List.mem_singleton] at hfill
          rw [hfill]
          simp

theorem chunks_failure (aborted : Bool)
    (items : List (InputEntry × Delivery)) :
    (chunks digest aborted items).failure = none ↔
      aborted = false ∧ ∀ item ∈ items, Sends digest item.1 item.2 := by
  induction items with
  | nil =>
    cases aborted with
    | false => exact ⟨fun _ => ⟨rfl, by simp⟩, fun _ => rfl⟩
    | true =>
      exact ⟨fun h => absurd h (by simp [chunks, Produced.fail]),
        fun h => absurd h.1 (by simp)⟩
  | cons item rest ih =>
    rw [chunks, Produced.andThen_failure, ih, entryChunks_failure]
    simp only [List.forall_mem_cons]
    constructor
    · rintro ⟨hitem, haborted, hrest⟩
      exact ⟨haborted, hitem, hrest⟩
    · rintro ⟨haborted, hitem, hrest⟩
      exact ⟨hitem, haborted, hrest⟩

theorem chunks_length (aborted : Bool) (items : List (InputEntry × Delivery))
    (h : (chunks digest aborted items).failure = none) :
    (chunks digest aborted items).bytes.length =
      1024 + (items.map fun item => item.1.length).sum := by
  induction items with
  | nil =>
    obtain rfl := ((chunks_failure aborted []).1 h).1
    change (Produced.emit .trailer (List.replicate 1024 0)).bytes.length = _
    rw [Produced.emit_bytes, List.length_replicate]
    rfl
  | cons item rest ih =>
    rw [chunks, Produced.andThen_failure] at h
    rw [chunks, Produced.andThen_bytes h.1, List.length_append,
      entryChunks_length _ _ h.1, ih h.2, List.map_cons, List.sum_cons]
    omega

/-- The trailer closes a stream that did not fail. -/
theorem chunks_trailer (aborted : Bool) (items : List (InputEntry × Delivery))
    {bytes : List UInt8}
    (h : (Part.trailer, bytes) ∈ (chunks digest aborted items).parts) :
    (chunks digest aborted items).failure = none := by
  induction items with
  | nil =>
    unfold chunks at h ⊢
    split at h
    · simp [Produced.fail] at h
    · rename_i haborted
      rw [if_neg haborted]
      rfl
  | cons item rest ih =>
    unfold chunks at h ⊢
    rcases Produced.mem_andThen.1 h with hitem | ⟨hfirst, hrest⟩
    · exact absurd rfl (entryChunks_no_trailer _ _ _ hitem)
    · exact Produced.andThen_failure.2 ⟨hfirst, ih hrest⟩

end Stream

/-- The stream of an archive whose sources behave as they do. -/
def Archive.stream (archive : Archive) (digest : List UInt8 → JsString)
    (aborted : Bool) (deliveries : List Delivery) : Produced :=
  chunks digest aborted (archive.entries.zip deliveries)

/-- A source that delivers exactly its declared size and checksum. -/
def Delivers (digest : List UInt8 → JsString) (file : RuntimeInputSource)
    (delivery : Delivery) : Prop :=
  delivery.aborted = false ∧ delivery.opens = true ∧
    ∃ content, contentOf delivery.reads = some content ∧
      (content.length : Int) = file.sizeBytes ∧
        JsString.ofString "sha256:" ++ digest content = file.checksum

/-- An entry keeps what its source declares. -/
def Keeps (file : RuntimeInputSource) (entry : InputEntry) : Prop :=
  (entry.size : Int) = file.sizeBytes ∧ entry.checksum = file.checksum

theorem sends_iff {digest : List UInt8 → JsString} {file : RuntimeInputSource}
    {entry : InputEntry} (h : Keeps file entry) (delivery : Delivery) :
    Sends digest entry delivery ↔ Delivers digest file delivery := by
  simp only [Sends, Delivers, Fits, ← h.1, h.2, Nat.cast_inj]

theorem inputEntry_keeps {index : Nat} {file : RuntimeInputSource}
    {entry : InputEntry} (h : inputEntry index file = .ok entry) :
    Keeps file entry := by
  unfold inputEntry at h
  split at h
  · cases h
  · rename_i hvalid
    obtain rfl := Except.ok.inj h
    simp only [not_or] at hvalid
    exact ⟨by simp only; omega, rfl⟩

theorem inputEntries_keep {index : Nat} {files : List RuntimeInputSource}
    {entries : List InputEntry} (h : inputEntries index files = .ok entries) :
    List.Forall₂ Keeps files entries := by
  induction files generalizing index entries with
  | nil =>
    obtain rfl := Except.ok.inj h
    exact .nil
  | cons file files ih =>
    rw [inputEntries] at h
    cases hentry : inputEntry index file with
    | error error => simp [hentry, bind, Except.bind] at h
    | ok entry =>
      cases hmore : inputEntries (index + 1) files with
      | error error => simp [hentry, hmore, bind, Except.bind] at h
      | ok more =>
        simp only [hentry, hmore, bind, Except.bind, pure, Except.pure,
          Except.ok.injEq] at h
        rw [← h]
        exact .cons (inputEntry_keeps hentry) (ih hmore)

theorem createInputArchive_ok {files : List RuntimeInputSource}
    {archive : Archive} (h : createInputArchive files = .ok archive) :
    inputEntries 0 files = .ok archive.entries ∧
      archive.size = 1024 + (archive.entries.map InputEntry.length).sum := by
  unfold createInputArchive at h
  simp only [bind, Except.bind, pure, Except.pure, throw, throwThe,
    MonadExceptOf.throw] at h
  split at h
  · cases h
  · cases hentries : inputEntries 0 files with
    | error error => simp [hentries] at h
    | ok entries =>
      simp only [hentries] at h
      split at h
      · cases h
      · obtain rfl := Except.ok.inj h
        exact ⟨rfl, rfl⟩

/-- Entry by entry, all send what they announce exactly when all sources
deliver. -/
theorem all_send_iff {digest : List UInt8 → JsString}
    {files : List RuntimeInputSource} {entries : List InputEntry}
    (h : List.Forall₂ Keeps files entries) (deliveries : List Delivery) :
    (∀ item ∈ entries.zip deliveries, Sends digest item.1 item.2) ↔
      ∀ item ∈ files.zip deliveries, Delivers digest item.1 item.2 := by
  induction h generalizing deliveries with
  | nil => simp
  | cons hkeeps hrest ih =>
    cases deliveries with
    | nil => simp
    | cons delivery deliveries =>
      simp only [List.zip_cons_cons, List.forall_mem_cons,
        sends_iff hkeeps, ih]

/-- The announced size is the number of bytes of a stream whose sources keep to
what they declare; a source that does not ends the stream before the trailer;
and every record begins with its own length. -/
theorem announced_size_exact :
    (∀ key value, CountsItself key value) ∧
      ∀ (digest : List UInt8 → JsString) (files : List RuntimeInputSource)
        (deliveries : List Delivery) (archive : Archive) (aborted : Bool),
        createInputArchive files = .ok archive →
        deliveries.length = files.length →
          ((∀ item ∈ files.zip deliveries, Delivers digest item.1 item.2) →
            aborted = false →
              (archive.stream digest aborted deliveries).failure = none ∧
                (archive.stream digest aborted deliveries).bytes.length =
                  archive.size) ∧
          ((∃ item ∈ files.zip deliveries, ¬Delivers digest item.1 item.2) →
            (archive.stream digest aborted deliveries).failure ≠ none ∧
              ∀ bytes, (Part.trailer, bytes) ∉
                (archive.stream digest aborted deliveries).parts) := by
  refine ⟨pax_ends, ?_⟩
  intro digest files deliveries archive aborted hcreate hdeliveries
  obtain ⟨hentries, hsize⟩ := createInputArchive_ok hcreate
  have hkeep := inputEntries_keep hentries
  have hall := @all_send_iff digest _ _ hkeep deliveries
  have hfailure := @chunks_failure digest aborted
    (archive.entries.zip deliveries)
  constructor
  · intro hdeliver haborted
    have hnone := hfailure.2 ⟨haborted, hall.2 hdeliver⟩
    have hlength := hkeep.length_eq
    have hzip : (archive.entries.zip deliveries).map Prod.fst =
        archive.entries := List.map_fst_zip (by omega)
    have hfirst : (archive.entries.zip deliveries).map (fun item =>
        item.1.length) = archive.entries.map InputEntry.length := by
      conv_rhs => rw [← hzip, List.map_map]
      rfl
    refine ⟨hnone, ?_⟩
    rw [Archive.stream, chunks_length aborted _ hnone, hsize, hfirst]
  · rintro ⟨item, hitem, hnot⟩
    have hfails : (archive.stream digest aborted deliveries).failure ≠ none :=
      fun hnone => hnot (hall.1 (hfailure.1 hnone).2 item hitem)
    exact ⟨hfails, fun bytes hbytes => hfails (chunks_trailer aborted _ hbytes)⟩

namespace InputArchiveWitness

/-- The digest of the one source below. -/
def digest (_ : List UInt8) : JsString :=
  JsString.ofString
    "ca978112ca1bbdcafac231b39a23dc4da786eff8147c4e72b9807785afee48bb"

def source : RuntimeInputSource :=
  ⟨JsString.ofString "a", 1, JsString.ofString "sha256:" ++ digest []⟩

def entry : InputEntry :=
  ⟨1, source.checksum, entryBlocks 0 source.path 1⟩

theorem source_archive :
    createInputArchive [source] = .ok ⟨[entry], 2048⟩ := by
  decide +kernel

/-- One byte as declared, and no byte at all. -/
theorem one_source_exact :
    createInputArchive [source] = .ok ⟨[entry], 2048⟩ ∧
      ((⟨[entry], 2048⟩ : Archive).stream digest false
        [⟨false, true, [.value [0x61]]⟩]).bytes.length = 2048 ∧
      ((⟨[entry], 2048⟩ : Archive).stream digest false
        [⟨false, true, []⟩]).failure ≠ none := by
  have hexact := announced_size_exact.2 digest [source]
  refine ⟨source_archive, ?_, ?_⟩
  · refine ((hexact [⟨false, true, [.value [0x61]]⟩] _ false source_archive
      rfl).1 ?_ rfl).2
    rintro item hitem
    obtain rfl := List.mem_singleton.1 hitem
    exact ⟨rfl, rfl, [0x61], rfl, rfl, rfl⟩
  · refine ((hexact [⟨false, true, []⟩] _ false source_archive rfl).2
      ⟨_, List.mem_cons_self, ?_⟩).1
    rintro ⟨-, -, content, hcontent, hlength, -⟩
    obtain rfl := Option.some.inj hcontent
    cases hlength

end InputArchiveWitness

end Allrice.InputArchive
