/-
What is written as an archive of small files is read again.  The libraries are
taken to lose nothing; the question is whether a check of the reader refuses, or
changes, what the writer let pass.
-/
import Allrice.FileArchive
import Allrice.SameAscii
import Allrice.Transaction

namespace Allrice.FileArchives

open Utf8Stream Utf8Text Tx

theorem crcBuf_append (first rest : List UInt8) (seed : UInt32) :
    crcBuf (first ++ rest) seed = crcBuf rest (crcBuf first seed) := by
  unfold crcBuf
  rw [List.foldl_append, UInt32.xor_assoc _ 0xFFFFFFFF, UInt32.xor_self,
    UInt32.xor_zero]

theorem crcBuf_nil (seed : UInt32) : crcBuf [] seed = seed := by
  unfold crcBuf
  rw [List.foldl_nil, UInt32.xor_assoc, UInt32.xor_self, UInt32.xor_zero]

theorem piecesOf_flatten {α : Type} {size : Nat} (hsize : 0 < size) :
    ∀ (fuel : Nat) (items : List α), items.length ≤ fuel →
      (piecesOf size fuel items).flatten = items := by
  intro fuel
  induction fuel with
  | zero =>
    intro items hlength
    rw [List.length_eq_zero_iff.mp (Nat.le_zero.mp hlength)]
    rfl
  | succ fuel ih =>
    intro items hlength
    cases items with
    | nil => rfl
    | cons item rest =>
      change ((item :: rest).take size ::
        piecesOf size fuel ((item :: rest).drop size)).flatten = _
      rw [List.flatten_cons, ih, List.take_append_drop]
      rw [List.length_drop]
      simp only [List.length_cons] at hlength ⊢
      omega

theorem slices_flatten (bytes : List UInt8) :
    (slices bytes).flatten = bytes :=
  piecesOf_flatten (by decide) _ _ (Nat.le_refl _)

theorem fileChunks_flatten (bytes : List UInt8) :
    (fileChunks bytes).flatten = bytes := by
  unfold fileChunks
  split
  · rename_i hnil
    rw [hnil]
    rfl
  · exact slices_flatten bytes

theorem flatMap_slices_flatten (available : List (List UInt8)) :
    (available.flatMap slices).flatten = available.flatten := by
  induction available with
  | nil => rfl
  | cons chunk available ih =>
    rw [List.flatMap_cons, List.flatten_append, slices_flatten, ih,
      List.flatten_cons]

variable {refused : Prop} {image : JsString} {limit : Nat}

theorem failIf_pass [Decidable refused] (h : ¬refused)
    (error : FileArchiveError) : failIf refused error = .ok () :=
  if_neg h

theorem failIf_eq_ok [Decidable refused] {error : FileArchiveError}
    {passed : Unit} : failIf refused error = .ok passed ↔ ¬refused := by
  unfold failIf
  split <;> simp_all

theorem boundedSize_pass {value : Nat} (h : value ≤ fileArchiveMaximumBytes) :
    boundedSize value = .ok () :=
  failIf_pass (by omega) _

theorem expansion_pass {uncompressed compressed : Nat}
    (h : uncompressed ≤ compressed * maximumExpansionRatio) :
    expansion uncompressed compressed = .ok () :=
  failIf_pass (by omega) _

/-- Nothing stops the reading of chunks that stay within what is declared. -/
theorem readChunks (entry : ZipEntry) (chunks : List (List UInt8)) :
    ∀ read : EntryRead,
      read.size + chunks.flatten.length ≤ entry.uncompressedSize →
      entry.uncompressedSize ≤ fileArchiveMaximumBytes →
      read.actualBytes + chunks.flatten.length ≤ fileArchiveMaximumBytes →
      entry.uncompressedSize ≤ entry.compressedSize * maximumExpansionRatio →
      chunks.foldlM (readChunk entry) read = .ok
        { size := read.size + chunks.flatten.length
          actualBytes := read.actualBytes + chunks.flatten.length
          checksum := crcBuf chunks.flatten read.checksum
          parts := read.parts ++ chunks } := by
  induction chunks with
  | nil =>
    intro read _ _ _ _
    simp only [List.flatten_nil, List.length_nil, Nat.add_zero,
      List.append_nil, crcBuf_nil]
    rfl
  | cons chunk chunks ih =>
    intro read hsize hmaximum hactual hexpansion
    simp only [List.flatten_cons, List.length_append] at hsize hactual ⊢
    have hchunk : readChunk entry read chunk = .ok
        { size := read.size + chunk.length
          actualBytes := read.actualBytes + chunk.length
          checksum := crcBuf chunk read.checksum
          parts := read.parts ++ [chunk] } := by
      unfold readChunk
      simp only
      rw [boundedSize_pass (by omega), boundedSize_pass (by omega),
        expansion_pass (by omega), failIf_pass (by omega)]
      rfl
    rw [List.foldlM_cons, hchunk]
    refine Eq.trans (ih _ ?_ hmaximum ?_ hexpansion) ?_
    · simp only
      omega
    · simp only
      omega
    · simp only [crcBuf_append, List.append_assoc, List.singleton_append,
        Nat.add_assoc]

variable {files : List ArchiveFile} {path : JsString} {record : ZipInputFile}
  {records : List ZipInputFile} {file : ArchiveFile} {maximumFiles : Option Int}

theorem isPlainPath_iff :
    isPlainPath path false = true ↔
      (0x5C : UInt16) ∉ path ∧ (0x3A : UInt16) ∉ path ∧
        ∀ part ∈ splitPath path, isNoName part = false := by
  simp only [isPlainPath, entryName, Bool.false_eq_true, if_false,
    Bool.and_eq_true, bne_iff_ne, Bool.not_eq_true', List.any_eq_false,
    beq_iff_eq, Bool.not_eq_true, ne_eq, List.contains_eq_mem,
    decide_eq_false_iff_not, beq_eq_false_iff_ne]
  constructor
  · rintro ⟨⟨⟨⟨_, hback⟩, hcolon⟩, _⟩, hparts⟩
    exact ⟨hback, hcolon, hparts⟩
  · rintro ⟨hback, hcolon, hparts⟩
    refine ⟨⟨⟨⟨?_, hback⟩, hcolon⟩, ?_⟩, hparts⟩
    · -- A slash in front leaves an empty part before it.
      intro hhead
      obtain ⟨rest, rfl⟩ := List.head?_eq_some_iff.mp hhead
      have hempty := hparts [] (by
        rw [splitPath, List.splitOn_cons_eq_if_modifyHead]
        exact List.mem_cons_self)
      cases hempty
    · intro hlast
      obtain ⟨init, rfl⟩ := List.getLast?_eq_some_iff.mp hlast
      have hempty := hparts [] (by
        rw [splitPath, List.splitOn_append_cons_self, List.splitOn_nil]
        exact List.mem_append_right _ List.mem_cons_self)
      cases hempty

theorem isNoName_sameAscii {part : JsString} (h : SameAscii part image) :
    isNoName image = isNoName part := by
  have hempty : part = [] ↔ image = [] := h.eq_iff (by simp [Ascii])
  have hdot : part = [0x2E] ↔ image = [0x2E] := h.eq_iff (by simp [Ascii])
  have hdots : part = [0x2E, 0x2E] ↔ image = [0x2E, 0x2E] :=
    h.eq_iff (by simp [Ascii])
  rw [Bool.eq_iff_iff]
  simp only [isNoName, Bool.or_eq_true, beq_iff_eq, hempty, hdot, hdots]

/-- Nothing but the ASCII units of a path is looked at. -/
theorem isPlainPath_sameAscii (h : SameAscii path image)
    (hpath : isPlainPath path false = true) :
    isPlainPath image false = true := by
  rw [isPlainPath_iff] at hpath ⊢
  obtain ⟨hback, hcolon, hparts⟩ := hpath
  refine ⟨?_, ?_, ?_⟩
  · rwa [← h.mem_iff (by decide)]
  · rwa [← h.mem_iff (by decide)]
  · intro part hmem
    obtain ⟨source, hpart, hsame⟩ := h.exists_splitOn (by decide) hmem
    rw [isNoName_sameAscii hsame]
    exact hparts source hpart

theorem getLast_of_isPlainPath (h : isPlainPath path false = true) :
    (path.getLast? == some 0x2F) = false := by
  simp only [isPlainPath, Bool.and_eq_true, beq_iff_eq] at h
  exact h.1.2

/-- What `ArchivePaths.add` has checked of the path of a file. -/
structure NamedPath (path : JsString) : Prop where
  nonempty : path ≠ []
  short : (encode path).length ≤ maximumPathBytes
  visible : hasControlCharacters path = false
  plain : isPlainPath path false = true

theorem addPath_spec {host : FileArchiveHost} {paths next : ArchivePaths}
    {name : JsString} (h : addPath host paths path false = .ok (next, name)) :
    name = path ∧ NamedPath path := by
  rw [addPath, Except.bind_eq_ok] at h
  obtain ⟨_, hchecks, h⟩ := h
  rw [Except.bind_eq_ok] at h
  obtain ⟨_, _, h⟩ := h
  cases h
  rw [failIf_eq_ok] at hchecks
  simp only [not_or, Bool.not_eq_true, Bool.not_eq_false] at hchecks
  obtain ⟨hnonempty, hshort, hvisible, hplain⟩ := hchecks
  exact ⟨rfl, hnonempty, Nat.le_of_not_lt hshort, hvisible, hplain⟩

/-- Each ASCII unit is a character of its own. -/
theorem ascii_mem_codePoints {text : JsString} {unit : UInt16}
    (hunit : unit.toNat < 0x80) (hmem : unit ∈ text) :
    [unit] ∈ JsString.codePoints text := by
  rw [← codePoints_flatten text, List.mem_flatten] at hmem
  obtain ⟨point, hpoint, hmem⟩ := hmem
  have hcases := point_cases (codePoints_isPoint text point hpoint)
  rcases hcases with ⟨other, rfl, _, _⟩ | ⟨hbeyond, _, _⟩
  · rw [List.mem_singleton.mp hmem]
    exact hpoint
  · exact absurd hmem (hbeyond.not_mem hunit)

theorem NamedPath.validateRawPath_pass (h : NamedPath path) :
    validateRawPath (encode path) false = .ok () := by
  have hsame := sameAscii_encode path
  have hbytes : ∀ byte ∈ encode path,
      ¬(byte.toNat < 0x20 ∨ byte.toNat = 0x7F) := by
    intro byte hbyte hcontrol
    have hascii : (UInt16.ofNat byte.toNat).toNat = byte.toNat := by
      rw [UInt16.toNat_ofNat']
      have hbound := byte.toNat_lt
      omega
    have hunit : UInt16.ofNat byte.toNat ∈ path := by
      rw [hsame.mem_iff (by omega)]
      exact List.mem_map_of_mem hbyte
    have hshown := List.any_eq_false.mp h.visible _
      (ascii_mem_codePoints (by omega) hunit)
    simp only [codePointAt, hascii, Bool.or_eq_true, Bool.and_eq_true,
      decide_eq_true_eq] at hshown
    omega
  unfold validateRawPath
  rw [failIf_pass, failIf_pass]
  · rfl
  · rw [Bool.not_eq_false]
    exact isPlainPath_sameAscii hsame h.plain
  · rintro (hnil | hlong | hany)
    · apply h.nonempty
      rw [hsame.eq_iff (by simp [Ascii]), unitsOfBytes, hnil]
      rfl
    · have hshort := h.short
      omega
    · obtain ⟨byte, hbyte, hcontrol⟩ := List.any_eq_true.mp hany
      rw [Bool.or_eq_true, decide_eq_true_eq, beq_iff_eq] at hcontrol
      exact hbytes byte hbyte hcontrol

/-- Names that are no ASCII are marked as UTF-8. -/
def ZipInputFile.isUtf8 (record : ZipInputFile) : Bool :=
  (encode record.filename).length != record.filename.length

/-- The bit flags of a header: level, data descriptor and UTF-8. -/
def ZipInputFile.bits (record : ZipInputFile) : Nat :=
  record.flag <<< 1 ||| 8 ||| if record.isUtf8 then 0x800 else 0

/-- A file as the ZIP reader finds it again. -/
def ZipInputFile.entry (record : ZipInputFile) : ZipEntry where
  fileNameRaw := encode record.filename
  fileName :=
    if record.isUtf8 then decode (encode record.filename)
    else latin1 (encode record.filename)
  generalPurposeBitFlag := record.bits
  compressionMethod := record.compression
  externalFileAttributes := record.attrs
  compressedSize := record.data.flatten.length
  uncompressedSize := record.size
  crc32 := record.crc
  header :=
    { generalPurposeBitFlag := record.bits
      compressionMethod := record.compression
      fileName := encode record.filename }
  data := record.data.flatten

/-- A file whose name and sizes the ZIP reader does not object to. -/
structure ZipInputFile.Ordinary (record : ZipInputFile) : Prop where
  named : NamedPath record.filename
  sized : record.size ≤ fileArchiveMaximumBytes
  stored : record.compression = 8 ∨
    record.compression = 0 ∧ record.size = record.data.flatten.length

/-- Compression, container and streams that lose nothing. -/
structure LosslessZip (host : FileArchiveHost) : Prop where
  deflateFlag : host.deflateFlag < 4
  inflate : ∀ chunks compressed, host.deflate chunks = some compressed →
    host.inflate compressed.flatten = some chunks.flatten
  chunked : ∀ bytes, (host.chunked bytes).flatten = bytes
  parse : ∀ records parts, records.length ≤ maximumEntries →
    (∀ record ∈ records, record.Ordinary) →
    host.assemble records = some parts →
    parts.flatten.length ≤ fileArchiveMaximumBytes →
    host.parse parts.flatten =
      some ⟨records.length, records.map ZipInputFile.entry, true⟩
  contains : ∀ records parts, host.assemble records = some parts →
    (records.map fun record => record.data.flatten.length).sum ≤
      parts.flatten.length

/-- A name without the mark is an ASCII name. -/
theorem ZipInputFile.entry_fileName (record : ZipInputFile) :
    record.entry.fileName = toWellFormed record.filename := by
  change (if record.isUtf8 then decode (encode record.filename)
    else latin1 (encode record.filename)) = _
  split
  · exact decode_encode record.filename
  · rename_i hascii
    have hlength : Ascii record.filename := by
      apply ascii_of_encode_length
      simpa [ZipInputFile.isUtf8] using hascii
    rw [toWellFormed_plain hlength.plain]
    exact unitsOfBytes_encode hlength

/-- What is kept of a file in an archive. -/
structure Packs (host : FileArchiveHost) (file : ArchiveFile)
    (record : ZipInputFile) : Prop where
  filename : record.filename = file.path
  size : record.size = file.bytes.length
  crc : record.crc = crcBuf file.bytes 0
  attrs : record.attrs = 0o100644 <<< 16
  flag : record.flag < 4
  content : record.compression = 0 ∧ record.data.flatten = file.bytes ∨
    record.compression = 8 ∧
      host.inflate record.data.flatten = some file.bytes
  bounded : record.data.flatten.length ≤ fileArchiveMaximumBytes
  expands : file.bytes.length ≤
    record.data.flatten.length * maximumExpansionRatio

theorem zipInput_packs {host : FileArchiveHost} (lossless : LosslessZip host)
    (hsize : file.bytes.length ≤ fileArchiveMaximumBytes)
    (h : zipInput host file = .ok record) : Packs host file record := by
  unfold zipInput at h
  cases hdeflate : host.deflate (fileChunks file.bytes) with
  | none =>
    rw [hdeflate] at h
    cases h
  | some compressed =>
    rw [hdeflate] at h
    simp only [Except.bind_eq_ok, failIf_eq_ok] at h
    obtain ⟨_, hbounded, h⟩ := h
    have hinflate := lossless.inflate _ _ hdeflate
    rw [fileChunks_flatten] at hinflate
    by_cases hstored : compressed.flatten.length * maximumExpansionRatio <
        file.bytes.length
    · simp only [hstored, decide_true, if_true] at h
      cases h
      have hdata := fileChunks_flatten file.bytes
      constructor <;> try rfl
      · exact Nat.zero_lt_succ 3
      · exact .inl ⟨rfl, hdata⟩
      · simp only [hdata]
        exact hsize
      · simp only [hdata]
        exact Nat.le_mul_of_pos_right _ (by decide)
    · simp only [hstored, decide_false, Bool.false_eq_true, if_false] at h
      cases h
      constructor <;> try rfl
      · exact lossless.deflateFlag
      · exact .inr ⟨rfl, hinflate⟩
      · exact Nat.le_of_not_lt hbounded
      · exact Nat.le_of_not_lt hstored

/-- The paths of all files in one namespace. -/
def declareAll (host : FileArchiveHost) (paths : ArchivePaths)
    (names : List JsString) : Archived ArchivePaths :=
  names.foldlM (fun paths name => Prod.fst <$> addPath host paths name false)
    paths

def totalBytes (files : List ArchiveFile) : Nat :=
  (files.map fun file => file.bytes.length).sum

theorem collectInputs_spec {host : FileArchiveHost}
    {files inputs : List ArchiveFile} :
    ∀ {paths : ArchivePaths} {total : Nat},
      total ≤ fileArchiveMaximumBytes →
      collectInputs host paths total files = .ok inputs →
      inputs = files ∧ (∀ file ∈ files, NamedPath file.path) ∧
        total + totalBytes files ≤ fileArchiveMaximumBytes ∧
        ∃ next, declareAll host paths (files.map ArchiveFile.path) =
          .ok next := by
  induction files generalizing inputs with
  | nil =>
    intro paths total htotal h
    cases h
    exact ⟨rfl, by simp, by simpa [totalBytes], paths, rfl⟩
  | cons file files ih =>
    intro paths total htotal h
    rw [collectInputs, Except.bind_eq_ok] at h
    obtain ⟨⟨between, name⟩, hadd, h⟩ := h
    obtain ⟨rfl, hnamed⟩ := addPath_spec hadd
    simp only [Except.bind_eq_ok, boundedSize, failIf_eq_ok] at h
    obtain ⟨_, hbounded, rest, hrest, h⟩ := h
    cases h
    obtain ⟨rfl, hall, hsum, next, hnext⟩ :=
      ih (Nat.le_of_not_lt hbounded) hrest
    refine ⟨rfl, ?_, ?_, next, ?_⟩
    · intro other hother
      rcases List.mem_cons.mp hother with rfl | hother
      · exact hnamed
      · exact hall other hother
    · simp only [totalBytes, List.map_cons, List.sum_cons] at hsum ⊢
      omega
    · unfold declareAll at hnext ⊢
      rw [List.map_cons, List.foldlM_cons, hadd]
      exact hnext

theorem mapM_packs {host : FileArchiveHost} (lossless : LosslessZip host)
    (hsize : totalBytes files ≤ fileArchiveMaximumBytes)
    (h : files.mapM (zipInput host) = .ok records) :
    List.Forall₂ (Packs host) files records := by
  induction files generalizing records with
  | nil =>
    cases h
    exact .nil
  | cons file files ih =>
    simp only [totalBytes, List.map_cons, List.sum_cons] at hsize ih
    rw [List.mapM_cons, Except.bind_eq_ok] at h
    obtain ⟨record, hrecord, h⟩ := h
    rw [Except.bind_eq_ok] at h
    obtain ⟨rest, hrest, h⟩ := h
    cases h
    exact .cons (zipInput_packs lossless (by omega) hrecord)
      (ih (by omega) hrest)

theorem ZipInputFile.bits_plain (h : record.flag < 4) :
    record.bits &&& 0x2041 = 0 := by
  unfold ZipInputFile.bits
  generalize record.flag = flag at h
  cases record.isUtf8 <;> interval_cases flag <;> rfl

theorem forall₂_totals {host : FileArchiveHost}
    (h : List.Forall₂ (Packs host) files records) :
    totalBytes files ≤ (records.map fun record =>
      record.data.flatten.length).sum * maximumExpansionRatio := by
  induction h with
  | nil => exact Nat.le_refl 0
  | cons hfile _ ih =>
    have hexpands := hfile.expands
    simp only [totalBytes, List.map_cons, List.sum_cons, Nat.add_mul] at ih ⊢
    omega

namespace Packs

variable {host : FileArchiveHost} {file : ArchiveFile} {record : ZipInputFile}

theorem ordinary (h : Packs host file record) (hnamed : NamedPath file.path)
    (hsize : file.bytes.length ≤ fileArchiveMaximumBytes) :
    record.Ordinary := by
  refine ⟨?_, ?_, ?_⟩
  · rw [h.filename]
    exact hnamed
  · rw [h.size]
    exact hsize
  · rcases h.content with ⟨hmethod, hdata⟩ | ⟨hmethod, _⟩
    · rw [h.size, hdata]
      exact .inr ⟨hmethod, rfl⟩
    · exact .inl hmethod

theorem method (h : Packs host file record) :
    record.compression = 0 ∨ record.compression = 8 := by
  rcases h.content with ⟨hmethod, _⟩ | ⟨hmethod, _⟩
  · exact .inl hmethod
  · exact .inr hmethod

theorem fileName (h : Packs host file record) :
    record.entry.fileName = toWellFormed file.path := by
  rw [ZipInputFile.entry_fileName, h.filename]

/-- The metadata of what has been written pass the reader's checks. -/
theorem ordinaryEntry_pass (h : Packs host file record)
    (hnamed : NamedPath file.path)
    (hsize : file.bytes.length ≤ fileArchiveMaximumBytes) :
    ordinaryEntry record.entry = .ok false := by
  have hfolder : (record.entry.fileName.getLast? == some 0x2F) = false := by
    rw [h.fileName]
    exact getLast_of_isPlainPath
      (isPlainPath_sameAscii (sameAscii_toWellFormed _) hnamed.plain)
  have hattrs : record.entry.externalFileAttributes = 0o100644 <<< 16 :=
    h.attrs
  have hflag : ¬(record.entry.generalPurposeBitFlag &&& 0x2041 ≠ 0 ∨
      ¬(record.entry.compressionMethod = 0 ∨
        record.entry.compressionMethod = 8)) := by
    rw [not_or, not_not, not_not]
    exact ⟨ZipInputFile.bits_plain h.flag, h.method⟩
  have hraw : validateRawPath record.entry.fileNameRaw false = .ok () := by
    change validateRawPath (encode record.filename) false = .ok ()
    rw [h.filename]
    exact hnamed.validateRawPath_pass
  have htype : ¬((0o100644 <<< 16 >>> 16 &&& 0xF000 ≠ 0 ∧
        0o100644 <<< 16 >>> 16 &&& 0xF000 ≠
          if false = true then 0x4000 else 0x8000) ∨
      (True ∧ 0o100644 <<< 16 &&& 0x10 ≠ 0) ∨
      (false = true ∧ record.entry.uncompressedSize ≠ 0)) := by
    rintro (⟨_, htype⟩ | ⟨_, hfolder⟩ | ⟨hfalse, _⟩)
    · exact htype rfl
    · exact hfolder rfl
    · cases hfalse
  have hcompressed : record.entry.compressedSize ≤ fileArchiveMaximumBytes :=
    h.bounded
  have huncompressed : record.entry.uncompressedSize = file.bytes.length :=
    h.size
  have hexpands : file.bytes.length ≤
      record.entry.compressedSize * maximumExpansionRatio := h.expands
  unfold ordinaryEntry
  simp only [hfolder, hattrs]
  rw [failIf_pass hflag, failIf_pass htype, boundedSize_pass hcompressed,
    huncompressed, boundedSize_pass hsize, expansion_pass hexpands, hraw]
  rfl

/-- The stream of an entry gives the bytes of its file. -/
theorem openReadStream_eq (h : Packs host file record)
    (lossless : LosslessZip host) :
    ∃ available, openReadStream host record.entry = some available ∧
      (available.flatMap slices).flatten = file.bytes := by
  refine ⟨host.chunked file.bytes, ?_, ?_⟩
  · unfold openReadStream
    change Option.map host.chunked (if record.compression = 0 then
      some record.data.flatten else host.inflate record.data.flatten) = _
    rcases h.content with ⟨hmethod, hdata⟩ | ⟨hmethod, hdata⟩
    · rw [if_pos hmethod, hdata]
      rfl
    · rw [if_neg (by omega), hdata]
      rfl
  · rw [flatMap_slices_flatten, lossless.chunked]

end Packs

/-- A file under the path that UTF-8 can carry. -/
def ArchiveFile.wellFormed (file : ArchiveFile) : ArchiveFile :=
  { file with path := toWellFormed file.path }

def listedEntry (file : ArchiveFile) (record : ZipInputFile) : ListedEntry :=
  ⟨record.entry, toWellFormed file.path, false⟩

/-- Reading one entry gives back its file. -/
theorem extractEntry_pass {host : FileArchiveHost} (lossless : LosslessZip host)
    (h : Packs host file record) (before : Nat × List ArchiveFile)
    (hbytes : before.1 + file.bytes.length ≤ fileArchiveMaximumBytes) :
    extractEntry host before (listedEntry file record) =
      .ok (before.1 + file.bytes.length, before.2 ++ [file.wellFormed]) := by
  obtain ⟨available, hopen, hcontent⟩ := h.openReadStream_eq lossless
  have hread := readChunks record.entry (available.flatMap slices)
    ⟨0, before.1, 0, []⟩
  rw [hcontent] at hread
  have hsize : record.entry.uncompressedSize = file.bytes.length := h.size
  have hheader : ¬(record.entry.header.generalPurposeBitFlag &&& 0x2041 ≠ 0 ∨
      ¬(record.entry.header.compressionMethod = 0 ∨
        record.entry.header.compressionMethod = 8)) := by
    rw [not_or, not_not, not_not]
    exact ⟨ZipInputFile.bits_plain h.flag, h.method⟩
  have hsame : ¬(record.entry.header.compressionMethod ≠
        record.entry.compressionMethod ∨
      record.entry.header.fileName ≠ record.entry.fileNameRaw) := by
    rw [not_or, not_not, not_not]
    exact ⟨rfl, rfl⟩
  unfold extractEntry listedEntry
  simp only [hopen]
  rw [failIf_pass hheader, failIf_pass hsame, hread]
  · change (failIf (0 + file.bytes.length ≠ record.entry.uncompressedSize)
      .invalid >>= fun _ => failIf (crcBuf file.bytes 0 ≠ record.crc)
        .crcMismatch >>= fun _ => pure (before.1 + file.bytes.length,
          before.2 ++ [⟨toWellFormed file.path,
            ([] ++ available.flatMap slices).flatten⟩])) = _
    rw [failIf_pass, failIf_pass, List.nil_append, hcontent]
    · rfl
    · rw [not_not]
      exact h.crc.symm
    · rw [not_not, hsize, Nat.zero_add]
  · simp only
    omega
  · omega
  · simp only
    omega
  · rw [hsize]
    exact h.expands

theorem extractEntries {host : FileArchiveHost} (lossless : LosslessZip host)
    (h : List.Forall₂ (Packs host) files records) :
    ∀ before : Nat × List ArchiveFile,
      before.1 + totalBytes files ≤ fileArchiveMaximumBytes →
      (List.zipWith listedEntry files records).foldlM (extractEntry host)
        before = .ok (before.1 + totalBytes files,
          before.2 ++ files.map ArchiveFile.wellFormed) := by
  induction h with
  | nil =>
    intro before _
    simp only [totalBytes, List.map_nil, List.sum_nil, Nat.add_zero,
      List.append_nil]
    rfl
  | @cons file record files records hfile _ ih =>
    intro before hbytes
    simp only [totalBytes, List.map_cons, List.sum_cons] at hbytes ih ⊢
    have hentry := extractEntry_pass lossless hfile before (by omega)
    rw [List.zipWith_cons_cons, List.foldlM_cons, hentry]
    refine Eq.trans (ih _ ?_) ?_
    · simp only
      omega
    · simp only [Nat.add_assoc, List.append_assoc, List.singleton_append]

/-- An entry that has been written is listed, unless its path conflicts. -/
theorem listEntry_eq {host : FileArchiveHost} (inputLength : Nat)
    (listing : Listing) (h : Packs host file record)
    (hnamed : NamedPath file.path) (hlimit : fileLimit maximumFiles = .ok limit)
    (hitems : listing.items.length < maximumEntries)
    (hfiles : listing.files < limit)
    (hbytes : listing.declaredBytes + file.bytes.length ≤
      fileArchiveMaximumBytes)
    (hexpands : listing.declaredBytes + file.bytes.length ≤
      inputLength * maximumExpansionRatio) :
    listEntry host inputLength maximumFiles listing record.entry =
      (do
        let paths ← Prod.fst <$> addPath host listing.paths
          (toWellFormed file.path) false
        pure
          { paths
            files := listing.files + 1
            declaredBytes := listing.declaredBytes + file.bytes.length
            items := listing.items ++ [listedEntry file record] }) := by
  have hsize : record.entry.uncompressedSize = file.bytes.length := h.size
  have hordinary := h.ordinaryEntry_pass hnamed (by omega)
  unfold listEntry
  rw [failIf_pass (by omega), hordinary]
  change (fileLimit maximumFiles >>= fun limit =>
    failIf (limit < listing.files + 1) .limit >>= fun _ =>
    addPath host listing.paths record.entry.fileName false >>= fun added =>
    boundedSize (listing.declaredBytes + record.entry.uncompressedSize) >>=
      fun _ =>
    expansion (listing.declaredBytes + record.entry.uncompressedSize)
      inputLength >>= fun _ => pure (Listing.mk added.1 (listing.files + 1)
        (listing.declaredBytes + record.entry.uncompressedSize)
        (listing.items ++ [⟨record.entry, added.2, false⟩]))) = _
  rw [hlimit, h.fileName, hsize, boundedSize_pass hbytes,
    expansion_pass hexpands]
  change (failIf (limit < listing.files + 1) .limit >>= _) = _
  rw [failIf_pass (by omega)]
  cases hadd : addPath host listing.paths (toWellFormed file.path) false with
  | error failure => rfl
  | ok added =>
    obtain ⟨next, name⟩ := added
    obtain ⟨rfl, _⟩ := addPath_spec hadd
    rfl

/-- All of them are listed, unless the paths conflict with one another. -/
theorem listEntries_eq {host : FileArchiveHost} (inputLength : Nat)
    (hlimit : fileLimit maximumFiles = .ok limit)
    (h : List.Forall₂ (Packs host) files records)
    (hnamed : ∀ file ∈ files, NamedPath file.path) :
    ∀ listing : Listing,
      listing.items.length + files.length ≤ maximumEntries →
      listing.files + files.length ≤ limit →
      listing.declaredBytes + totalBytes files ≤ fileArchiveMaximumBytes →
      listing.declaredBytes + totalBytes files ≤
        inputLength * maximumExpansionRatio →
      (records.map ZipInputFile.entry).foldlM
        (listEntry host inputLength maximumFiles) listing = (do
          let paths ← declareAll host listing.paths
            (files.map fun file => toWellFormed file.path)
          pure
            { paths
              files := listing.files + files.length
              declaredBytes := listing.declaredBytes + totalBytes files
              items := listing.items ++
                List.zipWith listedEntry files records }) := by
  induction h with
  | nil =>
    intro listing _ _ _ _
    simp only [totalBytes, List.map_nil, List.sum_nil, List.length_nil,
      Nat.add_zero, List.zipWith_nil_left, List.append_nil]
    rfl
  | @cons file record files records hfile _ ih =>
    intro listing hitems hfiles hbytes hexpands
    simp only [totalBytes, List.map_cons, List.sum_cons, List.length_cons]
      at hitems hfiles hbytes hexpands ih ⊢
    have hentry := listEntry_eq inputLength listing hfile
      (hnamed file (by simp)) hlimit (by omega) (by omega) (by omega)
      (by omega)
    rw [List.foldlM_cons, hentry, declareAll, List.foldlM_cons]
    cases Prod.fst <$> addPath host listing.paths
        (toWellFormed file.path) false with
    | error failure => rfl
    | ok paths =>
      refine Eq.trans (ih (fun other hother => hnamed other
        (List.mem_cons_of_mem _ hother)) _ ?_ ?_ ?_ ?_) ?_
      · rw [List.length_append, List.length_singleton]
        omega
      · simp only
        omega
      · simp only
        omega
      · simp only
        omega
      · simp only [List.zipWith_cons_cons, List.append_assoc,
          List.singleton_append, Nat.add_assoc, Nat.add_comm 1]
        rfl

/-- What the reader makes of an archive that has been written. -/
theorem readFileArchive_eq {host : FileArchiveHost}
    (lossless : LosslessZip host) {archive : List UInt8}
    (h : createFileArchive host files maximumFiles = .ok archive) :
    readFileArchive host archive maximumFiles = (do
      let _ ← declareAll host Table.empty
        (files.map fun file => toWellFormed file.path)
      pure (files.map ArchiveFile.wellFormed)) := by
  simp only [createFileArchive, Except.bind_eq_ok, failIf_eq_ok] at h
  obtain ⟨limit, hlimit, _, hcount, inputs, hinputs, records, hrecords, h⟩ := h
  obtain ⟨rfl, hnamed, htotal, _, _⟩ :=
    collectInputs_spec (Nat.zero_le _) hinputs
  rw [Nat.zero_add] at htotal
  have hpacks := mapM_packs lossless htotal hrecords
  have hlength := hpacks.length_eq
  have hmaximum : limit ≤ maximumEntries := by
    unfold fileLimit at hlimit
    simp only at hlimit
    split at hlimit
    · cases hlimit
    · cases hlimit
      omega
  cases hassemble : host.assemble records with
  | none =>
    rw [hassemble] at h
    cases h
  | some parts =>
    rw [hassemble] at h
    simp only [Except.bind_eq_ok, failIf_eq_ok] at h
    obtain ⟨_, hsmall, h⟩ := h
    cases h
    have hcontains := lossless.contains _ _ hassemble
    have hexpands := forall₂_totals hpacks
    have hordinary : ∀ record ∈ records, record.Ordinary := by
      intro record hrecord
      obtain ⟨file, hfile, hpack⟩ := exists_of_forall₂ hpacks hrecord
      have hsize : file.bytes.length ≤ totalBytes inputs :=
        List.single_le_sum (by simp) _ (List.mem_map_of_mem hfile)
      exact hpack.ordinary (hnamed file hfile) (by omega)
    have hparse := lossless.parse records parts (by omega) hordinary
      hassemble (by omega)
    have hbytes : totalBytes inputs ≤
        parts.flatten.length * maximumExpansionRatio :=
      Nat.le_trans hexpands (Nat.mul_le_mul_right _ hcontains)
    have hlist := listEntries_eq parts.flatten.length
      hlimit hpacks hnamed ⟨Table.empty, 0, 0, []⟩ (by simp; omega)
      (by simp; omega) (by simpa using htotal) (by simpa using hbytes)
    have hextract := extractEntries lossless hpacks (0, [])
      (by simpa using htotal)
    unfold readFileArchive
    rw [boundedSize_pass (by omega)]
    simp only [hparse, hlist]
    rw [failIf_pass (by omega)]
    change ((declareAll host Table.empty (inputs.map fun file =>
      toWellFormed file.path) >>= fun paths => _) >>= _) = _
    cases declareAll host Table.empty
        (inputs.map fun file => toWellFormed file.path) with
    | error failure => rfl
    | ok paths =>
      change ((List.zipWith listedEntry inputs records).foldlM
        (extractEntry host) (0, []) >>= fun read => pure read.2) = _
      rw [hextract]
      rfl

/-- The files come back as they were exactly if UTF-8 can carry their paths. -/
theorem file_archive_round_trip (host : FileArchiveHost)
    (lossless : LosslessZip host) (maximumFiles : Option Int)
    (files : List ArchiveFile) (archive : List UInt8)
    (h : createFileArchive host files maximumFiles = .ok archive) :
    readFileArchive host archive maximumFiles = .ok files ↔
      ∀ file ∈ files, toWellFormed file.path = file.path := by
  rw [readFileArchive_eq lossless h]
  constructor
  · intro hread file hfile
    rw [Except.bind_eq_ok] at hread
    obtain ⟨_, _, hread⟩ := hread
    have hsame : files.map ArchiveFile.wellFormed = files.map id :=
      (Except.ok.inj hread).trans (List.map_id files).symm
    have hpath : file.wellFormed = file :=
      List.map_inj_left.mp hsame file hfile
    exact congrArg ArchiveFile.path hpath
  · intro hpaths
    simp only [createFileArchive, Except.bind_eq_ok] at h
    obtain ⟨_, _, _, _, inputs, hinputs, _⟩ := h
    obtain ⟨_, _, _, next, hnext⟩ :=
      collectInputs_spec (Nat.zero_le _) hinputs
    have hnames : (files.map fun file => toWellFormed file.path) =
        files.map ArchiveFile.path :=
      List.map_congr_left hpaths
    have hfiles : files.map ArchiveFile.wellFormed = files := by
      refine Eq.trans (List.map_inj_left.mpr ?_) (List.map_id files)
      intro file hfile
      unfold ArchiveFile.wellFormed
      rw [hpaths file hfile]
      rfl
    rw [hnames, hnext, hfiles]
    rfl

namespace FileArchiveWitness

/-- Contents, and how they are compressed. -/
def packings : List (List UInt8 × List UInt8) :=
  [([], [3, 0]), ([0x68, 0x69], [0xCB, 0xC8, 4, 0]), ([0x61], [0x4B, 4, 0])]

def packed (content : List UInt8) : List UInt8 :=
  ((packings.find? fun packing => packing.1 = content).map (·.2)).getD []

def recordOf (file : ArchiveFile) : ZipInputFile where
  filename := file.path
  compression := 8
  flag := 0
  crc := crcBuf file.bytes 0
  size := file.bytes.length
  os := 3
  attrs := 0o100644 <<< 16
  data := [packed file.bytes]

def le16 (n : Nat) : List UInt8 := [UInt8.ofNat n, UInt8.ofNat (n / 256)]

def le32 (n : Nat) : List UInt8 := le16 n ++ le16 (n / 65536)

def sizes (content : List UInt8) : List UInt8 :=
  le32 (crcBuf content 0).toNat ++ le32 (packed content).length ++
    le32 content.length

/-- `mark` is the second byte of the flags. -/
def localPart (file : ArchiveFile) (mark : UInt8) : List UInt8 :=
  let raw := encode file.path
  [0x50, 0x4B, 3, 4, 20, 0, 8, mark, 8, 0, 0, 0, 0x21, 0] ++
    List.replicate 12 0 ++ le16 raw.length ++ [0, 0] ++ raw ++
    packed file.bytes ++ [0x50, 0x4B, 7, 8] ++ sizes file.bytes

def centralPart (file : ArchiveFile) (mark : UInt8) (offset : Nat) :
    List UInt8 :=
  let raw := encode file.path
  [0x50, 0x4B, 1, 2, 20, 3, 20, 0, 8, mark, 8, 0, 0, 0, 0x21, 0] ++
    sizes file.bytes ++ le16 raw.length ++
    [0, 0, 0, 0, 0, 0, 0, 0, 0, 0, 0xA4, 0x81] ++ le32 offset ++ raw

def endPart (count size offset : Nat) : List UInt8 :=
  [0x50, 0x4B, 5, 6, 0, 0, 0, 0] ++ le16 count ++ le16 count ++ le32 size ++
    le32 offset ++ [0, 0]

def twoFiles : List ArchiveFile := [⟨[0x61], [0x68, 0x69]⟩, ⟨[0x62], [0x61]⟩]

def twoArchive : List UInt8 :=
  let first := localPart ⟨[0x61], [0x68, 0x69]⟩ 0
  let second := localPart ⟨[0x62], [0x61]⟩ 0
  let directory := centralPart ⟨[0x61], [0x68, 0x69]⟩ 0 0 ++
    centralPart ⟨[0x62], [0x61]⟩ 0 first.length
  first ++ second ++ directory ++
    endPart 2 directory.length (first.length + second.length)

/-- Libraries that know these packings and one archive. -/
def host (files : List ArchiveFile) (archive : List UInt8) :
    FileArchiveHost where
  normalizeNfc := id
  toUpperCase := List.map fun unit =>
    if 0x61 ≤ unit ∧ unit ≤ 0x7A then unit - 0x20 else unit
  toLowerCase := List.map fun unit =>
    if 0x41 ≤ unit ∧ unit ≤ 0x5A then unit + 0x20 else unit
  deflateFlag := 0
  deflate := fun chunks =>
    (packings.find? fun packing => packing.1 = chunks.flatten).map
      fun packing => [packing.2]
  inflate := fun bytes =>
    (packings.find? fun packing => packing.2 = bytes).map (·.1)
  assemble := fun records =>
    if records = files.map recordOf then some [archive] else none
  parse := fun bytes =>
    if bytes = archive then
      some ⟨files.length, (files.map recordOf).map ZipInputFile.entry, true⟩
    else none
  chunked := fun bytes => if bytes = [] then [] else [bytes]

theorem host_lossless {archive : List UInt8}
    (h : (files.map fun file => (recordOf file).data.flatten.length).sum ≤
      archive.length) : LosslessZip (host files archive) where
  deflateFlag := Nat.zero_lt_succ 3
  inflate := by
    intro chunks compressed hdeflate
    obtain ⟨packing, hfind, rfl⟩ := Option.map_eq_some_iff.mp hdeflate
    have hcontent := of_decide_eq_true
      (List.find?_eq_some_iff_append.mp hfind).1
    have hback : ∀ packing ∈ packings,
        ((packings.find? fun other => other.2 = packing.2).map (·.1)) =
          some packing.1 := by decide
    change (packings.find? fun other => other.2 = [packing.2].flatten).map
      (·.1) = _
    rw [List.flatten_singleton, hback packing (List.mem_of_find?_eq_some hfind),
      hcontent]
  chunked := by
    intro bytes
    simp only [host]
    split
    · rename_i hnil
      rw [hnil]
      rfl
    · exact List.append_nil bytes
  parse := by
    intro records parts _ _ hassemble _
    simp only [host] at hassemble ⊢
    split at hassemble
    · rename_i hrecords
      cases hassemble
      rw [hrecords, List.flatten_singleton, if_pos rfl, List.length_map]
    · cases hassemble
  contains := by
    intro records parts hassemble
    simp only [host] at hassemble
    split at hassemble
    · rename_i hrecords
      cases hassemble
      rw [hrecords, List.flatten_singleton, List.map_map]
      exact h
    · cases hassemble

theorem file_archive_round_trip_two :
    readFileArchive (host twoFiles twoArchive) twoArchive none = .ok twoFiles :=
  (file_archive_round_trip (host twoFiles twoArchive)
    (host_lossless (by decide +kernel)) none twoFiles twoArchive
    (by decide +kernel)).mpr (by decide)

def surrogateFile : ArchiveFile := ⟨[0xD800], []⟩

def surrogateArchive : List UInt8 :=
  let first := localPart surrogateFile 8
  let directory := centralPart surrogateFile 8 0
  first ++ directory ++ endPart 1 directory.length first.length

/-- A lone surrogate is written, and comes back as U+FFFD. -/
theorem surrogate_path_changes :
    LosslessZip (host [surrogateFile] surrogateArchive) ∧
      createFileArchive (host [surrogateFile] surrogateArchive)
        [surrogateFile] none = .ok surrogateArchive ∧
      readFileArchive (host [surrogateFile] surrogateArchive)
        surrogateArchive none = .ok [⟨[0xFFFD], []⟩] ∧
      readFileArchive (host [surrogateFile] surrogateArchive)
        surrogateArchive none ≠ .ok [surrogateFile] :=
  ⟨host_lossless (by decide +kernel), by decide +kernel, by decide +kernel,
    by decide +kernel⟩

end FileArchiveWitness

end Allrice.FileArchives
