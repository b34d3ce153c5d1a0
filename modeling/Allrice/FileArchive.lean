/-
Archives of a few small files, written and read back as bytes.  The ZIP
container and the compression come from libraries; here are the bounds, the
paths and the checks around them.
-/
import Allrice.LocalPythonArchive
import Allrice.Table

namespace Allrice.FileArchives

open Utf8Stream Utf8Text

inductive FileArchiveError where
  | invalid
  | limit
  | unsafePath
  | pathConflict
  | unsupported
  | crcMismatch
deriving DecidableEq

structure ArchiveFile where
  path : JsString
  bytes : List UInt8
deriving DecidableEq

def fileArchiveMaximumBytes : Nat := 9000000

def fileArchiveMaximumFiles : Int := 32

def maximumEntries : Nat := 128

def maximumPathBytes : Nat := 1024

def maximumExpansionRatio : Nat := 100

def chunkBytes : Nat := 64 * 1024

/-- A file as it is handed to the ZIP writer, with its data in chunks. -/
structure ZipInputFile where
  filename : JsString
  compression : Nat
  flag : Nat
  crc : UInt32
  size : Nat
  os : Nat
  attrs : Nat
  data : List (List UInt8)
deriving DecidableEq

structure LocalHeader where
  generalPurposeBitFlag : Nat
  compressionMethod : Nat
  fileName : List UInt8

/-- An entry as the ZIP reader shows it, with the data that belongs to it. -/
structure ZipEntry where
  fileNameRaw : List UInt8
  fileName : JsString
  generalPurposeBitFlag : Nat
  compressionMethod : Nat
  externalFileAttributes : Nat
  compressedSize : Nat
  uncompressedSize : Nat
  crc32 : UInt32
  header : LocalHeader
  data : List UInt8

/-- What the ZIP reader finds: how many entries the archive announces, those it
reads, and whether it then comes to the end. -/
structure ZipDirectory where
  entryCount : Nat
  entries : List ZipEntry
  intact : Bool

/-- The libraries: case and normal forms, compression and the ZIP container.
`chunked` cuts a stream into what one read delivers. -/
structure FileArchiveHost where
  normalizeNfc : JsString → JsString
  toUpperCase : JsString → JsString
  toLowerCase : JsString → JsString
  deflateFlag : Nat
  deflate : List (List UInt8) → Option (List (List UInt8))
  inflate : List UInt8 → Option (List UInt8)
  assemble : List ZipInputFile → Option (List (List UInt8))
  parse : List UInt8 → Option ZipDirectory
  chunked : List UInt8 → List (List UInt8)

/-- Eight steps of the division that makes up CRC-32. -/
def crcStep (crc : UInt32) : UInt32 :=
  (List.range 8).foldl (fun c _ =>
    if c &&& 1 = 1 then (0xEDB88320 : UInt32) ^^^ (c >>> 1) else c >>> 1) crc

def crcByte (crc : UInt32) (byte : UInt8) : UInt32 :=
  crcStep ((crc ^^^ byte.toUInt32) &&& 0xFF) ^^^ (crc >>> 8)

/-- `CRC32.buf(bytes, seed)`, as an unsigned number. -/
def crcBuf (bytes : List UInt8) (seed : UInt32) : UInt32 :=
  bytes.foldl crcByte (seed ^^^ 0xFFFFFFFF) ^^^ 0xFFFFFFFF

abbrev Archived := Except FileArchiveError

/-- `if (refused) fail(error)`. -/
def failIf (refused : Prop) [Decidable refused] (error : FileArchiveError) :
    Archived Unit :=
  if refused then .error error else .ok ()

/-- The number of files that is asked for, or the usual one. -/
def fileLimit (maximumFiles : Option Int) : Archived Nat :=
  let value := maximumFiles.getD fileArchiveMaximumFiles
  if value < 1 ∨ (maximumEntries : Int) < value then .error .limit
  else .ok value.toNat

def boundedSize (value : Nat) : Archived Unit :=
  failIf (fileArchiveMaximumBytes < value) .limit

def expansion (uncompressed compressed : Nat) : Archived Unit :=
  failIf (compressed * maximumExpansionRatio < uncompressed) .limit

/-- Pieces of `size`, the last one as long as what is left. -/
def piecesOf {α : Type} (size : Nat) : Nat → List α → List (List α)
  | 0, _ => []
  | _ + 1, [] => []
  | fuel + 1, items =>
    items.take size :: piecesOf size fuel (items.drop size)

/-- Bytes in chunks of 64 KiB. -/
def slices (bytes : List UInt8) : List (List UInt8) :=
  piecesOf chunkBytes bytes.length bytes

/-- `character.codePointAt(0)`. -/
def codePointAt (character : JsString) : Nat :=
  match character with
  | [high, low] => pairCode high low
  | unit :: _ => unit.toNat
  | [] => 0

def hasControlCharacters (path : JsString) : Bool :=
  (JsString.codePoints path).any fun character =>
    let code := codePointAt character
    code < 0x20 || (0x7F ≤ code && code ≤ 0x9F) ||
      (0x202A ≤ code && code ≤ 0x202E) || (0x2066 ≤ code && code ≤ 0x2069)

/-- A part of a path that stands for no name. -/
def isNoName (part : JsString) : Bool :=
  part == [] || part == [0x2E] || part == [0x2E, 0x2E]

/-- `bytes.toString('latin1')`. -/
def latin1 (bytes : List UInt8) : JsString :=
  bytes.map fun byte => UInt16.ofNat byte.toNat

/-- `directory ? path.slice(0, -1) : path`. -/
def entryName (path : JsString) (directory : Bool) : JsString :=
  if directory then path.dropLast else path

/-- The checks on a path that both the raw and the decoded one pass. -/
def isPlainPath (path : JsString) (directory : Bool) : Bool :=
  path.head? != some 0x2F && !path.contains 0x5C && !path.contains 0x3A &&
    (path.getLast? == some 0x2F) == directory &&
    !(splitPath (entryName path directory)).any isNoName

def validateRawPath (bytes : List UInt8) (directory : Bool) :
    Archived Unit := do
  failIf (bytes = [] ∨ maximumPathBytes < bytes.length ∨
    bytes.any (fun byte => byte.toNat < 0x20 || byte.toNat == 0x7F))
    .unsafePath
  failIf (isPlainPath (latin1 bytes) directory = false) .unsafePath

/-- What is known of one spelling of a path or of a folder above it. -/
structure PathMark where
  key : JsString
  spelling : JsString
  directory : Bool
  declared : Bool

/-- One namespace for files, folder markers and the folders above them. -/
abbrev ArchivePaths := Table JsString PathMark PathMark.key

section Host

variable (host : FileArchiveHost)

/-- Declare the first `i + 1` parts of a path. -/
def declarePart (parts : List JsString) (directory : Bool)
    (paths : ArchivePaths) (i : Nat) : Archived ArchivePaths :=
  let spelling := List.intercalate [0x2F] (parts.take (i + 1))
  let key := host.toLowerCase (host.toUpperCase (host.normalizeNfc spelling))
  let leaf := i + 1 == parts.length
  let isDirectory := !leaf || directory
  let previous := paths.find? key
  if previous.any (fun mark => mark.spelling != spelling || !mark.directory ||
      !isDirectory || (leaf && mark.declared)) then
    .error .pathConflict
  else
    .ok (paths.put
      { key
        spelling
        directory := isDirectory
        declared := previous.any PathMark.declared || leaf })

/-- `ArchivePaths.add`. -/
def addPath (paths : ArchivePaths) (path : JsString) (directory : Bool) :
    Archived (ArchivePaths × JsString) := do
  failIf (path = [] ∨ maximumPathBytes < (encode path).length ∨
    hasControlCharacters path ∨ isPlainPath path directory = false)
    .unsafePath
  let name := entryName path directory
  let parts := splitPath name
  let next ← (List.range parts.length).foldlM
    (declarePart host parts directory) paths
  pure (next, name)

/-- The paths and the total size, file after file. -/
def collectInputs :
    ArchivePaths → Nat → List ArchiveFile → Archived (List ArchiveFile)
  | _, _, [] => pure []
  | paths, total, file :: rest => do
      let (paths, path) ← addPath host paths file.path false
      boundedSize (total + file.bytes.length)
      let inputs ← collectInputs paths (total + file.bytes.length) rest
      pure (⟨path, file.bytes⟩ :: inputs)

/-- The chunks of a file; an empty one has one empty chunk. -/
def fileChunks (bytes : List UInt8) : List (List UInt8) :=
  if bytes = [] then [[]] else slices bytes

/-- One file of the archive: compressed, or stored where the compressed form
would expand too much. -/
def zipInput (input : ArchiveFile) : Archived ZipInputFile :=
  match host.deflate (fileChunks input.bytes) with
  | none => .error .invalid
  | some compressed => do
      let compressedBytes := compressed.flatten.length
      failIf (fileArchiveMaximumBytes < compressedBytes) .limit
      let stored :=
        decide (compressedBytes * maximumExpansionRatio < input.bytes.length)
      pure
        { filename := input.path
          compression := if stored then 0 else 8
          flag := if stored then 0 else host.deflateFlag
          crc := crcBuf input.bytes 0
          size := input.bytes.length
          os := 3
          attrs := 0o100644 <<< 16
          data := if stored then fileChunks input.bytes else compressed }

def createFileArchive (files : List ArchiveFile)
    (maximumFiles : Option Int) : Archived (List UInt8) := do
  let limit ← fileLimit maximumFiles
  failIf (limit < files.length) .limit
  let inputs ← collectInputs host Table.empty 0 files
  let records ← inputs.mapM (zipInput host)
  match host.assemble records with
  | none => .error .invalid
  | some parts => do
      failIf (fileArchiveMaximumBytes < parts.flatten.length) .limit
      pure parts.flatten

/-- Whether the entry is a folder; what is no ordinary entry is refused. -/
def ordinaryEntry (entry : ZipEntry) : Archived Bool := do
  failIf (entry.generalPurposeBitFlag &&& 0x2041 ≠ 0 ∨
    ¬(entry.compressionMethod = 0 ∨ entry.compressionMethod = 8))
    .unsupported
  let type := (entry.externalFileAttributes >>> 16) &&& 0xF000
  let directory := entry.fileName.getLast? == some 0x2F
  failIf ((type ≠ 0 ∧ type ≠ if directory then 0x4000 else 0x8000) ∨
    (directory = false ∧ entry.externalFileAttributes &&& 0x10 ≠ 0) ∨
    (directory = true ∧ entry.uncompressedSize ≠ 0)) .unsupported
  boundedSize entry.compressedSize
  boundedSize entry.uncompressedSize
  expansion entry.uncompressedSize entry.compressedSize
  validateRawPath entry.fileNameRaw directory
  pure directory

structure ListedEntry where
  entry : ZipEntry
  path : JsString
  directory : Bool

/-- The directory of an archive while its entries are checked. -/
structure Listing where
  paths : ArchivePaths
  files : Nat
  declaredBytes : Nat
  items : List ListedEntry

/-- The `entry` event. -/
def listEntry (inputLength : Nat) (maximumFiles : Option Int)
    (listing : Listing) (entry : ZipEntry) : Archived Listing := do
  failIf (maximumEntries ≤ listing.items.length) .limit
  let directory ← ordinaryEntry entry
  let files := if directory then listing.files else listing.files + 1
  if directory = false then do
    let limit ← fileLimit maximumFiles
    failIf (limit < files) .limit
  let (paths, path) ← addPath host listing.paths entry.fileName directory
  let declaredBytes := listing.declaredBytes + entry.uncompressedSize
  boundedSize declaredBytes
  expansion declaredBytes inputLength
  pure
    { paths
      files
      declaredBytes
      items := listing.items ++ [⟨entry, path, directory⟩] }

/-- What has been read of one entry. -/
structure EntryRead where
  size : Nat
  actualBytes : Nat
  checksum : UInt32
  parts : List (List UInt8)

def readChunk (entry : ZipEntry) (read : EntryRead) (chunk : List UInt8) :
    Archived EntryRead := do
  let size := read.size + chunk.length
  let actualBytes := read.actualBytes + chunk.length
  boundedSize size
  boundedSize actualBytes
  expansion size entry.compressedSize
  failIf (entry.uncompressedSize < size) .invalid
  pure
    { size
      actualBytes
      checksum := crcBuf chunk read.checksum
      parts := read.parts ++ [chunk] }

/-- The stream of an entry; the reader holds it to the size that the entry
declares. -/
def openReadStream (entry : ZipEntry) : Option (List (List UInt8)) :=
  let content := if entry.compressionMethod = 0 then some entry.data
    else host.inflate entry.data
  content.map host.chunked

/-- Read one entry after the ones before it. -/
def extractEntry (before : Nat × List ArchiveFile) (item : ListedEntry) :
    Archived (Nat × List ArchiveFile) := do
  let header := item.entry.header
  failIf (header.generalPurposeBitFlag &&& 0x2041 ≠ 0 ∨
    ¬(header.compressionMethod = 0 ∨ header.compressionMethod = 8))
    .unsupported
  failIf (header.compressionMethod ≠ item.entry.compressionMethod ∨
    header.fileName ≠ item.entry.fileNameRaw) .invalid
  match openReadStream host item.entry with
  | none => .error .invalid
  | some available => do
      let read ← (available.flatMap slices).foldlM (readChunk item.entry)
        ⟨0, before.1, 0, []⟩
      failIf (read.size ≠ item.entry.uncompressedSize) .invalid
      failIf (read.checksum ≠ item.entry.crc32) .crcMismatch
      pure (read.actualBytes,
        if item.directory then before.2
        else before.2 ++ [⟨item.path, read.parts.flatten⟩])

def readFileArchive (bytes : List UInt8) (maximumFiles : Option Int) :
    Archived (List ArchiveFile) := do
  boundedSize bytes.length
  match host.parse bytes with
  | none => .error .invalid
  | some directory => do
      failIf (maximumEntries < directory.entryCount) .limit
      let listing ← directory.entries.foldlM
        (listEntry host bytes.length maximumFiles) ⟨Table.empty, 0, 0, []⟩
      failIf (directory.intact = false) .invalid
      let (_, result) ← listing.items.foldlM (extractEntry host) (0, [])
      pure result

end Host

end Allrice.FileArchives
