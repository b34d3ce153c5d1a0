/-
The archive that carries a Python run's files into its container and its result
out of it: tar headers with the fields and the check sum of `ustar`, and a PAX
record before a file whose name is too long for its header.
-/
import Allrice.NumberText
import Allrice.Splice
import Allrice.Utf8Text

namespace Allrice

open DigitText Splice Utf8Stream Utf8Text

def block : Nat := 512

/-- The codes of `LocalCommandError` that archives give. -/
inductive ArchiveError where
  | inputPathChanged
  | inputLimit
  | artifactPathChanged
  | artifactArchiveInvalid
  | artifactMissing
  | artifactLimit
  | artifactArchiveIncomplete
  deriving DecidableEq

/-- The parts of a text between slashes. -/
def splitPath (path : JsString) : List JsString :=
  path.splitOn 0x2F

/-- Syntax precondition of a path below a workspace. -/
def isRuntimeRelativePath (value : JsString) : Bool :=
  0 < value.length && value.length ≤ 4096 &&
    value.head? != some 0x2F &&
    value.all (fun unit => unit != 0x5C && unit != 0x3A) &&
    (JsString.codePoints value).all (fun character =>
      character.head?.any fun unit =>
        32 ≤ unit.toNat && unit.toNat != 127) &&
    (splitPath value).all (fun part =>
      part != [] && part != [0x2E] && part != [0x2E, 0x2E])

/-- As many whole characters as fit. -/
def encodeWithin : Nat → List JsString → List UInt8
  | _, [] => []
  | space, point :: points =>
    let bytes := encodeCode (codeOf point)
    if bytes.length ≤ space then
      bytes ++ encodeWithin (space - bytes.length) points
    else []

theorem encodeWithin_length_le (space : Nat) (points : List JsString) :
    (encodeWithin space points).length ≤ space := by
  induction points generalizing space with
  | nil => exact Nat.zero_le space
  | cons point points ih =>
    unfold encodeWithin
    simp only
    split
    · rename_i hfits
      have hrest := ih (space - (encodeCode (codeOf point)).length)
      rw [List.length_append]
      omega
    · exact Nat.zero_le space

/-- The buffer of one header. -/
structure HeaderBlock where
  bytes : List UInt8
  length_eq : bytes.length = block

namespace HeaderBlock

/-- `Buffer.alloc(block)`. -/
def alloc : HeaderBlock := ⟨List.replicate block 0, by simp⟩

/-- `h.write(text, start, length, 'utf8')`. -/
def put (h : HeaderBlock) (text : JsString) (start length : Nat)
    (hfits : start + length ≤ block) : HeaderBlock where
  bytes :=
    splice h.bytes start (encodeWithin length (JsString.codePoints text))
  length_eq := by
    have hle := encodeWithin_length_le length (JsString.codePoints text)
    have hlength := h.length_eq
    rw [splice_length (by omega), hlength]

/-- `h.fill(32, start, start + length)`. -/
def blank (h : HeaderBlock) (start length : Nat)
    (hfits : start + length ≤ block) : HeaderBlock where
  bytes := splice h.bytes start (List.replicate length 32)
  length_eq := by
    have hlength := h.length_eq
    rw [splice_length (by rw [List.length_replicate]; omega), hlength]

end HeaderBlock

/-- A number in octal digits, with the zero byte behind it. -/
def octalField (width n : Nat) : JsString :=
  padStart width (digitsOf 8 n) ++ [0]

def byteSum (bytes : List UInt8) : Nat := (bytes.map UInt8.toNat).sum

/-- The header while its check sum is blank. -/
def blankHeader (name : JsString) (size : Nat) (type : JsString)
    (mode : Nat) : HeaderBlock :=
  let h := HeaderBlock.alloc
  let h := h.put name 0 100 (by decide)
  let h := h.put (octalField 7 mode) 100 8 (by decide)
  let h := h.put (octalField 7 0) 108 8 (by decide)
  let h := h.put (octalField 7 0) 116 8 (by decide)
  let h := h.put (octalField 11 size) 124 12 (by decide)
  let h := h.put (octalField 11 0) 136 12 (by decide)
  let h := h.blank 148 8 (by decide)
  let h := h.put type 156 1 (by decide)
  let h := h.put (JsString.ofString "ustar" ++ [0]) 257 6 (by decide)
  h.put (JsString.ofString "00") 263 2 (by decide)

def header (name : JsString) (size : Nat) (type : JsString) (mode : Nat) :
    HeaderBlock :=
  let h := blankHeader name size type mode
  h.put (octalField 6 (byteSum h.bytes) ++ [32]) 148 8 (by decide)

/-- The zeros behind a file's bytes, up to the next block. -/
def padding (size : Nat) : List UInt8 :=
  List.replicate ((block - size % block) % block) 0

def tarEntry (name : JsString) (bytes : List UInt8) (type : JsString)
    (mode : Nat) : List UInt8 :=
  (header name bytes.length type mode).bytes ++ bytes ++
    padding bytes.length

/-- `String(n).length`. -/
def digitCount (n : Nat) : Nat := (digitsOf 10 n).length

/-- The length of a record that counts its own digits. -/
def paxLength (valueLength : Nat) : Nat → Nat → Nat
  | 0, length => length
  | rounds + 1, length =>
    let next := valueLength + digitCount length
    if next = length then length else paxLength valueLength rounds next

/-- The record ` path=…`, without its length. -/
def paxValue (path : JsString) : JsString :=
  JsString.ofString " path=" ++ path ++ [0x0A]

/-- The loop ends within three rounds, see `paxLength_fixed`. -/
def paxPath (path : JsString) : List UInt8 :=
  let value := encode (paxValue path)
  let length := paxLength value.length 4 (value.length + 1)
  encode (digitsOf 10 length) ++ value

structure ArchiveFile where
  path : JsString
  bytes : List UInt8
  mode : Option Nat

def archiveEntries : Nat → List ArchiveFile →
    Except ArchiveError (List UInt8)
  | _, [] => .ok []
  | i, file :: files => do
      if isRuntimeRelativePath file.path = false then
        throw .inputPathChanged
      let long := decide (100 < (encode file.path).length)
      let name := JsString.ofString "file" ++ digitsOf 10 i
      let record :=
        if long then
          tarEntry (JsString.ofString "PaxHeaders/" ++ name)
            (paxPath file.path) (JsString.ofString "x") 0o400
        else []
      let own := tarEntry (if long then name else file.path) file.bytes
        (JsString.ofString "0") (file.mode.getD 0o400)
      let more ← archiveEntries (i + 1) files
      return record ++ own ++ more

def createLocalPythonArchive (files : List ArchiveFile) :
    Except ArchiveError (List UInt8) := do
  let parts ← archiveEntries 0 files
  let bytes := parts ++ List.replicate 1024 0
  if 24000000 < bytes.length then throw .inputLimit
  return bytes

/-- The text of a field: up to a zero, without blanks at its end. -/
def fieldText (bytes : List UInt8) : JsString :=
  JsString.trimEnd ((decode bytes).takeWhile (· != 0))

def textOf (h : List UInt8) (start length : Nat) : JsString :=
  fieldText (slice h start length)

/-- `/^[0-7]+$/`. -/
def isOctal (text : JsString) : Bool :=
  !text.isEmpty && text.all (isDigitOf 8)

/-- The keys of a PAX record that change nothing here. -/
def ignoredKeys : List JsString :=
  ["mtime", "atime", "ctime", "uid", "gid", "uname", "gname"].map
    JsString.ofString

/-- A record's key, and what follows its equals sign. -/
def recordParts (record : JsString) : JsString × JsString :=
  if (0x3D : UInt16) ∈ record then
    (record.takeWhile (· != 0x3D), (record.dropWhile (· != 0x3D)).tail)
  else (record.dropLast, record)

/-- One record at the front of some bytes: how long it is, its key and its
value. -/
def readRecord (body : List UInt8) :
    Except ArchiveError (Nat × JsString × JsString) :=
  let space := body.takeWhile (· != 32)
  match (NumberText.ofText (asciiText space)).toInt? with
  | none => .error .artifactArchiveInvalid
  | some length =>
    if 32 ∉ body ∨ 2 ^ 53 ≤ length.natAbs ∨ length < 4 ∨
        (body.length : Int) < length ∨
        body[length.toNat - 1]? ≠ some 10 then
      .error .artifactArchiveInvalid
    else
      .ok (length.toNat, recordParts
        (decode ((body.take (length.toNat - 1)).drop (space.length + 1))))

theorem readRecord_progress {body : List UInt8} {length : Nat}
    {parts : JsString × JsString}
    (h : readRecord body = .ok (length, parts)) :
    4 ≤ length ∧ length ≤ body.length := by
  unfold readRecord at h
  simp only at h
  split at h
  · cases h
  · split at h
    · cases h
    · rename_i hguard
      simp only [not_or] at hguard
      have hlength := congrArg Prod.fst (Except.ok.inj h)
      simp only at hlength
      omega

/-- The records of a PAX header: the path that they give. -/
def readRecords (pax : Option JsString) (body : List UInt8) :
    Except ArchiveError (Option JsString) :=
  if body = [] then .ok pax
  else
    match _hread : readRecord body with
    | .error error => .error error
    | .ok (length, key, value) =>
      if key = JsString.ofString "path" then
        if (pax.getD []) ≠ [] then .error .artifactArchiveInvalid
        else readRecords (some value) (body.drop length)
      else if key ∈ ignoredKeys then readRecords pax (body.drop length)
      else .error .artifactArchiveInvalid
termination_by body.length
decreasing_by
  all_goals
    have hprogress := readRecord_progress _hread
    rw [List.length_drop]
    omega

/-- What a header says. -/
structure ArchiveHeader where
  size : Nat
  type : JsString
  name : JsString
  pathPrefix : JsString
  link : JsString

/-- A header whose check sum fits. -/
def readHeader (h : List UInt8) : Except ArchiveError ArchiveHeader :=
  let checksum := parseInt 8 (JsString.trim (textOf h 148 8))
  let copy := splice h 148 (List.replicate 8 32)
  let rawSize := JsString.trim (textOf h 124 12)
  if isOctal rawSize = false ∨ checksum ≠ some (byteSum copy : Int) then
    .error .artifactArchiveInvalid
  else
    .ok ⟨valueOf 8 rawSize, textOf h 156 1, textOf h 0 100,
      textOf h 345 155, textOf h 157 100⟩

def blocksOf (size : Nat) : Nat := (size + (block - 1)) / block * block

/-- The loop over the headers of what is left of an archive, with the path
that a PAX record gave and the file that was found. -/
def readEntries (expectedName : JsString) (maximum : Nat)
    (pax : Option JsString) (output : Option (List UInt8))
    (bytes : List UInt8) : Except ArchiveError (List UInt8) :=
  if _hshort : bytes.length < block then .error .artifactArchiveIncomplete
  else
    let h := bytes.take block
    let rest := bytes.drop block
    if h.all (· == 0) then
      if rest.any (· != 0) then .error .artifactArchiveInvalid
      else
        match output with
        | none => .error .artifactMissing
        | some output => .ok output
    else
      match readHeader h with
      | .error error => .error error
      | .ok header =>
        let limit :=
          if header.type = JsString.ofString "x" then 4096 else maximum
        if 2 ^ 53 ≤ header.size ∨ limit < header.size ∨
            rest.length < blocksOf header.size ∨ header.link ≠ [] then
          .error .artifactLimit
        else
          let body := rest.take header.size
          let next := rest.drop (blocksOf header.size)
          if header.type = JsString.ofString "x" then
            if pax.getD [] ≠ [] then .error .artifactArchiveInvalid
            else
              match readRecords pax body with
              | .error error => .error error
              | .ok pax => readEntries expectedName maximum pax output next
          else
            let actual := pax.getD
              (if header.pathPrefix ≠ [] then
                header.pathPrefix ++ 0x2F :: header.name
              else header.name)
            if (header.type ≠ JsString.ofString "0" ∧ header.type ≠ []) ∨
                actual ≠ expectedName ∨ output.isSome ∨
                header.size < 1 then
              .error .artifactArchiveInvalid
            else readEntries expectedName maximum none (some body) next
termination_by bytes.length
decreasing_by
  all_goals
    have hblock : block = 512 := rfl
    simp only [List.length_drop]
    omega

def readLocalPythonArchive (bytes : List UInt8) (expectedName : JsString)
    (maximum : Nat) : Except ArchiveError (List UInt8) :=
  if isRuntimeRelativePath expectedName = false ∨
      (0x2F : UInt16) ∈ expectedName then
    .error .artifactPathChanged
  else readEntries expectedName maximum none none bytes

end Allrice
