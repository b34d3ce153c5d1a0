/-
The look at an update's archive before the system extracts it: the record at
its end, the entries of its central directory, and the local header of each.
An entry has a plain name below the app, and no two have the same name where
case does not count.
-/
import Allrice.ByteReader
import Allrice.LocalPythonArchive

namespace Allrice.UpdateZip

open ByteReader Splice

inductive ZipError where
  | archiveInvalid
  | pathInvalid
  | limit
  | outOfRange
deriving DecidableEq

def le16 (bytes : List UInt8) (i : Nat) : Nat :=
  (bytes.getD i 0).toNat + 256 * (bytes.getD (i + 1) 0).toNat

def le32 (bytes : List UInt8) (i : Nat) : Nat :=
  le16 bytes i + 65536 * le16 bytes (i + 2)

def readUInt16LE (bytes : List UInt8) (i : Nat) : Except ZipError Nat :=
  if i + 2 ≤ bytes.length then .ok (le16 bytes i) else .error .outOfRange

def readUInt32LE (bytes : List UInt8) (i : Nat) : Except ZipError Nat :=
  if i + 4 ≤ bytes.length then .ok (le32 bytes i) else .error .outOfRange

/-- `bytes.subarray(start, stop)`; one that would be cut off is a fault. -/
def subarray (bytes : List UInt8) (start stop : Nat) :
    Except ZipError (List UInt8) :=
  if stop ≤ bytes.length then .ok (slice bytes start (stop - start))
  else .error .outOfRange

/-- Timestamps and hints of user and group. -/
def plainKinds : List Nat := [0x5455, 0x7875, 0x7855, 0x5855]

/-- `extras`; a turn takes at least four bytes, so the length of the fields is
a bound of the turns. -/
def extras (bytes : List UInt8) (stop : Nat) :
    Nat → Nat → Except ZipError Unit
  | 0, _ => .ok ()
  | turns + 1, cursor =>
    if cursor < stop then do
      refuse (stop < cursor + 4) .archiveInvalid
      let kind ← readUInt16LE bytes cursor
      let size ← readUInt16LE bytes (cursor + 2)
      refuse (kind ∉ plainKinds) .archiveInvalid
      refuse (stop < cursor + 4 + size) .archiveInvalid
      extras bytes stop turns (cursor + 4 + size)
    else .ok ()

def endSignature : Nat := 0x06054b50

/-- The search from the back; the last turn looks at `minimum`. -/
def findEnd (bytes : List UInt8) (minimum : Nat) :
    Nat → Except ZipError (Option Nat)
  | 0 => .ok none
  | turns + 1 => do
      let offset := minimum + turns
      let signature ← readUInt32LE bytes offset
      if signature = endSignature then
        let comment ← readUInt16LE bytes (offset + 20)
        if offset + 22 + comment = bytes.length then return some offset
        else findEnd bytes minimum turns
      else findEnd bytes minimum turns

/-- The search over the last bytes: the record, and at most 65535 bytes of a
comment after it. -/
def searchEnd (bytes : List UInt8) : Except ZipError (Option Nat) :=
  let minimum := bytes.length - 65557
  findEnd bytes minimum (bytes.length - 21 - minimum)

def appName : JsString := JsString.ofString "Rice Bridge.app"

/-- `[A-Za-z0-9_. /@+-]`. -/
def isPlainUnit (unit : UInt16) : Bool :=
  (0x41 ≤ unit && unit ≤ 0x5A) || (0x61 ≤ unit && unit ≤ 0x7A) ||
    (0x30 ≤ unit && unit ≤ 0x39) || unit == 0x5F || unit == 0x2E ||
    unit == 0x20 || unit == 0x2F || unit == 0x40 || unit == 0x2B ||
    unit == 0x2D

/-- `toLowerCase` of a name of plain units. -/
def lowerUnit (unit : UInt16) : UInt16 :=
  if 0x41 ≤ unit && unit ≤ 0x5A then unit + 0x20 else unit

/-- `name.replace(/\/$/, '')`. -/
def withoutSlash (name : JsString) : JsString :=
  if name.getLast? = some 0x2F then name.dropLast else name

/-- The name as a file system takes it that does not tell case apart. -/
def filesystemName (name : JsString) : JsString :=
  (withoutSlash name).map lowerUnit

/-- A name below the app, of plain units and without parts that lead
elsewhere. -/
def isPlainName (name : JsString) : Bool :=
  name != [] && name.all isPlainUnit &&
    (appName ++ [0x2F]).isPrefixOf name &&
    (splitPath name).all (fun part => part != [0x2E] &&
      part != [0x2E, 0x2E]) &&
    !decide (([0x2F, 0x2F] : JsString) <:+: name)

structure State where
  names : List JsString
  filesystemNames : List JsString
  spans : List (Nat × Nat)
  inflated : Nat

def State.initial : State := ⟨[], [], [], 0⟩

/-- `mode & 0xf000` of a file, of a folder and of neither. -/
def plainModes : List Nat := [0, 0x4000, 0x8000]

/-- The local header of an entry; the answer is where its data ends. -/
def localHeader (bytes : List UInt8) (start localAt flags method packed : Nat)
    (nameBytes : List UInt8) : Except ZipError Nat := do
  refuse (start < localAt + 30) .archiveInvalid
  let signature ← readUInt32LE bytes localAt
  refuse (signature ≠ 0x04034b50) .archiveInvalid
  let localFlags ← readUInt16LE bytes (localAt + 6)
  refuse (localFlags ≠ flags) .archiveInvalid
  let localMethod ← readUInt16LE bytes (localAt + 8)
  refuse (localMethod ≠ method) .archiveInvalid
  let localName ← readUInt16LE bytes (localAt + 26)
  let localExtra ← readUInt16LE bytes (localAt + 28)
  let dataStart := localAt + 30 + localName + localExtra
  let dataEnd := dataStart + packed
  refuse (start < dataEnd) .pathInvalid
  let written ← subarray bytes (localAt + 30) (localAt + 30 + localName)
  refuse (written ≠ nameBytes) .pathInvalid
  extras bytes dataStart localExtra (localAt + 30 + localName)
  return dataEnd

/-- One turn of the loop over the central directory. -/
def centralEntry (bytes : List UInt8) (start stop offset : Nat)
    (state : State) : Except ZipError (Nat × State) := do
  refuse (stop < offset + 46) .archiveInvalid
  let signature ← readUInt32LE bytes offset
  refuse (signature ≠ 0x02014b50) .archiveInvalid
  let flags ← readUInt16LE bytes (offset + 8)
  let method ← readUInt16LE bytes (offset + 10)
  let packed ← readUInt32LE bytes (offset + 20)
  let unpacked ← readUInt32LE bytes (offset + 24)
  let nameLength ← readUInt16LE bytes (offset + 28)
  let extra ← readUInt16LE bytes (offset + 30)
  let comment ← readUInt16LE bytes (offset + 32)
  let attributes ← readUInt32LE bytes (offset + 38)
  let mode := attributes / 65536
  let localAt ← readUInt32LE bytes (offset + 42)
  let next := offset + 46 + nameLength + extra + comment
  refuse (stop < next) .archiveInvalid
  -- `flags & ~0x808` of sixteen bits
  refuse (flags &&& 0xF7F7 ≠ 0) .archiveInvalid
  refuse (method ≠ 0 ∧ method ≠ 8) .archiveInvalid
  let disk ← readUInt16LE bytes (offset + 34)
  refuse (disk ≠ 0) .archiveInvalid
  refuse (mode &&& 0xF000 ∉ plainModes) .archiveInvalid
  let nameBytes ← subarray bytes (offset + 46) (offset + 46 + nameLength)
  let name := Utf8Stream.decode nameBytes
  extras bytes (offset + 46 + nameLength + extra) extra
    (offset + 46 + nameLength)
  refuse (isPlainName name = false ∨ name ∈ state.names ∨
    filesystemName name ∈ state.filesystemNames) .pathInvalid
  let dataEnd ← localHeader bytes start localAt flags method packed nameBytes
  let inflated := state.inflated + unpacked
  refuse (1024 * 1024 * 1024 < inflated) .limit
  return (next,
    { names := state.names ++ [name]
      filesystemNames := state.filesystemNames ++ [filesystemName name]
      spans := state.spans ++ [(localAt, dataEnd)]
      inflated })

def centralEntries (bytes : List UInt8) (start stop : Nat) :
    Nat → Nat → State → Except ZipError (Nat × State)
  | 0, offset, state => .ok (offset, state)
  | count + 1, offset, state => do
      let (next, state) ← centralEntry bytes start stop offset state
      centralEntries bytes start stop count next state

/-- A span begins before the one in front of it has ended. -/
def overlaps : List (Nat × Nat) → Bool
  | first :: second :: rest =>
    second.1 < first.2 || overlaps (second :: rest)
  | _ => false

/-- The directory that the record at `stop` describes. -/
def inspectDirectory (bytes : List UInt8) (stop : Nat) :
    Except ZipError Unit := do
  let count ← readUInt16LE bytes (stop + 10)
  let centralSize ← readUInt32LE bytes (stop + 12)
  let start ← readUInt32LE bytes (stop + 16)
  refuse (count = 0 ∨ 20000 < count) .archiveInvalid
  let disk ← readUInt16LE bytes (stop + 4)
  refuse (disk ≠ 0) .archiveInvalid
  let directoryDisk ← readUInt16LE bytes (stop + 6)
  refuse (directoryDisk ≠ 0) .archiveInvalid
  let here ← readUInt16LE bytes (stop + 8)
  refuse (here ≠ count ∨ start + centralSize ≠ stop) .archiveInvalid
  let (offset, state) ← centralEntries bytes start stop count start .initial
  let spans := state.spans.insertionSort fun span other => span.1 ≤ other.1
  refuse (offset ≠ stop ∨ overlaps spans) .archiveInvalid
  refuse (appName ++ JsString.ofString "/Contents/Info.plist" ∉ state.names ∨
    appName ++ JsString.ofString "/Contents/Resources/RiceBridgeCore" ∉
      state.names) .archiveInvalid

def inspectUpdateZip (bytes : List UInt8) : Except ZipError Unit := do
  let found ← searchEnd bytes
  match found with
  | none => .error .archiveInvalid
  | some stop => inspectDirectory bytes stop

end Allrice.UpdateZip
