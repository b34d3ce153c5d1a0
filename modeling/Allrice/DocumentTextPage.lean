/-
Reading a long text by pages of lines.  A page is read by going through the
whole stream of the file: the text is decoded chunk by chunk, lines are put
together from the parts that the chunks hold, and only those of the page are
kept.
-/
import Allrice.ModelTransport
import Allrice.RuntimeIdentity
import Allrice.TextLines
import Allrice.Utf8Strict

namespace Allrice.DocumentPage

open TextLines

/-- `documentPreviewLimits.pageLines`. -/
def pageLines : Nat := 5000

/-- `documentPreviewLimits.pageBytes`. -/
def pageBytes : Nat := 2 * 1024 * 1024

def newline : UInt16 := 0x0A

structure StorageObject where
  sizeBytes : Nat
  checksum : JsString
  safe : sizeBytes ≤ maxSafeInteger

/-- What a call finds: the chunks of the stream, and whether it is aborted when
it looks for the n-th time. -/
structure Source where
  chunks : List (List UInt8)
  aborted : Nat → Bool

inductive PageError
  | invalidPage
  | previewNotText
  | previewPageTooLarge
  | contentChanged
  | aborted
deriving DecidableEq

/-- What a call has read so far, with the bytes that went into the digest. -/
structure Reading where
  decoder : ModelTransport.Decoder
  hashed : List UInt8
  line : Nat
  pageBytes : Nat
  current : JsString
  trailing : Bool
  lines : List JsString

def Reading.initial : Reading :=
  { decoder := .initial
    hashed := []
    line := 1
    pageBytes := 0
    current := []
    trailing := false
    lines := [] }

structure Page where
  text : JsString
  offset : Nat
  lines : Nat
  eof : Bool
deriving DecidableEq

/-- `line >= offset && line < offset + limits.pageLines`. -/
def onPage (offset line : Nat) : Bool :=
  offset ≤ line && line < offset + pageLines

/-- A part of a line, with so many bytes for the line break after it. -/
def addPart (offset : Nat) (reading : Reading) (part : JsString)
    (lineBreak : Nat) : Except PageError Reading :=
  if onPage offset reading.line then
    let size := reading.pageBytes + (JsString.byteLength part + lineBreak)
    if pageBytes < size then .error .previewPageTooLarge
    else
      .ok { reading with
        pageBytes := size
        current := reading.current ++ part }
  else .ok reading

/-- A part with a line break after it. -/
def breakPart (offset : Nat) (reading : Reading) (part : JsString) :
    Except PageError Reading := do
  let reading ← addPart offset reading part 1
  let kept :=
    if onPage offset reading.line then
      { reading with
        lines := reading.lines ++ [reading.current]
        current := [] }
    else reading
  return { kept with line := kept.line + 1, trailing := false }

/-- The part after the last line break. -/
def lastPart (offset : Nat) (reading : Reading) (part : JsString) :
    Except PageError Reading := do
  let reading ← addPart offset reading part 0
  return { reading with trailing := reading.trailing || !part.isEmpty }

/-- `consume`. -/
def consume (offset : Nat) (reading : Reading) (text : JsString) :
    Except PageError Reading :=
  if 0 ∈ text then .error .previewNotText
  else do
    let reading ← ((linesOf newline text).map List.dropLast).foldlM
      (breakPart offset) reading
    lastPart offset reading (restOf newline text)

/-- `decoder.decode(chunk, { stream: true })`, which throws where the bytes are
no UTF-8. -/
def decode (decoder : ModelTransport.Decoder) (chunk : List UInt8) :
    Except PageError (ModelTransport.Decoder × JsString) :=
  match Utf8Stream.runStrictly decoder.state chunk with
  | none => .error .previewNotText
  | some (state, units) =>
    let (started, text) := ModelTransport.dropMark decoder.started units
    .ok (⟨state, started⟩, text)

/-- The loop over the chunks; it has looked so many times for an abort. -/
def readChunks (object : StorageObject) (aborted : Nat → Bool)
    (offset : Nat) :
    Nat → List (List UInt8) → Reading → Except PageError Reading
  | looks, [], reading =>
    if aborted looks then .error .aborted else .ok reading
  | looks, chunk :: rest, reading =>
    if aborted looks then .error .aborted
    else if object.sizeBytes < reading.hashed.length + chunk.length then
      .error .contentChanged
    else do
      let (decoder, text) ← decode reading.decoder chunk
      let reading ← consume offset
        { reading with
          decoder := decoder
          hashed := reading.hashed ++ chunk } text
      readChunks object aborted offset (looks + 1) rest reading

/-- `lines.join('\n')`. -/
def joinLines (lines : List JsString) : JsString :=
  [newline].intercalate lines

/-- `consume(decoder.decode())`. -/
def flush (offset : Nat) (reading : Reading) : Except PageError Reading :=
  if reading.decoder.state.isSome then .error .previewNotText
  else consume offset reading []

/-- After the last chunk. -/
def finish (sha256 : List UInt8 → JsString) (object : StorageObject)
    (offset : Nat) (reading : Reading) : Except PageError Page := do
  let reading ← flush offset reading
  let lines :=
    if reading.trailing && onPage offset reading.line then
      reading.lines ++ [reading.current]
    else reading.lines
  if reading.hashed.length ≠ object.sizeBytes ∨
      JsString.ofString "sha256:" ++ sha256 reading.hashed ≠
        object.checksum then
    .error .contentChanged
  else
    let total := if reading.trailing then reading.line else reading.line - 1
    return {
      text := joinLines lines
      offset := offset
      lines := lines.length
      eof := total < offset + lines.length }

/-- The digest is `createHash('sha256')`, in hexadecimal digits. -/
def readDocumentTextPage (sha256 : List UInt8 → JsString)
    (object : StorageObject) (source : Source) (offset : Nat) :
    Except PageError Page :=
  if offset < 1 ∨ maxSafeInteger < offset then .error .invalidPage
  else if source.aborted 0 then .error .aborted
  else do
    let reading ← readChunks object source.aborted offset 1 source.chunks
      .initial
    finish sha256 object offset reading

/-- Call after call, each from the line after the last one that was returned,
until the end of the file; nothing where so many calls are not enough. -/
def readPages (call : Nat → Nat → Except PageError Page) :
    Nat → Nat → Nat → Option (Except PageError (List Page))
  | 0, _, _ => none
  | left + 1, n, offset =>
    match call n offset with
    | .error error => some (.error error)
    | .ok page =>
      if page.eof then some (.ok [page])
      else
        (readPages call left (n + 1) (offset + page.lines)).map fun rest =>
          rest.map (page :: ·)

/-- The lines that a page holds. -/
def Page.contents (page : Page) : List JsString :=
  if page.lines = 0 then []
  else (linesOf newline page.text).map List.dropLast ++
    [restOf newline page.text]

/-- The lines of a text; the last one need not end in a line break. -/
def documentLines (text : JsString) : List JsString :=
  (linesOf newline text).map List.dropLast ++
    if restOf newline text = [] then [] else [restOf newline text]

end Allrice.DocumentPage
