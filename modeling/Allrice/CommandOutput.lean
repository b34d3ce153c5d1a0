/-
The filter that a command's output passes on its way out of the sandbox: bytes
are decoded, cut into lines, and each line is redacted.  A line that is too long
is replaced by a notice, and so is every line of a private key.
-/
import Allrice.Pattern
import Allrice.TextLines
import Allrice.Utf8Stream

namespace Allrice

open TextLines

def newline : UInt16 := 0x0A

def omittedLine : JsString := JsString.ofString "[过长输出行已省略]\n"

def omittedKey : JsString := JsString.ofString "[私钥内容已省略]\n"

namespace Redaction

open Pattern

/-- `/-----BEGIN .*PRIVATE KEY-----/`. -/
def beginsKey : Pattern :=
  sequence [literal "-----BEGIN ", many isDot 0, literal "PRIVATE KEY-----"]

/-- `/-----END .*PRIVATE KEY-----/`. -/
def endsKey : Pattern :=
  sequence [literal "-----END ", many isDot 0, literal "PRIVATE KEY-----"]

/-- `[A-Za-z0-9]` and the given characters. -/
def alphanumericOr (characters : String) (unit : UInt16) : Bool :=
  isLetter unit || isDigit unit || among characters unit

/-- `Bearer`, blanks, a token and its padding, in either case. -/
def bearer : Pattern :=
  sequence [boundary, literalIgnoringCase "Bearer",
    many JsString.isWhitespace 1, many (alphanumericOr "._~+/-") 1,
    many (among "=") 0]

/-- The keys and tokens that are known by how they start. -/
def token : Pattern :=
  sequence [boundary,
    oneOf [
      sequence [literal "sk-", many (alphanumericOr "_-") 12],
      sequence [literal "AIza", many (alphanumericOr "_-") 20],
      sequence [literal "gh", one (among "pousr"), literal "_",
        many (alphanumericOr "_") 20],
      sequence [literal "eyJ", many (alphanumericOr "_-") 1, literal ".",
        many (alphanumericOr "_-") 1, literal ".",
        many (alphanumericOr "_-") 1]],
    boundary]

/-- The name of a secret, an assignment and a quote: what stays. -/
def secretName : Pattern :=
  sequence [
    oneOf [
      sequence [literalIgnoringCase "api", optional (among "_-"),
        literalIgnoringCase "key"],
      sequence [literalIgnoringCase "access", optional (among "_-"),
        literalIgnoringCase "token"],
      sequence [literalIgnoringCase "refresh", optional (among "_-"),
        literalIgnoringCase "token"],
      literalIgnoringCase "password", literalIgnoringCase "secret",
      literalIgnoringCase "authorization"],
    optional (among "\"'"), many JsString.isWhitespace 0,
    one (among ":="), many JsString.isWhitespace 0, optional (among "\"'")]

/-- `[^\s,"'}]+`. -/
def secretValue : Pattern :=
  many (fun unit =>
    !(JsString.isWhitespace unit || among ",\"'\x7d" unit)) 1

/-- Whether a character stays: tabs, line ends and what can be printed. -/
def isShown (character : JsString) : Bool :=
  match character.head? with
  | some unit =>
    let n := unit.toNat
    n == 9 || n == 10 || n == 13 || (32 ≤ n && n != 127)
  | none => false

/-- What a line of ordinary length is turned into. -/
def redact (text : JsString) : JsString :=
  let shown := ((JsString.codePoints text).filter isShown).flatten
  let shown := replaceAll .empty bearer "Bearer [REDACTED]" shown
  let shown := replaceAll .empty token "[REDACTED]" shown
  replaceAll secretName secretValue "[REDACTED]" shown

end Redaction

open Redaction

structure LocalCommandOutputFilter where
  /-- The bytes that the decoder keeps back. -/
  decoder : List UInt8
  pending : JsString
  dropping : Bool
  privateKey : Bool
  truncated : Bool

namespace LocalCommandOutputFilter

/-- A new filter. -/
def fresh : LocalCommandOutputFilter := ⟨[], [], false, false, false⟩

/-- One line, or what the end of the output leaves of one. -/
def line (filter : LocalCommandOutputFilter) (text : JsString) :
    LocalCommandOutputFilter × JsString :=
  let filter :=
    if beginsKey.test text then { filter with privateKey := true } else filter
  if filter.privateKey then
    if endsKey.test text then
      ({ filter with privateKey := false }, omittedKey)
    else (filter, omittedKey)
  else if 4096 < text.length then
    ({ filter with truncated := true }, omittedLine)
  else (filter, redact text)

/-- A complete line, after the result so far. -/
def takeLine (before : LocalCommandOutputFilter × JsString)
    (text : JsString) : LocalCommandOutputFilter × JsString :=
  let (filter, result) := before
  if filter.dropping then ({ filter with dropping := false }, result)
  else
    let (filter, shown) := filter.line text
    ({ filter with dropping := false }, result ++ shown)

/-- Text that is already too long for a line is dropped. -/
def bound (before : LocalCommandOutputFilter × JsString) :
    LocalCommandOutputFilter × JsString :=
  let (filter, result) := before
  if 4096 < filter.pending.length then
    ({ filter with pending := [], dropping := true, truncated := true },
      if filter.dropping then result else result ++ omittedLine)
  else before

/-- At the end of the output the rest is a line too. -/
def flush (before : LocalCommandOutputFilter × JsString) :
    LocalCommandOutputFilter × JsString :=
  let (filter, result) := before
  if filter.pending = [] then before
  else
    let (next, shown) :=
      if filter.dropping then (filter, []) else filter.line filter.pending
    ({ next with pending := [] }, result ++ shown)

/-- What the decoder makes of some bytes, and at the end of those it kept. -/
def receive (filter : LocalCommandOutputFilter) (bytes : List UInt8)
    (final : Bool) : LocalCommandOutputFilter :=
  let (text, kept) := Utf8Stream.write filter.decoder bytes
  let pending := filter.pending ++ text
  if final then
    { filter with pending := pending ++ Utf8Stream.decode kept, decoder := [] }
  else { filter with pending := pending, decoder := kept }

/-- The complete lines that are pending, and the bound on what is left. -/
def process (before : LocalCommandOutputFilter × JsString) :
    LocalCommandOutputFilter × JsString :=
  let (filter, result) := before
  let lines := linesOf newline filter.pending
  let filter := { filter with pending := restOf newline filter.pending }
  bound (lines.foldl takeLine (filter, result))

/-- `push(bytes, end)`: the next state and the text that may leave. -/
def push (filter : LocalCommandOutputFilter) (bytes : List UInt8)
    (final : Bool) : LocalCommandOutputFilter × JsString :=
  let done := process (filter.receive bytes final, [])
  if final then flush done else done

/-- The chunks of a stream, each pushed after the one before. -/
def pushAll (before : LocalCommandOutputFilter × JsString) :
    List (List UInt8) → LocalCommandOutputFilter × JsString
  | [] => before
  | bytes :: more =>
    let (filter, shown) := before.1.push bytes false
    pushAll (filter, before.2 ++ shown) more

/-- A whole stream: its chunks, and the last of them with the end. -/
def run (chunks : List (List UInt8)) (last : List UInt8) :
    LocalCommandOutputFilter × JsString :=
  let (filter, result) := pushAll (fresh, []) chunks
  let (filter, shown) := filter.push last true
  (filter, result ++ shown)

end LocalCommandOutputFilter

end Allrice
