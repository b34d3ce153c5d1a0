/-
JavaScript strings are sequences of UTF-16 code units, and a slice may cut a
surrogate pair in two.  Texts that the code slices or measures are therefore
lists of code units here.
-/
import Mathlib

/-- A string as JavaScript sees it: its UTF-16 code units. -/
abbrev JsString := List UInt16

instance : LawfulBEq JsString := inferInstance

namespace JsString

/-- The one or two code units of a code point. -/
def unitsOf (c : Char) : JsString :=
  let n := c.toNat
  if n < 0x10000 then [UInt16.ofNat n]
  else
    [UInt16.ofNat (0xD800 + (n - 0x10000) / 0x400),
      UInt16.ofNat (0xDC00 + (n - 0x10000) % 0x400)]

/-- The code units of a string literal. -/
def ofString (text : String) : JsString := text.toList.flatMap unitsOf

/-- `text.length`, in UTF-16 code units. -/
def lengthOf (text : String) : Nat := (ofString text).length

/-- The code units that `String.prototype.trim` removes. -/
def isWhitespace (unit : UInt16) : Bool :=
  let n := unit.toNat
  (0x9 ≤ n && n ≤ 0xD) || n == 0x20 || n == 0xA0 || n == 0x1680 ||
    (0x2000 ≤ n && n ≤ 0x200A) || n == 0x2028 || n == 0x2029 ||
    n == 0x202F || n == 0x205F || n == 0x3000 || n == 0xFEFF

def isHighSurrogate (unit : UInt16) : Bool :=
  0xD800 ≤ unit.toNat && unit.toNat ≤ 0xDBFF

def trim (text : JsString) : JsString :=
  ((text.dropWhile isWhitespace).reverse.dropWhile isWhitespace).reverse

/-- `text.replace(/[\uD800-\uDBFF]$/, '')`. -/
def dropTrailingHighSurrogate (text : JsString) : JsString :=
  match text.getLast? with
  | some unit => if isHighSurrogate unit then text.dropLast else text
  | none => text

def isLowSurrogate (unit : UInt16) : Bool :=
  0xDC00 ≤ unit.toNat && unit.toNat ≤ 0xDFFF

/-- `Array.from(text)`: a surrogate pair is one character. -/
def codePoints : JsString → List JsString
  | [] => []
  | unit :: rest =>
    match rest with
    | [] => [[unit]]
    | next :: tail =>
      if isHighSurrogate unit && isLowSurrogate next then
        [unit, next] :: codePoints tail
      else [unit] :: codePoints (next :: tail)

/-- `Buffer.byteLength(text)`: a lone surrogate is encoded as U+FFFD. -/
def byteLength : JsString → Nat
  | [] => 0
  | unit :: rest =>
    if unit.toNat < 0x80 then 1 + byteLength rest
    else if unit.toNat < 0x800 then 2 + byteLength rest
    else
      match rest with
      | [] => 3
      | next :: tail =>
        if isHighSurrogate unit && isLowSurrogate next then
          4 + byteLength tail
        else 3 + byteLength (next :: tail)

def trimEnd (text : JsString) : JsString :=
  (text.reverse.dropWhile isWhitespace).reverse

theorem trimEnd_of_last {text : JsString}
    (h : ∀ unit ∈ text.getLast?, isWhitespace unit = false) :
    trimEnd text = text := by
  unfold trimEnd
  cases hback : text.reverse with
  | nil => rw [List.reverse_eq_nil_iff.mp hback]; rfl
  | cons unit rest =>
    have hlast : text.getLast? = some unit := by
      rw [← List.head?_reverse, hback]
      rfl
    have hunit : isWhitespace unit = false := h unit hlast
    rw [List.dropWhile_cons, hunit, ← hback]
    simp

/-- A text without blanks at its ends is not trimmed. -/
theorem trim_of_none {text : JsString}
    (h : ∀ unit ∈ text, isWhitespace unit = false) : trim text = text := by
  have hfront : text.dropWhile isWhitespace = text := by
    cases text with
    | nil => rfl
    | cons unit rest =>
      have hunit : isWhitespace unit = false := h unit (by simp)
      rw [List.dropWhile_cons, hunit]
      simp
  have hend : trimEnd text = text := by
    apply trimEnd_of_last
    intro unit hunit
    exact h unit (List.mem_of_getLast? hunit)
  unfold trim
  rw [hfront]
  exact hend

end JsString
