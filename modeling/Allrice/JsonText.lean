/-
The texts of JSON: how `JSON.stringify` writes strings and numbers, and what
`JSON.parse` reads.
-/
import Allrice.JsValue
import Allrice.NumberText

namespace JsonText

open DigitText NumberText JsValue

def quotation : UInt16 := 0x22

def backslash : UInt16 := 0x5C

def comma : UInt16 := 0x2C

def colon : UInt16 := 0x3A

def openBracket : UInt16 := 0x5B

def closeBracket : UInt16 := 0x5D

def openBrace : UInt16 := 0x7B

def closeBrace : UInt16 := 0x7D

/-- A hexadecimal digit, in lower case. -/
def hexUnit (digit : Nat) : UInt16 :=
  UInt16.ofNat (if digit < 10 then 0x30 + digit else 0x57 + digit)

/-- `\\u001f` and the like. -/
def unicodeEscape (unit : UInt16) : JsString :=
  let n := unit.toNat
  [backslash, 0x75, hexUnit (n / 0x1000), hexUnit (n / 0x100 % 0x10),
    hexUnit (n / 0x10 % 0x10), hexUnit (n % 0x10)]

/-- The characters that are escaped by a letter, with the letter. -/
def shortEscapes : List (UInt16 × UInt16) :=
  [(0x08, 0x62), (0x09, 0x74), (0x0A, 0x6E), (0x0C, 0x66), (0x0D, 0x72),
    (0x22, 0x22), (0x5C, 0x5C)]

/-- The escape of a unit that stands for itself. -/
def escapeUnit (unit : UInt16) : JsString :=
  match shortEscapes.find? (·.1 = unit) with
  | some (_, letter) => [backslash, letter]
  | none =>
    if unit.toNat < 0x20 || JsString.isHighSurrogate unit ||
        JsString.isLowSurrogate unit then
      unicodeEscape unit
    else [unit]

/-- A surrogate pair is written as it is. -/
def escapePoint : JsString → JsString
  | [unit] => escapeUnit unit
  | point => point

/-- `JSON.stringify(text)`. -/
def quote (text : JsString) : JsString :=
  quotation ::
    ((JsString.codePoints text).flatMap escapePoint ++ [quotation])

/-- `parts.join(',')`. -/
def join : List JsString → JsString
  | [] => []
  | [part] => part
  | part :: next :: parts => part ++ comma :: join (next :: parts)

/-- `[` the elements `]`. -/
def bracketed (elements : List JsString) : JsString :=
  openBracket :: (join elements ++ [closeBracket])

/-- `{` the members `}`, in the order of their keys. -/
def braced (members : List (JsString × JsString)) : JsString :=
  openBrace :: (join ((sortByKey members).map fun (key, text) =>
    quote key ++ colon :: text) ++ [closeBrace])

/-- `JSON.stringify` of a truth value. -/
def booleanText (value : Bool) : JsString :=
  JsString.ofString (if value then "true" else "false")

def nullText : JsString := JsString.ofString "null"

def isSpace (unit : UInt16) : Bool :=
  unit == 0x20 || unit == 0x09 || unit == 0x0A || unit == 0x0D

def skip (text : JsString) : JsString := text.dropWhile isSpace

/-- Four hexadecimal digits. -/
def scanHex : JsString → Option (UInt16 × JsString)
  | a :: b :: c :: d :: rest => do
      let a ← hexDigit a
      let b ← hexDigit b
      let c ← hexDigit c
      let d ← hexDigit d
      return (UInt16.ofNat (0x1000 * a + 0x100 * b + 0x10 * c + d), rest)
  | _ => none

/-- The characters that a letter escapes. -/
def unescape (letter : UInt16) : Option UInt16 :=
  if letter = 0x2F then some 0x2F
  else (shortEscapes.find? (·.2 = letter)).map Prod.fst

/-- The characters of a string, up to its closing quotation mark. -/
def scanChars : JsString → Option (JsString × JsString)
  | [] => none
  | unit :: rest =>
    if unit = quotation then some ([], rest)
    else if unit = backslash then
      match rest with
      | 0x75 :: a :: b :: c :: d :: rest =>
        match scanHex [a, b, c, d], scanChars rest with
        | some (escaped, _), some (text, rest) =>
          some (escaped :: text, rest)
        | _, _ => none
      | letter :: rest =>
        match unescape letter, scanChars rest with
        | some escaped, some (text, rest) => some (escaped :: text, rest)
        | _, _ => none
      | [] => none
    else if unit.toNat < 0x20 then none
    else
      match scanChars rest with
      | some (text, rest) => some (unit :: text, rest)
      | none => none

def scanWord (word : JsString) (value : JsValue) (text : JsString) :
    Option (JsValue × JsString) :=
  if word.isPrefixOf text then some (value, text.drop word.length) else none

/-- A member of an object: a later one of the same key takes its place. -/
def define (members : List (JsString × JsValue)) (key : JsString)
    (value : JsValue) : List (JsString × JsValue) :=
  if key ∈ members.map Prod.fst then
    members.map fun member => if member.1 = key then (key, value) else member
  else members ++ [(key, value)]

mutual

/-- A value at the front of a text. -/
def parseValue : Nat → JsString → Option (JsValue × JsString)
  | 0, _ => none
  | fuel + 1, text =>
    match skip text with
    | [] => none
    | unit :: rest =>
      if unit = quotation then
        (scanChars rest).map fun (text, rest) => (.string text, rest)
      else if unit = openBracket then
        if (skip rest).head? = some closeBracket then
          some (.array [], (skip rest).tail)
        else parseElements fuel [] rest
      else if unit = openBrace then
        if (skip rest).head? = some closeBrace then
          some (.object .object [], (skip rest).tail)
        else parseMembers fuel [] rest
      else if unit = 0x74 then
        scanWord (JsString.ofString "true") (.boolean true)
          (unit :: rest)
      else if unit = 0x66 then
        scanWord (JsString.ofString "false") (.boolean false)
          (unit :: rest)
      else if unit = 0x6E then
        scanWord (JsString.ofString "null") .null (unit :: rest)
      else
        (scanNumber (unit :: rest)).map fun (value, rest) =>
          (.number value, rest)

/-- The elements of an array that is open. -/
def parseElements : Nat → List JsValue → JsString →
    Option (JsValue × JsString)
  | 0, _, _ => none
  | fuel + 1, done, text =>
    match parseValue fuel text with
    | none => none
    | some (value, rest) =>
      match skip rest with
      | [] => none
      | unit :: rest =>
        if unit = comma then
          parseElements fuel (done ++ [value]) rest
        else if unit = closeBracket then
          some (.array ((done ++ [value]).map some), rest)
        else none

/-- The members of an object that is open. -/
def parseMembers : Nat → List (JsString × JsValue) → JsString →
    Option (JsValue × JsString)
  | 0, _, _ => none
  | fuel + 1, done, text =>
    match skip text with
    | [] => none
    | unit :: rest =>
      if unit = quotation then
        match scanChars rest with
        | none => none
        | some (key, rest) =>
          if (skip rest).head? = some colon then
            match parseValue fuel (skip rest).tail with
            | none => none
            | some (value, rest) =>
              match skip rest with
              | [] => none
              | unit :: rest =>
                if unit = comma then
                  parseMembers fuel (define done key value) rest
                else if unit = closeBrace then
                  some (.object .object (define done key value), rest)
                else none
          else none
      else none

end

/-- `JSON.parse(text)`.  Each value takes a unit of the text, and each member
or element one more step. -/
def parse (text : JsString) : Option JsValue :=
  match parseValue (2 * text.length + 2) text with
  | some (value, rest) => if skip rest = [] then some value else none
  | none => none

section Strings

variable {text rest tail : JsString}

theorem scanChars_plain {unit : UInt16} (hquote : unit ≠ quotation)
    (hslash : unit ≠ backslash) (hlow : ¬unit.toNat < 0x20)
    (h : scanChars tail = some (text, rest)) :
    scanChars (unit :: tail) = some (unit :: text, rest) := by
  rw [scanChars.eq_def]
  simp only [if_neg hquote, if_neg hslash, if_neg hlow, h]

theorem scanChars_letter {unit letter : UInt16} (hletter : letter ≠ 0x75)
    (hunescape : unescape letter = some unit)
    (h : scanChars tail = some (text, rest)) :
    scanChars (backslash :: letter :: tail) = some (unit :: text, rest) := by
  rw [scanChars.eq_def]
  simp only [if_neg (show backslash ≠ quotation by decide), if_true]
  split
  · rename_i heq
    cases heq
    exact absurd rfl hletter
  · rename_i heq
    cases heq
    simp only [hunescape, h]
  · rename_i heq
    cases heq

theorem hexDigit_hexUnit {digit : Nat} (h : digit < 16) :
    hexDigit (hexUnit digit) = some digit := by
  interval_cases digit <;> decide

theorem scanHex_unit (unit : UInt16) :
    scanHex [hexUnit (unit.toNat / 0x1000),
        hexUnit (unit.toNat / 0x100 % 0x10),
        hexUnit (unit.toNat / 0x10 % 0x10), hexUnit (unit.toNat % 0x10)] =
      some (unit, []) := by
  have hlt := unit.toNat_lt
  have hvalue : 0x1000 * (unit.toNat / 0x1000) +
      0x100 * (unit.toNat / 0x100 % 0x10) +
      0x10 * (unit.toNat / 0x10 % 0x10) + unit.toNat % 0x10 =
      unit.toNat := by omega
  simp only [scanHex, hexDigit_hexUnit (show unit.toNat / 0x1000 < 16 by omega),
    hexDigit_hexUnit (show unit.toNat / 0x100 % 0x10 < 16 by omega),
    hexDigit_hexUnit (show unit.toNat / 0x10 % 0x10 < 16 by omega),
    hexDigit_hexUnit (show unit.toNat % 0x10 < 16 by omega),
    Option.bind_eq_bind, Option.bind_some, Option.pure_def, hvalue,
    UInt16.ofNat_toNat]

theorem scanChars_unicode (unit : UInt16)
    (h : scanChars tail = some (text, rest)) :
    scanChars (unicodeEscape unit ++ tail) = some (unit :: text, rest) := by
  have hhex := scanHex_unit unit
  unfold unicodeEscape
  simp only [List.cons_append, List.nil_append]
  rw [scanChars.eq_def]
  simp only [if_neg (show backslash ≠ quotation by decide), if_true, hhex, h]

theorem shortEscapes_read : ∀ pair ∈ shortEscapes,
    pair.2 ≠ 0x75 ∧ unescape pair.2 = some pair.1 := by
  intro pair hpair
  simp only [shortEscapes, List.mem_cons, List.not_mem_nil, or_false]
    at hpair
  rcases hpair with rfl | rfl | rfl | rfl | rfl | rfl | rfl
  all_goals exact ⟨by decide, by decide⟩

theorem scanChars_escapeUnit (unit : UInt16)
    (h : scanChars tail = some (text, rest)) :
    scanChars (escapeUnit unit ++ tail) = some (unit :: text, rest) := by
  unfold escapeUnit
  cases hfind : shortEscapes.find? (·.1 = unit) with
  | some pair =>
    rcases pair with ⟨own, letter⟩
    have hread := shortEscapes_read _ (List.mem_of_find?_eq_some hfind)
    have hown := List.find?_some hfind
    simp only [decide_eq_true_eq] at hown
    subst hown
    exact scanChars_letter hread.1 hread.2 h
  | none =>
    have hnone := List.find?_eq_none.mp hfind
    have hquote : unit ≠ quotation := by
      rintro rfl
      exact hnone (0x22, 0x22) (by decide) (by decide)
    have hslash : unit ≠ backslash := by
      rintro rfl
      exact hnone (0x5C, 0x5C) (by decide) (by decide)
    simp only
    split
    · exact scanChars_unicode unit h
    · rename_i hplain
      simp only [Bool.or_eq_true, decide_eq_true_eq, not_or] at hplain
      exact scanChars_plain hquote hslash hplain.1.1 h

/-- A quoted string is read back. -/
theorem scanChars_quote (text rest : JsString) :
    scanChars ((JsString.codePoints text).flatMap escapePoint ++
      quotation :: rest) = some (text, rest) := by
  induction text using JsString.codePoints.induct with
  | case1 =>
    rw [JsString.codePoints, List.flatMap_nil, List.nil_append,
      scanChars.eq_def]
    simp
  | case2 unit =>
    have hend : scanChars (quotation :: rest) = some ([], rest) := by
      rw [scanChars.eq_def]
      simp
    have hunit := scanChars_escapeUnit unit hend
    simpa [JsString.codePoints, escapePoint] using hunit
  | case3 unit next more hpair ih =>
    have hhigh : ∀ other : UInt16, other.toNat < 0xD800 →
        unit ≠ other ∧ next ≠ other := by
      intro other hother
      simp only [JsString.isHighSurrogate, JsString.isLowSurrogate,
        Bool.and_eq_true, decide_eq_true_eq] at hpair
      constructor
      · rintro rfl
        omega
      · rintro rfl
        omega
    have hpoints : JsString.codePoints (unit :: next :: more) =
        [unit, next] :: JsString.codePoints more := by
      rw [JsString.codePoints, if_pos hpair]
    have hquote := hhigh quotation (by decide)
    have hslash := hhigh backslash (by decide)
    simp only [JsString.isHighSurrogate, JsString.isLowSurrogate,
      Bool.and_eq_true, decide_eq_true_eq] at hpair
    rw [hpoints, List.flatMap_cons, List.append_assoc]
    apply scanChars_plain hquote.1 hslash.1 (by omega)
    exact scanChars_plain hquote.2 hslash.2 (by omega) ih
  | case4 unit next more hpair ih =>
    have hpoints : JsString.codePoints (unit :: next :: more) =
        [unit] :: JsString.codePoints (next :: more) := by
      rw [JsString.codePoints, if_neg hpair]
    rw [hpoints, List.flatMap_cons, List.append_assoc]
    exact scanChars_escapeUnit unit ih

end Strings

end JsonText
