/-
Numbers as texts: how JavaScript writes a double, how JSON writes one, and what
`Number(text)` makes of a text.
-/
import Allrice.JsNumber

namespace NumberText

open DigitText JsNumber

def point : UInt16 := 0x2E

def minus : UInt16 := 0x2D

/-- `e+21` and the like. -/
def exponentText (exponent : Int) : JsString :=
  0x65 :: (if exponent < 0 then minus else 0x2B) ::
    digitsOf 10 exponent.natAbs

/-- Digits, a fraction where there is one, and what follows. -/
def numeral (whole fraction exponent : JsString) : JsString :=
  whole ++ (if fraction = [] then [] else point :: fraction) ++ exponent

/-- The text of a positive number from its shortest digits. -/
def positiveText (digits : Nat) (exponent : Int) : JsString :=
  let text := digitsOf 10 digits
  let length : Int := exponent + text.length
  if text.length ≤ length ∧ length ≤ 21 then
    numeral (text ++ List.replicate exponent.toNat (digitUnit 0)) [] []
  else if 0 < length ∧ length ≤ 21 then
    numeral (text.take length.toNat) (text.drop length.toNat) []
  else if -6 < length ∧ length ≤ 0 then
    numeral [digitUnit 0]
      (List.replicate (-length).toNat (digitUnit 0) ++ text) []
  else numeral (text.take 1) (text.drop 1) (exponentText (length - 1))

/-- `String(value)`. -/
def toText : JsNumber → JsString
  | .nan => JsString.ofString "NaN"
  | .infinity negative =>
    JsString.ofString (if negative then "-Infinity" else "Infinity")
  | .finite negative magnitude =>
    if magnitude.units = 0 then [digitUnit 0]
    else
      let (digits, exponent) := decimalOf magnitude
      let text := positiveText digits exponent
      if negative then minus :: text else text

/-- A sign at the front, if there is one. -/
def scanSign (text : JsString) : Bool × JsString :=
  match text with
  | [] => (false, [])
  | unit :: rest =>
    if unit = minus then (true, rest)
    else if unit = 0x2B then (false, rest)
    else (false, unit :: rest)

/-- The part of a numeral from its exponent on. -/
def scanExponent (text : JsString) : Option (Int × JsString) :=
  match text with
  | [] => none
  | unit :: rest =>
    if unit = 0x65 ∨ unit = 0x45 then
      let (negative, rest) := scanSign rest
      let digits := rest.takeWhile isDigit
      if digits = [] then none
      else
        let value : Int := valueOf 10 digits
        some (if negative then -value else value, rest.dropWhile isDigit)
    else none

/-- The digits before the point: one zero, or no leading zero. -/
def scanWhole (text : JsString) : Option (JsString × JsString) :=
  if text.head? = some (digitUnit 0) then some ([digitUnit 0], text.tail)
  else
    let digits := text.takeWhile isDigit
    if digits = [] then none else some (digits, text.dropWhile isDigit)

/-- The fraction, if there is a point. -/
def scanFraction (text : JsString) : Option (JsString × JsString) :=
  if text.head? = some point then
    let digits := text.tail.takeWhile isDigit
    if digits = [] then none else some (digits, text.tail.dropWhile isDigit)
  else some ([], text)

/-- The exponent, if there is one. -/
def scanOptionalExponent (text : JsString) : Option (Int × JsString) :=
  if text.head? = some 0x65 ∨ text.head? = some 0x45 then scanExponent text
  else some (0, text)

/-- A JSON number at the front of a text, after its sign. -/
def scanUnsigned (negative : Bool) (text : JsString) :
    Option (JsNumber × JsString) := do
  let (whole, text) ← scanWhole text
  let (fraction, text) ← scanFraction text
  let (exponent, text) ← scanOptionalExponent text
  return (ofDecimal negative (valueOf 10 (whole ++ fraction))
    (exponent - fraction.length), text)

/-- A JSON number at the front of a text. -/
def scanNumber (text : JsString) : Option (JsNumber × JsString) :=
  if text.head? = some minus then scanUnsigned true text.tail
  else scanUnsigned false text

/-- The value of a digit of a base up to sixteen. -/
def hexDigit (unit : UInt16) : Option Nat :=
  let n := unit.toNat
  if 0x30 ≤ n ∧ n ≤ 0x39 then some (n - 0x30)
  else if 0x61 ≤ n ∧ n ≤ 0x66 then some (n - 0x57)
  else if 0x41 ≤ n ∧ n ≤ 0x46 then some (n - 0x37)
  else none

/-- Digits of a base, all of them or none. -/
def scanRadix (base : Nat) (digits : JsString) : JsNumber :=
  match digits.mapM hexDigit with
  | some values =>
    if values ≠ [] ∧ values.all (· < base) then
      ofDecimal false (values.foldl (fun n digit => base * n + digit) 0) 0
    else .nan
  | none => .nan

/-- A decimal literal without its sign. -/
def ofUnsigned (negative : Bool) (text : JsString) : JsNumber :=
  if text = JsString.ofString "Infinity" then .infinity negative
  else
    let whole := text.takeWhile isDigit
    let rest := text.dropWhile isDigit
    let pointed := rest.head? = some point
    let fraction := if pointed then rest.tail.takeWhile isDigit else []
    let rest := if pointed then rest.tail.dropWhile isDigit else rest
    if whole = [] ∧ fraction = [] then .nan
    else
      match scanOptionalExponent rest with
      | some (exponent, []) =>
        ofDecimal negative (valueOf 10 (whole ++ fraction))
          (exponent - fraction.length)
      | _ => .nan

/-- `Number(text)`. -/
def ofText (text : JsString) : JsNumber :=
  match JsString.trim text with
  | [] => ofDecimal false 0 0
  | 0x30 :: 0x78 :: digits => scanRadix 16 digits
  | 0x30 :: 0x58 :: digits => scanRadix 16 digits
  | 0x30 :: 0x6F :: digits => scanRadix 8 digits
  | 0x30 :: 0x4F :: digits => scanRadix 8 digits
  | 0x30 :: 0x62 :: digits => scanRadix 2 digits
  | 0x30 :: 0x42 :: digits => scanRadix 2 digits
  | 0x2D :: text => ofUnsigned true text
  | 0x2B :: text => ofUnsigned false text
  | text => ofUnsigned false text

/-- What may follow a number. -/
def EndsNumber (rest : JsString) : Prop :=
  ∀ unit ∈ rest.head?, isDigit unit = false ∧ unit ≠ point ∧
    unit ≠ 0x65 ∧ unit ≠ 0x45

variable {rest whole fraction : JsString}

theorem span_digits {digits : JsString}
    (hdigits : ∀ unit ∈ digits, isDigit unit = true)
    (hrest : ∀ unit ∈ rest.head?, isDigit unit = false) :
    (digits ++ rest).takeWhile isDigit = digits ∧
      (digits ++ rest).dropWhile isDigit = rest := by
  induction digits with
  | nil =>
    cases rest with
    | nil => exact ⟨rfl, rfl⟩
    | cons unit rest =>
      have hunit : isDigit unit = false := hrest unit rfl
      simp [hunit]
  | cons unit digits ih =>
    have hunit : isDigit unit = true := hdigits unit (by simp)
    obtain ⟨htake, hdrop⟩ := ih fun other hother =>
      hdigits other (by simp [hother])
    simp [hunit, htake, hdrop]

theorem scanExponent_text (exponent : Int) (hrest : EndsNumber rest) :
    scanExponent (exponentText exponent ++ rest) = some (exponent, rest) := by
  have hdigits : ∀ unit ∈ digitsOf 10 exponent.natAbs, isDigit unit = true :=
    digitsOf_isDigit (by decide) (by decide) _
  obtain ⟨htake, hdrop⟩ := span_digits hdigits
    fun unit hunit => (hrest unit hunit).1
  have hvalue : valueOf 10 (digitsOf 10 exponent.natAbs) =
      exponent.natAbs := valueOf_digitsOf (by decide) (by decide) _
  have hne := digitsOf_ne_nil 10 exponent.natAbs
  have hsign : ¬(0x2B : UInt16) = minus := by decide
  unfold exponentText
  by_cases hnegative : exponent < 0
  · simp only [if_pos hnegative, List.cons_append, scanExponent, true_or,
      if_true, scanSign, htake, hdrop, hne, hvalue, if_false]
    congr 2
    omega
  · simp only [if_neg hnegative, List.cons_append, scanExponent, true_or,
      if_true, scanSign, hsign, htake, hdrop, hne, hvalue, if_false]
    congr 2
    simp only [Bool.false_eq_true, if_false]
    omega

/-- The exponent of a numeral, or nothing. -/
def optionalExponent : Option Int → JsString
  | none => []
  | some exponent => exponentText exponent

theorem scanOptionalExponent_text (exponent : Option Int)
    (hrest : EndsNumber rest) :
    scanOptionalExponent (optionalExponent exponent ++ rest) =
      some (exponent.getD 0, rest) := by
  cases exponent with
  | none =>
    have hnone : ¬(rest.head? = some 0x65 ∨ rest.head? = some 0x45) := by
      rintro (hhead | hhead)
      · exact (hrest _ hhead).2.2.1 rfl
      · exact (hrest _ hhead).2.2.2 rfl
    rw [optionalExponent, List.nil_append, scanOptionalExponent,
      if_neg hnone]
    rfl
  | some exponent =>
    have hhead : (exponentText exponent ++ rest).head? = some 0x65 := rfl
    rw [optionalExponent, scanOptionalExponent, hhead,
      if_pos (.inl rfl), scanExponent_text exponent hrest]
    rfl

/-- What follows the digits of a numeral starts with no digit. -/
theorem optionalExponent_head (exponent : Option Int) {rest : JsString}
    (hrest : EndsNumber rest) :
    ∀ unit ∈ (optionalExponent exponent ++ rest).head?,
      isDigit unit = false ∧ unit ≠ point := by
  intro unit hunit
  cases exponent with
  | none => exact ⟨(hrest unit hunit).1, (hrest unit hunit).2.1⟩
  | some exponent =>
    cases hunit
    decide

/-- What a numeral must be for JSON. -/
structure IsNumeral (whole fraction : JsString) : Prop where
  wholeDigits : ∀ unit ∈ whole, isDigit unit = true
  notEmpty : whole ≠ []
  leading : whole = [digitUnit 0] ∨ whole.head? ≠ some (digitUnit 0)
  fractionDigits : ∀ unit ∈ fraction, isDigit unit = true

theorem scanWhole_numeral (h : IsNumeral whole fraction)
    (hrest : ∀ unit ∈ rest.head?, isDigit unit = false) :
    scanWhole (whole ++ rest) = some (whole, rest) := by
  obtain ⟨htake, hdrop⟩ := span_digits h.wholeDigits hrest
  unfold scanWhole
  rcases h.leading with rfl | hleading
  · rfl
  · have hhead : (whole ++ rest).head? = whole.head? := by
      cases whole with
      | nil => exact absurd rfl h.notEmpty
      | cons unit whole => rfl
    rw [hhead, if_neg hleading]
    simp only [htake, hdrop, if_neg h.notEmpty]

theorem scanFraction_numeral (h : IsNumeral whole fraction)
    (hrest : ∀ unit ∈ rest.head?, isDigit unit = false ∧ unit ≠ point) :
    scanFraction ((if fraction = [] then [] else point :: fraction) ++ rest) =
      some (fraction, rest) := by
  unfold scanFraction
  by_cases hfraction : fraction = []
  · have hpoint : ¬rest.head? = some point := by
      intro hhead
      exact (hrest _ hhead).2 rfl
    rw [if_pos hfraction, List.nil_append, if_neg hpoint, hfraction]
  · obtain ⟨htake, hdrop⟩ := span_digits h.fractionDigits
      fun unit hunit => (hrest unit hunit).1
    rw [if_neg hfraction, List.cons_append, List.head?_cons, if_pos rfl]
    simp only [List.tail_cons, htake, hdrop, if_neg hfraction]

/-- A numeral is read whole. -/
theorem scanUnsigned_numeral (h : IsNumeral whole fraction)
    (exponent : Option Int) (hrest : EndsNumber rest) (negative : Bool) :
    scanUnsigned negative
        (numeral whole fraction (optionalExponent exponent) ++ rest) =
      some (ofDecimal negative (valueOf 10 (whole ++ fraction))
        (exponent.getD 0 - fraction.length), rest) := by
  have hexponent := scanOptionalExponent_text exponent hrest
  have htail := optionalExponent_head exponent hrest
  have hfraction := scanFraction_numeral h htail
  have hend : ∀ unit ∈ ((if fraction = [] then [] else point :: fraction) ++
      (optionalExponent exponent ++ rest)).head?, isDigit unit = false := by
    intro unit hunit
    by_cases hnil : fraction = []
    · rw [if_pos hnil, List.nil_append] at hunit
      exact (htail unit hunit).1
    · rw [if_neg hnil] at hunit
      cases hunit
      decide
  have hwhole := scanWhole_numeral h hend
  unfold scanUnsigned
  rw [numeral, List.append_assoc, List.append_assoc, hwhole]
  simp only [Option.bind_eq_bind, Option.bind_some, hfraction, hexponent]
  rfl

theorem numeral_head (h : IsNumeral whole fraction) (exponent rest : JsString) :
    (numeral whole fraction exponent ++ rest).head? ≠ some minus := by
  cases whole with
  | nil => exact absurd rfl h.notEmpty
  | cons unit whole =>
    intro hhead
    cases hhead
    exact absurd (h.wholeDigits minus (by simp)) (by decide)

theorem scanNumber_numeral (h : IsNumeral whole fraction)
    (exponent : Option Int) (hrest : EndsNumber rest) (negative : Bool) :
    scanNumber ((if negative then
          minus :: numeral whole fraction (optionalExponent exponent)
        else numeral whole fraction (optionalExponent exponent)) ++ rest) =
      some (ofDecimal negative (valueOf 10 (whole ++ fraction))
        (exponent.getD 0 - fraction.length), rest) := by
  cases negative with
  | true => exact scanUnsigned_numeral h exponent hrest true
  | false =>
    have hhead := numeral_head h (optionalExponent exponent) rest
    rw [if_neg (by decide), scanNumber, if_neg hhead]
    exact scanUnsigned_numeral h exponent hrest false

/-- The digits of a number that is not zero start with none. -/
theorem digitsOf_head {n : Nat} (hn : n ≠ 0) :
    (digitsOf 10 n).head? ≠ some (digitUnit 0) := by
  unfold digitsOf
  rw [if_neg hn]
  have hne : Nat.digits 10 n ≠ [] := Nat.digits_ne_nil_iff_ne_zero.mpr hn
  have hlast := Nat.getLast_digit_ne_zero 10 hn
  rw [List.head?_map, List.head?_reverse, List.getLast?_eq_some_getLast hne]
  intro hzero
  have hdigit : (Nat.digits 10 n).getLast hne < 10 :=
    Nat.digits_lt_base (by decide) (List.getLast_mem hne)
  have hunit := congrArg UInt16.toNat (Option.some.inj hzero)
  rw [digitUnit_toNat hdigit, digitUnit_toNat (by decide)] at hunit
  omega

/-- A positive number is written as a numeral of the same value. -/
theorem positiveText_numeral {digits : Nat} (hdigits : digits ≠ 0)
    (exponent : Int) (negative : Bool) :
    ∃ whole fraction power, IsNumeral whole fraction ∧
      positiveText digits exponent =
        numeral whole fraction (optionalExponent power) ∧
      ofDecimal negative (valueOf 10 (whole ++ fraction))
          (power.getD 0 - fraction.length) =
        ofDecimal negative digits exponent := by
  have hall : ∀ unit ∈ digitsOf 10 digits, isDigit unit = true :=
    digitsOf_isDigit (by decide) (by decide) digits
  have hne := digitsOf_ne_nil 10 digits
  have hhead := digitsOf_head hdigits
  have hvalue : valueOf 10 (digitsOf 10 digits) = digits :=
    valueOf_digitsOf (by decide) (by decide) digits
  have hzeros : ∀ count, ∀ unit ∈ List.replicate count (digitUnit 0),
      isDigit unit = true := by
    intro count unit hunit
    rw [List.eq_of_mem_replicate hunit]
    decide
  unfold positiveText
  simp only
  generalize digitsOf 10 digits = text at *
  have hpos : 0 < text.length := List.length_pos_iff.mpr hne
  have hfirst : ∀ count, 0 < count →
      (text.take count).head? = text.head? := by
    intro count hcount
    cases text with
    | nil => exact absurd rfl hne
    | cons unit text =>
      cases count with
      | zero => omega
      | succ count => rfl
  split
  · rename_i hwhole
    refine ⟨_, [], none, ⟨?_, ?_, ?_, by simp⟩, rfl, ?_⟩
    · intro unit hunit
      rcases List.mem_append.mp hunit with hunit | hunit
      · exact hall unit hunit
      · exact hzeros _ unit hunit
    · simp [hne]
    · apply Or.inr
      cases text with
      | nil => exact absurd rfl hne
      | cons unit text => exact hhead
    · rw [List.append_nil, valueOf_append_zeros, hvalue, ofDecimal_zeros]
      congr 1
      simp only [Option.getD_none, List.length_nil]
      omega
  split
  · rename_i hlarge hpointed
    refine ⟨_, _, none, ⟨?_, ?_, ?_, ?_⟩, rfl, ?_⟩
    · intro unit hunit
      exact hall unit (List.mem_of_mem_take hunit)
    · intro hnil
      rcases List.take_eq_nil_iff.mp hnil with hzero | hnil
      · omega
      · exact hne hnil
    · apply Or.inr
      rw [hfirst _ (by omega)]
      exact hhead
    · intro unit hunit
      exact hall unit (List.mem_of_mem_drop hunit)
    · rw [List.take_append_drop, hvalue]
      congr 1
      simp only [Option.getD_none, List.length_drop]
      omega
  split
  · rename_i hlarge hpointed hsmall
    refine ⟨_, _, none, ⟨?_, by simp, .inl rfl, ?_⟩, rfl, ?_⟩
    · intro unit hunit
      rw [List.mem_singleton.mp hunit]
      decide
    · intro unit hunit
      rcases List.mem_append.mp hunit with hunit | hunit
      · exact hzeros _ unit hunit
      · exact hall unit hunit
    · have hlead := valueOf_zeros 10 1
        (List.replicate (-(exponent + text.length)).toNat (digitUnit 0) ++
          text)
      rw [List.replicate_one] at hlead
      rw [hlead, valueOf_zeros, hvalue]
      congr 1
      simp only [Option.getD_none, List.length_append, List.length_replicate]
      omega
  · rename_i hlarge hpointed hsmall
    refine ⟨_, _, some (exponent + text.length - 1), ⟨?_, ?_, ?_, ?_⟩, rfl,
      ?_⟩
    · intro unit hunit
      exact hall unit (List.mem_of_mem_take hunit)
    · intro hnil
      rcases List.take_eq_nil_iff.mp hnil with hzero | hnil
      · omega
      · exact hne hnil
    · apply Or.inr
      rw [hfirst _ (by omega)]
      exact hhead
    · intro unit hunit
      exact hall unit (List.mem_of_mem_drop hunit)
    · rw [List.take_append_drop, hvalue]
      congr 1
      simp only [Option.getD_some, List.length_drop]
      omega

/-- A finite number, apart from the sign of zero, is read back as it was
written. -/
theorem scanNumber_toText {negative : Bool} {magnitude : Magnitude}
    (hzero : magnitude.units = 0 → negative = false) (hrest : EndsNumber rest) :
    scanNumber (toText (.finite negative magnitude) ++ rest) =
      some (.finite negative magnitude, rest) := by
  by_cases hunits : magnitude.units = 0
  · have hsign := hzero hunits
    subst hsign
    simp only [toText, if_pos hunits]
    have hnumeral : IsNumeral [digitUnit 0] [] := by
      refine ⟨?_, by simp, .inl rfl, by simp⟩
      intro unit hunit
      rw [List.mem_singleton.mp hunit]
      decide
    have hscan := scanNumber_numeral hnumeral none hrest false
    have hreads : ofDecimal false 0 0 = .finite false magnitude := by
      have hexact := ofDecimal_exact false magnitude
      have hmoved := ofDecimal_zeros false 0 places (-places)
      rw [hunits, Nat.zero_mul] at hexact
      rw [Nat.zero_mul, hexact, Int.add_left_neg] at hmoved
      exact hmoved.symm
    rw [← hreads]
    exact hscan
  · have hreads := decimalOf_reads magnitude
    simp only [toText, if_neg hunits]
    generalize decimalOf magnitude = decimal at hreads
    obtain ⟨digits, exponent⟩ := decimal
    have hdigits : digits ≠ 0 := by
      rintro rfl
      exact hunits (units_of_zero hreads)
    obtain ⟨whole, fraction, power, hnumeral, htext, hvalue⟩ :=
      positiveText_numeral hdigits exponent negative
    have hscan := scanNumber_numeral hnumeral power hrest negative
    rw [hvalue, ofDecimal_sign hreads negative] at hscan
    simp only [htext]
    exact hscan

/-- A text of digits is their number. -/
theorem ofText_digits (n : Nat) :
    ofText (digitsOf 10 n) = ofDecimal false n 0 := by
  have hall : ∀ unit ∈ digitsOf 10 n, isDigit unit = true :=
    digitsOf_isDigit (by decide) (by decide) n
  have hne := digitsOf_ne_nil 10 n
  have hvalue : valueOf 10 (digitsOf 10 n) = n :=
    valueOf_digitsOf (by decide) (by decide) n
  generalize digitsOf 10 n = text at *
  have htrim : JsString.trim text = text := by
    apply JsString.trim_of_none
    intro unit hunit
    apply not_whitespace_of_digit
    have hdigit := hall unit hunit
    simp only [isDigit, Bool.and_eq_true, decide_eq_true_eq] at hdigit
    omega
  have hnot : ∀ unit, isDigit unit = false → unit ∉ text := by
    intro unit hunit hmem
    rw [hall unit hmem] at hunit
    cases hunit
  have hunsigned : ofUnsigned false text = ofDecimal false n 0 := by
    have hinfinity : text ≠ JsString.ofString "Infinity" := by
      rintro rfl
      exact hnot 0x49 (by decide) (by decide)
    have htake : text.takeWhile isDigit = text :=
      List.takeWhile_eq_self_iff.mpr hall
    have hdrop : text.dropWhile isDigit = [] :=
      List.dropWhile_eq_nil_iff.mpr hall
    unfold ofUnsigned
    rw [if_neg hinfinity]
    simp only [htake, hdrop, hne]
    simp [scanOptionalExponent, hvalue]
  unfold ofText
  rw [htrim]
  split
  · exact absurd rfl hne
  · exact absurd (by simp) (hnot 0x78 (by decide))
  · exact absurd (by simp) (hnot 0x58 (by decide))
  · exact absurd (by simp) (hnot 0x6F (by decide))
  · exact absurd (by simp) (hnot 0x4F (by decide))
  · exact absurd (by simp) (hnot 0x62 (by decide))
  · exact absurd (by simp) (hnot 0x42 (by decide))
  · exact absurd (by simp) (hnot 0x2D (by decide))
  · exact absurd (by simp) (hnot 0x2B (by decide))
  · exact hunsigned

end NumberText
