/-
Natural numbers written in a base of at most ten, as texts of code units.
-/
import Allrice.JsString

namespace DigitText

/-- The code unit of a digit. -/
def digitUnit (digit : Nat) : UInt16 := UInt16.ofNat (0x30 + digit)

def isDigit (unit : UInt16) : Bool :=
  0x30 ≤ unit.toNat && unit.toNat ≤ 0x39

/-- The digits of a number, without leading zeros. -/
def digitsOf (base n : Nat) : JsString :=
  if n = 0 then [digitUnit 0]
  else (Nat.digits base n).reverse.map digitUnit

/-- The number that some digits stand for. -/
def valueOf (base : Nat) (digits : JsString) : Nat :=
  digits.foldl (fun value unit => base * value + (unit.toNat - 0x30)) 0

variable {base : Nat} {digit n : Nat} {unit : UInt16} {digits : JsString}

theorem digitUnit_toNat (h : digit < 10) :
    (digitUnit digit).toNat = 0x30 + digit := by
  rw [digitUnit, UInt16.toNat_ofNat']
  omega

theorem isDigit_digitUnit (h : digit < 10) :
    isDigit (digitUnit digit) = true := by
  rw [isDigit, digitUnit_toNat h]
  simp only [Bool.and_eq_true, decide_eq_true_eq]
  omega

/-- Every unit of a written number is a digit of the base. -/
theorem mem_digitsOf (hbase : 1 < base) (h : unit ∈ digitsOf base n) :
    ∃ digit < base, unit = digitUnit digit := by
  unfold digitsOf at h
  split at h
  · exact ⟨0, by omega, List.mem_singleton.mp h⟩
  · obtain ⟨digit, hdigit, rfl⟩ := List.mem_map.mp h
    exact ⟨digit, Nat.digits_lt_base hbase (List.mem_reverse.mp hdigit), rfl⟩

theorem digitsOf_isDigit (hbase : 1 < base) (hten : base ≤ 10) (n : Nat) :
    ∀ unit ∈ digitsOf base n, isDigit unit = true := by
  intro unit hunit
  obtain ⟨digit, hdigit, rfl⟩ := mem_digitsOf hbase hunit
  exact isDigit_digitUnit (by omega)

theorem digitsOf_ne_nil (base n : Nat) : digitsOf base n ≠ [] := by
  unfold digitsOf
  split
  · simp
  · rename_i hn
    simp [Nat.digits_ne_nil_iff_ne_zero.mpr hn]

theorem valueOf_append (base : Nat) (digits : JsString) (unit : UInt16) :
    valueOf base (digits ++ [unit]) =
      base * valueOf base digits + (unit.toNat - 0x30) := by
  rw [valueOf, List.foldl_append]
  rfl

theorem valueOf_reverse (hten : base ≤ 10) {digits : List Nat}
    (h : ∀ digit ∈ digits, digit < base) :
    valueOf base (digits.reverse.map digitUnit) = Nat.ofDigits base digits := by
  induction digits with
  | nil => rfl
  | cons digit digits ih =>
    have hdigit : digit < base := h digit (by simp)
    have hrest := ih fun other hother => h other (by simp [hother])
    rw [List.reverse_cons, List.map_append, List.map_singleton,
      valueOf_append, hrest, digitUnit_toNat (by omega), Nat.ofDigits_cons]
    omega

/-- Reading a written number gives it back. -/
theorem valueOf_digitsOf (hbase : 1 < base) (hten : base ≤ 10) (n : Nat) :
    valueOf base (digitsOf base n) = n := by
  unfold digitsOf
  split
  · rename_i hn
    rw [hn]
    rfl
  · rw [valueOf_reverse hten, Nat.ofDigits_digits]
    intro digit hdigit
    exact Nat.digits_lt_base hbase hdigit

/-- Leading zeros say nothing. -/
theorem valueOf_zeros (base count : Nat) (digits : JsString) :
    valueOf base (List.replicate count (digitUnit 0) ++ digits) =
      valueOf base digits := by
  induction count with
  | zero => rfl
  | succ count ih =>
    rw [List.replicate_succ, List.cons_append, valueOf, List.foldl_cons]
    exact ih

/-- Zeros at the end are powers of the base. -/
theorem valueOf_append_zeros (base : Nat) (digits : JsString) (count : Nat) :
    valueOf base (digits ++ List.replicate count (digitUnit 0)) =
      valueOf base digits * base ^ count := by
  induction count with
  | zero => simp
  | succ count ih =>
    rw [List.replicate_succ', ← List.append_assoc, valueOf_append, ih,
      digitUnit_toNat (by omega), Nat.pow_succ]
    rw [Nat.add_sub_cancel_left, Nat.add_zero, Nat.mul_comm base,
      Nat.mul_assoc]

theorem lt_pow_length (hbase : 1 < base) (n : Nat) :
    n < base ^ (digitsOf base n).length := by
  unfold digitsOf
  split
  · rename_i hn
    rw [hn]
    exact Nat.pow_pos (by omega)
  · rw [List.length_map, List.length_reverse]
    exact Nat.lt_base_pow_length_digits hbase

theorem digitsOf_length_le (hbase : 1 < base) {count : Nat} (hcount : 0 < count)
    (h : n < base ^ count) : (digitsOf base n).length ≤ count := by
  unfold digitsOf
  split
  · exact hcount
  · rw [List.length_map, List.length_reverse]
    exact (Nat.digits_length_le_iff hbase n).mpr h

/-- `digits.padStart(width, '0')`. -/
def padStart (width : Nat) (digits : JsString) : JsString :=
  List.replicate (width - digits.length) (digitUnit 0) ++ digits

/-- The digits of a base that is at most ten. -/
def isDigitOf (base : Nat) (unit : UInt16) : Bool :=
  0x30 ≤ unit.toNat && unit.toNat < 0x30 + base

/-- `parseInt(text, base)` for a base of at most ten; `none` is `NaN`. -/
def parseInt (base : Nat) (text : JsString) : Option Int :=
  let text := text.dropWhile JsString.isWhitespace
  let negative := text.head? = some 0x2D
  let text := if negative ∨ text.head? = some 0x2B then text.tail else text
  let digits := text.takeWhile (isDigitOf base)
  if digits = [] then none
  else if negative then some (-(valueOf base digits : Int))
  else some (valueOf base digits)

theorem padStart_length {width : Nat} (h : digits.length ≤ width) :
    (padStart width digits).length = width := by
  rw [padStart, List.length_append, List.length_replicate]
  omega

theorem valueOf_padStart (base width : Nat) (digits : JsString) :
    valueOf base (padStart width digits) = valueOf base digits :=
  valueOf_zeros base _ digits

theorem isDigitOf_digitUnit (hten : base ≤ 10) (h : digit < base) :
    isDigitOf base (digitUnit digit) = true := by
  rw [isDigitOf, digitUnit_toNat (by omega)]
  simp only [Bool.and_eq_true, decide_eq_true_eq]
  omega

theorem padStart_isDigitOf (hbase : 1 < base) (hten : base ≤ 10)
    (width n : Nat) :
    ∀ unit ∈ padStart width (digitsOf base n), isDigitOf base unit = true := by
  intro unit hunit
  rcases List.mem_append.mp hunit with hunit | hunit
  · rw [List.eq_of_mem_replicate hunit]
    exact isDigitOf_digitUnit hten (by omega)
  · obtain ⟨digit, hdigit, rfl⟩ := mem_digitsOf hbase hunit
    exact isDigitOf_digitUnit hten hdigit

theorem isDigitOf_range (hten : base ≤ 10) (h : isDigitOf base unit = true) :
    0x30 ≤ unit.toNat ∧ unit.toNat < 0x3A := by
  simp only [isDigitOf, Bool.and_eq_true, decide_eq_true_eq] at h
  omega

theorem not_whitespace_of_digit (h : 0x30 ≤ unit.toNat ∧ unit.toNat < 0x3A) :
    JsString.isWhitespace unit = false := by
  simp only [JsString.isWhitespace, Bool.or_eq_false_iff,
    Bool.and_eq_false_iff, decide_eq_false_iff_not, beq_eq_false_iff_ne]
  omega

/-- A text of digits is read as their number. -/
theorem parseInt_digits (hten : base ≤ 10) (hne : digits ≠ [])
    (h : ∀ unit ∈ digits, isDigitOf base unit = true) :
    parseInt base digits = some (valueOf base digits : Int) := by
  cases digits with
  | nil => exact absurd rfl hne
  | cons unit rest =>
    have hrange := isDigitOf_range hten (h unit (by simp))
    have hspace := not_whitespace_of_digit hrange
    have hminus : unit ≠ 0x2D := by
      rintro rfl
      exact absurd hrange.1 (by decide)
    have hplus : unit ≠ 0x2B := by
      rintro rfl
      exact absurd hrange.1 (by decide)
    have htake : (unit :: rest).takeWhile (isDigitOf base) =
        unit :: rest := List.takeWhile_eq_self_iff.mpr h
    unfold parseInt
    rw [List.dropWhile_cons, hspace]
    simp [hminus, hplus, htake]

end DigitText
