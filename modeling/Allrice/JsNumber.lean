/-
Numbers as JavaScript has them: IEEE doubles.  The magnitude of a finite double
is a whole number of the smallest positive one, so that rounding and comparing
are arithmetic on natural numbers.  A decimal is the nearest double, and a
double is written as the shortest decimal that reads back as it.
-/
import Allrice.DigitText

namespace Rounding

/-- The nearest whole number to a quotient, the even one of two. -/
def roundQuotient (num den : Nat) : Nat :=
  if 2 * (num % den) < den ∨
      2 * (num % den) = den ∧ num / den % 2 = 0 then num / den
  else num / den + 1

/-- Between doubles of this size there are so many binary places. -/
def spacing (units : Nat) : Nat := units.log2 - 52

/-- The nearest double to a quotient, in units of the smallest one. -/
def roundUnits (num den : Nat) : Nat :=
  let step := 2 ^ spacing (num / den)
  roundQuotient num (den * step) * step

variable {den factor : Nat}

theorem roundQuotient_mul (num den : Nat) (hfactor : 0 < factor) :
    roundQuotient (num * factor) (den * factor) = roundQuotient num den := by
  have hmod : 2 * (num * factor % (den * factor)) =
      2 * (num % den) * factor := by
    rw [Nat.mul_mod_mul_right, Nat.mul_assoc]
  unfold roundQuotient
  rw [hmod, Nat.mul_div_mul_right num den hfactor]
  simp only [Nat.mul_lt_mul_right hfactor,
    Nat.mul_left_inj (Nat.ne_of_gt hfactor)]

theorem roundUnits_mul (num den : Nat) (hfactor : 0 < factor) :
    roundUnits (num * factor) (den * factor) = roundUnits num den := by
  unfold roundUnits
  simp only
  rw [Nat.mul_div_mul_right num den hfactor, Nat.mul_right_comm,
    roundQuotient_mul _ _ hfactor]

theorem roundQuotient_exact (k : Nat) (hden : 0 < den) :
    roundQuotient (k * den) den = k := by
  unfold roundQuotient
  rw [Nat.mul_mod_left, Nat.mul_div_cancel k hden, if_pos (by omega)]

theorem roundQuotient_le {num bound : Nat} (hden : 0 < den)
    (h : num < bound * den) : roundQuotient num den ≤ bound := by
  have hdiv : num / den < bound := (Nat.div_lt_iff_lt_mul hden).mpr h
  unfold roundQuotient
  split
  · omega
  · omega

/-- What has 53 binary digits and zeros is a double. -/
theorem roundUnits_of_form {m : Nat} (s : Nat) (hm : m < 2 ^ 53) :
    roundUnits (m * 2 ^ s) 1 = m * 2 ^ s := by
  by_cases hzero : m = 0
  · subst hzero
    rw [Nat.zero_mul]
    decide
  · have hspacing : spacing (m * 2 ^ s) ≤ s := by
      have hne : m * 2 ^ s ≠ 0 :=
        Nat.mul_ne_zero hzero (Nat.ne_of_gt (Nat.two_pow_pos s))
      have hlog : (m * 2 ^ s).log2 < 53 + s := by
        apply (Nat.log2_lt hne).mpr
        rw [Nat.pow_add]
        exact Nat.mul_lt_mul_of_pos_right hm (Nat.two_pow_pos s)
      unfold spacing
      omega
    unfold roundUnits
    simp only [Nat.div_one, Nat.one_mul]
    generalize spacing (m * 2 ^ s) = t at hspacing
    have hsplit : m * 2 ^ s = m * 2 ^ (s - t) * 2 ^ t := by
      rw [Nat.mul_assoc, ← Nat.pow_add, Nat.sub_add_cancel hspacing]
    rw [hsplit, roundQuotient_exact _ (Nat.two_pow_pos t)]

theorem roundUnits_exact {n : Nat} (h : n ≤ 2 ^ 53) : roundUnits n 1 = n := by
  by_cases hlt : n < 2 ^ 53
  · have hform := roundUnits_of_form 0 hlt
    rw [Nat.pow_zero, Nat.mul_one] at hform
    exact hform
  · have hform := @roundUnits_of_form (2 ^ 52) 1 (by decide)
    rw [← Nat.pow_add] at hform
    rw [Nat.le_antisymm h (Nat.le_of_not_lt hlt)]
    exact hform

/-- Rounding gives at most 53 binary digits and zeros. -/
theorem roundUnits_form (num : Nat) (hden : 0 < den) :
    ∃ m s, m < 2 ^ 53 ∧ roundUnits num den = m * 2 ^ s := by
  have hle : roundQuotient num (den * 2 ^ spacing (num / den)) ≤ 2 ^ 53 := by
    apply roundQuotient_le
    · exact Nat.mul_pos hden (Nat.two_pow_pos _)
    · have hlt : num / den < 2 ^ 53 * 2 ^ spacing (num / den) := by
        rw [← Nat.pow_add]
        apply Nat.lt_of_lt_of_le Nat.lt_log2_self
        apply Nat.pow_le_pow_right (by decide)
        unfold spacing
        omega
      rw [Nat.div_lt_iff_lt_mul hden] at hlt
      rw [Nat.mul_comm den, ← Nat.mul_assoc]
      exact hlt
  unfold roundUnits
  simp only
  generalize spacing (num / den) = t at hle
  generalize roundQuotient num (den * 2 ^ t) = m at hle
  by_cases hm : m < 2 ^ 53
  · exact ⟨m, t, hm, rfl⟩
  · refine ⟨2 ^ 52, t + 1, by decide, ?_⟩
    have heq : m = 2 ^ 53 := by omega
    rw [heq, ← Nat.pow_add, ← Nat.pow_add]
    congr 1
    omega

theorem roundUnits_idem (num : Nat) (hden : 0 < den) :
    roundUnits (roundUnits num den) 1 = roundUnits num den := by
  obtain ⟨m, s, hm, heq⟩ := roundUnits_form num hden
  rw [heq]
  exact roundUnits_of_form s hm

end Rounding

open Rounding DigitText

/-- The magnitude of a finite double. -/
structure Magnitude where
  units : Nat
  isDouble : roundUnits units 1 = units
  bounded : units < 2 ^ 2098
  deriving DecidableEq

inductive JsNumber where
  | nan
  | infinity (negative : Bool)
  | finite (negative : Bool) (magnitude : Magnitude)
  deriving DecidableEq

namespace JsNumber

/-- The smallest positive double has so many binary places. -/
def places : Nat := 1074

/-- How many units make the number one. -/
def one : Nat := 2 ^ places

theorem one_pos : 0 < one := Nat.two_pow_pos places

/-- The double nearest to a quotient of units. -/
def ofRatio (negative : Bool) (num den : Nat) (hden : 0 < den) : JsNumber :=
  if h : roundUnits num den < 2 ^ 2098 then
    .finite negative ⟨roundUnits num den, roundUnits_idem num hden, h⟩
  else .infinity negative

/-- The number that a decimal stands for: digits and a power of ten. -/
def ofDecimal (negative : Bool) (digits : Nat) (exponent : Int) : JsNumber :=
  if 0 ≤ exponent then
    ofRatio negative (digits * 10 ^ exponent.toNat * one) 1 (by decide)
  else
    ofRatio negative (digits * one) (10 ^ (-exponent).toNat)
      (Nat.pow_pos (by decide))

/-- The whole number that a double is, if it is one. -/
def toInt? : JsNumber → Option Int
  | .finite negative magnitude =>
    if magnitude.units % one = 0 then
      let whole : Int := (magnitude.units / one : Nat)
      some (if negative then -whole else whole)
    else none
  | _ => none

/-- `Number.isSafeInteger(value)`. -/
def isSafeInteger (value : JsNumber) : Bool :=
  match value.toInt? with
  | some n => n.natAbs < 2 ^ 53
  | none => false

/-- `Number.isFinite(value)`. -/
def isFinite : JsNumber → Bool
  | .finite _ _ => true
  | _ => false

theorem ofRatio_mul (negative : Bool) (num den : Nat) (hden : 0 < den)
    {factor : Nat} (hfactor : 0 < factor) :
    ofRatio negative (num * factor) (den * factor)
        (Nat.mul_pos hden hfactor) = ofRatio negative num den hden := by
  unfold ofRatio
  simp only [roundUnits_mul num den hfactor]

variable {magnitude : Magnitude} {exponent : Int} {num den digits : Nat}

theorem ofRatio_congr (negative : Bool) {num' den' : Nat} (hden : 0 < den)
    (hden' : 0 < den') (h : num * den' = num' * den) :
    ofRatio negative num den hden = ofRatio negative num' den' hden' := by
  have hleft := ofRatio_mul negative num den hden hden'
  have hright := ofRatio_mul negative num' den' hden' hden
  rw [← hleft, ← hright]
  simp only [h, Nat.mul_comm den den']

/-- Zeros after the digits are powers of ten. -/
theorem ofDecimal_zeros (negative : Bool) (digits count : Nat)
    (exponent : Int) :
    ofDecimal negative (digits * 10 ^ count) exponent =
      ofDecimal negative digits (exponent + count) := by
  unfold ofDecimal
  by_cases hexponent : 0 ≤ exponent
  · rw [if_pos hexponent, if_pos (by omega)]
    have hsum : (exponent + count).toNat = count + exponent.toNat := by omega
    rw [hsum]
    simp only [Nat.pow_add, Nat.mul_assoc]
  · rw [if_neg hexponent]
    split
    · rename_i hsum
      apply ofRatio_congr
      have hcount : count = (exponent + count).toNat + (-exponent).toNat := by
        omega
      conv_lhs => rw [hcount]
      rw [Nat.pow_add]
      ring
    · rename_i hsum
      apply ofRatio_congr
      have hcount : (-exponent).toNat =
          count + (-(exponent + count)).toNat := by omega
      rw [hcount, Nat.pow_add]
      ring

theorem ofRatio_sign {num den : Nat} {hden : 0 < den}
    {magnitude : Magnitude}
    (h : ofRatio false num den hden = .finite false magnitude)
    (negative : Bool) :
    ofRatio negative num den hden = .finite negative magnitude := by
  unfold ofRatio at h ⊢
  split at h
  · rename_i hlt
    cases h
    rw [dif_pos hlt]
  · cases h

/-- The sign of a decimal is the sign of its number. -/
theorem ofDecimal_sign
    (h : ofDecimal false digits exponent = .finite false magnitude)
    (negative : Bool) :
    ofDecimal negative digits exponent = .finite negative magnitude := by
  unfold ofDecimal at h ⊢
  split at h
  · rename_i hexponent
    rw [if_pos hexponent]
    exact ofRatio_sign h negative
  · rename_i hexponent
    rw [if_neg hexponent]
    exact ofRatio_sign h negative

/-- Zero is zero in any power of ten. -/
theorem units_of_zero {exponent : Int} {magnitude : Magnitude}
    (h : ofDecimal false 0 exponent = .finite false magnitude) :
    magnitude.units = 0 := by
  have hround : ∀ den, roundUnits 0 den = 0 := by
    intro den
    unfold roundUnits roundQuotient
    simp
  unfold ofDecimal ofRatio at h
  simp only [Nat.zero_mul, hround] at h
  split at h
  · split at h
    · cases h
      rfl
    · cases h
  · split at h
    · cases h
      rfl
    · cases h

/-- The exact decimal of a double. -/
theorem ofDecimal_exact (negative : Bool) (magnitude : Magnitude) :
    ofDecimal negative (magnitude.units * 5 ^ places) (-places) =
      .finite negative magnitude := by
  have hratio : ofDecimal negative (magnitude.units * 5 ^ places) (-places) =
      ofRatio negative magnitude.units 1 (by decide) := by
    unfold ofDecimal
    rw [if_neg (by decide)]
    apply ofRatio_congr
    rw [one, Int.neg_neg, Int.toNat_natCast, Nat.mul_one, Nat.mul_assoc,
      ← Nat.mul_pow]
  rw [hratio, ofRatio]
  simp only [magnitude.isDouble]
  rw [dif_pos magnitude.bounded]

/-- A whole number of at most 53 binary digits is a double. -/
theorem toInt_ofDecimal {n : Nat} (hn : n < 2 ^ 53) :
    (ofDecimal false n 0).toInt? = some (n : Int) := by
  have hround : roundUnits (n * one) 1 = n * one :=
    roundUnits_of_form places hn
  have hlt : n * one < 2 ^ 2098 := by
    apply Nat.lt_of_lt_of_le (Nat.mul_lt_mul_of_pos_right hn one_pos)
    rw [one, ← Nat.pow_add]
    apply Nat.pow_le_pow_right (by decide)
    decide
  have hdecimal : ofDecimal false n 0 =
      ofRatio false (n * one) 1 (by decide) := by
    unfold ofDecimal
    rw [if_pos (by decide)]
    simp only [Int.toNat_zero, Nat.pow_zero, Nat.mul_one]
  rw [hdecimal, ofRatio]
  simp only [hround]
  rw [dif_pos hlt]
  unfold toInt?
  simp only [Nat.mul_mod_left, if_true, Nat.mul_div_cancel n one_pos]
  rfl

/-- The whole part of a double, in units of a power of ten. -/
def scaled (units : Nat) (exponent : Int) : Nat :=
  if 0 ≤ exponent then units / (one * 10 ^ exponent.toNat)
  else units * 10 ^ (-exponent).toNat / one

/-- Whether a decimal is below the middle between two neighbours, or at it. -/
def belowHalf (units : Nat) (low : Nat) (exponent : Int) : Ordering :=
  if 0 ≤ exponent then
    compare (2 * units) ((2 * low + 1) * (one * 10 ^ exponent.toNat))
  else
    compare (2 * (units * 10 ^ (-exponent).toNat)) ((2 * low + 1) * one)

/-- The decimal of this precision that is nearest to a double and reads back as
it, if there is one. -/
def decimalAt (magnitude : Magnitude) (exponent : Int) : Option Nat :=
  let low := scaled magnitude.units exponent
  let reads := fun digits =>
    decide (ofDecimal false digits exponent = .finite false magnitude)
  match reads low, reads (low + 1) with
  | true, false => some low
  | false, true => some (low + 1)
  | true, true =>
    match belowHalf magnitude.units low exponent with
    | .lt => some low
    | .gt => some (low + 1)
    | .eq => some (if low % 2 = 0 then low else low + 1)
  | false, false => none

/-- The power of ten of the leading digit, searched downwards. -/
def leading (units : Nat) : Nat → Int → Int
  | 0, exponent => exponent
  | fuel + 1, exponent =>
    if scaled units exponent = 0 then leading units fuel (exponent - 1)
    else exponent

/-- The first precision, from one digit on, at which a double can be written. -/
def search (magnitude : Magnitude) : Nat → Int → Nat × Int
  | 0, _ => (magnitude.units * 5 ^ places, -places)
  | fuel + 1, exponent =>
    match decimalAt magnitude exponent with
    | some digits => (digits, exponent)
    | none => search magnitude fuel (exponent - 1)

/-- Without zeros at the end. -/
def stripZeros : Nat → Nat × Int → Nat × Int
  | 0, decimal => decimal
  | fuel + 1, (digits, exponent) =>
    if digits % 10 = 0 ∧ digits ≠ 0 then
      stripZeros fuel (digits / 10, exponent + 1)
    else (digits, exponent)

/-- The digits and the power of ten that a double is written with. -/
def decimalOf (magnitude : Magnitude) : Nat × Int :=
  let decimal :=
    search magnitude 17 (leading magnitude.units 640 310)
  stripZeros (digitsOf 10 decimal.1).length decimal

theorem decimalAt_reads (h : decimalAt magnitude exponent = some digits) :
    ofDecimal false digits exponent = .finite false magnitude := by
  unfold decimalAt at h
  simp only at h
  split at h
  · rename_i hlow _
    cases h
    exact of_decide_eq_true hlow
  · rename_i _ hhigh
    cases h
    exact of_decide_eq_true hhigh
  · rename_i hlow hhigh
    split at h
    · cases h
      exact of_decide_eq_true hlow
    · cases h
      exact of_decide_eq_true hhigh
    · cases h
      split
      · exact of_decide_eq_true hlow
      · exact of_decide_eq_true hhigh
  · cases h

theorem search_reads (magnitude : Magnitude) (fuel : Nat) :
    ∀ exponent, ofDecimal false (search magnitude fuel exponent).1
      (search magnitude fuel exponent).2 = .finite false magnitude := by
  induction fuel with
  | zero =>
    intro exponent
    exact ofDecimal_exact false magnitude
  | succ fuel ih =>
    intro exponent
    cases hat : decimalAt magnitude exponent with
    | some digits =>
      simp only [search, hat]
      exact decimalAt_reads hat
    | none =>
      simp only [search, hat]
      exact ih (exponent - 1)

theorem stripZeros_reads (fuel : Nat) : ∀ decimal : Nat × Int,
    ofDecimal false (stripZeros fuel decimal).1 (stripZeros fuel decimal).2 =
      ofDecimal false decimal.1 decimal.2 := by
  induction fuel with
  | zero =>
    intro decimal
    rfl
  | succ fuel ih =>
    intro decimal
    obtain ⟨digits, exponent⟩ := decimal
    unfold stripZeros
    split
    · rename_i hzero
      rw [ih]
      have hdigits : digits = digits / 10 * 10 ^ 1 := by omega
      conv_rhs => rw [hdigits]
      rw [ofDecimal_zeros]
      rfl
    · rfl

/-- The decimal of a double reads back as it. -/
theorem decimalOf_reads (magnitude : Magnitude) :
    ofDecimal false (decimalOf magnitude).1 (decimalOf magnitude).2 =
      .finite false magnitude := by
  unfold decimalOf
  simp only
  rw [stripZeros_reads]
  exact search_reads magnitude 17 _

end JsNumber
