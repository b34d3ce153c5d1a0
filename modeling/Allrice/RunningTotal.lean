/-
Running totals of whole numbers in doubles.  Every sum is rounded to the nearest
double, so a total is the sum of its terms and of the rounding errors; those of
some order always leave the sum as it is, or out of range.
-/
import Allrice.JsNumber

namespace RunningTotal

open Rounding

/-- `Number.MAX_SAFE_INTEGER`. -/
def maxSafe : Int := 9007199254740991

/-- `Number.isSafeInteger(value)`, for a whole number. -/
def isSafe (n : Int) : Bool := -maxSafe ≤ n && n ≤ maxSafe

/-- The nearest double to a quotient, in the unit of the quotient. -/
def nearest (num : Int) (den : Nat) : Int :=
  if num < 0 then -(roundUnits num.natAbs den : Int)
  else roundUnits num.natAbs den

theorem nearest_exact {n : Int} (hlow : -(maxSafe + 1) ≤ n)
    (hhigh : n ≤ maxSafe + 1) : nearest n 1 = n := by
  have hsize : n.natAbs ≤ 2 ^ 53 := by
    unfold maxSafe at hlow hhigh
    omega
  unfold nearest
  rw [roundUnits_exact hsize]
  split
  · omega
  · omega

theorem nearest_neg (n : Int) (den : Nat) :
    nearest (-n) den = -nearest n den := by
  have hzero : roundUnits 0 den = 0 := by simp [roundUnits, roundQuotient]
  unfold nearest
  rw [Int.natAbs_neg]
  by_cases hn : n = 0
  · simp [hn, hzero]
  · by_cases hneg : n < 0
    · rw [if_neg (by omega), if_pos hneg, Int.neg_neg]
    · rw [if_pos (by omega), if_neg hneg]

/-- What is past the exact whole numbers is not rounded back among them. -/
theorem le_nearest {n : Int} (h : maxSafe + 1 ≤ n) :
    maxSafe + 1 ≤ nearest n 1 := by
  have hsize : 2 ^ 53 ≤ n.natAbs := by
    unfold maxSafe at h
    omega
  have hlog : 53 ≤ n.natAbs.log2 := (Nat.le_log2 (by omega)).mpr hsize
  have hle : 2 ^ n.natAbs.log2 ≤ n.natAbs := Nat.log2_self_le (by omega)
  let step := 2 ^ spacing n.natAbs
  have hsplit : 2 ^ n.natAbs.log2 = 2 ^ 52 * step := by
    rw [← Nat.pow_add]
    congr 1
    unfold spacing
    omega
  have hquotient : 2 ^ 52 ≤ roundQuotient n.natAbs step := by
    have hdiv : 2 ^ 52 ≤ n.natAbs / step := by
      rw [Nat.le_div_iff_mul_le (Nat.two_pow_pos _), ← hsplit]
      exact hle
    unfold roundQuotient
    split
    · exact hdiv
    · exact Nat.le_succ_of_le hdiv
  have hrounded : 2 ^ 53 ≤ roundUnits n.natAbs 1 := by
    calc 2 ^ 53 ≤ 2 ^ n.natAbs.log2 := Nat.pow_le_pow_right (by decide) hlog
      _ = 2 ^ 52 * step := hsplit
      _ ≤ roundQuotient n.natAbs step * step :=
          Nat.mul_le_mul_right step hquotient
      _ = roundUnits n.natAbs 1 := by
          simp only [roundUnits, Nat.div_one, Nat.one_mul, step]
  unfold nearest
  rw [if_neg (by unfold maxSafe at h; omega)]
  unfold maxSafe
  omega

/-- A running total, from a first number. -/
def totalFrom (start : Int) (values : List Int) : Int :=
  values.foldl (fun n value => nearest (n + value) 1) start

/-- `values.reduce((n, value) => n + value, 0)`. -/
def total (values : List Int) : Int := totalFrom 0 values

/-- The rounding errors of the additions. -/
def errorsFrom (start : Int) : List Int → List Int
  | [] => []
  | value :: rest =>
    let next := nearest (start + value) 1
    (next - (start + value)) :: errorsFrom next rest

def errors (values : List Int) : List Int := errorsFrom 0 values

theorem totalFrom_eq (start : Int) (values : List Int) :
    totalFrom start values =
      start + values.sum + (errorsFrom start values).sum := by
  induction values generalizing start with
  | nil => simp [totalFrom, errorsFrom]
  | cons v rest ih =>
    change totalFrom (nearest (start + v) 1) rest = _
    rw [ih]
    simp only [errorsFrom, List.sum_cons]
    omega

theorem total_eq (values : List Int) :
    total values = values.sum + (errors values).sum := by
  unfold total errors
  rw [totalFrom_eq, Int.zero_add]

/-- What the positive terms come to. -/
def positives (values : List Int) : Int := (values.map fun v => max 0 v).sum

/-- What the negative terms come to, without their sign. -/
def negatives (values : List Int) : Int := (values.map fun v => max 0 (-v)).sum

theorem positives_nonneg (values : List Int) : 0 ≤ positives values := by
  unfold positives
  apply List.sum_nonneg
  simp

theorem negatives_nonneg (values : List Int) : 0 ≤ negatives values := by
  unfold negatives
  apply List.sum_nonneg
  simp

theorem sum_eq (values : List Int) :
    values.sum = positives values - negatives values := by
  induction values with
  | nil => rfl
  | cons v rest ih =>
    simp only [positives, negatives, List.map_cons, List.sum_cons] at ih ⊢
    omega

theorem totalFrom_exact {start : Int} {values : List Int}
    (hlow : -(maxSafe + 1) ≤ start - negatives values)
    (hhigh : start + positives values ≤ maxSafe + 1) :
    totalFrom start values = start + values.sum := by
  induction values generalizing start with
  | nil => exact (Int.add_zero start).symm
  | cons v rest ih =>
    have hpos := positives_nonneg rest
    have hneg := negatives_nonneg rest
    simp only [positives, negatives, List.map_cons, List.sum_cons]
      at hlow hhigh hpos hneg
    have hexact : nearest (start + v) 1 = start + v := by
      apply nearest_exact
      · omega
      · omega
    change totalFrom (nearest (start + v) 1) rest = _
    rw [hexact, ih]
    · rw [List.sum_cons, Int.add_assoc]
    · unfold negatives
      omega
    · unfold positives
      omega

/-- Of terms that are not negative: the total is exact, or both it and the sum
are past the exact whole numbers. -/
theorem totalFrom_nonneg {start : Int} {values : List Int}
    (hstart : 0 ≤ start) (hvalues : ∀ v ∈ values, 0 ≤ v) {exact : Int}
    (h : (start = exact ∧ exact ≤ maxSafe + 1) ∨
      (maxSafe + 1 ≤ start ∧ maxSafe + 1 ≤ exact)) :
    (totalFrom start values = exact + values.sum ∧
        exact + values.sum ≤ maxSafe + 1) ∨
      (maxSafe + 1 ≤ totalFrom start values ∧
        maxSafe + 1 ≤ exact + values.sum) := by
  induction values generalizing start exact with
  | nil => simpa [totalFrom] using h
  | cons v rest ih =>
    have hv := hvalues v List.mem_cons_self
    change (totalFrom (nearest (start + v) 1) rest = _ ∧ _) ∨
      (_ ≤ totalFrom (nearest (start + v) 1) rest ∧ _)
    rw [List.sum_cons, ← Int.add_assoc]
    apply ih
    · by_cases hsmall : start + v ≤ maxSafe + 1
      · rw [nearest_exact (by unfold maxSafe; omega) hsmall]
        omega
      · have hlarge := le_nearest (n := start + v) (by omega)
        unfold maxSafe at hlarge
        omega
    · intro other hother
      exact hvalues other (List.mem_cons_of_mem _ hother)
    · by_cases hsmall : start + v ≤ maxSafe + 1
      · rw [nearest_exact (by unfold maxSafe; omega) hsmall]
        omega
      · exact .inr ⟨le_nearest (by omega), by omega⟩

theorem totalFrom_neg (start : Int) (values : List Int) :
    totalFrom (-start) (values.map (-·)) = -totalFrom start values := by
  induction values generalizing start with
  | nil => rfl
  | cons v rest ih =>
    change totalFrom (nearest (-start + -v) 1) (rest.map (-·)) =
      -totalFrom (nearest (start + v) 1) rest
    rw [← ih, ← Int.neg_add, nearest_neg]

theorem sum_neg (values : List Int) :
    (values.map (-·)).sum = -values.sum := by
  induction values with
  | nil => rfl
  | cons v rest ih =>
    rw [List.map_cons, List.sum_cons, List.sum_cons, ih]
    omega

theorem isSafe_iff {n : Int} : isSafe n = true ↔ -maxSafe ≤ n ∧ n ≤ maxSafe := by
  simp [isSafe]

theorem isSafe_neg (n : Int) : isSafe (-n) = isSafe n := by
  rw [Bool.eq_iff_iff, isSafe_iff, isSafe_iff]
  omega

/-- A total that is in range where the sum is, and is the sum there. -/
structure Right (start : Int) (values : List Int) : Prop where
  range : isSafe (totalFrom start values) = isSafe (start + values.sum)
  exact : isSafe (start + values.sum) = true →
    totalFrom start values = start + values.sum

theorem right_nonneg {start : Int} {values : List Int} (hlow : 0 ≤ start)
    (hhigh : start ≤ maxSafe) (h : ∀ v ∈ values, 0 ≤ v) :
    Right start values := by
  have hsum : 0 ≤ values.sum := List.sum_nonneg h
  rcases totalFrom_nonneg hlow h (.inl ⟨rfl, by omega⟩) with
    ⟨htotal, -⟩ | ⟨hpast, hpast'⟩
  · exact ⟨by rw [htotal], fun _ => htotal⟩
  · have hout : ∀ n, maxSafe + 1 ≤ n → isSafe n = false := by
      intro n hn
      rw [Bool.eq_false_iff, Ne, isSafe_iff]
      omega
    exact ⟨by rw [hout _ hpast, hout _ hpast'], by simp [hout _ hpast']⟩

theorem Right.neg {start : Int} {values : List Int}
    (h : Right (-start) (values.map (-·))) : Right start values := by
  have hsum : -start + -values.sum = -(start + values.sum) := by omega
  obtain ⟨hrange, hexact⟩ := h
  rw [totalFrom_neg, sum_neg, hsum, isSafe_neg] at hrange hexact
  rw [isSafe_neg] at hrange
  exact ⟨hrange, fun hsafe => Int.neg_inj.mp (hexact hsafe)⟩

theorem right_nonpos {start : Int} {values : List Int} (hlow : -maxSafe ≤ start)
    (hhigh : start ≤ 0) (h : ∀ v ∈ values, v ≤ 0) : Right start values := by
  refine (right_nonneg (by omega) (by omega) fun v hv => ?_).neg
  obtain ⟨w, hw, rfl⟩ := List.mem_map.mp hv
  have := h w hw
  omega

theorem Right.cons {start v : Int} {rest : List Int}
    (hsafe : isSafe (start + v) = true) (h : Right (start + v) rest) :
    Right start (v :: rest) := by
  obtain ⟨hlow, hhigh⟩ := isSafe_iff.mp hsafe
  have hnext : totalFrom start (v :: rest) = totalFrom (start + v) rest := by
    change totalFrom (nearest (start + v) 1) rest = _
    rw [nearest_exact (by omega) (by omega)]
  have hsum : start + (v :: rest).sum = start + v + rest.sum := by
    rw [List.sum_cons, Int.add_assoc]
  constructor
  · rw [hnext, hsum]
    exact h.range
  · rw [hnext, hsum]
    exact h.exact

/-- No order of the terms runs past the exact whole numbers and comes back: the
terms have one sign, or those of either sign stay within. -/
def Steady (values : List Int) : Prop :=
  (positives values ≤ maxSafe ∧ negatives values ≤ maxSafe) ∨
    (∀ v ∈ values, 0 ≤ v) ∨ ∀ v ∈ values, v ≤ 0

theorem total_exact {values : List Int} (hpos : positives values ≤ maxSafe)
    (hneg : negatives values ≤ maxSafe) : total values = values.sum := by
  unfold total
  rw [totalFrom_exact (by omega) (by omega), Int.zero_add]

theorem Steady.right {values : List Int} (h : Steady values) :
    Right 0 values := by
  rcases h with ⟨hpos, hneg⟩ | hnonneg | hnonpos
  · have htotal : totalFrom 0 values = 0 + values.sum :=
      (total_exact hpos hneg).trans (Int.zero_add _).symm
    exact ⟨by rw [htotal], fun _ => htotal⟩
  · exact right_nonneg (Int.le_refl 0) (by decide) hnonneg
  · exact right_nonpos (by decide) (Int.le_refl 0) hnonpos

theorem positives_perm {xs ys : List Int} (h : xs.Perm ys) :
    positives xs = positives ys := (h.map _).sum_eq

theorem negatives_perm {xs ys : List Int} (h : xs.Perm ys) :
    negatives xs = negatives ys := (h.map _).sum_eq

theorem Steady.perm {xs ys : List Int} (h : Steady xs) (hperm : xs.Perm ys) :
    Steady ys := by
  unfold Steady at h ⊢
  rw [← positives_perm hperm, ← negatives_perm hperm]
  simpa only [hperm.mem_iff] using h

end RunningTotal
