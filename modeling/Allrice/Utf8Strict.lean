/-
Reading UTF-8 strictly, as a decoder that throws at the first malformed byte
does.  Well-formed text is read whole, and where the input is cut the text is
cut between two characters.
-/
import Allrice.Utf8Text

namespace Utf8Stream

/-- Whether a byte goes on from what was read before it. -/
def fits : State → UInt8 → Bool
  | none, byte => (start byte).2 != [replacement]
  | some part, byte =>
    part.lower ≤ byte.toNat && byte.toNat ≤ part.upper

/-- As `run`, where a malformed byte throws. -/
def runStrictly : State → List UInt8 → Option (State × JsString)
  | state, [] => some (state, [])
  | state, byte :: rest =>
    if fits state byte then
      (runStrictly (feed state byte).1 rest).map fun last =>
        (last.1, (feed state byte).2 ++ last.2)
    else none

variable {state last : State} {text : JsString}

theorem runStrictly_append (first rest : List UInt8) : ∀ state,
    runStrictly state (first ++ rest) =
      (runStrictly state first).bind fun read =>
        (runStrictly read.1 rest).map fun last =>
          (last.1, read.2 ++ last.2) := by
  induction first with
  | nil =>
    intro state
    simp [runStrictly]
  | cons byte first ih =>
    intro state
    rw [List.cons_append, runStrictly, runStrictly]
    split
    · rw [ih]
      cases runStrictly (feed state byte).1 first with
      | none => rfl
      | some read =>
        simp only [Option.bind_some, Option.map_some, Option.map_map]
        congr 1
        funext last
        simp
    · rfl

/-- Nothing is replaced in what is read strictly. -/
theorem run_of_runStrictly {bytes : List UInt8} : ∀ {state},
    runStrictly state bytes = some (last, text) →
      run state bytes = (last, text) := by
  induction bytes generalizing last text with
  | nil =>
    intro state h
    cases h
    rfl
  | cons byte rest ih =>
    intro state h
    rw [runStrictly] at h
    split at h
    · obtain ⟨⟨next, more⟩, hrest, heq⟩ := Option.map_eq_some_iff.mp h
      cases heq
      have hrun := ih hrest
      rw [run]
      simp only [hrun]
    · cases h

theorem replacement_of_not_fits {byte : UInt8}
    (h : fits state byte = false) : replacement ∈ (feed state byte).2 := by
  cases state with
  | none =>
    have hstart : (start byte).2 = [replacement] := by
      simpa [fits] using h
    rw [feed, hstart]
    exact List.mem_singleton_self _
  | some part =>
    have hout : ¬(part.lower ≤ byte.toNat ∧ byte.toNat ≤ part.upper) := by
      simpa [fits] using h
    rw [feed, Unfinished.continue]
    simp only [dif_neg hout]
    exact List.mem_cons_self

/-- Where nothing is replaced, reading strictly reads the same. -/
theorem runStrictly_or_replaced (bytes : List UInt8) : ∀ state,
    runStrictly state bytes = some (run state bytes) ∨
      replacement ∈ (run state bytes).2 := by
  induction bytes with
  | nil =>
    intro state
    exact .inl rfl
  | cons byte rest ih =>
    intro state
    rw [runStrictly, run]
    split
    · rcases ih (feed state byte).1 with hrest | hrest
      · left
        rw [hrest]
        rfl
      · right
        exact List.mem_append_right _ hrest
    · rename_i hfits
      right
      exact List.mem_append_left _
        (replacement_of_not_fits (by simpa using hfits))

/-- What an unfinished character can become is no surrogate. -/
def Unfinished.Scalar (part : Unfinished) : Prop :=
  (part.code * 0x40 + (part.upper - 0x80) + 1) * 0x40 ^ (part.needed - 1) ≤
      0xD800 ∨
    0xE000 ≤
      (part.code * 0x40 + (part.lower - 0x80)) * 0x40 ^ (part.needed - 1)

/-- A state that the decoder can be in. -/
def Clean : State → Prop
  | none => True
  | some part => part.Scalar

/-- The text does not begin within a surrogate pair. -/
def BeginsWhole (text : JsString) : Prop :=
  ∀ unit ∈ text.head?, JsString.isLowSurrogate unit = false

theorem BeginsWhole.append {more : JsString} (h : BeginsWhole text)
    (hmore : BeginsWhole more) : BeginsWhole (text ++ more) := by
  cases text with
  | nil => exact hmore
  | cons unit rest => exact h

theorem start_clean (byte : UInt8) :
    Clean (start byte).1 ∧ BeginsWhole (start byte).2 := by
  unfold start owing
  simp only
  split
  · rename_i hlow
    refine ⟨trivial, ?_⟩
    rintro unit ⟨⟩
    simp only [JsString.isLowSurrogate, UInt16.toNat_ofNat',
      Bool.and_eq_false_iff, decide_eq_false_iff_not]
    omega
  split_ifs
  all_goals
    first
    | exact ⟨trivial, by rintro unit ⟨⟩; decide⟩
    | (refine ⟨?_, by rintro unit ⟨⟩⟩
       simp only [Clean, Unfinished.Scalar]
       omega)

theorem Unfinished.Scalar.advance {part : Unfinished} (h : part.Scalar)
    {n : Nat} (hin : part.lower ≤ n ∧ n ≤ part.upper)
    (howes : 1 < part.needed) : (part.advance n hin howes).Scalar := by
  unfold Unfinished.Scalar at h ⊢
  simp only [Unfinished.advance]
  have hpower : 0x40 ^ (part.needed - 1) =
      0x40 * 0x40 ^ (part.needed - 1 - 1) := by
    rw [← Nat.pow_succ']
    congr 1
    omega
  rw [hpower, ← Nat.mul_assoc, ← Nat.mul_assoc] at h
  rcases h with hbelow | habove
  · left
    apply Nat.le_trans _ hbelow
    apply Nat.mul_le_mul_right
    have hupper := part.upper_le
    omega
  · right
    apply Nat.le_trans habove
    apply Nat.mul_le_mul_right
    omega

theorem unitsOfCode_beginsWhole {code : Nat}
    (h : code < 0xD800 ∨ 0xE000 ≤ code) (hcode : code < 0x110000) :
    BeginsWhole (unitsOfCode code) := by
  unfold unitsOfCode
  split
  · rintro unit ⟨⟩
    simp only [JsString.isLowSurrogate, UInt16.toNat_ofNat',
      Bool.and_eq_false_iff, decide_eq_false_iff_not]
    omega
  · rintro unit ⟨⟩
    simp only [JsString.isLowSurrogate, UInt16.toNat_ofNat',
      Bool.and_eq_false_iff, decide_eq_false_iff_not]
    omega

theorem feed_clean (h : Clean state) (byte : UInt8) :
    Clean (feed state byte).1 ∧ BeginsWhole (feed state byte).2 := by
  cases state with
  | none => exact start_clean byte
  | some part =>
    have hscalar : part.Scalar := h
    rw [feed, Unfinished.continue]
    simp only
    split
    · rename_i hin
      split
      · rename_i howes
        exact ⟨hscalar.advance hin howes, by rintro unit ⟨⟩⟩
      · rename_i howes
        have hneeded : part.needed - 1 = 0 := by omega
        have hmost := part.most
        unfold Unfinished.Scalar at hscalar
        rw [hneeded, Nat.pow_zero, Nat.mul_one] at hmost hscalar
        rw [Nat.mul_one] at hscalar
        have hvalue : part.code * 0x40 + (byte.toNat - 0x80) < 0xD800 ∨
            0xE000 ≤ part.code * 0x40 + (byte.toNat - 0x80) := by omega
        have hrange : part.code * 0x40 + (byte.toNat - 0x80) <
            0x110000 := by omega
        have hwhole := unitsOfCode_beginsWhole hvalue hrange
        refine ⟨trivial, ?_⟩
        simp only
        exact hwhole
    · exact ⟨(start_clean byte).1, by rintro unit ⟨⟩; rfl⟩

/-- However the input is cut, the text is cut between characters. -/
theorem run_clean (bytes : List UInt8) : ∀ {state}, Clean state →
    Clean (run state bytes).1 ∧ BeginsWhole (run state bytes).2 := by
  induction bytes with
  | nil =>
    intro state h
    exact ⟨h, by rintro unit ⟨⟩⟩
  | cons byte rest ih =>
    intro state h
    obtain ⟨hnext, hunits⟩ := feed_clean h byte
    obtain ⟨hlast, hmore⟩ := ih hnext
    rw [run]
    exact ⟨hlast, hunits.append hmore⟩

end Utf8Stream

namespace Utf8Text

open Utf8Stream

/-- The bytes of a character are read strictly. -/
theorem runStrictly_encodeCode {code : Nat} (h : IsScalar code) :
    runStrictly none (encodeCode code) = some (none, unitsOfCode code) := by
  by_cases hreplacement : code = 0xFFFD
  · subst hreplacement
    rfl
  · have hrun := run_encodeCode h
    rcases runStrictly_or_replaced (encodeCode code) none with heq | hmem
    · rw [heq, hrun]
    · rw [hrun] at hmem
      unfold IsScalar at h
      have hunit : ∀ n, n < 0x10000 → n ≠ 0xFFFD →
          replacement ≠ UInt16.ofNat n := by
        intro n hn hne heq
        have hnat := congrArg UInt16.toNat heq
        rw [UInt16.toNat_ofNat', Nat.mod_eq_of_lt hn] at hnat
        exact hne hnat.symm
      unfold unitsOfCode at hmem
      split at hmem
      · rename_i hlow
        exact absurd (List.mem_singleton.mp hmem)
          (hunit code hlow hreplacement)
      · rcases List.mem_cons.mp hmem with hhigh | hrest
        · exact absurd hhigh (hunit _ (by omega) (by omega))
        · exact absurd (List.mem_singleton.mp hrest)
            (hunit _ (by omega) (by omega))

theorem runStrictly_flatMap {points : List JsString}
    (h : ∀ point ∈ points, IsPoint point) :
    runStrictly none
        (points.flatMap fun point => encodeCode (codeOf point)) =
      some (none, points.flatMap fun point => unitsOfCode (codeOf point)) := by
  induction points with
  | nil => rfl
  | cons point points ih =>
    have hpoint : IsPoint point := h point (by simp)
    have hrest := ih fun other hother => h other (by simp [hother])
    rw [List.flatMap_cons, List.flatMap_cons, runStrictly_append,
      runStrictly_encodeCode (codeOf_isScalar hpoint), Option.bind_some,
      hrest]
    rfl

/-- A written text is read strictly. -/
theorem runStrictly_encode (text : JsString) :
    runStrictly none (encode text) = some (none, toWellFormed text) :=
  runStrictly_flatMap (codePoints_isPoint text)

end Utf8Text

namespace JsString

/-- The bytes of a text that is cut between two characters. -/
theorem byteLength_append (text : JsString) {more : JsString}
    (h : Utf8Stream.BeginsWhole more) :
    byteLength (text ++ more) = byteLength text + byteLength more := by
  induction text using byteLength.induct with
  | case1 => simp [byteLength]
  | case2 unit rest hone ih =>
    rw [List.cons_append, byteLength.eq_def, byteLength.eq_def (unit :: rest)]
    simp only [hone, if_true, ih]
    omega
  | case3 unit rest hone htwo ih =>
    rw [List.cons_append, byteLength.eq_def, byteLength.eq_def (unit :: rest)]
    simp only [hone, htwo, if_true, if_false, ih]
    omega
  | case4 unit hone htwo =>
    cases more with
    | nil => simp [byteLength]
    | cons next tail =>
      have hnext : isLowSurrogate next = false := h next rfl
      simp [byteLength, hone, htwo, hnext]
  | case5 unit hone htwo next tail hpair ih =>
    simp only [List.cons_append, byteLength, hone, htwo, hpair, if_true,
      if_false, ih]
    omega
  | case6 unit hone htwo next tail hpair ih =>
    rw [List.cons_append] at ih
    rw [List.cons_append, List.cons_append, byteLength.eq_def,
      byteLength.eq_def (unit :: next :: tail)]
    simp only [hone, htwo, hpair, if_false, ih, Bool.false_eq_true]
    omega

end JsString
