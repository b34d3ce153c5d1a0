/-
Texts as UTF-8 bytes.  A lone surrogate has no encoding and is written as U+FFFD,
so that reading the bytes back gives the well-formed text.
-/
import Allrice.Utf8Stream

namespace Utf8Text

open Utf8Stream

/-- The bytes of a code point. -/
def encodeCode (code : Nat) : List UInt8 :=
  if code < 0x80 then [UInt8.ofNat code]
  else if code < 0x800 then
    [UInt8.ofNat (0xC0 + code / 0x40), UInt8.ofNat (0x80 + code % 0x40)]
  else if code < 0x10000 then
    [UInt8.ofNat (0xE0 + code / 0x1000),
      UInt8.ofNat (0x80 + code / 0x40 % 0x40),
      UInt8.ofNat (0x80 + code % 0x40)]
  else
    [UInt8.ofNat (0xF0 + code / 0x40000),
      UInt8.ofNat (0x80 + code / 0x1000 % 0x40),
      UInt8.ofNat (0x80 + code / 0x40 % 0x40),
      UInt8.ofNat (0x80 + code % 0x40)]

/-- The code point of a surrogate pair. -/
def pairCode (high low : UInt16) : Nat :=
  0x10000 + (high.toNat - 0xD800) * 0x400 + (low.toNat - 0xDC00)

/-- The code point of a unit of its own, U+FFFD for a surrogate. -/
def loneCode (unit : UInt16) : Nat :=
  if JsString.isHighSurrogate unit || JsString.isLowSurrogate unit then
    0xFFFD
  else unit.toNat

/-- The code point of a character. -/
def codeOf (point : JsString) : Nat :=
  match point with
  | [high, low] => pairCode high low
  | [unit] => loneCode unit
  | _ => 0xFFFD

/-- `Buffer.from(text)`. -/
def encode (text : JsString) : List UInt8 :=
  (JsString.codePoints text).flatMap fun point => encodeCode (codeOf point)

/-- `toString('ascii')`. -/
def asciiText (bytes : List UInt8) : JsString :=
  bytes.map fun byte => UInt16.ofNat (byte.toNat % 128)

/-- `text.toWellFormed()`: lone surrogates are replaced. -/
def toWellFormed (text : JsString) : JsString :=
  (JsString.codePoints text).flatMap fun point => unitsOfCode (codeOf point)

/-- A code point that stands for a character. -/
def IsScalar (code : Nat) : Prop :=
  code < 0xD800 ∨ 0xE000 ≤ code ∧ code < 0x110000

/-- The units of a text that `codePoints` puts together. -/
def IsPoint : JsString → Prop
  | [high, low] =>
    JsString.isHighSurrogate high = true ∧
      JsString.isLowSurrogate low = true
  | [_] => True
  | _ => False

theorem codePoints_isPoint (text : JsString) :
    ∀ point ∈ JsString.codePoints text, IsPoint point := by
  induction text using JsString.codePoints.induct with
  | case1 => simp [JsString.codePoints]
  | case2 unit => simp [JsString.codePoints, IsPoint]
  | case3 unit next tail hpair ih =>
    intro point hpoint
    simp only [JsString.codePoints, hpair, if_true, List.mem_cons] at hpoint
    rcases hpoint with rfl | hpoint
    · simpa [IsPoint] using hpair
    · exact ih point hpoint
  | case4 unit next tail hpair ih =>
    intro point hpoint
    rw [JsString.codePoints] at hpoint
    simp only [hpair] at hpoint
    rcases List.mem_cons.mp hpoint with rfl | hpoint
    · trivial
    · exact ih point hpoint

theorem pairCode_isScalar {high low : UInt16}
    (hhigh : JsString.isHighSurrogate high = true)
    (hlow : JsString.isLowSurrogate low = true) :
    IsScalar (pairCode high low) := by
  simp only [JsString.isHighSurrogate, JsString.isLowSurrogate,
    Bool.and_eq_true, decide_eq_true_eq] at hhigh hlow
  unfold IsScalar pairCode
  omega

theorem loneCode_isScalar (unit : UInt16) : IsScalar (loneCode unit) := by
  have hunit := unit.toNat_lt
  unfold loneCode
  split
  · unfold IsScalar
    omega
  · rename_i hlone
    simp only [JsString.isHighSurrogate, JsString.isLowSurrogate,
      Bool.or_eq_true, Bool.and_eq_true, decide_eq_true_eq] at hlone
    unfold IsScalar
    omega

theorem codeOf_isScalar {point : JsString} (h : IsPoint point) :
    IsScalar (codeOf point) := by
  match point, h with
  | [high, low], h => exact pairCode_isScalar h.1 h.2
  | [unit], _ => exact loneCode_isScalar unit

variable {text : JsString} {unit : UInt16} {n : Nat}

theorem start_low (h : n < 0x80) :
    start (UInt8.ofNat n) = (none, [UInt16.ofNat n]) := by
  have hn : (UInt8.ofNat n).toNat = n := by
    rw [UInt8.toNat_ofNat']
    omega
  unfold start
  simp only [hn]
  rw [if_pos h]

/-- A byte that completes a character. -/
theorem continue_last (part : Unfinished) (hn : part.lower ≤ n ∧ n ≤ part.upper)
    (hneeded : part.needed = 1) :
    part.continue (UInt8.ofNat n) =
      (none, unitsOfCode (part.code * 0x40 + (n - 0x80))) := by
  have hupper := part.upper_le
  have hbyte : (UInt8.ofNat n).toNat = n := by
    rw [UInt8.toNat_ofNat']
    omega
  unfold Unfinished.continue
  simp only [hbyte]
  rw [dif_pos hn, dif_neg (by omega)]

/-- A byte within a character. -/
theorem continue_within (part : Unfinished)
    (hn : part.lower ≤ n ∧ n ≤ part.upper) (hneeded : 1 < part.needed) :
    ∃ next : Unfinished,
      part.continue (UInt8.ofNat n) = (some next, []) ∧
        next.needed = part.needed - 1 ∧ next.lower = 0x80 ∧
        next.upper = 0xBF ∧
        next.code = part.code * 0x40 + (n - 0x80) := by
  have hupper := part.upper_le
  have hbyte : (UInt8.ofNat n).toNat = n := by
    rw [UInt8.toNat_ofNat']
    omega
  refine ⟨part.advance n hn hneeded, ?_, rfl, rfl, rfl, rfl⟩
  unfold Unfinished.continue
  simp only [hbyte]
  rw [dif_pos hn, dif_pos hneeded]

/-- The first byte of a character of several bytes. -/
theorem start_lead (n : Nat) (h : 0xC2 ≤ n ∧ n ≤ 0xF4) :
    ∃ part : Unfinished, start (UInt8.ofNat n) = (some part, []) ∧
      part.needed = (if n < 0xE0 then 1 else if n < 0xF0 then 2 else 3) ∧
      part.lower = (if n = 0xE0 then 0xA0 else if n = 0xF0 then 0x90
        else 0x80) ∧
      part.upper = (if n = 0xED then 0x9F else if n = 0xF4 then 0x8F
        else 0xBF) ∧
      part.code = (if n < 0xE0 then n - 0xC0
        else if n < 0xF0 then n - 0xE0 else n - 0xF0) := by
  have hn : (UInt8.ofNat n).toNat = n := by
    rw [UInt8.toNat_ofNat']
    omega
  unfold start owing
  simp only [hn]
  rw [if_neg (by omega)]
  iterate 7
    split
    · refine ⟨_, rfl, ?_, ?_, ?_, ?_⟩ <;> dsimp only <;> split_ifs <;> omega
  · omega

/-- The bytes of a character decode to it. -/
theorem run_encodeCode {code : Nat} (h : IsScalar code) :
    run none (encodeCode code) = (none, unitsOfCode code) := by
  unfold IsScalar at h
  unfold encodeCode
  split
  · rename_i hone
    simp only [run, feed, start_low hone]
    unfold unitsOfCode
    rw [if_pos (by omega)]
    rfl
  split
  · rename_i hone htwo
    obtain ⟨part, hstart, hneeded, hlower, hupper, hcode⟩ :=
      start_lead (0xC0 + code / 0x40) (by omega)
    rw [if_pos (by omega)] at hneeded hcode
    rw [if_neg (by omega), if_neg (by omega)] at hlower hupper
    have hbounds : part.lower ≤ 0x80 + code % 0x40 ∧
        0x80 + code % 0x40 ≤ part.upper := by omega
    have hvalue : part.code * 0x40 + (0x80 + code % 0x40 - 0x80) = code := by
      omega
    simp only [run, feed, hstart, continue_last part hbounds hneeded, hvalue,
      List.nil_append, List.append_nil]
  split
  · rename_i hone htwo hthree
    obtain ⟨part, hstart, hneeded, hlower, hupper, hcode⟩ :=
      start_lead (0xE0 + code / 0x1000) (by omega)
    rw [if_neg (by omega), if_pos (by omega)] at hneeded hcode
    have hbounds : part.lower ≤ 0x80 + code / 0x40 % 0x40 ∧
        0x80 + code / 0x40 % 0x40 ≤ part.upper := by
      rw [hlower, hupper]
      constructor
      · split_ifs <;> omega
      · split_ifs <;> omega
    obtain ⟨next, hnext, hneeded', hlower', hupper', hcode'⟩ :=
      continue_within part hbounds (by omega)
    have hbounds' : next.lower ≤ 0x80 + code % 0x40 ∧
        0x80 + code % 0x40 ≤ next.upper := by omega
    have hvalue : next.code * 0x40 + (0x80 + code % 0x40 - 0x80) = code := by
      omega
    simp only [run, feed, hstart, hnext,
      continue_last next hbounds' (by omega), hvalue, List.nil_append,
      List.append_nil]
  · rename_i hone htwo hthree
    have hrange : 0x10000 ≤ code ∧ code < 0x110000 := by omega
    obtain ⟨part, hstart, hneeded, hlower, hupper, hcode⟩ :=
      start_lead (0xF0 + code / 0x40000) (by omega)
    rw [if_neg (by omega), if_neg (by omega)] at hneeded hcode
    have hbounds : part.lower ≤ 0x80 + code / 0x1000 % 0x40 ∧
        0x80 + code / 0x1000 % 0x40 ≤ part.upper := by
      rw [hlower, hupper]
      constructor
      · split_ifs <;> omega
      · split_ifs <;> omega
    obtain ⟨next, hnext, hneeded', hlower', hupper', hcode'⟩ :=
      continue_within part hbounds (by omega)
    have hbounds' : next.lower ≤ 0x80 + code / 0x40 % 0x40 ∧
        0x80 + code / 0x40 % 0x40 ≤ next.upper := by omega
    obtain ⟨last, hlast, hneeded'', hlower'', hupper'', hcode''⟩ :=
      continue_within next hbounds' (by omega)
    have hbounds'' : last.lower ≤ 0x80 + code % 0x40 ∧
        0x80 + code % 0x40 ≤ last.upper := by omega
    have hvalue : last.code * 0x40 + (0x80 + code % 0x40 - 0x80) = code := by
      omega
    simp only [run, feed, hstart, hnext, hlast,
      continue_last last hbounds'' (by omega), hvalue, List.nil_append,
      List.append_nil]

theorem run_flatMap {points : List JsString}
    (h : ∀ point ∈ points, IsPoint point) :
    run none (points.flatMap fun point => encodeCode (codeOf point)) =
      (none, points.flatMap fun point => unitsOfCode (codeOf point)) := by
  induction points with
  | nil => rfl
  | cons point points ih =>
    have hpoint : IsPoint point := h point (by simp)
    have hrest := ih fun other hother => h other (by simp [hother])
    rw [List.flatMap_cons, List.flatMap_cons, run_append,
      run_encodeCode (codeOf_isScalar hpoint), hrest]

/-- Reading a written text back. -/
theorem run_encode (text : JsString) :
    run none (encode text) = (none, toWellFormed text) :=
  run_flatMap (codePoints_isPoint text)

theorem decode_encode_append (text : JsString) (rest : List UInt8) :
    decode (encode text ++ rest) = toWellFormed text ++ decode rest := by
  have hrun := run_encode text
  rw [decode_append (.inl (congrArg Prod.fst hrun))]
  unfold decode
  rw [hrun]
  simp [finish]

theorem decode_encode (text : JsString) :
    decode (encode text) = toWellFormed text := by
  have happend := decode_encode_append text []
  rw [List.append_nil, decode_nil, List.append_nil] at happend
  exact happend

/-- No surrogates: each unit is a character of its own. -/
def Plain (text : JsString) : Prop :=
  ∀ unit ∈ text, JsString.isHighSurrogate unit = false ∧
    JsString.isLowSurrogate unit = false

theorem codePoints_cons {rest : JsString}
    (h : JsString.isHighSurrogate unit = false) :
    JsString.codePoints (unit :: rest) =
      [unit] :: JsString.codePoints rest := by
  cases rest with
  | nil => rfl
  | cons next tail => simp [JsString.codePoints, h]

theorem unitsOfCode_loneCode (hhigh : JsString.isHighSurrogate unit = false)
    (hlow : JsString.isLowSurrogate unit = false) :
    unitsOfCode (loneCode unit) = [unit] := by
  have hunit := unit.toNat_lt
  unfold loneCode
  rw [hhigh, hlow]
  unfold unitsOfCode
  simp only [Bool.or_self, Bool.false_eq_true, if_false]
  rw [if_pos (by omega), UInt16.ofNat_toNat]

theorem toWellFormed_plain_append (h : Plain text) (rest : JsString) :
    toWellFormed (text ++ rest) = text ++ toWellFormed rest := by
  induction text with
  | nil => rfl
  | cons unit text ih =>
    obtain ⟨hhigh, hlow⟩ := h unit (by simp)
    have hrest := ih fun other hother => h other (by simp [hother])
    unfold toWellFormed at hrest ⊢
    rw [List.cons_append, codePoints_cons hhigh, List.flatMap_cons, hrest,
      codeOf, unitsOfCode_loneCode hhigh hlow]
    rfl

theorem toWellFormed_plain (h : Plain text) : toWellFormed text = text := by
  have happend := toWellFormed_plain_append h []
  rw [List.append_nil] at happend
  rw [happend]
  exact List.append_nil text

/-- A text may be cut before a unit that ends no surrogate pair. -/
theorem codePoints_append (h : JsString.isLowSurrogate unit = false)
    (text rest : JsString) :
    JsString.codePoints (text ++ unit :: rest) =
      JsString.codePoints text ++ JsString.codePoints (unit :: rest) := by
  induction text using JsString.codePoints.induct with
  | case1 => rfl
  | case2 first => simp [JsString.codePoints, h]
  | case3 first next tail hpair ih =>
    simp only [List.cons_append, JsString.codePoints, hpair, if_true, ih]
  | case4 first next tail hpair ih =>
    rw [List.cons_append] at ih
    rw [List.cons_append, List.cons_append, JsString.codePoints,
      JsString.codePoints]
    simp only [hpair]
    rw [ih]
    rfl

theorem encode_append (h : JsString.isLowSurrogate unit = false)
    (text rest : JsString) :
    encode (text ++ unit :: rest) = encode text ++ encode (unit :: rest) := by
  unfold encode
  rw [codePoints_append h, List.flatMap_append]

/-- ASCII texts. -/
def Ascii (text : JsString) : Prop := ∀ unit ∈ text, unit.toNat < 0x80

theorem Ascii.plain (h : Ascii text) : Plain text := by
  intro unit hunit
  have hsmall := h unit hunit
  simp only [JsString.isHighSurrogate, JsString.isLowSurrogate,
    Bool.and_eq_false_iff, decide_eq_false_iff_not]
  omega

theorem Ascii.append {left right : JsString} (hleft : Ascii left)
    (hright : Ascii right) : Ascii (left ++ right) := by
  intro unit hunit
  rcases List.mem_append.mp hunit with hunit | hunit
  · exact hleft unit hunit
  · exact hright unit hunit

theorem decode_zeros (count : Nat) :
    decode (List.replicate count 0) = List.replicate count 0 := by
  induction count with
  | zero => rfl
  | succ count ih =>
    rw [List.replicate_succ, decode_ascii (by decide), ih]
    rfl

theorem encode_ascii (h : Ascii text) (rest : JsString) :
    encode (text ++ rest) =
      text.map (fun unit => UInt8.ofNat unit.toNat) ++ encode rest := by
  induction text with
  | nil => rfl
  | cons unit text ih =>
    obtain ⟨hhigh, hlow⟩ := h.plain unit (by simp)
    have hsmall := h unit (by simp)
    have hrest := ih fun other hother => h other (by simp [hother])
    have hcode : encodeCode (codeOf [unit]) = [UInt8.ofNat unit.toNat] := by
      rw [codeOf, loneCode, hhigh, hlow, encodeCode]
      simp [hsmall]
    unfold encode at hrest ⊢
    rw [List.cons_append, codePoints_cons hhigh, List.flatMap_cons, hrest,
      hcode]
    rfl

theorem encode_ascii_eq (h : Ascii text) :
    encode text = text.map fun unit => UInt8.ofNat unit.toNat := by
  have happend := encode_ascii h []
  rw [List.append_nil] at happend
  rw [happend]
  exact List.append_nil _

theorem encode_ascii_length (h : Ascii text) :
    (encode text).length = text.length := by
  rw [encode_ascii_eq h, List.length_map]

theorem unitsOfCode_pairCode {high low : UInt16}
    (hhigh : JsString.isHighSurrogate high = true)
    (hlow : JsString.isLowSurrogate low = true) :
    unitsOfCode (pairCode high low) = [high, low] := by
  simp only [JsString.isHighSurrogate, JsString.isLowSurrogate,
    Bool.and_eq_true, decide_eq_true_eq] at hhigh hlow
  unfold unitsOfCode pairCode
  rw [if_neg (by omega)]
  have hfirst : 0xD800 + (0x10000 + (high.toNat - 0xD800) * 0x400 +
      (low.toNat - 0xDC00) - 0x10000) / 0x400 = high.toNat := by omega
  have hsecond : 0xDC00 + (0x10000 + (high.toNat - 0xD800) * 0x400 +
      (low.toNat - 0xDC00) - 0x10000) % 0x400 = low.toNat := by omega
  rw [hfirst, hsecond, UInt16.ofNat_toNat, UInt16.ofNat_toNat]

theorem unitsOfCode_loneCode_length (unit : UInt16) :
    ∃ other, unitsOfCode (loneCode unit) = [other] ∧
      (other = unit ∨ other = replacement) := by
  have hunit := unit.toNat_lt
  unfold loneCode
  split
  · exact ⟨replacement, rfl, .inr rfl⟩
  · refine ⟨unit, ?_, .inl rfl⟩
    unfold unitsOfCode
    rw [if_pos (by omega), UInt16.ofNat_toNat]

/-- A well-formed text is as long as the text, and its units are those of the
text and replacements. -/
theorem toWellFormed_units (text : JsString) :
    (toWellFormed text).length = text.length ∧
      ∀ unit ∈ toWellFormed text, unit ∈ text ∨ unit = replacement := by
  induction text using JsString.codePoints.induct with
  | case1 => simp [toWellFormed, JsString.codePoints]
  | case2 first =>
    obtain ⟨other, hother, hcases⟩ := unitsOfCode_loneCode_length first
    simp only [toWellFormed, JsString.codePoints, List.flatMap_cons,
      List.flatMap_nil, List.append_nil, codeOf, hother]
    simpa using hcases
  | case3 first next tail hpair ih =>
    obtain ⟨hhigh, hlow⟩ := Bool.and_eq_true_iff.mp hpair
    have hhead : unitsOfCode (codeOf [first, next]) = [first, next] :=
      unitsOfCode_pairCode hhigh hlow
    have hpoints : toWellFormed (first :: next :: tail) =
        [first, next] ++ toWellFormed tail := by
      unfold toWellFormed
      rw [JsString.codePoints, if_pos hpair, List.flatMap_cons, hhead]
    rw [hpoints]
    refine ⟨by rw [List.length_append, ih.1]; simp; omega, ?_⟩
    intro unit hunit
    rcases List.mem_append.mp hunit with hunit | hunit
    · apply Or.inl
      simp only [List.mem_cons, List.not_mem_nil, or_false] at hunit ⊢
      rcases hunit with rfl | rfl
      · exact .inl rfl
      · exact .inr (.inl rfl)
    · rcases ih.2 unit hunit with hmem | hmem
      · exact .inl (by simp [hmem])
      · exact .inr hmem
  | case4 first next tail hpair ih =>
    obtain ⟨other, hother, hcases⟩ := unitsOfCode_loneCode_length first
    have hhead : unitsOfCode (codeOf [first]) = [other] := hother
    have hpoints : toWellFormed (first :: next :: tail) =
        [other] ++ toWellFormed (next :: tail) := by
      unfold toWellFormed
      rw [JsString.codePoints, if_neg hpair, List.flatMap_cons, hhead]
    rw [hpoints]
    refine ⟨by rw [List.length_append, ih.1]; simp; omega, ?_⟩
    intro unit hunit
    rcases List.mem_append.mp hunit with hunit | hunit
    · rw [List.mem_singleton.mp hunit]
      rcases hcases with rfl | rfl
      · exact .inl (by simp)
      · exact .inr rfl
    · rcases ih.2 unit hunit with hmem | hmem
      · apply Or.inl
        rw [List.mem_cons]
        exact .inr hmem
      · exact .inr hmem

end Utf8Text
