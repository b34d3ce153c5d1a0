/-
What the archive's reader finds in the headers that its writer makes, field by
field, and the check sum with them.
-/
import Allrice.LocalPythonArchive

namespace Allrice

open DigitText Splice Utf8Stream Utf8Text

theorem encodeWithin_eq (points : List JsString) {space : Nat}
    (h : (points.flatMap fun point => encodeCode (codeOf point)).length ≤
      space) :
    encodeWithin space points =
      points.flatMap fun point => encodeCode (codeOf point) := by
  induction points generalizing space with
  | nil => rfl
  | cons point points ih =>
    rw [List.flatMap_cons, List.length_append] at h
    unfold encodeWithin
    simp only
    rw [if_pos (by omega), ih (by omega), List.flatMap_cons]

namespace HeaderBlock

variable (h : HeaderBlock) (text : JsString) {start length : Nat}
  (hfits : start + length ≤ block)

/-- The field that was written: its text, and what was there behind it. -/
theorem slice_put (hlength : (encode text).length ≤ length) :
    slice (h.put text start length hfits).bytes start length =
      encode text ++ slice h.bytes (start + (encode text).length)
        (length - (encode text).length) := by
  have hbytes := h.length_eq
  have hwithin : encodeWithin length (JsString.codePoints text) =
      encode text := encodeWithin_eq _ hlength
  unfold put
  simp only [hwithin]
  exact slice_splice_front (by omega) hlength

theorem slice_put_full (hlength : (encode text).length = length) :
    slice (h.put text start length hfits).bytes start length =
      encode text := by
  rw [slice_put h text hfits (by omega), hlength, Nat.sub_self]
  simp [slice]

variable {other count : Nat}

theorem slice_put_other
    (hother : other + count ≤ start ∨ start + length ≤ other) :
    slice (h.put text start length hfits).bytes other count =
      slice h.bytes other count := by
  have hbytes := h.length_eq
  have hle := encodeWithin_length_le length (JsString.codePoints text)
  apply slice_splice_other
  · omega
  · omega

theorem slice_blank_other
    (hother : other + count ≤ start ∨ start + length ≤ other) :
    slice (h.blank start length hfits).bytes other count =
      slice h.bytes other count := by
  have hbytes := h.length_eq
  apply slice_splice_other
  · rw [List.length_replicate]
    omega
  · rw [List.length_replicate]
    exact hother

theorem slice_blank :
    slice (h.blank start length hfits).bytes start length =
      List.replicate length 32 := by
  have hbytes := h.length_eq
  have hcount : (List.replicate length (32 : UInt8)).length = length :=
    List.length_replicate
  have hwithin : start + (List.replicate length (32 : UInt8)).length ≤
      h.bytes.length := by omega
  have hsame := slice_splice_same hwithin
  rw [hcount] at hsame
  exact hsame

theorem slice_alloc (hfits : start + length ≤ block) :
    slice alloc.bytes start length = List.replicate length 0 :=
  slice_replicate 0 hfits

end HeaderBlock

theorem padStart_ascii (width n : Nat) :
    Ascii (padStart width (digitsOf 8 n)) := by
  intro unit hunit
  have hdigit := isDigitOf_range (by decide)
    (padStart_isDigitOf (by decide) (by decide) width n unit hunit)
  omega

theorem octalField_ascii (width n : Nat) : Ascii (octalField width n) := by
  apply (padStart_ascii width n).append
  intro unit hunit
  rw [List.mem_singleton.mp hunit]
  decide

variable {text : JsString}

theorem takeWhile_until (h : (0 : UInt16) ∉ text) (rest : JsString) :
    (text ++ 0 :: rest).takeWhile (· != 0) = text := by
  induction text with
  | nil => rfl
  | cons unit text ih =>
    have hunit : unit ≠ 0 := by
      rintro rfl
      exact h (by simp)
    have hrest : (0 : UInt16) ∉ text := by
      intro hmem
      exact h (by simp [hmem])
    simp [hunit, ih hrest]

theorem fieldText_zeros (count : Nat) :
    fieldText (List.replicate count 0) = [] := by
  unfold fieldText
  rw [decode_zeros]
  cases count with
  | zero | succ count => rfl

/-- A text in a field that may be longer. -/
theorem fieldText_name (h : (0 : UInt16) ∉ text) (count : Nat) :
    fieldText (encode text ++ List.replicate count 0) =
      JsString.trimEnd (toWellFormed text) := by
  have hnot : (0 : UInt16) ∉ toWellFormed text := by
    intro hmem
    rcases (toWellFormed_units text).2 0 hmem with hmem | hmem
    · exact h hmem
    · exact absurd hmem (by decide)
  unfold fieldText
  rw [decode_encode_append, decode_zeros]
  cases count with
  | zero =>
    rw [List.replicate_zero, List.append_nil]
    congr 1
    apply List.takeWhile_eq_self_iff.mpr
    intro unit hunit
    have hne : unit ≠ 0 := by
      rintro rfl
      exact hnot hunit
    simpa using hne
  | succ count => rw [List.replicate_succ, takeWhile_until hnot]

/-- Digits in a field, with a zero behind them. -/
theorem fieldText_digits {digits rest : JsString}
    (hdigits : ∀ unit ∈ digits, isDigitOf 8 unit = true)
    (hrest : Ascii rest) :
    fieldText (encode (digits ++ 0 :: rest)) = digits := by
  have hrange : ∀ unit ∈ digits, 0x30 ≤ unit.toNat ∧ unit.toNat < 0x3A :=
    fun unit hunit => isDigitOf_range (by decide) (hdigits unit hunit)
  have hascii : Ascii (digits ++ 0 :: rest) := by
    apply Ascii.append
    · intro unit hunit
      have hunit := hrange unit hunit
      omega
    · intro unit hunit
      rcases List.mem_cons.mp hunit with rfl | hunit
      · decide
      · exact hrest unit hunit
  have hnot : (0 : UInt16) ∉ digits := by
    intro hmem
    exact absurd (hrange 0 hmem).1 (by decide)
  unfold fieldText
  rw [decode_encode, toWellFormed_plain hascii.plain, takeWhile_until hnot]
  apply JsString.trimEnd_of_last
  intro unit hunit
  exact not_whitespace_of_digit (hrange unit (List.mem_of_getLast? hunit))

theorem octalField_length {width n : Nat} (hwidth : 0 < width)
    (hn : n < 8 ^ width) :
    (encode (octalField width n)).length = width + 1 := by
  rw [encode_ascii_length (octalField_ascii width n), octalField,
    List.length_append,
    padStart_length (digitsOf_length_le (by decide) hwidth hn)]
  rfl

section Fields

variable (name : JsString) (size : Nat) (type : JsString) (mode : Nat)

theorem byteSum_lt {bytes : List UInt8} (h : bytes.length = block) :
    byteSum bytes < 8 ^ 6 := by
  have hsum : ∀ bytes : List UInt8, byteSum bytes ≤ 255 * bytes.length := by
    intro bytes
    induction bytes with
    | nil => exact Nat.le_refl 0
    | cons byte bytes ih =>
      have hbyte := byte.toNat_lt
      simp only [byteSum, List.map_cons, List.sum_cons,
        List.length_cons] at ih ⊢
      omega
  have hle := hsum bytes
  rw [h] at hle
  simp only [block] at hle
  omega

variable {count start : Nat}

theorem header_slice_other {other : Nat}
    (hother : other + count ≤ 148 ∨ 156 ≤ other) :
    slice (header name size type mode).bytes other count =
      slice (blankHeader name size type mode).bytes other count :=
  HeaderBlock.slice_put_other _ _ (by decide) hother

theorem blankHeader_sum :
    slice (blankHeader name size type mode).bytes 148 8 =
      List.replicate 8 32 := by
  simp (disch := omega) only [blankHeader, HeaderBlock.slice_put_other,
    HeaderBlock.slice_blank]

theorem blankHeader_size (hsize : size < 8 ^ 11) :
    slice (blankHeader name size type mode).bytes 124 12 =
      encode (octalField 11 size) := by
  simp (disch := omega) only [blankHeader, HeaderBlock.slice_put_other,
    HeaderBlock.slice_blank_other]
  exact HeaderBlock.slice_put_full _ _ _ (octalField_length (by decide) hsize)

theorem blankHeader_type (htype : (encode type).length = 1) :
    slice (blankHeader name size type mode).bytes 156 1 = encode type := by
  simp (disch := omega) only [blankHeader, HeaderBlock.slice_put_other]
  exact HeaderBlock.slice_put_full _ _ _ htype

theorem blankHeader_name (hname : (encode name).length ≤ 100) :
    slice (blankHeader name size type mode).bytes 0 100 =
      encode name ++ List.replicate (100 - (encode name).length) 0 := by
  simp (disch := omega) only [blankHeader, HeaderBlock.slice_put_other,
    HeaderBlock.slice_blank_other]
  rw [HeaderBlock.slice_put _ _ _ hname, HeaderBlock.slice_alloc]
  simp only [block]
  omega

/-- The fields that no file here uses. -/
theorem blankHeader_unused
    (h : 157 ≤ start ∧ start + count ≤ 257 ∨
      265 ≤ start ∧ start + count ≤ block) :
    slice (blankHeader name size type mode).bytes start count =
      List.replicate count 0 := by
  have hfits : start + count ≤ block := by
    simp only [block] at h ⊢
    omega
  simp (disch := omega) only [blankHeader, HeaderBlock.slice_put_other,
    HeaderBlock.slice_blank_other]
  exact HeaderBlock.slice_alloc hfits

/-- The text of the check sum. -/
def sumField : JsString :=
  octalField 6 (byteSum (blankHeader name size type mode).bytes) ++ [32]

theorem sumField_length :
    (encode (sumField name size type mode)).length = 8 := by
  have hsum := byteSum_lt (blankHeader name size type mode).length_eq
  have hfield := octalField_length (by decide) hsum
  have hascii := octalField_ascii 6
    (byteSum (blankHeader name size type mode).bytes)
  rw [sumField, encode_ascii hascii, List.length_append, List.length_map,
    ← encode_ascii_length hascii, hfield]
  rfl

theorem header_sum :
    slice (header name size type mode).bytes 148 8 =
      encode (sumField name size type mode) :=
  HeaderBlock.slice_put_full _ _ (by decide)
    (sumField_length name size type mode)

/-- Blanked again, the header is the one that was summed. -/
theorem header_blanked :
    splice (header name size type mode).bytes 148 (List.replicate 8 32) =
      (blankHeader name size type mode).bytes := by
  have hlength := (blankHeader name size type mode).length_eq
  have hsum := blankHeader_sum name size type mode
  have hwithin : encodeWithin 8
      (JsString.codePoints (sumField name size type mode)) =
      encode (sumField name size type mode) :=
    encodeWithin_eq _ (Nat.le_of_eq (sumField_length name size type mode))
  have hput : (header name size type mode).bytes =
      splice (blankHeader name size type mode).bytes 148
        (encode (sumField name size type mode)) := by
    rw [← hwithin]
    rfl
  have hcount := sumField_length name size type mode
  rw [hput, splice_splice, ← hsum, splice_slice]
  · rw [hlength]
    decide
  · rw [hcount, hlength]
    decide
  · rw [hcount, List.length_replicate]

/-- Digits are not trimmed. -/
theorem trim_digits {digits : JsString}
    (h : ∀ unit ∈ digits, isDigitOf 8 unit = true) :
    JsString.trim digits = digits := by
  apply JsString.trim_of_none
  intro unit hunit
  exact not_whitespace_of_digit (isDigitOf_range (by decide) (h unit hunit))

theorem octal_digits (width n : Nat) :
    ∀ unit ∈ padStart width (digitsOf 8 n), isDigitOf 8 unit = true :=
  padStart_isDigitOf (by decide) (by decide) width n

theorem octal_value (width n : Nat) :
    valueOf 8 (padStart width (digitsOf 8 n)) = n := by
  rw [valueOf_padStart, valueOf_digitsOf (by decide) (by decide)]

theorem octal_ne_nil (width n : Nat) :
    padStart width (digitsOf 8 n) ≠ [] := by
  intro hnil
  exact digitsOf_ne_nil 8 n (List.append_eq_nil_iff.mp hnil).2

theorem header_checksum :
    parseInt 8 (JsString.trim
        (textOf (header name size type mode).bytes 148 8)) =
      some (byteSum (blankHeader name size type mode).bytes : Int) := by
  have hdigits := octal_digits 6
    (byteSum (blankHeader name size type mode).bytes)
  have htext : textOf (header name size type mode).bytes 148 8 =
      padStart 6 (digitsOf 8
        (byteSum (blankHeader name size type mode).bytes)) := by
    rw [textOf, header_sum, sumField, octalField, List.append_assoc]
    apply fieldText_digits hdigits
    intro unit hunit
    rw [List.mem_singleton.mp hunit]
    decide
  rw [htext, trim_digits hdigits,
    parseInt_digits (by decide) (octal_ne_nil _ _) hdigits, octal_value]

theorem header_size (hsize : size < 8 ^ 11) :
    JsString.trim (textOf (header name size type mode).bytes 124 12) =
      padStart 11 (digitsOf 8 size) := by
  have hdigits := octal_digits 11 size
  have htext : textOf (header name size type mode).bytes 124 12 =
      padStart 11 (digitsOf 8 size) := by
    rw [textOf, header_slice_other _ _ _ _ (by decide),
      blankHeader_size _ _ _ _ hsize, octalField]
    apply fieldText_digits hdigits
    intro unit hunit
    cases hunit
  rw [htext, trim_digits hdigits]

theorem header_unused
    (h : 157 ≤ start ∧ start + count ≤ 257 ∨
      265 ≤ start ∧ start + count ≤ block) :
    textOf (header name size type mode).bytes start count = [] := by
  rw [textOf, header_slice_other _ _ _ _ (by omega),
    blankHeader_unused _ _ _ _ h]
  exact fieldText_zeros count

theorem header_name (hname : (encode name).length ≤ 100)
    (hzero : (0 : UInt16) ∉ name) :
    textOf (header name size type mode).bytes 0 100 =
      JsString.trimEnd (toWellFormed name) := by
  rw [textOf, header_slice_other _ _ _ _ (by decide),
    blankHeader_name _ _ _ _ hname]
  exact fieldText_name hzero _

/-- A type is one printable character. -/
def IsType (type : JsString) : Prop :=
  ∃ unit : UInt16, type = [unit] ∧ 0x30 ≤ unit.toNat ∧ unit.toNat < 0x80

theorem header_type (htype : IsType type) :
    textOf (header name size type mode).bytes 156 1 = type := by
  obtain ⟨unit, rfl, hlow, hhigh⟩ := htype
  have hascii : Ascii [unit] := by
    intro other hother
    rw [List.mem_singleton.mp hother]
    exact hhigh
  have hlength : (encode [unit]).length = 1 := encode_ascii_length hascii
  have hzero : (0 : UInt16) ∉ [unit] := by
    intro hmem
    rw [← List.mem_singleton.mp hmem] at hlow
    exact absurd hlow (by decide)
  have htext := fieldText_name hzero 0
  rw [List.replicate_zero, List.append_nil,
    toWellFormed_plain hascii.plain] at htext
  rw [textOf, header_slice_other _ _ _ _ (by decide),
    blankHeader_type _ _ _ _ hlength, htext]
  apply JsString.trimEnd_of_last
  intro other hother
  rw [List.getLast?_singleton] at hother
  cases hother
  simp only [JsString.isWhitespace, Bool.or_eq_false_iff,
    Bool.and_eq_false_iff, decide_eq_false_iff_not, beq_eq_false_iff_ne]
  omega

/-- The reader's view of a header. -/
theorem readHeader_header (hname : (encode name).length ≤ 100)
    (hzero : (0 : UInt16) ∉ name) (hsize : size < 8 ^ 11)
    (htype : IsType type) :
    readHeader (header name size type mode).bytes =
      .ok ⟨size, type, JsString.trimEnd (toWellFormed name), [], []⟩ := by
  have hraw := header_size name size type mode hsize
  have hoctal : isOctal (padStart 11 (digitsOf 8 size)) = true := by
    have hne := octal_ne_nil 11 size
    have hall := octal_digits 11 size
    rw [isOctal, Bool.and_eq_true, List.all_eq_true]
    exact ⟨by simpa using hne, hall⟩
  have hprefix := header_unused name size type mode
    (show 157 ≤ 345 ∧ 345 + 155 ≤ 257 ∨ 265 ≤ 345 ∧ 345 + 155 ≤ block by
      decide)
  have hlink := header_unused name size type mode
    (show 157 ≤ 157 ∧ 157 + 100 ≤ 257 ∨ 265 ≤ 157 ∧ 157 + 100 ≤ block by
      decide)
  have hsum := header_checksum name size type mode
  have hblanked := header_blanked name size type mode
  have htext := header_type name size type mode htype
  have hread := header_name name size type mode hname hzero
  unfold readHeader
  generalize (header name size type mode).bytes = h at *
  generalize (blankHeader name size type mode).bytes = blanked at *
  simp only [hraw, hsum, hblanked, hoctal, htext, hread, hprefix, hlink,
    octal_value]
  rw [if_neg]
  rintro (hfalse | hfalse)
  · cases hfalse
  · exact hfalse rfl

/-- A header is no block of zeros. -/
theorem header_not_zero :
    (header name size type mode).bytes.all (· == 0) = false := by
  have hsum := header_sum name size type mode
  have hdigits := octal_digits 6
    (byteSum (blankHeader name size type mode).bytes)
  have hne := octal_ne_nil 6
    (byteSum (blankHeader name size type mode).bytes)
  rw [Bool.eq_false_iff]
  intro hall
  rw [List.all_eq_true] at hall
  cases hfield : padStart 6 (digitsOf 8
      (byteSum (blankHeader name size type mode).bytes)) with
  | nil => exact hne hfield
  | cons unit rest =>
    have hunit := isDigitOf_range (by decide)
      (hdigits unit (by rw [hfield]; simp))
    have hmem : UInt8.ofNat unit.toNat ∈
        slice (header name size type mode).bytes 148 8 := by
      rw [hsum, sumField, octalField, hfield, List.append_assoc,
        encode_ascii]
      · simp
      · rw [← hfield]
        exact padStart_ascii _ _
    have hbyte := hall _
      (List.mem_of_mem_drop (List.mem_of_mem_take hmem))
    have hzero : UInt8.ofNat unit.toNat = 0 := by simpa using hbyte
    have hvalue := congrArg UInt8.toNat hzero
    rw [UInt8.toNat_ofNat'] at hvalue
    simp only [UInt8.toNat_zero] at hvalue
    omega

end Fields

end Allrice
