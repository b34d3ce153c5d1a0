/-
Texts that agree on their ASCII units.  What is done to the characters beyond
ASCII, encoding them for one, leaves the parts between ASCII separators where
they are.
-/
import Allrice.Utf8Text

namespace Utf8Text

open Utf8Stream

theorem exists_of_forall₂ {α β : Type} {R : α → β → Prop}
    {sources : List α} {images : List β} (h : List.Forall₂ R sources images)
    {image : β} (himage : image ∈ images) :
    ∃ source ∈ sources, R source image := by
  induction h with
  | nil => cases himage
  | cons hhead _ ih =>
    rcases List.mem_cons.mp himage with rfl | himage
    · exact ⟨_, List.mem_cons_self, hhead⟩
    · obtain ⟨source, hsource, hrelated⟩ := ih himage
      exact ⟨source, List.mem_cons_of_mem _ hsource, hrelated⟩

/-- Units beyond ASCII, and at least one. -/
structure Beyond (units : JsString) : Prop where
  nonempty : units ≠ []
  least : ∀ unit ∈ units, 0x80 ≤ unit.toNat

/-- The same ASCII units in the same order, and something between them in the
same places. -/
inductive SameAscii : JsString → JsString → Prop
  | nil : SameAscii [] []
  | ascii {unit : UInt16} {text image : JsString} (h : unit.toNat < 0x80)
      (rest : SameAscii text image) : SameAscii (unit :: text) (unit :: image)
  | beyond {point other text image : JsString} (hpoint : Beyond point)
      (hother : Beyond other) (rest : SameAscii text image) :
      SameAscii (point ++ text) (other ++ image)

theorem Beyond.not_mem {units : JsString} (h : Beyond units) {unit : UInt16}
    (hunit : unit.toNat < 0x80) : unit ∉ units := by
  intro hmem
  have hleast := h.least unit hmem
  omega

namespace SameAscii

variable {text image : JsString} {unit : UInt16}

theorem symm (h : SameAscii text image) : SameAscii image text := by
  induction h with
  | nil => exact nil
  | ascii hunit _ ih => exact ascii hunit ih
  | beyond hpoint hother _ ih => exact beyond hother hpoint ih

variable {other : JsString}

theorem append {more : JsString} (h : SameAscii text image)
    (hmore : SameAscii more other) :
    SameAscii (text ++ more) (image ++ other) := by
  induction h with
  | nil => exact hmore
  | ascii hunit _ ih => exact ascii hunit ih
  | beyond hpoint hother _ ih =>
    rw [List.append_assoc, List.append_assoc]
    exact beyond hpoint hother ih

theorem mem (h : SameAscii text image) (hunit : unit.toNat < 0x80)
    (hmem : unit ∈ text) : unit ∈ image := by
  induction h with
  | nil => exact hmem
  | ascii hfirst _ ih =>
    rcases List.mem_cons.mp hmem with rfl | hmem
    · exact List.mem_cons_self
    · exact List.mem_cons_of_mem _ (ih hmem)
  | beyond hpoint hother _ ih =>
    rcases List.mem_append.mp hmem with hmem | hmem
    · exact absurd hmem (hpoint.not_mem hunit)
    · exact List.mem_append_right _ (ih hmem)

theorem mem_iff (h : SameAscii text image) (hunit : unit.toNat < 0x80) :
    unit ∈ text ↔ unit ∈ image :=
  ⟨h.mem hunit, h.symm.mem hunit⟩

/-- An ASCII text agrees with itself alone. -/
theorem eq_of_ascii (h : SameAscii text image) (htext : Ascii text) :
    image = text := by
  induction h with
  | nil => rfl
  | ascii hunit _ ih =>
    rw [ih fun unit hmem => htext unit (List.mem_cons_of_mem _ hmem)]
  | beyond hpoint hother _ ih =>
    obtain ⟨unit, hunit⟩ := List.exists_mem_of_ne_nil _ hpoint.nonempty
    exact absurd hunit
      (hpoint.not_mem (htext unit (List.mem_append_left _ hunit)))

theorem eq_iff (h : SameAscii text image) (hother : Ascii other) :
    text = other ↔ image = other := by
  constructor
  · rintro rfl
    exact h.eq_of_ascii hother
  · rintro rfl
    exact h.symm.eq_of_ascii hother

theorem modifyHead {parts images : List JsString}
    (h : List.Forall₂ SameAscii parts images) {f g : JsString → JsString}
    (hfg : ∀ part image, SameAscii part image →
      SameAscii (f part) (g image)) :
    List.Forall₂ SameAscii (parts.modifyHead f) (images.modifyHead g) := by
  cases h with
  | nil => exact .nil
  | cons hpart hrest => exact .cons (hfg _ _ hpart) hrest

theorem splitOn_append {point : JsString} (h : unit ∉ point) (text : JsString) :
    (point ++ text).splitOn unit =
      (text.splitOn unit).modifyHead (point ++ ·) := by
  induction point with
  | nil =>
    change text.splitOn unit = (text.splitOn unit).modifyHead id
    rw [List.modifyHead_id]
    rfl
  | cons first point ih =>
    have hfirst : (first == unit) = false := by
      rw [beq_eq_false_iff_ne]
      rintro rfl
      exact h List.mem_cons_self
    rw [List.cons_append, List.splitOn_cons_eq_if_modifyHead, hfirst,
      ih fun hmem => h (List.mem_cons_of_mem _ hmem)]
    simp only [Bool.false_eq_true, if_false, List.modifyHead_modifyHead]
    rfl

/-- The parts between ASCII separators agree as well. -/
theorem splitOn (h : SameAscii text image) (hunit : unit.toNat < 0x80) :
    List.Forall₂ SameAscii (text.splitOn unit) (image.splitOn unit) := by
  induction h with
  | nil =>
    rw [List.splitOn_nil]
    exact .cons nil .nil
  | ascii hfirst _ ih =>
    rw [List.splitOn_cons_eq_if_modifyHead,
      List.splitOn_cons_eq_if_modifyHead]
    split
    · exact .cons nil ih
    · exact modifyHead ih fun _ _ hpart => ascii hfirst hpart
  | beyond hpoint hother _ ih =>
    rw [splitOn_append (hpoint.not_mem hunit),
      splitOn_append (hother.not_mem hunit)]
    exact modifyHead ih fun _ _ hpart => beyond hpoint hother hpart

theorem exists_splitOn (h : SameAscii text image) (hunit : unit.toNat < 0x80)
    {part : JsString} (hpart : part ∈ image.splitOn unit) :
    ∃ source ∈ text.splitOn unit, SameAscii source part :=
  exists_of_forall₂ (h.splitOn hunit) hpart

end SameAscii

theorem codePoints_flatten (text : JsString) :
    (JsString.codePoints text).flatten = text := by
  induction text using JsString.codePoints.induct with
  | case1 | case2 unit => rfl
  | case3 unit next tail hpair ih =>
    rw [JsString.codePoints, if_pos hpair, List.flatten_cons, ih]
    rfl
  | case4 unit next tail hpair ih =>
    rw [JsString.codePoints, if_neg hpair, List.flatten_cons, ih]
    rfl

variable {points : List JsString} {text : JsString}

/-- A change of each character changes a text. -/
theorem sameAscii_flatMap {image : JsString → JsString}
    (h : ∀ point ∈ points, SameAscii point (image point)) :
    SameAscii points.flatten (points.flatMap image) := by
  induction points with
  | nil => exact .nil
  | cons point points ih =>
    rw [List.flatten_cons, List.flatMap_cons]
    exact (h point (by simp)).append
      (ih fun other hother => h other (by simp [hother]))

variable {point : JsString}

/-- A character is an ASCII unit, or all of it and its code are beyond. -/
theorem point_cases (h : IsPoint point) :
    (∃ unit : UInt16, point = [unit] ∧ unit.toNat < 0x80 ∧
      codeOf point = unit.toNat) ∨
    Beyond point ∧ 0x80 ≤ codeOf point ∧ codeOf point < 0x110000 := by
  match point, h with
  | [high, low], h =>
    obtain ⟨hhigh, hlow⟩ := h
    have hscalar := pairCode_isScalar hhigh hlow
    simp only [JsString.isHighSurrogate, JsString.isLowSurrogate,
      Bool.and_eq_true, decide_eq_true_eq] at hhigh hlow
    refine .inr ⟨⟨by simp, ?_⟩, ?_, ?_⟩
    · intro unit hunit
      simp only [List.mem_cons, List.not_mem_nil, or_false] at hunit
      rcases hunit with rfl | rfl <;> omega
    · change 0x80 ≤ pairCode high low
      unfold pairCode
      omega
    · change pairCode high low < 0x110000
      unfold IsScalar at hscalar
      omega
  | [unit], _ =>
    have hscalar := loneCode_isScalar unit
    by_cases hunit : unit.toNat < 0x80
    · apply Or.inl
      refine ⟨unit, rfl, hunit, ?_⟩
      have hascii : Ascii [unit] := by simpa [Ascii]
      have hplain := hascii.plain unit List.mem_cons_self
      simp [codeOf, loneCode, hplain.1, hplain.2]
    · apply Or.inr
      have hbound := unit.toNat_lt
      refine ⟨⟨by simp, ?_⟩, ?_, ?_⟩
      · intro other hother
        rw [List.mem_singleton.mp hother]
        omega
      · simp only [codeOf, loneCode]
        split <;> omega
      · unfold IsScalar at hscalar
        simp only [codeOf]
        omega

theorem unitsOfCode_ne_nil (code : Nat) : unitsOfCode code ≠ [] := by
  unfold unitsOfCode
  split <;> simp

theorem sameAscii_unitsOfCode (h : IsPoint point) :
    SameAscii point (unitsOfCode (codeOf point)) := by
  rcases point_cases h with ⟨unit, rfl, hunit, hcode⟩ | ⟨hpoint, hleast, hmost⟩
  · have hbound := unit.toNat_lt
    rw [hcode, unitsOfCode, if_pos (by omega), UInt16.ofNat_toNat]
    exact .ascii hunit .nil
  · have hother : Beyond (unitsOfCode (codeOf point)) :=
      ⟨unitsOfCode_ne_nil _, unitsOfCode_beyond hleast hmost⟩
    have happend := SameAscii.beyond hpoint hother .nil
    rwa [List.append_nil, List.append_nil] at happend

/-- Replacing lone surrogates changes no ASCII unit. -/
theorem sameAscii_toWellFormed (text : JsString) :
    SameAscii text (toWellFormed text) := by
  have hflat := sameAscii_flatMap fun point hpoint =>
    sameAscii_unitsOfCode (codePoints_isPoint text point hpoint)
  rw [codePoints_flatten] at hflat
  exact hflat

/-- Bytes as the units of a text. -/
def unitsOfBytes (bytes : List UInt8) : JsString :=
  bytes.map fun byte => UInt16.ofNat byte.toNat

theorem encodeCode_beyond {code : Nat} (hleast : 0x80 ≤ code)
    (hmost : code < 0x110000) :
    2 ≤ (encodeCode code).length ∧
      (0x10000 ≤ code → 4 ≤ (encodeCode code).length) ∧
      ∀ byte ∈ encodeCode code, 0x80 ≤ byte.toNat := by
  unfold encodeCode
  rw [if_neg (by omega)]
  split
  · refine ⟨by simp, by omega, ?_⟩
    simp only [List.forall_mem_cons, UInt8.toNat_ofNat']
    refine ⟨by omega, by omega, ?_⟩
    simp
  split
  · refine ⟨by simp, by omega, ?_⟩
    simp only [List.forall_mem_cons, UInt8.toNat_ofNat']
    refine ⟨by omega, by omega, by omega, ?_⟩
    simp
  · refine ⟨by simp, by simp, ?_⟩
    simp only [List.forall_mem_cons, UInt8.toNat_ofNat']
    refine ⟨by omega, by omega, by omega, by omega, ?_⟩
    simp

theorem sameAscii_encodeCode (h : IsPoint point) :
    SameAscii point (unitsOfBytes (encodeCode (codeOf point))) := by
  rcases point_cases h with ⟨unit, rfl, hunit, hcode⟩ | ⟨hpoint, hleast, hmost⟩
  · have hbyte : (UInt8.ofNat unit.toNat).toNat = unit.toNat := by
      rw [UInt8.toNat_ofNat']
      omega
    rw [hcode, encodeCode, if_pos hunit, unitsOfBytes, List.map_singleton,
      hbyte, UInt16.ofNat_toNat]
    exact .ascii hunit .nil
  · obtain ⟨hlength, _, hbytes⟩ := encodeCode_beyond hleast hmost
    have hother : Beyond (unitsOfBytes (encodeCode (codeOf point))) := by
      constructor
      · intro hnil
        rw [unitsOfBytes, List.map_eq_nil_iff] at hnil
        rw [hnil] at hlength
        simp at hlength
      · intro unit hunit
        obtain ⟨byte, hbyte, rfl⟩ := List.mem_map.mp hunit
        have hbound := byte.toNat_lt
        have hleast := hbytes byte hbyte
        rw [UInt16.toNat_ofNat']
        omega
    have happend := SameAscii.beyond hpoint hother .nil
    rwa [List.append_nil, List.append_nil] at happend

/-- The bytes of a text have its ASCII units, and beyond ASCII only bytes from
0x80 on. -/
theorem sameAscii_encode (text : JsString) :
    SameAscii text (unitsOfBytes (encode text)) := by
  have hflat := sameAscii_flatMap fun point hpoint =>
    sameAscii_encodeCode (codePoints_isPoint text point hpoint)
  rw [codePoints_flatten] at hflat
  unfold encode unitsOfBytes
  rw [List.map_flatMap]
  exact hflat

theorem point_length (h : IsPoint point) :
    point.length = 1 ∨ point.length = 2 ∧ 0x10000 ≤ codeOf point := by
  match point, h with
  | [high, low], _ =>
    apply Or.inr
    refine ⟨rfl, ?_⟩
    exact Nat.le_trans (Nat.le_add_right _ _) (Nat.le_add_right _ _)
  | [unit], _ => exact .inl rfl

/-- A character has at least as many bytes as units, and more than that unless
it is ASCII. -/
theorem encodeCode_length (h : IsPoint point) :
    point.length ≤ (encodeCode (codeOf point)).length ∧
      ((encodeCode (codeOf point)).length = point.length → Ascii point) := by
  have hlength := point_length h
  rcases point_cases h with ⟨unit, rfl, hunit, hcode⟩ | ⟨hpoint, hleast, hmost⟩
  · rw [hcode, encodeCode, if_pos hunit]
    exact ⟨Nat.le_refl _, fun _ => by simpa [Ascii]⟩
  · obtain ⟨htwo, hfour, _⟩ := encodeCode_beyond hleast hmost
    rcases hlength with hone | ⟨hpair, hwide⟩
    · exact ⟨by omega, by omega⟩
    · have hfour := hfour hwide
      exact ⟨by omega, by omega⟩

theorem flatMap_encodeCode_length (h : ∀ point ∈ points, IsPoint point) :
    points.flatten.length ≤
        (points.flatMap fun point => encodeCode (codeOf point)).length ∧
      ((points.flatMap fun point => encodeCode (codeOf point)).length =
        points.flatten.length → Ascii points.flatten) := by
  induction points with
  | nil => simp [Ascii]
  | cons point points ih =>
    obtain ⟨hle, hascii⟩ := encodeCode_length (h point (by simp))
    obtain ⟨hrestLe, hrestAscii⟩ :=
      ih fun other hother => h other (by simp [hother])
    simp only [List.flatten_cons, List.flatMap_cons, List.length_append]
    refine ⟨by omega, fun heq => ?_⟩
    exact (hascii (by omega)).append (hrestAscii (by omega))

/-- A text with as many bytes as units is an ASCII text. -/
theorem ascii_of_encode_length (h : (encode text).length = text.length) :
    Ascii text := by
  obtain ⟨_, hascii⟩ := flatMap_encodeCode_length (codePoints_isPoint text)
  rw [codePoints_flatten] at hascii
  exact hascii h

theorem unitsOfBytes_encode (h : Ascii text) :
    unitsOfBytes (encode text) = text :=
  (sameAscii_encode text).eq_of_ascii h

end Utf8Text
