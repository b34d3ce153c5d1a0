/-
The PAX record of a path.  Its length counts its own digits; the writer looks
for it in rounds, and the reader finds the path again.
-/
import Allrice.ArchiveHeaders

namespace Allrice

open DigitText Splice Utf8Stream Utf8Text

theorem digitCount_pos (n : Nat) : 0 < digitCount n :=
  List.length_pos_iff.mpr (digitsOf_ne_nil 10 n)

theorem lt_pow_digitCount (n : Nat) : n < 10 ^ digitCount n :=
  lt_pow_length (by decide) n

theorem digitCount_mono {m n : Nat} (h : m ≤ n) :
    digitCount m ≤ digitCount n :=
  digitsOf_length_le (by decide) (digitCount_pos n)
    (Nat.lt_of_le_of_lt h (lt_pow_digitCount n))

/-- As many steps as there are digits give at most one digit more. -/
theorem digitCount_near {m n : Nat} (h : n ≤ m + digitCount m) :
    digitCount n ≤ digitCount m + 1 := by
  have hm := lt_pow_digitCount m
  have hcount : digitCount m < 10 ^ digitCount m :=
    Nat.lt_pow_self (by decide)
  apply digitsOf_length_le (by decide) (by omega)
  rw [Nat.pow_succ]
  omega

/-- One round of the loop. -/
theorem paxLength_succ (valueLength rounds length : Nat) :
    paxLength valueLength (rounds + 1) length =
      if valueLength + digitCount length = length then length
      else paxLength valueLength rounds
        (valueLength + digitCount length) := rfl

theorem paxLength_of_fixed {valueLength length : Nat}
    (h : valueLength + digitCount length = length) (rounds : Nat) :
    paxLength valueLength rounds length = length := by
  cases rounds with
  | zero => rfl
  | succ rounds => rw [paxLength_succ, if_pos h]

theorem paxLength_next (valueLength rounds length : Nat) :
    paxLength valueLength (rounds + 1) length =
      paxLength valueLength rounds (valueLength + digitCount length) := by
  rw [paxLength_succ]
  split
  · rename_i hfixed
    rw [hfixed, paxLength_of_fixed hfixed]
  · rfl

/-- Where the loop ends.  After the first round the digits grow at most
once. -/
theorem paxLength_ends (valueLength : Nat) :
    ∃ digits ≤ digitCount (valueLength + 1) + 1,
      paxLength valueLength 4 (valueLength + 1) = valueLength + digits ∧
        digitCount (valueLength + digits) = digits := by
  have hpos := digitCount_pos (valueLength + 1)
  have hgrows : digitCount (valueLength + digitCount (valueLength + 1)) ≤
      digitCount (valueLength + 1) + 1 := digitCount_near (by omega)
  have hfirst : digitCount (valueLength + 1) ≤
      digitCount (valueLength + digitCount (valueLength + 1)) :=
    digitCount_mono (by omega)
  rw [paxLength_next, paxLength_next]
  generalize hcount : digitCount (valueLength + 1) = first at *
  by_cases hsame : digitCount (valueLength + first) = first
  · refine ⟨first, by omega, ?_, hsame⟩
    rw [hsame]
    exact paxLength_of_fixed (by rw [hsame]) 2
  · have hnext : digitCount (valueLength + first) = first + 1 := by omega
    have hmono : digitCount (valueLength + first) ≤
        digitCount (valueLength + (first + 1)) :=
      digitCount_mono (by omega)
    have hnear : digitCount (valueLength + (first + 1)) ≤ first + 1 := by
      rw [← hcount]
      apply digitCount_near
      omega
    have hlast : digitCount (valueLength + (first + 1)) = first + 1 := by
      omega
    refine ⟨first + 1, by omega, ?_, hlast⟩
    rw [hnext]
    exact paxLength_of_fixed (by rw [hlast]) 2

/-- The length that the loop ends with counts its own digits. -/
theorem paxLength_fixed (valueLength : Nat) :
    valueLength + digitCount (paxLength valueLength 4 (valueLength + 1)) =
      paxLength valueLength 4 (valueLength + 1) := by
  obtain ⟨digits, _, hends, hdigits⟩ := paxLength_ends valueLength
  rw [hends, hdigits]

section Record

variable (path : JsString)

/-- What a path's record says behind its length. -/
def paxBytes : List UInt8 := encode (paxValue path)

def paxTotal : Nat := paxLength (paxBytes path).length 4
  ((paxBytes path).length + 1)

theorem digits_ascii (n : Nat) : Ascii (digitsOf 10 n) := by
  intro unit hunit
  have hdigit := digitsOf_isDigit (by decide) (by decide) n unit hunit
  simp only [isDigit, Bool.and_eq_true, decide_eq_true_eq] at hdigit
  omega

theorem paxPath_length : (paxPath path).length = paxTotal path := by
  have hfixed := paxLength_fixed (paxBytes path).length
  have hdigits := encode_ascii_length (digits_ascii (paxTotal path))
  change (encode (digitsOf 10 (paxTotal path)) ++ paxBytes path).length = _
  rw [List.length_append, hdigits]
  change digitCount (paxTotal path) + _ = _
  change _ + digitCount (paxTotal path) = paxTotal path at hfixed
  omega

/-- The value between its blank and its newline. -/
theorem paxBytes_eq :
    paxBytes path =
      32 :: (encode (JsString.ofString "path=" ++ path) ++ [10]) := by
  have hblank : Ascii [0x20] := by
    intro unit hunit
    rw [List.mem_singleton.mp hunit]
    decide
  have hvalue : paxValue path =
      [0x20] ++ ((JsString.ofString "path=" ++ path) ++ 0x0A :: []) := by
    have hword : JsString.ofString " path=" =
        [0x20] ++ JsString.ofString "path=" := by decide
    rw [paxValue, hword, List.append_assoc, List.append_assoc]
    simp only [List.append_assoc]
  rw [paxBytes, hvalue, encode_ascii hblank, encode_append (by decide)]
  rfl

/-- The bytes of ASCII text, read as ASCII. -/
theorem asciiText_encode {text : JsString} (h : Ascii text) :
    asciiText (encode text) = text := by
  rw [encode_ascii_eq h, asciiText, List.map_map]
  calc text.map _ = text.map id := by
        apply List.map_congr_left
        intro unit hunit
        have hsmall := h unit hunit
        apply UInt16.toNat.inj
        simp only [Function.comp, id, UInt8.toNat_ofNat',
          UInt16.toNat_ofNat']
        omega
    _ = text := List.map_id text

theorem digits_no_blank (n : Nat) :
    ∀ byte ∈ encode (digitsOf 10 n), byte ≠ 32 := by
  intro byte hbyte
  rw [encode_ascii_eq (digits_ascii n)] at hbyte
  rcases List.mem_map.mp hbyte with ⟨unit, hunit, rfl⟩
  have hdigit := digitsOf_isDigit (by decide) (by decide) n unit hunit
  simp only [isDigit, Bool.and_eq_true, decide_eq_true_eq] at hdigit
  intro hblank
  have hvalue := congrArg UInt8.toNat hblank
  rw [UInt8.toNat_ofNat'] at hvalue
  simp only [UInt8.reduceToNat] at hvalue
  omega

theorem takeWhile_blank {digits rest : List UInt8}
    (h : ∀ byte ∈ digits, byte ≠ 32) :
    (digits ++ 32 :: rest).takeWhile (· != 32) = digits := by
  induction digits with
  | nil => rfl
  | cons byte digits ih =>
    have hbyte := h byte (by simp)
    have hrest := ih fun other hother => h other (by simp [hother])
    simp [hbyte, hrest]

theorem recordParts_path (value : JsString) :
    recordParts (JsString.ofString "path=" ++ value) =
      (JsString.ofString "path", value) := by
  have hword : JsString.ofString "path=" =
      [0x70, 0x61, 0x74, 0x68, 0x3D] := by decide
  have hkey : JsString.ofString "path" = [0x70, 0x61, 0x74, 0x68] := by
    decide
  rw [recordParts, hword, hkey]
  simp

theorem path_ascii : Ascii (JsString.ofString "path=") := by
  have hword : JsString.ofString "path=" =
      [0x70, 0x61, 0x74, 0x68, 0x3D] := by decide
  intro unit hunit
  rw [hword] at hunit
  simp only [List.mem_cons, List.not_mem_nil, or_false] at hunit
  rcases hunit with rfl | rfl | rfl | rfl | rfl <;> decide

/-- A record as the reader meets it. -/
theorem readRecord_digits {n : Nat} {text : List UInt8}
    (hn : n = digitCount n + (text.length + 2)) (hsafe : n < 2 ^ 53)
    (hfour : 4 ≤ n) :
    readRecord (encode (digitsOf 10 n) ++ 32 :: (text ++ [10])) =
      .ok (n, recordParts (decode text)) := by
  have hdigits := digits_no_blank n
  have hascii := asciiText_encode (digits_ascii n)
  have hcount : (encode (digitsOf 10 n)).length = digitCount n :=
    encode_ascii_length (digits_ascii n)
  have hvalue := JsNumber.toInt_ofDecimal hsafe
  generalize encode (digitsOf 10 n) = digits at *
  have hlength : (digits ++ 32 :: (text ++ [10])).length = n := by
    simp only [List.length_append, List.length_cons, List.length_nil]
    omega
  have hbody : digits ++ 32 :: (text ++ [10]) =
      (digits ++ 32 :: text) ++ [10] := by simp
  have hcut : (digits ++ 32 :: text).length = n - 1 := by
    simp only [List.length_append, List.length_cons]
    omega
  have hlast : (digits ++ 32 :: (text ++ [10]))[n - 1]? = some 10 := by
    rw [hbody, ← hcut, List.getElem?_concat_length]
  have htext : ((digits ++ 32 :: (text ++ [10])).take (n - 1)).drop
      (digits.length + 1) = text := by
    rw [hbody, ← hcut, List.take_left]
    simp
  unfold readRecord
  simp only [takeWhile_blank hdigits, hascii, NumberText.ofText_digits, hvalue]
  rw [if_neg]
  · rw [Int.toNat_natCast, htext]
  · rw [Int.toNat_natCast, hlength, hlast]
    simp
    omega

theorem paxBytes_length :
    (paxBytes path).length = 7 + (encode path).length := by
  have hword : (JsString.ofString "path=").length = 5 := by decide
  rw [paxBytes_eq path, List.length_cons, List.length_append,
    encode_ascii path_ascii, List.length_append, List.length_map, hword]
  simp only [List.length_cons, List.length_nil]
  omega

/-- Which names have a record that the reader accepts. -/
theorem paxPath_fits :
    (paxPath path).length ≤ 4096 ↔ (encode path).length ≤ 4085 := by
  have hcount := paxBytes_length path
  obtain ⟨digits, hle, hends, hdigits⟩ :=
    paxLength_ends (paxBytes path).length
  change paxTotal path = _ at hends
  have hlt := lt_pow_digitCount ((paxBytes path).length + digits)
  rw [hdigits] at hlt
  rw [paxPath_length, hends]
  constructor
  · intro hshort
    by_contra hlong
    have hmany : ¬digits ≤ 3 := by
      intro hfew
      have hpow : 10 ^ digits ≤ 10 ^ 3 :=
        Nat.pow_le_pow_right (by decide) hfew
      omega
    omega
  · intro hshort
    have hfirst : digitCount ((paxBytes path).length + 1) ≤ 4 :=
      digitsOf_length_le (by decide) (by decide) (by omega)
    have hfour : digitCount ((paxBytes path).length + digits) ≤ 4 :=
      digitsOf_length_le (by decide) (by decide) (by omega)
    omega

/-- The reader finds the path of a record that is not too long. -/
theorem readRecords_paxPath (h : (paxPath path).length ≤ 4096) :
    readRecords none (paxPath path) = .ok (some (toWellFormed path)) := by
  have hfixed := paxLength_fixed (paxBytes path).length
  change _ + digitCount (paxTotal path) = paxTotal path at hfixed
  have hlength := paxPath_length path
  have hpos := digitCount_pos (paxTotal path)
  have hbytes := paxBytes_eq path
  have hcount := congrArg List.length hbytes
  rw [List.length_cons, List.length_append] at hcount
  simp only [List.length_cons, List.length_nil] at hcount
  have hmany := paxBytes_length path
  have hrecord : readRecord (paxPath path) =
      .ok (paxTotal path, JsString.ofString "path", toWellFormed path) := by
    have hform : paxPath path = encode (digitsOf 10 (paxTotal path)) ++
        32 :: (encode (JsString.ofString "path=" ++ path) ++ [10]) := by
      rw [← hbytes]
      rfl
    rw [hform, readRecord_digits (by omega) (by omega) (by omega),
      decode_encode, toWellFormed_plain_append path_ascii.plain,
      recordParts_path]
  have hne : paxPath path ≠ [] := by
    intro hnil
    rw [hnil, List.length_nil] at hlength
    omega
  rw [readRecords, if_neg hne]
  split
  · rename_i error hread
    rw [hrecord] at hread
    cases hread
  · rename_i length key value hread
    rw [hrecord] at hread
    simp only [Except.ok.injEq, Prod.mk.injEq] at hread
    obtain ⟨rfl, rfl, rfl⟩ := hread
    rw [if_pos rfl, if_neg (by simp), ← hlength, List.drop_length,
      readRecords, if_pos rfl]

end Record

end Allrice
