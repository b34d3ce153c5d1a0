/-
Decoding UTF-8 as the Encoding Standard does, one byte at a time, with U+FFFD
for each maximal part of a malformed character, and decoding a stream that
arrives in chunks, where an unfinished character at the end of a chunk waits for
the next one.  What the chunks decode to does not depend on where they were cut.
-/
import Allrice.JsString

namespace Utf8Stream

/-- A character whose first bytes were read: how many bytes it still owes, the
bounds of the next one, and the code point so far.  Whatever the bytes owed
turn out to be, the code point is not an ASCII one and stays in range. -/
structure Unfinished where
  needed : Nat
  lower : Nat
  upper : Nat
  code : Nat
  owes : 0 < needed
  lower_le : 0x80 ≤ lower
  upper_le : upper ≤ 0xBF
  least : 0x80 ≤ (code * 0x40 + (lower - 0x80)) * 0x40 ^ (needed - 1)
  most : (code * 0x40 + (upper - 0x80) + 1) * 0x40 ^ (needed - 1) ≤ 0x110000

/-- Between two characters, or within one. -/
abbrev State := Option Unfinished

def replacement : UInt16 := 0xFFFD

/-- The code units of a code point. -/
def unitsOfCode (code : Nat) : JsString :=
  if code < 0x10000 then [UInt16.ofNat code]
  else
    [UInt16.ofNat (0xD800 + (code - 0x10000) / 0x400),
      UInt16.ofNat (0xDC00 + (code - 0x10000) % 0x400)]

/-- A character's first byte, whose own bits are `bits`. -/
def owing (needed lower upper bits : Nat)
    (h : 0 < needed ∧ 0x80 ≤ lower ∧ upper ≤ 0xBF ∧
      0x80 ≤ (bits * 0x40 + (lower - 0x80)) * 0x40 ^ (needed - 1) ∧
      (bits * 0x40 + (upper - 0x80) + 1) * 0x40 ^ (needed - 1) ≤ 0x110000) :
    State × JsString :=
  (some ⟨needed, lower, upper, bits, h.1, h.2.1, h.2.2.1, h.2.2.2.1,
    h.2.2.2.2⟩, [])

/-- The first byte of a character. -/
def start (byte : UInt8) : State × JsString :=
  let n := byte.toNat
  if n < 0x80 then (none, [UInt16.ofNat n])
  else if h : 0xC2 ≤ n ∧ n ≤ 0xDF then
    owing 1 0x80 0xBF (n - 0xC0) (by omega)
  else if n = 0xE0 then owing 2 0xA0 0xBF 0 (by decide)
  else if n = 0xED then owing 2 0x80 0x9F 0xD (by decide)
  else if h : 0xE1 ≤ n ∧ n ≤ 0xEF then
    owing 2 0x80 0xBF (n - 0xE0) (by omega)
  else if n = 0xF0 then owing 3 0x90 0xBF 0 (by decide)
  else if h : 0xF1 ≤ n ∧ n ≤ 0xF3 then
    owing 3 0x80 0xBF (n - 0xF0) (by omega)
  else if n = 0xF4 then owing 3 0x80 0x8F 4 (by decide)
  else (none, [replacement])

/-- One byte more of an unfinished character. -/
def Unfinished.advance (part : Unfinished) (n : Nat)
    (hin : part.lower ≤ n ∧ n ≤ part.upper) (howes : 1 < part.needed) :
    Unfinished where
  needed := part.needed - 1
  lower := 0x80
  upper := 0xBF
  code := part.code * 0x40 + (n - 0x80)
  owes := by omega
  lower_le := by decide
  upper_le := by decide
  least := by
    have hleast := part.least
    rw [show part.needed - 1 = part.needed - 1 - 1 + 1 by omega,
      Nat.pow_succ', ← Nat.mul_assoc] at hleast
    apply Nat.le_trans hleast
    apply Nat.mul_le_mul_right
    omega
  most := by
    have hmost := part.most
    rw [show part.needed - 1 = part.needed - 1 - 1 + 1 by omega,
      Nat.pow_succ', ← Nat.mul_assoc] at hmost
    apply Nat.le_trans _ hmost
    apply Nat.mul_le_mul_right
    have hupper := part.upper_le
    omega

/-- The next byte of a character. -/
def Unfinished.continue (part : Unfinished) (byte : UInt8) :
    State × JsString :=
  let n := byte.toNat
  if hin : part.lower ≤ n ∧ n ≤ part.upper then
    if howes : 1 < part.needed then (some (part.advance n hin howes), [])
    else (none, unitsOfCode (part.code * 0x40 + (n - 0x80)))
  else
    -- The bytes so far are one malformed part, and this byte starts anew.
    let (state, units) := start byte
    (state, replacement :: units)

def feed : State → UInt8 → State × JsString
  | none, byte => start byte
  | some part, byte => part.continue byte

/-- What some bytes decode to, and where they leave the decoder. -/
def run : State → List UInt8 → State × JsString
  | state, [] => (state, [])
  | state, byte :: rest =>
    let (next, units) := feed state byte
    let (last, more) := run next rest
    (last, units ++ more)

/-- What the end of the input adds. -/
def finish : State → JsString
  | none => []
  | some _ => [replacement]

/-- The text of some bytes. -/
def decode (bytes : List UInt8) : JsString :=
  let (state, units) := run none bytes
  units ++ finish state

def isContinuation (byte : UInt8) : Bool :=
  0x80 ≤ byte.toNat && byte.toNat ≤ 0xBF

/-- How long the character is that starts with this byte, or 0 where none
of several bytes does. -/
def leadLength (byte : UInt8) : Nat :=
  let n := byte.toNat
  if 0xC0 ≤ n ∧ n < 0xE0 then 2
  else if 0xE0 ≤ n ∧ n < 0xF0 then 3
  else if 0xF0 ≤ n ∧ n < 0xF8 then 4
  else 0

/-- How many bytes at the end of a chunk wait for the next one: those of a
character that is not complete. -/
def tailLength (bytes : List UInt8) : Nat :=
  let back := bytes.reverse
  let count := (back.takeWhile isContinuation).length
  match back.drop count with
  | [] => 0
  | lead :: _ => if count + 1 < leadLength lead then count + 1 else 0

/-- The bytes whose text is known whatever comes next. -/
def settled (bytes : List UInt8) : List UInt8 :=
  bytes.take (bytes.length - tailLength bytes)

def tail (bytes : List UInt8) : List UInt8 :=
  bytes.drop (bytes.length - tailLength bytes)

/-- One chunk, after the bytes that were kept back: its text and the bytes that
wait. -/
def write (buffered bytes : List UInt8) : JsString × List UInt8 :=
  (decode (settled (buffered ++ bytes)), tail (buffered ++ bytes))

theorem run_append (state : State) (first rest : List UInt8) :
    run state (first ++ rest) =
      ((run (run state first).1 rest).1,
        (run state first).2 ++ (run (run state first).1 rest).2) := by
  induction first generalizing state with
  | nil => rfl
  | cons byte first ih =>
    simp only [List.cons_append, run]
    rw [ih]
    simp only [List.append_assoc]

variable {byte : UInt8} {part : Unfinished} {state : State}
  {conts bytes : List UInt8}

/-- A byte that cannot continue a character finishes what came before. -/
theorem run_of_not_continuation (hbyte : isContinuation byte = false)
    (state : State) (rest : List UInt8) :
    run state (byte :: rest) =
      ((run none (byte :: rest)).1,
        finish state ++ (run none (byte :: rest)).2) := by
  cases state with
  | none => rfl
  | some part =>
    have hout : ¬(part.lower ≤ byte.toNat ∧ byte.toNat ≤ part.upper) := by
      have hlower := part.lower_le
      have hupper := part.upper_le
      simp only [isContinuation, Bool.and_eq_false_iff,
        decide_eq_false_iff_not] at hbyte
      omega
    simp only [run, feed, Unfinished.continue, dif_neg hout, finish]
    rfl

/-- Where a text may be cut: the first part is complete, or the second
starts with a new character. -/
theorem decode_append {first rest : List UInt8}
    (h : (run none first).1 = none ∨
      ∀ byte ∈ rest.head?, isContinuation byte = false) :
    decode (first ++ rest) = decode first ++ decode rest := by
  unfold decode
  rw [run_append]
  rcases h with hidle | hhead
  · simp [hidle, finish]
  · cases rest with
    | nil => simp [run, finish]
    | cons byte rest =>
      have hbyte : isContinuation byte = false := hhead byte rfl
      rw [run_of_not_continuation hbyte]
      simp

theorem decode_nil : decode [] = [] := rfl

/-- Bytes that end within a character end in its first byte and
continuations. -/
structure EndsWithin (bytes : List UInt8) (needed : Nat) : Prop where
  split : ∃ before lead tail, bytes = before ++ lead :: tail ∧
    (∀ byte ∈ tail, isContinuation byte = true) ∧
    leadLength lead = tail.length + 1 + needed

theorem start_endsWithin {byte : UInt8} {part : Unfinished}
    (h : (start byte).1 = some part) (before : List UInt8) :
    EndsWithin (before ++ [byte]) part.needed := by
  apply EndsWithin.mk
  refine ⟨before, byte, [], rfl, by simp, ?_⟩
  unfold start at h
  simp only at h
  unfold leadLength
  simp only [List.length_nil]
  split at h
  · cases h
  split at h
  · cases h
    rw [if_pos (by omega)]
    rfl
  split at h
  · cases h
    rw [if_neg (by omega), if_pos (by omega)]
    rfl
  split at h
  · cases h
    rw [if_neg (by omega), if_pos (by omega)]
    rfl
  split at h
  · cases h
    rw [if_neg (by omega), if_pos (by omega)]
    rfl
  split at h
  · cases h
    rw [if_neg (by omega), if_neg (by omega), if_pos (by omega)]
    rfl
  split at h
  · cases h
    rw [if_neg (by omega), if_neg (by omega), if_pos (by omega)]
    rfl
  split at h
  · cases h
    rw [if_neg (by omega), if_neg (by omega), if_pos (by omega)]
    rfl
  · cases h

theorem feed_endsWithin {before : List UInt8}
    (hbefore : ∀ part, state = some part → EndsWithin before part.needed)
    (h : (feed state byte).1 = some part) :
    EndsWithin (before ++ [byte]) part.needed := by
  cases state with
  | none => exact start_endsWithin h before
  | some earlier =>
    simp only [feed, Unfinished.continue] at h
    split at h
    · rename_i hin
      split at h
      · rename_i howes
        obtain ⟨first, lead, tail, rfl, hcontinue, hlead⟩ :=
          (hbefore earlier rfl).split
        cases h
        apply EndsWithin.mk
        refine ⟨first, lead, tail ++ [byte], by simp, ?_, ?_⟩
        · intro other hother
          rcases List.mem_append.mp hother with hother | hother
          · exact hcontinue other hother
          · have hlower := earlier.lower_le
            have hupper := earlier.upper_le
            rw [List.mem_singleton.mp hother]
            simp only [isContinuation, Bool.and_eq_true,
              decide_eq_true_eq]
            omega
        · have hneeded : (earlier.advance _ hin howes).needed =
              earlier.needed - 1 := rfl
          simp only [List.length_append, List.length_singleton]
          omega
      · cases h
    · exact start_endsWithin h before

theorem run_endsWithin (bytes : List UInt8) :
    ∀ part, (run none bytes).1 = some part →
      EndsWithin bytes part.needed := by
  induction bytes using List.reverseRecOn with
  | nil =>
    intro part h
    cases h
  | append_singleton before byte ih =>
    intro part h
    rw [run_append] at h
    simp only [run] at h
    exact feed_endsWithin ih h

/-- What the tail is, read forwards. -/
theorem tailLength_of_lead (before : List UInt8) {lead : UInt8}
    (hlead : isContinuation lead = false)
    (hconts : ∀ byte ∈ conts, isContinuation byte = true) :
    tailLength (before ++ lead :: conts) =
      if conts.length + 1 < leadLength lead then conts.length + 1 else 0 := by
  have hall : conts.reverse.takeWhile isContinuation = conts.reverse := by
    apply List.takeWhile_eq_self_iff.mpr
    intro byte hbyte
    exact hconts byte (List.mem_reverse.mp hbyte)
  have hback : (before ++ lead :: conts).reverse =
      conts.reverse ++ lead :: before.reverse := by simp
  have htake : ((before ++ lead :: conts).reverse.takeWhile
      isContinuation) = conts.reverse := by
    rw [hback, List.takeWhile_append, hall]
    simp [hlead]
  have hdrop : (before ++ lead :: conts).reverse.drop conts.length =
      lead :: before.reverse := by
    rw [hback, ← List.length_reverse, List.drop_left]
  unfold tailLength
  simp only [htake, List.length_reverse, hdrop]

theorem tailLength_of_all {conts : List UInt8}
    (hconts : ∀ byte ∈ conts, isContinuation byte = true) :
    tailLength conts = 0 := by
  have hall : conts.reverse.takeWhile isContinuation = conts.reverse := by
    apply List.takeWhile_eq_self_iff.mpr
    intro byte hbyte
    exact hconts byte (List.mem_reverse.mp hbyte)
  have hdrop : conts.reverse.drop conts.length = [] := by
    apply List.drop_eq_nil_of_le
    simp
  unfold tailLength
  simp only [hall, List.length_reverse, hdrop]

/-- Bytes are continuations to the end, or have a last byte that is none. -/
theorem cases_last (bytes : List UInt8) :
    (∀ byte ∈ bytes, isContinuation byte = true) ∨
      ∃ before lead conts, bytes = before ++ lead :: conts ∧
        isContinuation lead = false ∧
        ∀ byte ∈ conts, isContinuation byte = true := by
  induction bytes using List.reverseRecOn with
  | nil =>
    apply Or.inl
    simp
  | append_singleton before byte ih =>
    cases hbyte : isContinuation byte with
    | false =>
      apply Or.inr
      exact ⟨before, byte, [], rfl, hbyte, by simp⟩
    | true =>
      rcases ih with hall | ⟨first, lead, conts, rfl, hlead, hconts⟩
      · apply Or.inl
        intro other hother
        rcases List.mem_append.mp hother with hother | hother
        · exact hall other hother
        · rw [List.mem_singleton.mp hother, hbyte]
      · apply Or.inr
        refine ⟨first, lead, conts ++ [byte], by simp, hlead, ?_⟩
        intro other hother
        rcases List.mem_append.mp hother with hother | hother
        · exact hconts other hother
        · rw [List.mem_singleton.mp hother, hbyte]

theorem not_continuation_of_leadLength (h : leadLength byte ≠ 0) :
    isContinuation byte = false := by
  unfold leadLength at h
  simp only [isContinuation, Bool.and_eq_false_iff, decide_eq_false_iff_not]
  simp only at h
  split at h
  · omega
  split at h
  · omega
  split at h
  · omega
  · exact absurd rfl h

theorem tailLength_le (bytes : List UInt8) :
    tailLength bytes ≤ bytes.length := by
  rcases cases_last bytes with hall | ⟨before, lead, conts, rfl, hlead, hc⟩
  · rw [tailLength_of_all hall]
    omega
  · rw [tailLength_of_lead _ hlead hc]
    split
    · simp only [List.length_append, List.length_cons]
      omega
    · omega

theorem settled_append_tail (bytes : List UInt8) :
    settled bytes ++ tail bytes = bytes :=
  List.take_append_drop _ bytes

/-- Without a tail the decoder is between two characters. -/
theorem run_idle_of_tailLength (h : tailLength bytes = 0) :
    (run none bytes).1 = none := by
  cases hstate : (run none bytes).1 with
  | none => rfl
  | some part =>
    exfalso
    obtain ⟨before, lead, conts, rfl, hconts, hlength⟩ :=
      (run_endsWithin bytes part hstate).split
    have howes := part.owes
    have hlead : isContinuation lead = false := by
      apply not_continuation_of_leadLength
      omega
    rw [tailLength_of_lead _ hlead hconts, if_pos (by omega)] at h
    omega

/-- The tail is empty, or the first byte of a character and continuations. -/
theorem tail_cases (bytes : List UInt8) :
    tailLength bytes = 0 ∧ tail bytes = [] ∧ settled bytes = bytes ∨
      ∃ lead conts, tail bytes = lead :: conts ∧
        isContinuation lead = false := by
  rcases cases_last bytes with hall | ⟨before, lead, conts, rfl, hlead, hc⟩
  · apply Or.inl
    have hzero := tailLength_of_all hall
    simp [tail, settled, hzero]
  · by_cases hshort : conts.length + 1 < leadLength lead
    · apply Or.inr
      refine ⟨lead, conts, ?_, hlead⟩
      unfold tail
      rw [tailLength_of_lead _ hlead hc, if_pos hshort]
      rw [show (before ++ lead :: conts).length - (conts.length + 1) =
        before.length by simp]
      simp
    · apply Or.inl
      have hzero := tailLength_of_lead before hlead hc
      rw [if_neg hshort] at hzero
      simp [tail, settled, hzero]

theorem tail_ascii (h : byte.toNat < 0x80) (before : List UInt8) :
    tail (before ++ [byte]) = [] := by
  have hlead : leadLength byte = 0 := by
    unfold leadLength
    simp only
    rw [if_neg (by omega), if_neg (by omega), if_neg (by omega)]
  have hcontinue : isContinuation byte = false := by
    simp only [isContinuation, Bool.and_eq_false_iff,
      decide_eq_false_iff_not]
    omega
  have hlength : tailLength (before ++ [byte]) = 0 := by
    rw [tailLength_of_lead _ hcontinue (by simp), hlead]
    rfl
  simp [tail, hlength]

/-- What waits is all that matters of the bytes before. -/
theorem tailLength_tail_append (before bytes : List UInt8) :
    tailLength (tail before ++ bytes) = tailLength (before ++ bytes) := by
  rcases cases_last bytes with hall | ⟨first, lead, conts, rfl, hlead, hc⟩
  · rcases cases_last before with hbefore | ⟨first, lead, conts, rfl, hl, hc⟩
    · have hzero := tailLength_of_all hbefore
      have hnil : tail before = [] := by simp [tail, hzero]
      rw [hnil, List.nil_append, tailLength_of_all hall]
      symm
      apply tailLength_of_all
      intro byte hbyte
      rcases List.mem_append.mp hbyte with hbyte | hbyte
      · exact hbefore byte hbyte
      · exact hall byte hbyte
    · have hconts : ∀ byte ∈ conts ++ bytes, isContinuation byte = true := by
        intro byte hbyte
        rcases List.mem_append.mp hbyte with hbyte | hbyte
        · exact hc byte hbyte
        · exact hall byte hbyte
      have hwhole := tailLength_of_lead first hl hconts
      have hlength := tailLength_of_lead first hl hc
      rw [show first ++ lead :: conts ++ bytes =
        first ++ lead :: (conts ++ bytes) by simp, hwhole]
      by_cases hshort : conts.length + 1 < leadLength lead
      · rw [if_pos hshort] at hlength
        have htail : tail (first ++ lead :: conts) = lead :: conts := by
          unfold tail
          rw [hlength]
          rw [show (first ++ lead :: conts).length - (conts.length + 1) =
            first.length by simp]
          simp
        rw [htail]
        exact tailLength_of_lead [] hl hconts
      · rw [if_neg hshort] at hlength
        have htail : tail (first ++ lead :: conts) = [] := by
          simp [tail, hlength]
        rw [htail, List.nil_append, tailLength_of_all hall, if_neg]
        simp only [List.length_append]
        omega
  · rw [show tail before ++ (first ++ lead :: conts) =
      (tail before ++ first) ++ lead :: conts by simp]
    rw [show before ++ (first ++ lead :: conts) =
      (before ++ first) ++ lead :: conts by simp]
    rw [tailLength_of_lead _ hlead hc, tailLength_of_lead _ hlead hc]

theorem settled_split (before bytes : List UInt8) :
    settled (before ++ bytes) =
      settled before ++ settled (tail before ++ bytes) := by
  have hlength := tailLength_tail_append before bytes
  have hle := tailLength_le (tail before ++ bytes)
  have hwhole : before ++ bytes =
      settled before ++ (tail before ++ bytes) := by
    rw [← List.append_assoc, settled_append_tail]
  have hcount : (before ++ bytes).length =
      (settled before).length + (tail before ++ bytes).length := by
    rw [hwhole, List.length_append]
  unfold settled at *
  rw [← hlength, hcount]
  rw [Nat.add_sub_assoc hle]
  conv_lhs => rw [hwhole]
  rw [List.take_append, List.take_of_length_le (by omega)]
  rw [Nat.add_sub_cancel_left]

theorem tail_split (before bytes : List UInt8) :
    tail (before ++ bytes) = tail (tail before ++ bytes) := by
  have hwhole : settled (before ++ bytes) ++ tail (before ++ bytes) =
      settled (before ++ bytes) ++ tail (tail before ++ bytes) := by
    rw [settled_append_tail, settled_split, List.append_assoc,
      settled_append_tail, ← List.append_assoc, settled_append_tail]
  exact List.append_cancel_left hwhole

/-- Cutting the bytes anywhere leaves their text as it is. -/
theorem decode_settled_append (before bytes : List UInt8) :
    decode (settled (before ++ bytes)) =
      decode (settled before) ++ decode (settled (tail before ++ bytes)) := by
  rw [settled_split]
  apply decode_append
  rcases tail_cases before with ⟨hzero, _, hsettled⟩ | ⟨lead, conts, htail, hl⟩
  · apply Or.inl
    rw [hsettled]
    exact run_idle_of_tailLength hzero
  · apply Or.inr
    intro byte hbyte
    have hfirst := settled_append_tail (tail before ++ bytes)
    rw [htail] at hfirst hbyte
    cases hs : settled (lead :: conts ++ bytes) with
    | nil =>
      rw [hs] at hbyte
      cases hbyte
    | cons head rest =>
      rw [hs] at hbyte hfirst
      cases hbyte
      have hhead : byte = lead := by
        simpa using congrArg List.head? hfirst
      rw [hhead, hl]

/-- What the end of the input adds is the text of the bytes that wait. -/
theorem decode_settled_tail (bytes : List UInt8) :
    decode bytes = decode (settled bytes) ++ decode (tail bytes) := by
  conv_lhs => rw [← settled_append_tail bytes]
  apply decode_append
  rcases tail_cases bytes with ⟨hzero, _, hsettled⟩ | ⟨lead, conts, htail, hl⟩
  · apply Or.inl
    rw [hsettled]
    exact run_idle_of_tailLength hzero
  · apply Or.inr
    intro byte hbyte
    rw [htail] at hbyte
    cases hbyte
    exact hl

/-- An ASCII byte stands for itself wherever it stands. -/
theorem decode_ascii (h : byte.toNat < 0x80) (rest : List UInt8) :
    decode (byte :: rest) = UInt16.ofNat byte.toNat :: decode rest := by
  have hstart : start byte = (none, [UInt16.ofNat byte.toNat]) := by
    unfold start
    simp only
    rw [if_pos h]
  unfold decode
  simp only [run, feed, hstart]
  rfl

theorem decode_append_ascii (h : byte.toNat < 0x80) (before rest : List UInt8) :
    decode (before ++ byte :: rest) =
      decode before ++ UInt16.ofNat byte.toNat :: decode rest := by
  rw [decode_append, decode_ascii h]
  apply Or.inr
  intro other hother
  cases hother
  simp only [isContinuation, Bool.and_eq_false_iff, decide_eq_false_iff_not]
  omega

theorem start_length (byte : UInt8) :
    (start byte).2.length + (finish (start byte).1).length ≤ 1 := by
  unfold start
  simp only
  split
  · exact Nat.le_refl 1
  split
  · exact Nat.le_refl 1
  split
  · exact Nat.le_refl 1
  split
  · exact Nat.le_refl 1
  split
  · exact Nat.le_refl 1
  split
  · exact Nat.le_refl 1
  split
  · exact Nat.le_refl 1
  split
  · exact Nat.le_refl 1
  · exact Nat.le_refl 1

theorem unitsOfCode_length (code : Nat) :
    (unitsOfCode code).length ≤ 2 := by
  unfold unitsOfCode
  split
  · exact Nat.le_succ 1
  · exact Nat.le_refl 2

theorem feed_length (state : State) (byte : UInt8) :
    (feed state byte).2.length + (finish (feed state byte).1).length ≤
      1 + (finish state).length := by
  have hstart := start_length byte
  cases state with
  | none => exact hstart
  | some part =>
    have hone : (finish (some part)).length = 1 := rfl
    have hnone : (finish none).length = 0 := rfl
    simp only [feed, Unfinished.continue, hone]
    split
    · split
      · exact Nat.le_succ 1
      · have hunits := unitsOfCode_length
          (part.code * 0x40 + (byte.toNat - 0x80))
        simp only [hnone]
        omega
    · simp only [List.length_cons]
      omega

theorem run_length (bytes : List UInt8) : ∀ state,
    (run state bytes).2.length + (finish (run state bytes).1).length ≤
      bytes.length + (finish state).length := by
  induction bytes with
  | nil =>
    intro state
    simp [run]
  | cons byte rest ih =>
    intro state
    have hfirst := feed_length state byte
    have hrest := ih (feed state byte).1
    simp only [run, List.length_append, List.length_cons]
    omega

theorem decode_length_le (bytes : List UInt8) :
    (decode bytes).length ≤ bytes.length := by
  have hrun := run_length bytes none
  unfold decode
  rw [List.length_append]
  exact hrun

theorem settled_length_le (bytes : List UInt8) :
    (decode (settled bytes)).length ≤ bytes.length := by
  apply Nat.le_trans (decode_length_le (settled bytes))
  exact List.length_take_le' _ _

theorem unitsOfCode_beyond {code : Nat} (hleast : 0x80 ≤ code)
    (hmost : code < 0x110000) :
    ∀ unit ∈ unitsOfCode code, 0x80 ≤ unit.toNat := by
  intro unit hunit
  unfold unitsOfCode at hunit
  split at hunit
  · rename_i hsmall
    rw [List.mem_singleton.mp hunit, UInt16.toNat_ofNat']
    omega
  · rcases List.mem_cons.mp hunit with rfl | hunit
    · rw [UInt16.toNat_ofNat']
      omega
    · rw [List.mem_singleton.mp hunit, UInt16.toNat_ofNat']
      omega

theorem start_ascii :
    ∀ unit ∈ (start byte).2, unit.toNat < 0x80 →
      unit.toNat = byte.toNat := by
  intro unit hunit hascii
  have hbyte := byte.toNat_lt
  unfold start at hunit
  simp only at hunit
  split at hunit
  · rw [List.mem_singleton.mp hunit, UInt16.toNat_ofNat']
    omega
  · exfalso
    have hlast : unit ∈ [replacement] := by
      split at hunit
      · cases hunit
      split at hunit
      · cases hunit
      split at hunit
      · cases hunit
      split at hunit
      · cases hunit
      split at hunit
      · cases hunit
      split at hunit
      · cases hunit
      split at hunit
      · cases hunit
      · exact hunit
    rw [List.mem_singleton.mp hlast] at hascii
    exact absurd hascii (by decide)

theorem feed_ascii :
    ∀ unit ∈ (feed state byte).2, unit.toNat < 0x80 →
      unit.toNat = byte.toNat := by
  intro unit hunit hascii
  cases state with
  | none => exact start_ascii unit hunit hascii
  | some part =>
    simp only [feed, Unfinished.continue] at hunit
    split at hunit
    · rename_i hin
      split at hunit
      · cases hunit
      · exfalso
        have hone : part.needed = 1 := by
          have howes := part.owes
          omega
        have hleast := part.least
        have hmost := part.most
        rw [hone, Nat.sub_self, Nat.pow_zero, Nat.mul_one] at hleast hmost
        have hbeyond : 0x80 ≤ unit.toNat := by
          simp only at hunit
          apply unitsOfCode_beyond _ _ unit hunit
          · omega
          · apply Nat.lt_of_lt_of_le _ hmost
            omega
        omega
    · rcases List.mem_cons.mp hunit with rfl | hunit
      · exact absurd hascii (by decide)
      · exact start_ascii unit hunit hascii

theorem run_ascii (bytes : List UInt8) :
    ∀ state, ∀ unit ∈ (run state bytes).2, unit.toNat < 0x80 →
      ∃ byte ∈ bytes, unit.toNat = byte.toNat := by
  induction bytes with
  | nil =>
    intro state unit hunit
    cases hunit
  | cons byte rest ih =>
    intro state unit hunit hascii
    simp only [run] at hunit
    rcases List.mem_append.mp hunit with hunit | hunit
    · exact ⟨byte, by simp, feed_ascii unit hunit hascii⟩
    · obtain ⟨other, hother, heq⟩ := ih _ unit hunit hascii
      exact ⟨other, by simp [hother], heq⟩

/-- An ASCII code unit of a text was an ASCII byte. -/
theorem decode_ascii_mem {unit : UInt16} (hunit : unit ∈ decode bytes)
    (hascii : unit.toNat < 0x80) : ∃ byte ∈ bytes, unit.toNat = byte.toNat := by
  rcases List.mem_append.mp hunit with hunit | hunit
  · exact run_ascii bytes none unit hunit hascii
  · exfalso
    cases hstate : (run none bytes).1 with
    | none =>
      rw [hstate] at hunit
      cases hunit
    | some part =>
      rw [hstate, finish, List.mem_singleton] at hunit
      rw [hunit] at hascii
      exact absurd hascii (by decide)

end Utf8Stream
