/-
Reading a buffer at given places.  A read within the buffer gives what stands
there; a read past its end is a fault of its own, which a reader that measures
first never meets.
-/
import Allrice.Splice
import Allrice.Transaction

universe u

namespace ByteReader

open Splice
open Except (bind_eq_ok)

variable {ε : Type u} {α β : Type}

/-- A check that refuses. -/
def refuse (p : Prop) [Decidable p] (error : ε) : Except ε Unit :=
  if p then .error error else .ok ()

theorem refuse_eq_ok {p : Prop} [Decidable p] {error : ε} {u : Unit} :
    refuse p error = .ok u ↔ ¬p := by
  unfold refuse
  split <;> simp [*]

theorem refuse_eq_error {p : Prop} [Decidable p] {error e : ε} :
    refuse p error = .error e ↔ p ∧ error = e := by
  unfold refuse
  split <;> simp [*]

def byteAt (fault : ε) (bytes : List UInt8) (i : Nat) : Except ε Nat :=
  match bytes[i]? with
  | some byte => .ok byte.toNat
  | none => .error fault

def readUInt16BE (fault : ε) (bytes : List UInt8) (i : Nat) :
    Except ε Nat := do
  let high ← byteAt fault bytes i
  let low ← byteAt fault bytes (i + 1)
  return high * 256 + low

def readUInt24BE (fault : ε) (bytes : List UInt8) (i : Nat) :
    Except ε Nat := do
  let high ← byteAt fault bytes i
  let low ← readUInt16BE fault bytes (i + 1)
  return high * 65536 + low

def u8Bytes (n : Nat) : List UInt8 := [UInt8.ofNat n]

def u16Bytes (n : Nat) : List UInt8 := u8Bytes (n / 256) ++ u8Bytes n

def u24Bytes (n : Nat) : List UInt8 := u8Bytes (n / 65536) ++ u16Bytes n

theorem u8Bytes_add_mul (m n : Nat) : u8Bytes (m * 256 + n) = u8Bytes n := by
  simp [u8Bytes]

@[simp] theorem u8Bytes_length (n : Nat) : (u8Bytes n).length = 1 := rfl

@[simp] theorem u16Bytes_length (n : Nat) : (u16Bytes n).length = 2 := rfl

@[simp] theorem u24Bytes_length (n : Nat) : (u24Bytes n).length = 3 := rfl

variable {bytes : List UInt8} {i n k : Nat} {fault : ε}

/-- What stands at a place is the front of the rest. -/
theorem byteAt_eq_ok (h : byteAt fault bytes i = .ok n) :
    n < 256 ∧ bytes.drop i = u8Bytes n ++ bytes.drop (i + 1) := by
  unfold byteAt at h
  cases hbyte : bytes[i]? with
  | none => simp [hbyte] at h
  | some byte =>
    simp only [hbyte, Except.ok.injEq] at h
    obtain ⟨hi, hget⟩ := List.getElem?_eq_some_iff.1 hbyte
    rw [List.drop_eq_getElem_cons hi, hget, ← h, u8Bytes]
    exact ⟨byte.toNat_lt, by simp⟩

theorem readUInt16BE_eq_ok (h : readUInt16BE fault bytes i = .ok n) :
    n < 65536 ∧ bytes.drop i = u16Bytes n ++ bytes.drop (i + 2) := by
  obtain ⟨high, hhigh, h⟩ := bind_eq_ok.1 h
  obtain ⟨low, hlow, h⟩ := bind_eq_ok.1 h
  obtain rfl := Except.ok.inj h
  obtain ⟨hhigh, hdrop⟩ := byteAt_eq_ok hhigh
  obtain ⟨hlow, hdrop'⟩ := byteAt_eq_ok hlow
  have hdiv : (high * 256 + low) / 256 = high := by omega
  refine ⟨by omega, ?_⟩
  rw [hdrop, hdrop', u16Bytes, hdiv, u8Bytes_add_mul, List.append_assoc]

theorem readUInt24BE_eq_ok (h : readUInt24BE fault bytes i = .ok n) :
    bytes.drop i = u24Bytes n ++ bytes.drop (i + 3) := by
  obtain ⟨high, hhigh, h⟩ := bind_eq_ok.1 h
  obtain ⟨low, hlow, h⟩ := bind_eq_ok.1 h
  obtain rfl := Except.ok.inj h
  obtain ⟨-, hdrop⟩ := byteAt_eq_ok hhigh
  obtain ⟨hlow, hdrop'⟩ := readUInt16BE_eq_ok hlow
  have hdiv : (high * 65536 + low) / 65536 = high := by omega
  have hmiddle : (high * 65536 + low) / 256 = high * 256 + low / 256 := by
    omega
  have hlast : high * 65536 + low = high * 256 * 256 + low := by ring
  have htail : u16Bytes (high * 65536 + low) = u16Bytes low := by
    rw [u16Bytes, hmiddle, u8Bytes_add_mul, hlast, u8Bytes_add_mul, u16Bytes]
  rw [hdrop, hdrop', u24Bytes, hdiv, htail, List.append_assoc]

theorem byteAt_within (fault : ε) (h : i < bytes.length) :
    ∃ n, byteAt fault bytes i = .ok n :=
  ⟨bytes[i].toNat, by simp [byteAt, List.getElem?_eq_getElem h]⟩

theorem readUInt16BE_within (fault : ε) (h : i + 2 ≤ bytes.length) :
    ∃ n, readUInt16BE fault bytes i = .ok n := by
  obtain ⟨high, hhigh⟩ := byteAt_within fault
    (show i < bytes.length by omega)
  obtain ⟨low, hlow⟩ := byteAt_within fault
    (show i + 1 < bytes.length by omega)
  exact ⟨high * 256 + low, by simp only [readUInt16BE, hhigh, hlow]; rfl⟩

theorem readUInt24BE_within (fault : ε) (h : i + 3 ≤ bytes.length) :
    ∃ n, readUInt24BE fault bytes i = .ok n := by
  obtain ⟨high, hhigh⟩ := byteAt_within fault
    (show i < bytes.length by omega)
  obtain ⟨low, hlow⟩ := readUInt16BE_within fault
    (show i + 1 + 2 ≤ bytes.length by omega)
  exact ⟨high * 65536 + low, by simp only [readUInt24BE, hhigh, hlow]; rfl⟩

theorem byteAt_take (h : i < k) :
    byteAt fault (bytes.take k) i = byteAt fault bytes i := by
  simp only [byteAt, List.getElem?_take, if_pos h]

theorem readUInt16BE_take (h : i + 2 ≤ k) :
    readUInt16BE fault (bytes.take k) i = readUInt16BE fault bytes i := by
  simp only [readUInt16BE, byteAt_take (show i < k by omega),
    byteAt_take (show i + 1 < k by omega)]

theorem slice_take (bytes : List UInt8) {start length : Nat}
    (h : start + length ≤ k) :
    slice (bytes.take k) start length = slice bytes start length := by
  rw [slice, slice, List.drop_take, List.take_take, Nat.min_eq_left (by omega)]

theorem drop_eq_slice_append (bytes : List UInt8) (start length : Nat) :
    bytes.drop start =
      slice bytes start length ++ bytes.drop (start + length) := by
  rw [slice, ← List.drop_drop, List.take_append_drop]

end ByteReader
