/-
Parts of a sequence at fixed places: reading one, and writing one over what was
there.
-/
import Mathlib

namespace Splice

variable {α : Type}

/-- The part of this length from a place on. -/
def slice (items : List α) (start length : Nat) : List α :=
  (items.drop start).take length

/-- A part written over what was there. -/
def splice (items : List α) (start : Nat) (part : List α) : List α :=
  items.take start ++ part ++ items.drop (start + part.length)

variable {items part : List α} {start : Nat}

theorem splice_length (h : start + part.length ≤ items.length) :
    (splice items start part).length = items.length := by
  simp only [splice, List.length_append, List.length_take, List.length_drop]
  omega

variable {length : Nat}

theorem slice_length (h : start + length ≤ items.length) :
    (slice items start length).length = length := by
  simp only [slice, List.length_take, List.length_drop]
  omega

theorem getElem?_slice (items : List α) (start length i : Nat) :
    (slice items start length)[i]? =
      if i < length then items[start + i]? else none := by
  rw [slice, List.getElem?_take, List.getElem?_drop]

theorem getElem?_splice (h : start + part.length ≤ items.length) (i : Nat) :
    (splice items start part)[i]? =
      if start ≤ i ∧ i < start + part.length then part[i - start]?
      else items[i]? := by
  have htake : (items.take start).length = start := by
    rw [List.length_take]
    omega
  unfold splice
  by_cases hbefore : i < start
  · rw [if_neg (by omega), List.getElem?_append_left
      (by rw [List.length_append, htake]; omega),
      List.getElem?_append_left (by rw [htake]; exact hbefore),
      List.getElem?_take, if_pos hbefore]
  · by_cases hwithin : i < start + part.length
    · rw [if_pos (by omega), List.getElem?_append_left
        (by rw [List.length_append, htake]; exact hwithin),
        List.getElem?_append_right (by rw [htake]; omega), htake]
    · rw [if_neg (by omega), List.getElem?_append_right
        (by rw [List.length_append, htake]; omega),
        List.length_append, htake, List.getElem?_drop]
      congr 1
      omega

/-- What was written is read. -/
theorem slice_splice_same (h : start + part.length ≤ items.length) :
    slice (splice items start part) start part.length = part := by
  apply List.ext_getElem?
  intro i
  rw [getElem?_slice, getElem?_splice h]
  by_cases hi : i < part.length
  · rw [if_pos hi, if_pos (by omega), Nat.add_sub_cancel_left]
  · rw [if_neg hi, List.getElem?_eq_none (by omega)]

/-- The rest stays. -/
theorem slice_splice_other (h : start + part.length ≤ items.length)
    {other : Nat}
    (hother : other + length ≤ start ∨ start + part.length ≤ other) :
    slice (splice items start part) other length =
      slice items other length := by
  apply List.ext_getElem?
  intro i
  rw [getElem?_slice, getElem?_slice, getElem?_splice h]
  by_cases hi : i < length
  · rw [if_pos hi, if_pos hi, if_neg (by omega)]
  · rw [if_neg hi, if_neg hi]

/-- The last of two parts at one place stays. -/
theorem splice_splice {part' : List α}
    (h : start + part.length ≤ items.length)
    (hlength : part'.length = part.length) :
    splice (splice items start part) start part' =
      splice items start part' := by
  have hfits : start + part'.length ≤ items.length := by omega
  apply List.ext_getElem?
  intro i
  rw [getElem?_splice (by rw [splice_length h]; exact hfits),
    getElem?_splice hfits, getElem?_splice h]
  by_cases hi : start ≤ i ∧ i < start + part'.length
  · rw [if_pos hi, if_pos hi]
  · rw [if_neg hi, if_neg hi, if_neg (by omega)]

/-- Writing what is there changes nothing. -/
theorem splice_slice (h : start + length ≤ items.length) :
    splice items start (slice items start length) = items := by
  have hlength := slice_length h
  apply List.ext_getElem?
  intro i
  rw [getElem?_splice (by omega), getElem?_slice, hlength]
  by_cases hi : start ≤ i ∧ i < start + length
  · rw [if_pos hi, if_pos (by omega)]
    congr 1
    omega
  · rw [if_neg hi]

theorem slice_replicate (value : α) {count : Nat} (h : start + length ≤ count) :
    slice (List.replicate count value) start length =
      List.replicate length value := by
  rw [slice, List.drop_replicate, List.take_replicate]
  congr 1
  omega

/-- A shorter part at the start of a field, and what was there behind it. -/
theorem slice_splice_front (h : start + part.length ≤ items.length)
    (hlength : part.length ≤ length) :
    slice (splice items start part) start length =
      part ++ slice items (start + part.length) (length - part.length) := by
  apply List.ext_getElem?
  intro i
  rw [getElem?_slice, getElem?_splice h]
  by_cases hi : i < part.length
  · rw [if_pos (by omega), if_pos (by omega), Nat.add_sub_cancel_left,
      List.getElem?_append_left hi]
  · rw [List.getElem?_append_right (by omega), getElem?_slice]
    by_cases hlast : i < length
    · rw [if_pos hlast, if_neg (by omega), if_pos (by omega)]
      congr 1
      omega
    · rw [if_neg hlast, if_neg (by omega)]

end Splice
