/-
JavaScript values as data: what a value is made of where nobody changes it
while it is read.  Objects are lists of own members; the order of the members
is the order in which `Object.keys` gives them.
-/
import Allrice.JsNumber
import Allrice.JsString

/-- What an object inherits from: `Object.prototype`, nothing or something
else. -/
inductive Prototype where
  | object
  | null
  | other
deriving DecidableEq

/-- A value.  An array may have holes; `other` stands for functions, symbols
and big integers. -/
inductive JsValue where
  | undefined
  | null
  | boolean (value : Bool)
  | number (value : JsNumber)
  | string (text : JsString)
  | array (elements : List (Option JsValue))
  | object (prototype : Prototype) (members : List (JsString × JsValue))
  | other

namespace JsValue

/-- Induction over values: an array from its elements, an object from the
values of its members. -/
theorem induct {motive : JsValue → Prop} (undefined : motive .undefined)
    (null : motive .null) (boolean : ∀ value, motive (.boolean value))
    (number : ∀ value, motive (.number value))
    (string : ∀ text, motive (.string text))
    (array : ∀ elements : List (Option JsValue),
      (∀ value, some value ∈ elements → motive value) →
        motive (.array elements))
    (object : ∀ prototype (members : List (JsString × JsValue)),
      (∀ member ∈ members, motive member.2) →
        motive (.object prototype members))
    (other : motive .other) : ∀ value, motive value
  | .undefined => undefined
  | .null => null
  | .boolean value => boolean value
  | .number value => number value
  | .string text => string text
  | .array elements => array elements fun value _hvalue =>
    induct undefined null boolean number string array object other value
  | .object prototype members => object prototype members fun member _hmember =>
    induct undefined null boolean number string array object other member.2
  | .other => other
termination_by value => sizeOf value
decreasing_by
  · have hsize := List.sizeOf_lt_of_mem _hvalue
    simp only [Option.some.sizeOf_spec,
      JsValue.array.sizeOf_spec] at hsize ⊢
    omega
  · have hsize := List.sizeOf_lt_of_mem _hmember
    have hmember : sizeOf member = 1 + sizeOf member.1 + sizeOf member.2 := by
      cases member
      rfl
    simp only [JsValue.object.sizeOf_spec]
    omega

/-- The order of `sort()` on strings: by code units. -/
def codeUnitsLe : JsString → JsString → Bool
  | [], _ => true
  | _ :: _, [] => false
  | left :: lefts, right :: rights =>
    left.toNat < right.toNat || (left == right && codeUnitsLe lefts rights)

theorem codeUnitsLe_total (left right : JsString) :
    codeUnitsLe left right = true ∨ codeUnitsLe right left = true := by
  induction left generalizing right with
  | nil => exact .inl rfl
  | cons unit left ih =>
    cases right with
    | nil => exact .inr rfl
    | cons other right =>
      have hrest := ih right
      simp only [codeUnitsLe, Bool.or_eq_true, Bool.and_eq_true,
        decide_eq_true_eq, beq_iff_eq]
      by_cases hsame : unit = other
      · subst hsame
        simpa using hrest
      · have hne : unit.toNat ≠ other.toNat := by
          intro heq
          exact hsame (UInt16.toNat.inj heq)
        omega

theorem codeUnitsLe_antisymm {left right : JsString}
    (h : codeUnitsLe left right = true)
    (h' : codeUnitsLe right left = true) : left = right := by
  induction left generalizing right with
  | nil =>
    cases right with
    | nil => rfl
    | cons other right => cases h'
  | cons unit left ih =>
    cases right with
    | nil => cases h
    | cons other right =>
      simp only [codeUnitsLe, Bool.or_eq_true, Bool.and_eq_true,
        decide_eq_true_eq, beq_iff_eq] at h h'
      rcases h with hlt | ⟨rfl, hle⟩
      · rcases h' with hlt' | ⟨rfl, _⟩
        · omega
        · omega
      · rcases h' with hlt' | ⟨_, hle'⟩
        · omega
        · rw [ih hle hle']

theorem codeUnitsLe_trans {left middle right : JsString}
    (h : codeUnitsLe left middle = true)
    (h' : codeUnitsLe middle right = true) :
    codeUnitsLe left right = true := by
  induction left generalizing middle right with
  | nil => rfl
  | cons unit left ih =>
    cases middle with
    | nil => cases h
    | cons between middle =>
      cases right with
      | nil => cases h'
      | cons other right =>
        simp only [codeUnitsLe, Bool.or_eq_true, Bool.and_eq_true,
          decide_eq_true_eq, beq_iff_eq] at h h' ⊢
        rcases h with hlt | ⟨rfl, hle⟩
        · rcases h' with hlt' | ⟨rfl, _⟩
          · omega
          · omega
        · rcases h' with hlt' | ⟨rfl, hle'⟩
          · omega
          · exact .inr ⟨rfl, ih hle hle'⟩

section Keys

variable {α β : Type}

/-- Whether a member comes before another. -/
def KeyLe (left right : JsString × α) : Prop :=
  codeUnitsLe left.1 right.1 = true

instance KeyLe.decidableRel : DecidableRel (KeyLe (α := α)) := fun left right =>
  inferInstanceAs (Decidable (codeUnitsLe left.1 right.1 = true))

instance KeyLe.total : Std.Total (KeyLe (α := α)) :=
  ⟨fun left right => codeUnitsLe_total left.1 right.1⟩

instance KeyLe.trans : IsTrans (JsString × α) KeyLe :=
  ⟨fun _ _ _ => codeUnitsLe_trans⟩

/-- `Object.keys(value).sort()`, with what each key stands for. -/
def sortByKey (members : List (JsString × α)) : List (JsString × α) :=
  members.insertionSort KeyLe

theorem sortByKey_perm (members : List (JsString × α)) :
    (sortByKey members).Perm members :=
  List.perm_insertionSort KeyLe members

theorem sortByKey_pairwise (members : List (JsString × α)) :
    (sortByKey members).Pairwise KeyLe :=
  List.pairwise_insertionSort KeyLe members

/-- Sorting looks at the keys only. -/
theorem sortByKey_map (f : JsString × α → JsString × β)
    (hf : ∀ member, (f member).1 = member.1)
    (members : List (JsString × α)) :
    sortByKey (members.map f) = (sortByKey members).map f := by
  have hmap : (members.insertionSort KeyLe).map f =
      (members.map f).insertionSort KeyLe := by
    apply List.map_insertionSort
    intro left _ right _
    simp only [KeyLe, hf]
  exact hmap.symm

theorem eq_of_same_key {members : List (JsString × α)}
    (h : (members.map Prod.fst).Nodup) {left right : JsString × α}
    (hleft : left ∈ members) (hright : right ∈ members)
    (hkey : left.1 = right.1) : left = right :=
  List.inj_on_of_nodup_map h hleft hright hkey

/-- With distinct keys, the order of the members does not matter. -/
theorem sortByKey_of_perm {left right : List (JsString × α)}
    (h : (left.map Prod.fst).Nodup) (hperm : left.Perm right) :
    sortByKey left = sortByKey right := by
  have hsorted : (sortByKey left).Perm (sortByKey right) :=
    (sortByKey_perm left).trans
      (hperm.trans (sortByKey_perm right).symm)
  apply hsorted.eq_of_pairwise _ (sortByKey_pairwise left)
    (sortByKey_pairwise right)
  intro a b ha hb hab hba
  have hmem := (sortByKey_perm left).mem_iff.mp ha
  have hmem' := hperm.mem_iff.mpr ((sortByKey_perm right).mem_iff.mp hb)
  exact eq_of_same_key h hmem hmem' (codeUnitsLe_antisymm hab hba)

end Keys

/-- The values that JSON can spell. -/
inductive IsJson : JsValue → Prop
  | null : IsJson .null
  | boolean (value : Bool) : IsJson (.boolean value)
  | number (value : JsNumber) (hfinite : value.isFinite = true) :
      IsJson (.number value)
  | string (text : JsString) : IsJson (.string text)
  | array (elements : List JsValue)
      (helements : ∀ element ∈ elements, IsJson element) :
      IsJson (.array (elements.map some))
  | object (members : List (JsString × JsValue))
      (hkeys : (members.map Prod.fst).Nodup)
      (hmembers : ∀ member ∈ members, IsJson member.2) :
      IsJson (.object .object members)

/-- The number without the sign of zero. -/
def unsignedZero : JsNumber → JsNumber
  | .finite negative magnitude =>
    .finite (negative && magnitude.units != 0) magnitude
  | value => value

/-- The same JSON value: members may come in any order, and zero has no
sign. -/
inductive SameJson : JsValue → JsValue → Prop
  | null : SameJson .null .null
  | boolean (value : Bool) : SameJson (.boolean value) (.boolean value)
  | number (left right : JsNumber)
      (hsame : unsignedZero left = unsignedZero right) :
      SameJson (.number left) (.number right)
  | string (text : JsString) : SameJson (.string text) (.string text)
  | array (left right : List JsValue) (hlength : left.length = right.length)
      (helements : ∀ (i : Nat) (a b : JsValue),
        left[i]? = some a → right[i]? = some b → SameJson a b) :
      SameJson (.array (left.map some)) (.array (right.map some))
  | object (left right : List (JsString × JsValue))
      (hkeys : (left.map Prod.fst).Perm (right.map Prod.fst))
      (hmembers : ∀ (key : JsString) (a b : JsValue),
        (key, a) ∈ left → (key, b) ∈ right → SameJson a b) :
      SameJson (.object .object left) (.object .object right)

end JsValue
