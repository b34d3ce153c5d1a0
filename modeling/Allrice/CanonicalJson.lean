/-
The three encoders of canonical JSON: of the bridge's fingerprints, of policy
digests and of the ledger's input digests.  Each rejects what JSON cannot spell
with an error of its own; they are shown to be one function.
-/
import Allrice.JsonRoundTrip
import Allrice.Utf8Text

namespace Allrice

open JsonText JsValue

section Shared

variable {ε : Type} (error : ε)

mutual

/-- The encoder that the bridge and the ledger both have, with the error that
each of them throws. -/
def canonicalWith : JsValue → Except ε JsString
  | .null => .ok nullText
  | .string text => .ok (quote text)
  | .boolean value => .ok (booleanText value)
  | .number value =>
    if value.isFinite then .ok (NumberText.toText value) else .error error
  | .array elements =>
    match canonicalElements elements with
    | .ok parts => .ok (bracketed parts)
    | .error error => .error error
  | .object prototype members =>
    if prototype = .object then
      match canonicalMembers members with
      | .ok parts => .ok (braced parts)
      | .error error => .error error
    else .error error
  | .undefined => .error error
  | .other => .error error

/-- `Array.from` reads a hole as `undefined`. -/
def canonicalElements :
    List (Option JsValue) → Except ε (List JsString)
  | [] => .ok []
  | none :: _ => .error error
  | some value :: rest =>
    match canonicalWith value with
    | .ok part =>
      match canonicalElements rest with
      | .ok parts => .ok (part :: parts)
      | .error error => .error error
    | .error error => .error error

def canonicalMembers :
    List (JsString × JsValue) → Except ε (List (JsString × JsString))
  | [] => .ok []
  | (key, value) :: rest =>
    match canonicalWith value with
    | .ok part =>
      match canonicalMembers rest with
      | .ok parts => .ok ((key, part) :: parts)
      | .error error => .error error
    | .error error => .error error

end

end Shared

/-- `Error('Non-JSON Bridge value')`. -/
inductive BridgeJsonError where
  | nonJsonBridgeValue

def canonicalRuntimeBridgeJson (value : JsValue) :
    Except BridgeJsonError JsString :=
  canonicalWith .nonJsonBridgeValue value

/-- `RuntimeLedgerError('invalid_state')`, the one that its encoder gives. -/
inductive LedgerJsonError where
  | invalidState

/-- The `canonical` of `runtimeLedgerInputDigest`. -/
def ledgerCanonical (part : JsValue) : Except LedgerJsonError JsString :=
  canonicalWith .invalidState part

/-- `RuntimePolicyError('non_json_binding')`. -/
inductive RuntimePolicyError where
  | nonJsonBinding

mutual

/-- The `canonical` of `runtimePolicyDigest`: it looks for holes first. -/
def policyCanonical : JsValue → Except RuntimePolicyError JsString
  | .null => .ok nullText
  | .string text => .ok (quote text)
  | .boolean value => .ok (booleanText value)
  | .number value =>
    if value.isFinite then .ok (NumberText.toText value)
    else .error .nonJsonBinding
  | .array elements =>
    if elements.any Option.isNone then .error .nonJsonBinding
    else
      match policyElements elements with
      | .ok parts => .ok (bracketed parts)
      | .error error => .error error
  | .object prototype members =>
    if prototype = .object then
      match policyMembers members with
      | .ok parts => .ok (braced parts)
      | .error error => .error error
    else .error .nonJsonBinding
  | .undefined => .error .nonJsonBinding
  | .other => .error .nonJsonBinding

/-- `map` leaves holes as they are, and `join` writes nothing for one. -/
def policyElements :
    List (Option JsValue) → Except RuntimePolicyError (List JsString)
  | [] => .ok []
  | none :: rest =>
    match policyElements rest with
    | .ok parts => .ok ([] :: parts)
    | .error error => .error error
  | some value :: rest =>
    match policyCanonical value with
    | .ok part =>
      match policyElements rest with
      | .ok parts => .ok (part :: parts)
      | .error error => .error error
    | .error error => .error error

def policyMembers :
    List (JsString × JsValue) →
      Except RuntimePolicyError (List (JsString × JsString))
  | [] => .ok []
  | (key, value) :: rest =>
    match policyCanonical value with
    | .ok part =>
      match policyMembers rest with
      | .ok parts => .ok ((key, part) :: parts)
      | .error error => .error error
    | .error error => .error error

end

/-- Both give the same text, or both reject. -/
def SameOutcome {ε δ α : Type} (left : Except ε α) (right : Except δ α) :
    Prop :=
  left.toOption = right.toOption

theorem SameOutcome.cases {ε δ α : Type} {left : Except ε α}
    {right : Except δ α} (h : SameOutcome left right) :
    (∃ value, left = .ok value ∧ right = .ok value) ∨
      ∃ error error', left = .error error ∧ right = .error error' := by
  cases left with
  | ok value =>
    cases right with
    | ok value' =>
      have hsame : value = value' := Option.some.inj h
      rw [hsame]
      exact .inl ⟨value', rfl, rfl⟩
    | error error => cases h
  | error error =>
    cases right with
    | ok value => cases h
    | error error' => exact .inr ⟨error, error', rfl, rfl⟩

section Agreement

variable {ε : Type} (error : ε)

theorem elements_agree {elements : List (Option JsValue)}
    (h : ∀ value, some value ∈ elements →
      SameOutcome (policyCanonical value) (canonicalWith error value)) :
    SameOutcome
      (if elements.any Option.isNone then .error .nonJsonBinding
        else policyElements elements)
      (canonicalElements error elements) := by
  induction elements with
  | nil => rfl
  | cons element rest ih =>
    cases element with
    | none => rfl
    | some value =>
      have hvalue := (h value (by simp)).cases
      have hrest := ih fun value hvalue => h value (by simp [hvalue])
      simp only [List.any_cons, Option.isNone_some, Bool.false_or,
        policyElements, canonicalElements]
      by_cases hhole : rest.any Option.isNone = true
      · rw [if_pos hhole] at hrest ⊢
        rcases hvalue with ⟨part, _, hshared⟩ | ⟨_, _, _, hshared⟩
        · rcases hrest.cases with ⟨parts, hparts, _⟩ | ⟨_, _, _, hparts⟩
          · cases hparts
          · rw [hshared, hparts]
            rfl
        · rw [hshared]
          rfl
      · rw [if_neg hhole] at hrest ⊢
        rcases hvalue with ⟨part, hpart, hshared⟩ | ⟨_, _, hpart, hshared⟩
        · rw [hpart, hshared]
          rcases hrest.cases with
            ⟨parts, hparts, hparts'⟩ | ⟨_, _, hparts, hparts'⟩
          · rw [hparts, hparts']
            rfl
          · rw [hparts, hparts']
            rfl
        · rw [hpart, hshared]
          rfl

theorem members_agree {members : List (JsString × JsValue)}
    (h : ∀ member ∈ members, SameOutcome (policyCanonical member.2)
      (canonicalWith error member.2)) :
    SameOutcome (policyMembers members) (canonicalMembers error members) := by
  induction members with
  | nil => rfl
  | cons member rest ih =>
    rcases member with ⟨key, value⟩
    have hrest := ih fun member hmember => h member (by simp [hmember])
    simp only [policyMembers, canonicalMembers]
    rcases (h (key, value) (by simp)).cases with
      ⟨part, hpart, hshared⟩ | ⟨_, _, hpart, hshared⟩
    · simp only at hpart hshared
      rw [hpart, hshared]
      rcases hrest.cases with
        ⟨parts, hparts, hparts'⟩ | ⟨_, _, hparts, hparts'⟩
      · rw [hparts, hparts']
        rfl
      · rw [hparts, hparts']
        rfl
    · simp only at hpart hshared
      rw [hpart, hshared]
      rfl

/-- Looking for holes first makes no difference. -/
theorem policyCanonical_agrees (value : JsValue) :
    SameOutcome (policyCanonical value) (canonicalWith error value) := by
  induction value using JsValue.induct with
  | undefined | null | boolean value | string text | other => rfl
  | number value =>
    simp only [policyCanonical, canonicalWith]
    split
    · rfl
    · rfl
  | array elements ih =>
    have helements := elements_agree error ih
    simp only [policyCanonical, canonicalWith]
    split
    · rename_i hhole
      rw [if_pos hhole] at helements
      rcases helements.cases with ⟨_, hfalse, _⟩ | ⟨_, _, _, hshared⟩
      · cases hfalse
      · rw [hshared]
        rfl
    · rename_i hhole
      rw [if_neg hhole] at helements
      rcases helements.cases with
        ⟨parts, hparts, hshared⟩ | ⟨_, _, hparts, hshared⟩
      · rw [hparts, hshared]
        rfl
      · rw [hparts, hshared]
        rfl
  | object prototype members ih =>
    have hmembers := members_agree error ih
    simp only [policyCanonical, canonicalWith]
    split
    · rcases hmembers.cases with
        ⟨parts, hparts, hshared⟩ | ⟨_, _, hparts, hshared⟩
      · rw [hparts, hshared]
        rfl
      · rw [hparts, hshared]
        rfl
    · rfl

end Agreement

theorem canonicalRuntimeBridgeJson_agrees (value : JsValue) :
    SameOutcome (canonicalRuntimeBridgeJson value) (policyCanonical value) :=
  (policyCanonical_agrees BridgeJsonError.nonJsonBridgeValue value).symm

theorem ledgerCanonical_agrees (value : JsValue) :
    SameOutcome (ledgerCanonical value) (policyCanonical value) :=
  (policyCanonical_agrees LedgerJsonError.invalidState value).symm

section Digests

variable (sha256 : List UInt8 → JsString)

def runtimePolicyDigest (input : JsValue) :
    Except RuntimePolicyError JsString :=
  match policyCanonical input with
  | .ok text =>
    .ok (JsString.ofString "sha256:" ++ sha256 (Utf8Text.encode text))
  | .error error => .error error

def runtimeLedgerInputDigest (value : JsValue) :
    Except LedgerJsonError JsString :=
  match ledgerCanonical value with
  | .ok text =>
    .ok (JsString.ofString "sha256:" ++ sha256 (Utf8Text.encode text))
  | .error error => .error error

end Digests

section Encoded

variable {ε : Type} (error : ε)

theorem canonicalElements_json {elements : List JsValue}
    (h : ∀ element ∈ elements,
      canonicalWith error element = .ok (jsonText element)) :
    canonicalElements error (elements.map some) =
      .ok (elements.map jsonText) := by
  induction elements with
  | nil => rfl
  | cons element rest ih =>
    have hrest := ih fun element helement => h element (by simp [helement])
    simp only [List.map_cons, canonicalElements, h element (by simp), hrest]

theorem canonicalMembers_json {members : List (JsString × JsValue)}
    (h : ∀ member ∈ members,
      canonicalWith error member.2 = .ok (jsonText member.2)) :
    canonicalMembers error members = .ok (memberTexts members) := by
  induction members with
  | nil => rfl
  | cons member rest ih =>
    rcases member with ⟨key, value⟩
    have hvalue := h (key, value) (by simp)
    have hrest := ih fun member hmember => h member (by simp [hmember])
    simp only at hvalue
    simp only [canonicalMembers, hvalue, hrest, memberTexts]

/-- JSON values are accepted. -/
theorem canonicalWith_json {value : JsValue} (h : IsJson value) :
    canonicalWith error value = .ok (jsonText value) := by
  induction h with
  | null | boolean value | string text => rfl
  | number value hfinite =>
    simp only [canonicalWith, hfinite, if_true, jsonText]
  | array elements helements ih =>
    simp only [canonicalWith, canonicalElements_json error ih, jsonText,
      elementTexts_some]
  | object members hkeys hmembers ih =>
    simp only [canonicalWith, canonicalMembers_json error ih, if_true,
      jsonText]

end Encoded

/-- The three encoders accept the same values and write the same text.  For a
JSON value it is a text that is read back as the same value, and that no other
value has: neither the order of keys nor the sign of zero shows in it. -/
theorem canonical_json (value : JsValue) :
    SameOutcome (canonicalRuntimeBridgeJson value) (policyCanonical value) ∧
      SameOutcome (ledgerCanonical value) (policyCanonical value) ∧
      (IsJson value →
        ∃ text, canonicalRuntimeBridgeJson value = .ok text ∧
          (∃ right, parse text = some right ∧ SameJson value right) ∧
          ∀ right, IsJson right →
            (canonicalRuntimeBridgeJson right = .ok text ↔
              SameJson value right)) := by
  refine ⟨canonicalRuntimeBridgeJson_agrees value,
    ledgerCanonical_agrees value, ?_⟩
  intro hjson
  refine ⟨jsonText value, canonicalWith_json _ hjson,
    ⟨normal value, parse_jsonText hjson, same_normal hjson⟩, ?_⟩
  intro right hright
  have htext := jsonText_eq_iff hjson hright
  rw [canonicalRuntimeBridgeJson, canonicalWith_json _ hright, ← htext]
  constructor
  · intro hsame
    exact (Except.ok.inj hsame).symm
  · intro hsame
    rw [hsame]

namespace CanonicalJsonWitness

def zero (negative : Bool) : JsNumber :=
  .finite negative ⟨0, by decide, Nat.two_pow_pos 2098⟩

/-- An object with two members, in either order. -/
def pair (first second : JsString) : JsValue :=
  .object .object [(first, .number (zero true)), (second, .array [])]

theorem pair_json {first second : JsString} (h : first ≠ second) :
    IsJson (pair first second) := by
  apply IsJson.object
  · simpa using h
  · intro member hmember
    simp only [List.mem_cons, List.not_mem_nil, or_false] at hmember
    rcases hmember with rfl | rfl
    · exact IsJson.number _ rfl
    · exact IsJson.array [] (by simp)

theorem canonical_json_pair :
    ∃ text, canonicalRuntimeBridgeJson
        (pair (JsString.ofString "b") (JsString.ofString "a")) = .ok text ∧
      (∃ right, parse text = some right ∧
        SameJson (pair (JsString.ofString "b") (JsString.ofString "a"))
          right) ∧
      ∀ right, IsJson right →
        (canonicalRuntimeBridgeJson right = .ok text ↔
          SameJson (pair (JsString.ofString "b") (JsString.ofString "a"))
            right) :=
  (canonical_json (pair (JsString.ofString "b")
    (JsString.ofString "a"))).2.2 (pair_json (by decide))

/-- Zero and minus zero are different numbers with one text, which is read as
zero. -/
theorem sign_of_zero_lost :
    IsJson (.number (zero false)) ∧ IsJson (.number (zero true)) ∧
      zero false ≠ zero true ∧
      canonicalRuntimeBridgeJson (.number (zero false)) =
        canonicalRuntimeBridgeJson (.number (zero true)) ∧
      ∃ text, canonicalRuntimeBridgeJson (.number (zero true)) = .ok text ∧
        parse text = some (.number (zero false)) := by
  have hplus : IsJson (.number (zero false)) := IsJson.number _ rfl
  have hminus : IsJson (.number (zero true)) := IsJson.number _ rfl
  have hsame : SameJson (.number (zero false)) (.number (zero true)) :=
    SameJson.number _ _ rfl
  refine ⟨hplus, hminus, by decide, ?_, jsonText (.number (zero true)),
    canonicalWith_json _ hminus, parse_jsonText hminus⟩
  rw [canonicalRuntimeBridgeJson, canonicalRuntimeBridgeJson,
    canonicalWith_json _ hplus, canonicalWith_json _ hminus,
    jsonText_of_same hsame hplus hminus]

end CanonicalJsonWitness

end Allrice
