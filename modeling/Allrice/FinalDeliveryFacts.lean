/-
The text that the digest of a delivery's facts is taken of.  Objects are written
in the order of their keys, and the facts of one kind in the order of their
texts, so that neither order shows.
-/
import Allrice.JsonText

namespace Allrice.FactText

open JsonText JsValue

/-- `Error('final_delivery_non_json_fact')`. -/
inductive FactError
  | nonJsonFact

/-- A value whose objects have one member of each name. -/
inductive Proper : JsValue → Prop
  | undefined : Proper .undefined
  | null : Proper .null
  | boolean (value : Bool) : Proper (.boolean value)
  | number (value : JsNumber) : Proper (.number value)
  | string (text : JsString) : Proper (.string text)
  | array (elements : List (Option JsValue))
      (helements : ∀ value, some value ∈ elements → Proper value) :
      Proper (.array elements)
  | object (prototype : Prototype) (members : List (JsString × JsValue))
      (hkeys : (members.map Prod.fst).Nodup)
      (hmembers : ∀ member ∈ members, Proper member.2) :
      Proper (.object prototype members)
  | other : Proper .other

mutual

/-- Object keys are unordered; arrays inside individual facts retain their
order. -/
def canonical : JsValue → Except FactError JsString
  | .null => .ok nullText
  | .string text => .ok (quote text)
  | .boolean value => .ok (booleanText value)
  | .number value =>
    if value.isFinite then .ok (NumberText.toText value)
    else .error .nonJsonFact
  | .array elements =>
    match canonicalElements elements with
    | .ok parts => .ok (bracketed parts)
    | .error error => .error error
  | .object prototype members =>
    if prototype ≠ .object ∧ prototype ≠ .null then .error .nonJsonFact
    else
      match canonicalMembers members with
      | .ok parts => .ok (braced parts)
      | .error error => .error error
  | .undefined => .error .nonJsonFact
  | .other => .error .nonJsonFact

/-- `map` leaves holes as they are, and `join` writes nothing for one. -/
def canonicalElements :
    List (Option JsValue) → Except FactError (List JsString)
  | [] => .ok []
  | none :: rest =>
    match canonicalElements rest with
    | .ok parts => .ok ([] :: parts)
    | .error error => .error error
  | some value :: rest =>
    match canonical value with
    | .ok part =>
      match canonicalElements rest with
      | .ok parts => .ok (part :: parts)
      | .error error => .error error
    | .error error => .error error

def canonicalMembers :
    List (JsString × JsValue) → Except FactError (List (JsString × JsString))
  | [] => .ok []
  | (key, value) :: rest =>
    match canonical value with
    | .ok part =>
      match canonicalMembers rest with
      | .ok parts => .ok ((key, part) :: parts)
      | .error error => .error error
    | .error error => .error error

end

/-- `texts.sort()`. -/
def sortTexts (texts : List JsString) : List JsString :=
  texts.insertionSort fun left right => codeUnitsLe left right = true

/-- Duplicates are kept.  `sort` leaves the holes of a list behind its texts. -/
def factSet (values : List (Option JsValue)) : Except FactError JsString :=
  match canonicalElements (values.filter Option.isSome) with
  | .ok texts =>
    .ok (bracketed (sortTexts texts ++
      List.replicate (values.countP Option.isNone) []))
  | .error error => .error error

/-- The facts as they are handed over. -/
structure FactRecord where
  scope : JsValue
  complete : JsValue
  authorization : JsValue
  now : JsValue
  ownedRunIds : List (Option JsValue)
  explicitReferenceVersionIds : List (Option JsValue)
  artifacts : List (Option JsValue)
  checks : List (Option JsValue)
  requirements : List (Option JsValue)
  qualityReceipts : Option (List (Option JsValue))
  ordinaryFileCitations : Option (List (Option JsValue))

namespace FactRecord

variable (facts : FactRecord)

/-- The facts that stand alone, with their names. -/
def singles : List (String × JsValue) :=
  [("scope", facts.scope), ("complete", facts.complete),
    ("authorization", facts.authorization)]

/-- The facts of which there may be many, with the names of their kinds. -/
def sets : List (String × List (Option JsValue)) :=
  [("ownedRunIds", facts.ownedRunIds),
    ("explicitReferenceVersionIds", facts.explicitReferenceVersionIds),
    ("artifacts", facts.artifacts), ("checks", facts.checks),
    ("requirements", facts.requirements),
    ("qualityReceipts", facts.qualityReceipts.getD []),
    ("ordinaryFileCitations", facts.ordinaryFileCitations.getD [])]

/-- A value that the text is made of. -/
def Mentions (value : JsValue) : Prop :=
  (∃ single ∈ facts.singles, single.2 = value) ∨
    ∃ set ∈ facts.sets, some value ∈ set.2

end FactRecord

structure FinalDeliveryFacts extends FactRecord where
  proper : ∀ value, toFactRecord.Mentions value → Proper value

def finalDeliveryFactsVersion : JsString := JsString.ofString "2"

/-- `'"name":' + text`. -/
def field (name : String) (text : JsString) : JsString :=
  quotation :: JsString.ofString name ++ [quotation, colon] ++ text

def serializeFinalDeliveryFacts (facts : FactRecord) :
    Except FactError JsString := do
  let singles ← facts.singles.mapM fun single => do
    pure (field single.1 (← canonical single.2))
  let sets ← facts.sets.mapM fun set => do
    pure (field set.1 (← factSet set.2))
  pure (openBrace :: (join
    (field "version" finalDeliveryFactsVersion :: singles ++ sets) ++
      [closeBrace]))

end Allrice.FactText
