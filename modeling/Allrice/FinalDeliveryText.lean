/-
What the text of a delivery's facts tells.  Two texts are one exactly when the
facts are the same, and only facts that JSON can spell have a text, as long as
no array has a hole: `map` and `join` pass over it.
-/
import Allrice.FinalDeliveryFacts
import Allrice.JsonRoundTrip

namespace Allrice.FactText

open JsonText JsValue

/-- A part of the value is something else than JSON, and no hole. -/
inductive Foreign : JsValue → Prop
  | undefined : Foreign .undefined
  | other : Foreign .other
  | number (value : JsNumber) (h : value.isFinite = false) :
      Foreign (.number value)
  | instance_ (members : List (JsString × JsValue)) :
      Foreign (.object .other members)
  | element (elements : List (Option JsValue)) (value : JsValue)
      (hmem : some value ∈ elements) (h : Foreign value) :
      Foreign (.array elements)
  | member (prototype : Prototype) (members : List (JsString × JsValue))
      (entry : JsString × JsValue) (hmem : entry ∈ members)
      (h : Foreign entry.2) : Foreign (.object prototype members)

/-- An array in the value has a hole. -/
inductive Holed : JsValue → Prop
  | hole (elements : List (Option JsValue)) (h : none ∈ elements) :
      Holed (.array elements)
  | element (elements : List (Option JsValue)) (value : JsValue)
      (hmem : some value ∈ elements) (h : Holed value) :
      Holed (.array elements)
  | member (prototype : Prototype) (members : List (JsString × JsValue))
      (entry : JsString × JsValue) (hmem : entry ∈ members)
      (h : Holed entry.2) : Holed (.object prototype members)

mutual

/-- The value with ordinary objects in place of those without a prototype, as
JSON spells it. -/
def ordinary : JsValue → JsValue
  | .undefined => .undefined
  | .null => .null
  | .boolean value => .boolean value
  | .number value => .number value
  | .string text => .string text
  | .array elements => .array (ordinaryElements elements)
  | .object prototype members =>
    .object (if prototype = .null then .object else prototype)
      (ordinaryMembers members)
  | .other => .other

def ordinaryElements : List (Option JsValue) → List (Option JsValue)
  | [] => []
  | none :: rest => none :: ordinaryElements rest
  | some value :: rest => some (ordinary value) :: ordinaryElements rest

def ordinaryMembers :
    List (JsString × JsValue) → List (JsString × JsValue)
  | [] => []
  | (key, value) :: rest => (key, ordinary value) :: ordinaryMembers rest

end

/-- The same facts of one kind, in any order. -/
def SameSet (left right : List (Option JsValue)) : Prop :=
  ∃ first second, left.Perm first ∧ right.Perm second ∧
    List.Forall₂ (Option.Rel SameJson) first second

namespace FactRecord

def Foreign (facts : FactRecord) : Prop :=
  ∃ value, facts.Mentions value ∧ FactText.Foreign value

def Holed (facts : FactRecord) : Prop :=
  (∃ value, facts.Mentions value ∧ FactText.Holed value) ∨
    ∃ set ∈ facts.sets, none ∈ set.2

/-- The facts with ordinary objects. -/
def ordinary (facts : FactRecord) : FactRecord where
  scope := FactText.ordinary facts.scope
  complete := FactText.ordinary facts.complete
  authorization := FactText.ordinary facts.authorization
  now := facts.now
  ownedRunIds := ordinaryElements facts.ownedRunIds
  explicitReferenceVersionIds :=
    ordinaryElements facts.explicitReferenceVersionIds
  artifacts := ordinaryElements facts.artifacts
  checks := ordinaryElements facts.checks
  requirements := ordinaryElements facts.requirements
  qualityReceipts := facts.qualityReceipts.map ordinaryElements
  ordinaryFileCitations := facts.ordinaryFileCitations.map ordinaryElements

/-- Facts that JSON can spell. -/
structure Plain (facts : FactRecord) : Prop where
  json : ∀ value, facts.Mentions value → IsJson value
  full : ∀ set ∈ facts.sets, none ∉ set.2

/-- The same facts; the time of the observation is none of them. -/
structure Same (left right : FactRecord) : Prop where
  scope : SameJson left.scope right.scope
  complete : SameJson left.complete right.complete
  authorization : SameJson left.authorization right.authorization
  sets : List.Forall₂ (fun first second => SameSet first.2 second.2)
    left.sets right.sets

end FactRecord

/-- Only facts that JSON can spell have a text, and they have one text exactly
when they are the same. -/
structure TellsApart (left right : FactRecord) : Prop where
  first : ∀ text, serializeFinalDeliveryFacts left = .ok text →
    left.ordinary.Plain
  second : ∀ text, serializeFinalDeliveryFacts right = .ok text →
    right.ordinary.Plain
  same : ∀ text other, serializeFinalDeliveryFacts left = .ok text →
    serializeFinalDeliveryFacts right = .ok other →
      (text = other ↔ left.ordinary.Same right.ordinary)

/-- The encoding of a value succeeds. -/
def Spelled {α : Type} (result : Except FactError α) : Prop :=
  ∃ text, result = .ok text

variable {α β : Type} {value : JsValue} {values : List (Option JsValue)}
  {left right : FactRecord}

theorem spelled_ok (text : α) : Spelled (.ok text) := ⟨text, rfl⟩

theorem spelled_pure (text : α) :
    Spelled (pure text : Except FactError α) := ⟨text, rfl⟩

theorem not_spelled {error : FactError} :
    ¬Spelled (.error error : Except FactError α) := by
  rintro ⟨_, h⟩
  cases h

variable {elements : List (Option JsValue)}

theorem spelled_elements :
    Spelled (canonicalElements elements) ↔
      ∀ value, some value ∈ elements → Spelled (canonical value) := by
  induction elements with
  | nil => exact iff_of_true (spelled_ok _) (by simp)
  | cons element rest ih =>
    cases element with
    | none =>
      have hrest : (∀ value, some value ∈ none :: rest →
          Spelled (canonical value)) ↔
          Spelled (canonicalElements rest) := by
        rw [ih]
        simp
      rw [canonicalElements, hrest]
      cases canonicalElements rest with
      | ok parts => exact iff_of_true (spelled_ok _) (spelled_ok _)
      | error error => exact iff_of_false not_spelled not_spelled
    | some value =>
      have hrest : (∀ entry, some entry ∈ some value :: rest →
          Spelled (canonical entry)) ↔
          Spelled (canonical value) ∧ Spelled (canonicalElements rest) := by
        rw [ih]
        simp [or_imp, forall_and]
      rw [canonicalElements, hrest]
      cases canonical value with
      | error error =>
        exact iff_of_false not_spelled fun h => not_spelled h.1
      | ok part =>
        rw [and_iff_right (spelled_ok part)]
        cases canonicalElements rest with
        | ok parts => exact iff_of_true (spelled_ok _) (spelled_ok _)
        | error error => exact iff_of_false not_spelled not_spelled

theorem spelled_members {members : List (JsString × JsValue)} :
    Spelled (canonicalMembers members) ↔
      ∀ member ∈ members, Spelled (canonical member.2) := by
  induction members with
  | nil => exact iff_of_true (spelled_ok _) (by simp)
  | cons member rest ih =>
    rcases member with ⟨key, value⟩
    rw [canonicalMembers, List.forall_mem_cons, ← ih]
    simp only
    cases canonical value with
    | error error =>
      exact iff_of_false not_spelled fun h => not_spelled h.1
    | ok part =>
      rw [and_iff_right (spelled_ok part)]
      cases canonicalMembers rest with
      | ok parts => exact iff_of_true (spelled_ok _) (spelled_ok _)
      | error error => exact iff_of_false not_spelled not_spelled

theorem spelled_array (elements : List (Option JsValue)) :
    Spelled (canonical (.array elements)) ↔
      Spelled (canonicalElements elements) := by
  rw [canonical]
  cases canonicalElements elements with
  | ok parts => exact iff_of_true (spelled_ok _) (spelled_ok _)
  | error error => exact iff_of_false not_spelled not_spelled

theorem spelled_object {prototype : Prototype} (h : prototype ≠ .other)
    (members : List (JsString × JsValue)) :
    Spelled (canonical (.object prototype members)) ↔
      Spelled (canonicalMembers members) := by
  rw [canonical, if_neg (by cases prototype <;> simp at h ⊢)]
  cases canonicalMembers members with
  | ok parts => exact iff_of_true (spelled_ok _) (spelled_ok _)
  | error error => exact iff_of_false not_spelled not_spelled

/-- A value is rejected exactly for a part that is neither JSON nor a hole. -/
theorem spelled_canonical (value : JsValue) :
    Spelled (canonical value) ↔ ¬Foreign value := by
  induction value using JsValue.induct with
  | undefined => exact iff_of_false not_spelled (not_not.2 .undefined)
  | other => exact iff_of_false not_spelled (not_not.2 .other)
  | null | boolean value | string text =>
    refine iff_of_true (spelled_ok _) ?_
    nofun
  | number value =>
    rw [canonical]
    by_cases hfinite : value.isFinite = true
    · rw [if_pos hfinite]
      refine iff_of_true (spelled_ok _) ?_
      intro h
      cases h with
      | number _ hinfinite =>
        rw [hfinite] at hinfinite
        cases hinfinite
    · rw [if_neg hfinite]
      exact iff_of_false not_spelled
        (not_not.2 (.number value (Bool.eq_false_iff.2 hfinite)))
  | array elements ih =>
    rw [spelled_array, spelled_elements]
    constructor
    · intro hall hforeign
      cases hforeign with
      | element _ value hmem hvalue =>
        exact (ih value hmem).1 (hall value hmem) hvalue
    · intro hnone value hmem
      exact (ih value hmem).2 fun hvalue =>
        hnone (.element elements value hmem hvalue)
  | object prototype members ih =>
    by_cases hother : prototype = .other
    · subst hother
      exact iff_of_false not_spelled (not_not.2 (.instance_ members))
    · rw [spelled_object hother, spelled_members]
      constructor
      · intro hall hforeign
        cases hforeign with
        | instance_ => exact hother rfl
        | member _ _ entry hmem hvalue =>
          exact (ih entry hmem).1 (hall entry hmem) hvalue
      · intro hnone entry hmem
        exact (ih entry hmem).2 fun hvalue =>
          hnone (.member prototype members entry hmem hvalue)

theorem spelled_factSet (values : List (Option JsValue)) :
    Spelled (factSet values) ↔
      ∀ value, some value ∈ values → ¬Foreign value := by
  have hspelled : Spelled (factSet values) ↔
      Spelled (canonicalElements (values.filter Option.isSome)) := by
    rw [factSet]
    cases canonicalElements (values.filter Option.isSome) with
    | ok texts => exact iff_of_true (spelled_ok _) (spelled_ok _)
    | error error => exact iff_of_false not_spelled not_spelled
  rw [hspelled, spelled_elements]
  apply forall_congr'
  intro value
  rw [List.mem_filter, spelled_canonical]
  simp

theorem spelled_bind (result : Except FactError α) (f : α → Except FactError β)
    {p : Prop} (h : ∀ text, Spelled (f text) ↔ p) :
    Spelled (result >>= f) ↔ Spelled result ∧ p := by
  cases result with
  | error error =>
    exact iff_of_false not_spelled fun hboth => not_spelled hboth.1
  | ok text =>
    rw [and_iff_right (spelled_ok text)]
    exact h text

theorem spelled_mapM (f : α → Except FactError β) (items : List α) :
    Spelled (items.mapM f) ↔ ∀ item ∈ items, Spelled (f item) := by
  induction items with
  | nil => exact iff_of_true (spelled_ok _) (by simp)
  | cons item rest ih =>
    rw [List.mapM_cons, List.forall_mem_cons, ← ih]
    apply spelled_bind
    intro text
    rw [spelled_bind _ _ fun texts => iff_true_intro (spelled_pure _), and_true]

/-- Facts are rejected exactly for a part that is neither JSON nor a hole. -/
theorem spelled_facts (facts : FactRecord) :
    Spelled (serializeFinalDeliveryFacts facts) ↔ ¬facts.Foreign := by
  have hsingle : ∀ single : String × JsValue,
      Spelled (do pure (field single.1 (← canonical single.2)) :
        Except FactError JsString) ↔ ¬Foreign single.2 := by
    intro single
    rw [spelled_bind _ _ fun text => iff_true_intro (spelled_pure _), and_true,
      spelled_canonical]
  have hset : ∀ set : String × List (Option JsValue),
      Spelled (do pure (field set.1 (← factSet set.2)) :
        Except FactError JsString) ↔
        ∀ value, some value ∈ set.2 → ¬Foreign value := by
    intro set
    rw [spelled_bind _ _ fun text => iff_true_intro (spelled_pure _), and_true,
      spelled_factSet]
  have hwhole : Spelled (serializeFinalDeliveryFacts facts) ↔
      (∀ single ∈ facts.singles, ¬Foreign single.2) ∧
        ∀ set ∈ facts.sets, ∀ value, some value ∈ set.2 → ¬Foreign value := by
    rw [serializeFinalDeliveryFacts,
      spelled_bind _ _ fun singles => spelled_bind _ _ fun sets =>
        iff_true_intro (spelled_pure _), spelled_mapM, spelled_mapM, and_true]
    simp only [hsingle, hset]
  rw [hwhole]
  constructor
  · rintro ⟨hsingles, hsets⟩ ⟨value, ⟨single, hmem, rfl⟩ | ⟨set, hmem, hvalue⟩,
      hforeign⟩
    · exact hsingles single hmem hforeign
    · exact hsets set hmem value hvalue hforeign
  · intro hnone
    constructor
    · intro single hmem hforeign
      exact hnone ⟨_, .inl ⟨single, hmem, rfl⟩, hforeign⟩
    · intro set hmem value hvalue hforeign
      exact hnone ⟨value, .inr ⟨set, hmem, hvalue⟩, hforeign⟩

theorem IsJson.full (h : IsJson value) : ¬Holed value := by
  induction h with
  | null | boolean value | number value hfinite | string text => nofun
  | array elements helements ih =>
    intro h
    cases h with
    | hole _ hmem => simp at hmem
    | element _ value hmem hvalue =>
      obtain ⟨element, helement, hsame⟩ := List.mem_map.1 hmem
      obtain rfl := Option.some.inj hsame
      exact ih element helement hvalue
  | object members hkeys hmembers ih =>
    intro h
    cases h with
    | member _ _ entry hmem hvalue => exact ih entry hmem hvalue

/-- A list without a hole. -/
theorem eq_map_some (h : none ∉ elements) :
    elements = (elements.filterMap id).map some := by
  induction elements with
  | nil => rfl
  | cons element rest ih =>
    rw [List.mem_cons, not_or] at h
    cases element with
    | none => exact absurd rfl h.1
    | some value =>
      change _ = some value :: (rest.filterMap id).map some
      rw [← ih h.2]

theorem ordinaryElements_some (elements : List JsValue) :
    ordinaryElements (elements.map some) = (elements.map ordinary).map some := by
  induction elements with
  | nil => rfl
  | cons element rest ih =>
    simp only [List.map_cons, ordinaryElements, ih]

theorem ordinaryMembers_eq (members : List (JsString × JsValue)) :
    ordinaryMembers members =
      members.map fun member => (member.1, ordinary member.2) := by
  induction members with
  | nil => rfl
  | cons member rest ih =>
    rcases member with ⟨key, value⟩
    simp only [List.map_cons, ordinaryMembers, ih]

theorem isJson_of_proper (hproper : Proper value) (hforeign : ¬Foreign value)
    (hholed : ¬Holed value) : IsJson (ordinary value) := by
  induction hproper with
  | undefined => exact absurd .undefined hforeign
  | other => exact absurd .other hforeign
  | null => exact .null
  | boolean value => exact .boolean value
  | string text => exact .string text
  | number value =>
    apply IsJson.number
    by_contra hfinite
    exact hforeign (.number value (Bool.eq_false_iff.2 hfinite))
  | array elements helements ih =>
    have hfull : none ∉ elements := fun hmem => hholed (.hole elements hmem)
    rw [ordinary, eq_map_some hfull, ordinaryElements_some]
    apply IsJson.array
    intro element hmem
    obtain ⟨entry, hentry, rfl⟩ := List.mem_map.1 hmem
    obtain ⟨entry, helement, hsame⟩ := List.mem_filterMap.1 hentry
    obtain rfl : entry = some _ := hsame
    apply ih _ helement
    · intro hvalue
      exact hforeign (.element elements _ helement hvalue)
    · intro hvalue
      exact hholed (.element elements _ helement hvalue)
  | object prototype members hkeys hmembers ih =>
    have hprototype : (if prototype = .null then .object else prototype) =
        Prototype.object := by
      cases prototype with
      | object | null => rfl
      | other => exact absurd (.instance_ members) hforeign
    rw [ordinary, hprototype, ordinaryMembers_eq]
    apply IsJson.object
    · rwa [List.map_map]
    · intro member hmember
      obtain ⟨entry, hentry, rfl⟩ := List.mem_map.1 hmember
      apply ih entry hentry
      · intro hvalue
        exact hforeign (.member prototype members entry hentry hvalue)
      · intro hvalue
        exact hholed (.member prototype members entry hentry hvalue)

theorem ordinaryElements_eq (elements : List (Option JsValue)) :
    ordinaryElements elements = elements.map (Option.map ordinary) := by
  induction elements with
  | nil => rfl
  | cons element rest ih =>
    cases element with
    | none | some value => simp [ordinaryElements, ih]

theorem Holed.ordinary (h : Holed value) : Holed (ordinary value) := by
  induction h with
  | hole elements hmem =>
    rw [FactText.ordinary, ordinaryElements_eq]
    exact .hole _ (List.mem_map.2 ⟨none, hmem, rfl⟩)
  | element elements value hmem _ ih =>
    rw [FactText.ordinary, ordinaryElements_eq]
    exact .element _ _ (List.mem_map.2 ⟨some value, hmem, rfl⟩) ih
  | member prototype members entry hmem _ ih =>
    rw [FactText.ordinary, ordinaryMembers_eq]
    exact .member _ _ _ (List.mem_map.2 ⟨entry, hmem, rfl⟩) ih

namespace FactRecord

theorem ordinary_singles (facts : FactRecord) :
    facts.ordinary.singles =
      facts.singles.map fun single => (single.1, FactText.ordinary single.2) :=
  rfl

theorem ordinary_sets (facts : FactRecord) :
    facts.ordinary.sets =
      facts.sets.map fun set => (set.1, ordinaryElements set.2) := by
  have hnone : ∀ list : Option (List (Option JsValue)),
      (list.map ordinaryElements).getD [] = ordinaryElements (list.getD []) := by
    intro list
    cases list with
    | none | some values => rfl
  simp only [sets, ordinary, hnone, List.map_cons, List.map_nil]

variable {facts : FactRecord}

theorem ordinary_mentions :
    facts.ordinary.Mentions value ↔
      ∃ source, facts.Mentions source ∧ FactText.ordinary source = value := by
  simp only [Mentions, ordinary_singles, ordinary_sets, List.mem_map]
  constructor
  · rintro (⟨_, ⟨single, hsingle, rfl⟩, rfl⟩ | ⟨_, ⟨set, hset, rfl⟩, hvalue⟩)
    · exact ⟨_, .inl ⟨single, hsingle, rfl⟩, rfl⟩
    · rw [ordinaryElements_eq] at hvalue
      obtain ⟨element, helement, hsame⟩ := List.mem_map.1 hvalue
      obtain ⟨source, rfl, hsource⟩ := Option.map_eq_some_iff.1 hsame
      exact ⟨source, .inr ⟨set, hset, helement⟩, hsource⟩
  · rintro ⟨source, ⟨single, hsingle, rfl⟩ | ⟨set, hset, hsource⟩, rfl⟩
    · exact .inl ⟨_, ⟨single, hsingle, rfl⟩, rfl⟩
    · refine .inr ⟨_, ⟨set, hset, rfl⟩, ?_⟩
      rw [ordinaryElements_eq]
      exact List.mem_map.2 ⟨some source, hsource, rfl⟩

theorem Plain.notHoled (h : facts.ordinary.Plain) : ¬facts.Holed := by
  rintro (⟨value, hmem, hholed⟩ | ⟨set, hset, hhole⟩)
  · exact IsJson.full (h.json _ (ordinary_mentions.2 ⟨value, hmem, rfl⟩))
      hholed.ordinary
  · apply h.full (set.1, ordinaryElements set.2)
    · rw [ordinary_sets]
      exact List.mem_map.2 ⟨set, hset, rfl⟩
    · rw [ordinaryElements_eq]
      exact List.mem_map.2 ⟨none, hhole, rfl⟩

end FactRecord

theorem FinalDeliveryFacts.plain {facts : FinalDeliveryFacts}
    (hforeign : ¬facts.Foreign) (hholed : ¬facts.Holed) :
    facts.ordinary.Plain where
  json value hmem := by
    obtain ⟨source, hsource, rfl⟩ := FactRecord.ordinary_mentions.1 hmem
    exact isJson_of_proper (facts.proper source hsource)
      (fun h => hforeign ⟨source, hsource, h⟩)
      (fun h => hholed (.inl ⟨source, hsource, h⟩))
  full set hset hhole := by
    rw [FactRecord.ordinary_sets] at hset
    obtain ⟨source, hsource, rfl⟩ := List.mem_map.1 hset
    rw [ordinaryElements_eq] at hhole
    obtain ⟨element, helement, hsame⟩ := List.mem_map.1 hhole
    rw [Option.map_eq_none_iff] at hsame
    exact hholed (.inr ⟨source, hsource, hsame ▸ helement⟩)

theorem canonicalElements_ordinary
    (h : ∀ value, some value ∈ elements →
      canonical (ordinary value) = canonical value) :
    canonicalElements (ordinaryElements elements) =
      canonicalElements elements := by
  induction elements with
  | nil => rfl
  | cons element rest ih =>
    have hrest := ih fun value hvalue => h value (List.mem_cons_of_mem _ hvalue)
    cases element with
    | none => simp only [ordinaryElements, canonicalElements, hrest]
    | some value =>
      simp only [ordinaryElements, canonicalElements, hrest,
        h value List.mem_cons_self]

theorem canonicalMembers_ordinary {members : List (JsString × JsValue)}
    (h : ∀ member ∈ members,
      canonical (ordinary member.2) = canonical member.2) :
    canonicalMembers (ordinaryMembers members) = canonicalMembers members := by
  induction members with
  | nil => rfl
  | cons member rest ih =>
    rcases member with ⟨key, value⟩
    obtain ⟨hvalue, hrest⟩ := List.forall_mem_cons.1 h
    simp only at hvalue
    simp only [ordinaryMembers, canonicalMembers, ih hrest, hvalue]

/-- An object without a prototype is spelled as an ordinary one. -/
theorem canonical_ordinary (value : JsValue) :
    canonical (ordinary value) = canonical value := by
  induction value using JsValue.induct with
  | undefined | null | boolean | number | string | other => rfl
  | array elements ih =>
    rw [ordinary, canonical, canonical, canonicalElements_ordinary ih]
  | object prototype members ih =>
    rw [ordinary, canonical, canonical, canonicalMembers_ordinary ih]
    cases prototype with
    | object | null | other => rfl

theorem factSet_ordinary (values : List (Option JsValue)) :
    factSet (ordinaryElements values) = factSet values := by
  have hfilter : (ordinaryElements values).filter Option.isSome =
      ordinaryElements (values.filter Option.isSome) := by
    simp only [ordinaryElements_eq, List.filter_map]
    congr 1
    apply List.filter_congr
    intro value _
    exact Option.isSome_map
  have hcount : (ordinaryElements values).countP Option.isNone =
      values.countP Option.isNone := by
    rw [ordinaryElements_eq, List.countP_map]
    apply List.countP_congr
    intro value _
    rw [Function.comp_apply, Option.isNone_map]
  rw [factSet, factSet, hfilter, hcount,
    canonicalElements_ordinary fun value _ => canonical_ordinary value]

theorem serialize_ordinary (facts : FactRecord) :
    serializeFinalDeliveryFacts facts.ordinary =
      serializeFinalDeliveryFacts facts := by
  simp only [serializeFinalDeliveryFacts, FactRecord.ordinary_singles,
    FactRecord.ordinary_sets, List.mapM_map, Function.comp_def,
    canonical_ordinary, factSet_ordinary]

theorem canonicalElements_json {elements : List JsValue}
    (h : ∀ element ∈ elements, canonical element = .ok (jsonText element)) :
    canonicalElements (elements.map some) = .ok (elements.map jsonText) := by
  induction elements with
  | nil => rfl
  | cons element rest ih =>
    have hrest := ih fun element helement => h element (by simp [helement])
    simp only [List.map_cons, canonicalElements, h element (by simp), hrest]

theorem canonicalMembers_json {members : List (JsString × JsValue)}
    (h : ∀ member ∈ members, canonical member.2 = .ok (jsonText member.2)) :
    canonicalMembers members = .ok (memberTexts members) := by
  induction members with
  | nil => rfl
  | cons member rest ih =>
    rcases member with ⟨key, value⟩
    have hvalue := h (key, value) (by simp)
    have hrest := ih fun member hmember => h member (by simp [hmember])
    simp only at hvalue
    simp only [canonicalMembers, hvalue, hrest, memberTexts]

theorem canonical_of_json (h : IsJson value) :
    canonical value = .ok (jsonText value) := by
  induction h with
  | null | boolean value | string text => rfl
  | number value hfinite =>
    simp only [canonical, hfinite, if_true, jsonText]
  | array elements helements ih =>
    simp only [canonical, canonicalElements_json ih, jsonText,
      elementTexts_some]
  | object members hkeys hmembers ih =>
    rw [canonical, if_neg (by decide), canonicalMembers_json ih, jsonText]

/-- The texts are put in their order. -/
theorem sortTexts_perm (texts : List JsString) :
    (sortTexts texts).Perm texts :=
  List.perm_insertionSort _ texts

theorem sortTexts_of_perm {left right : List JsString}
    (h : left.Perm right) : sortTexts left = sortTexts right := by
  have htotal : Std.Total fun left right : JsString =>
      codeUnitsLe left right = true := ⟨codeUnitsLe_total⟩
  have htrans : IsTrans JsString fun left right =>
      codeUnitsLe left right = true := ⟨fun _ _ _ => codeUnitsLe_trans⟩
  have hsorted : (sortTexts left).Perm (sortTexts right) :=
    (sortTexts_perm left).trans (h.trans (sortTexts_perm right).symm)
  apply hsorted.eq_of_pairwise _ (List.pairwise_insertionSort _ left)
    (List.pairwise_insertionSort _ right)
  intro first second _ _ hle hge
  exact codeUnitsLe_antisymm hle hge

/-- The values of a list, in the order of their texts. -/
def sortValues (values : List (Option JsValue)) : List JsValue :=
  (values.filterMap id).insertionSort fun left right =>
    codeUnitsLe (jsonText left) (jsonText right) = true

theorem sortValues_perm (values : List (Option JsValue)) :
    (sortValues values).Perm (values.filterMap id) :=
  List.perm_insertionSort _ _

theorem sortValues_texts (values : List (Option JsValue)) :
    (sortValues values).map jsonText =
      sortTexts ((values.filterMap id).map jsonText) := by
  apply List.map_insertionSort
  intro left _ right _
  exact Iff.rfl

/-- The value that a set of facts is spelled as. -/
def setValue (values : List (Option JsValue)) : JsValue :=
  .array ((sortValues values).map some)

theorem mem_sortValues : value ∈ sortValues values ↔ some value ∈ values := by
  rw [(sortValues_perm values).mem_iff, List.mem_filterMap]
  constructor
  · rintro ⟨entry, hmem, hsame⟩
    obtain rfl : entry = some value := hsame
    exact hmem
  · intro hmem
    exact ⟨some value, hmem, rfl⟩

theorem setValue_json (h : ∀ value, some value ∈ values → IsJson value) :
    IsJson (setValue values) := by
  apply IsJson.array
  intro value hvalue
  exact h value (mem_sortValues.1 hvalue)

theorem setValue_text (values : List (Option JsValue)) :
    jsonText (setValue values) =
      bracketed (sortTexts ((values.filterMap id).map jsonText)) := by
  rw [setValue, jsonText, elementTexts_some, sortValues_texts]

theorem factSet_json (hfull : none ∉ values)
    (h : ∀ value, some value ∈ values → IsJson value) :
    factSet values = .ok (jsonText (setValue values)) := by
  have hsome : values.filter Option.isSome = (values.filterMap id).map some := by
    rw [← eq_map_some hfull, List.filter_eq_self]
    intro entry hentry
    cases entry with
    | none => exact absurd hentry hfull
    | some value => rfl
  have hnone : values.countP Option.isNone = 0 := by
    rw [List.countP_eq_zero]
    intro entry hentry hhole
    obtain rfl := Option.isNone_iff_eq_none.1 hhole
    exact hfull hentry
  have htexts := @canonicalElements_json
    (values.filterMap id) (by
      intro element helement
      apply canonical_of_json
      apply h
      exact mem_sortValues.1 ((sortValues_perm values).mem_iff.2 helement))
  rw [factSet, hsome, htexts, hnone, setValue_text, List.replicate_zero]
  simp only [List.append_nil]

theorem forall₂_of_sameJson {left right : List JsValue}
    (h : SameJson (.array (left.map some)) (.array (right.map some))) :
    List.Forall₂ SameJson left right := by
  generalize hleft : JsValue.array (left.map some) = first at h
  generalize hright : JsValue.array (right.map some) = second at h
  cases h with
  | array others more hlength helements =>
    injection hleft with hleft
    injection hright with hright
    obtain rfl := (Option.some_injective _).list_map hleft
    obtain rfl := (Option.some_injective _).list_map hright
    rw [List.forall₂_iff_get]
    refine ⟨hlength, fun i hi hi' => ?_⟩
    exact helements i _ _ (List.getElem?_eq_getElem hi)
      (List.getElem?_eq_getElem hi')
  | _ => cases hleft

theorem filterMap_forall₂ {first second : List (Option JsValue)}
    (h : List.Forall₂ (Option.Rel SameJson) first second) :
    List.Forall₂ SameJson (first.filterMap id) (second.filterMap id) := by
  induction h with
  | nil => exact .nil
  | cons hentry hrest ih =>
    cases hentry with
    | some hvalue => exact .cons hvalue ih
    | none => exact ih

theorem texts_of_forall₂ {first second : List JsValue}
    (h : List.Forall₂ SameJson first second)
    (hfirst : ∀ value ∈ first, IsJson value)
    (hsecond : ∀ value ∈ second, IsJson value) :
    first.map jsonText = second.map jsonText := by
  induction h with
  | nil => rfl
  | cons hvalue hrest ih =>
    rw [List.forall_mem_cons] at hfirst hsecond
    rw [List.map_cons, List.map_cons, ih hfirst.2 hsecond.2,
      jsonText_of_same hvalue hfirst.1 hsecond.1]

/-- A set of facts has the text of another exactly when it is the same. -/
theorem setValue_text_eq_iff {left right : List (Option JsValue)}
    (hleft : ∀ value, some value ∈ left → IsJson value)
    (hright : ∀ value, some value ∈ right → IsJson value)
    (hfull : none ∉ left) (hfull' : none ∉ right) :
    jsonText (setValue left) = jsonText (setValue right) ↔
      SameSet left right := by
  constructor
  · intro htext
    have hsame := (jsonText_eq_iff (setValue_json hleft)
      (setValue_json hright)).1 htext
    refine ⟨(sortValues left).map some, (sortValues right).map some, ?_, ?_, ?_⟩
    · have hperm := ((sortValues_perm left).map some).symm
      rw [← eq_map_some hfull] at hperm
      exact hperm
    · have hperm := ((sortValues_perm right).map some).symm
      rw [← eq_map_some hfull'] at hperm
      exact hperm
    · rw [List.forall₂_map_left_iff, List.forall₂_map_right_iff]
      exact (forall₂_of_sameJson hsame).imp fun _ _ => Option.Rel.some
  · rintro ⟨first, second, hfirst, hsecond, hentries⟩
    have hvalues := filterMap_forall₂ hentries
    have hfirstValues := hfirst.filterMap id
    have hsecondValues := hsecond.filterMap id
    have hmem : ∀ {values : List (Option JsValue)} {value : JsValue},
        value ∈ values.filterMap id → some value ∈ values := fun hvalue =>
      mem_sortValues.1 ((sortValues_perm _).mem_iff.2 hvalue)
    have htexts := texts_of_forall₂ hvalues
      (fun value hvalue => hleft value (hfirst.mem_iff.2 (hmem hvalue)))
      (fun value hvalue => hright value (hsecond.mem_iff.2 (hmem hvalue)))
    rw [setValue_text, setValue_text,
      sortTexts_of_perm (hfirstValues.map jsonText), htexts,
      sortTexts_of_perm (hsecondValues.map jsonText)]

namespace FactRecord

/-- The facts as members of one object. -/
def members (facts : FactRecord) : List (JsString × JsValue) :=
  facts.singles.map (fun single => (JsString.ofString single.1, single.2)) ++
    facts.sets.map fun set => (JsString.ofString set.1, setValue set.2)

def names : List String :=
  ["scope", "complete", "authorization", "ownedRunIds",
    "explicitReferenceVersionIds", "artifacts", "checks", "requirements",
    "qualityReceipts", "ordinaryFileCitations"]

theorem members_keys (facts : FactRecord) :
    facts.members.map Prod.fst = names.map JsString.ofString := by
  rw [members, List.map_append, List.map_map, List.map_map]
  simp [singles, sets, names]

theorem names_distinct : (names.map JsString.ofString).Nodup := by decide

end FactRecord

/-- A name that is written as it is. -/
theorem field_spelled {name : String} (hname : name ∈ FactRecord.names)
    (value : JsValue) :
    field name (jsonText value) = spelled (JsString.ofString name, value) := by
  have hquote : ∀ name ∈ FactRecord.names,
      quote (JsString.ofString name) =
        quotation :: JsString.ofString name ++ [quotation] := by
    decide
  rw [field, spelled, hquote name hname]
  simp

theorem mapM_ok {f : α → Except FactError β} {g : α → β} {items : List α}
    (h : ∀ item ∈ items, f item = .ok (g item)) :
    items.mapM f = .ok (items.map g) := by
  induction items with
  | nil => rfl
  | cons item rest ih =>
    rw [List.forall_mem_cons] at h
    rw [List.mapM_cons, h.1, ih h.2]
    rfl

namespace FactRecord

variable {facts : FactRecord}

theorem Plain.single (h : facts.Plain) {single : String × JsValue}
    (hmem : single ∈ facts.singles) : IsJson single.2 :=
  h.json single.2 (.inl ⟨single, hmem, rfl⟩)

theorem Plain.set (h : facts.Plain) {set : String × List (Option JsValue)}
    (hmem : set ∈ facts.sets) : ∀ value, some value ∈ set.2 → IsJson value :=
  fun value hvalue => h.json value (.inr ⟨set, hmem, hvalue⟩)

theorem Plain.members (h : facts.Plain) :
    ∀ member ∈ facts.members, IsJson member.2 := by
  intro member hmember
  rcases List.mem_append.1 hmember with hmember | hmember
  · obtain ⟨single, hsingle, rfl⟩ := List.mem_map.1 hmember
    exact h.single hsingle
  · obtain ⟨set, hset, rfl⟩ := List.mem_map.1 hmember
    exact setValue_json (h.set hset)

end FactRecord

/-- Facts that JSON can spell have a text: the members in their order. -/
theorem serialize_plain {facts : FactRecord} (h : facts.Plain) :
    serializeFinalDeliveryFacts facts =
      .ok (openBrace :: (field "version" finalDeliveryFactsVersion ++
        comma :: (join (facts.members.map spelled) ++ [closeBrace]))) := by
  have hsingles : (facts.singles.mapM fun single => do
      pure (field single.1 (← canonical single.2)) :
        Except FactError (List JsString)) =
      .ok (facts.singles.map fun single =>
        spelled (JsString.ofString single.1, single.2)) := by
    apply mapM_ok
    intro single hsingle
    have hname : single.1 ∈ FactRecord.names :=
      List.mem_of_mem_take (i := 3) (List.mem_map_of_mem hsingle)
    rw [canonical_of_json (h.single hsingle), ← field_spelled hname]
    rfl
  have hsets : (facts.sets.mapM fun set => do
      pure (field set.1 (← factSet set.2)) :
        Except FactError (List JsString)) =
      .ok (facts.sets.map fun set =>
        spelled (JsString.ofString set.1, setValue set.2)) := by
    apply mapM_ok
    intro set hset
    have hname : set.1 ∈ FactRecord.names :=
      List.mem_of_mem_drop (i := 3) (List.mem_map_of_mem hset)
    rw [factSet_json (h.full set hset) (h.set hset), ← field_spelled hname]
    rfl
  have hmembers : facts.members.map spelled =
      (facts.singles.map fun single =>
        spelled (JsString.ofString single.1, single.2)) ++
      facts.sets.map fun set =>
        spelled (JsString.ofString set.1, setValue set.2) := by
    rw [FactRecord.members, List.map_append, List.map_map, List.map_map]
    rfl
  have hjoin : join (field "version" finalDeliveryFactsVersion ::
      facts.members.map spelled) =
      field "version" finalDeliveryFactsVersion ++
        comma :: join (facts.members.map spelled) :=
    join_cons _ (List.cons_ne_nil _ _)
  rw [serializeFinalDeliveryFacts, hsingles, hsets]
  change Except.ok (openBrace :: (join (_ :: (_ ++ _)) ++ _)) = _
  rw [← hmembers, hjoin, List.append_assoc, List.cons_append]

/-- Facts with one text are the same member by member. -/
theorem normal_members (hleft : left.Plain) (hright : right.Plain)
    (h : join (left.members.map spelled) ++ [closeBrace] =
      join (right.members.map spelled) ++ [closeBrace]) :
    left.members.map normalMember = right.members.map normalMember := by
  have hread : ∀ {facts : FactRecord} (fuel : Nat), facts.Plain →
      2 * (join (facts.members.map spelled)).length + 1 < fuel →
      parseMembers fuel [] (join (facts.members.map spelled) ++ [closeBrace]) =
        some (.object .object (facts.members.map normalMember), []) := by
    intro facts fuel hplain hfuel
    apply parseMembers_texts facts.members (List.cons_ne_nil _ _)
    · intro member hmember
      exact readsBack (hplain.members member hmember)
    · rw [facts.members_keys]
      exact FactRecord.names_distinct
    · exact hfuel
  have hlength := congrArg List.length h
  rw [List.length_append, List.length_append] at hlength
  have hfirst := hread
    (2 * (join (left.members.map spelled)).length + 2) hleft (by omega)
  have hsecond := hread
    (2 * (join (left.members.map spelled)).length + 2) hright (by omega)
  rw [h, hsecond] at hfirst
  have hobject := (Prod.mk.inj (Option.some.inj hfirst)).1
  exact (JsValue.object.inj hobject).2.symm

/-- What is read back of members is enough to spell them. -/
theorem spelled_of_normal {left right : List (JsString × JsValue)}
    (hleft : ∀ member ∈ left, IsJson member.2)
    (hright : ∀ member ∈ right, IsJson member.2)
    (h : left.map normalMember = right.map normalMember) :
    left.map spelled = right.map spelled := by
  induction left generalizing right with
  | nil =>
    rw [List.map_nil] at h
    rw [List.map_eq_nil_iff.1 h.symm]
  | cons member rest ih =>
    cases right with
    | nil => cases h
    | cons entry more =>
      rw [List.forall_mem_cons] at hleft hright
      rw [List.map_cons, List.map_cons] at h
      obtain ⟨hmember, hrest⟩ := List.cons.inj h
      obtain ⟨hkey, hvalue⟩ := Prod.mk.inj hmember
      have hsame := same_of_normal hleft.1 hright.1 hvalue
      rw [List.map_cons, List.map_cons, ih hleft.2 hright.2 hrest, spelled,
        spelled, hkey, jsonText_of_same hsame hleft.1 hright.1]

/-- Members of one name are spelled alike when their texts are. -/
theorem spelled_eq_iff (key : JsString) {left right : JsValue} :
    spelled (key, left) = spelled (key, right) ↔
      jsonText left = jsonText right := by
  rw [spelled, spelled, List.append_cancel_left_eq, List.cons.injEq,
    and_iff_right rfl]

/-- Sets with the same names, one after the other. -/
theorem sets_spelled_iff {left right : List (String × List (Option JsValue))}
    (hnames : left.map Prod.fst = right.map Prod.fst)
    (hleft : ∀ set ∈ left, none ∉ set.2 ∧
      ∀ value, some value ∈ set.2 → IsJson value)
    (hright : ∀ set ∈ right, none ∉ set.2 ∧
      ∀ value, some value ∈ set.2 → IsJson value) :
    (left.map fun set => spelled (JsString.ofString set.1, setValue set.2)) =
        (right.map fun set =>
          spelled (JsString.ofString set.1, setValue set.2)) ↔
      List.Forall₂ (fun first second => SameSet first.2 second.2)
        left right := by
  induction left generalizing right with
  | nil =>
    obtain rfl := List.map_eq_nil_iff.1 hnames.symm
    exact iff_of_true rfl .nil
  | cons set rest ih =>
    cases right with
    | nil => cases hnames
    | cons entry more =>
      rw [List.forall_mem_cons] at hleft hright
      obtain ⟨hname, hrest⟩ := List.cons.inj hnames
      rw [List.map_cons, List.map_cons, List.cons.injEq,
        List.forall₂_cons, ih hrest hleft.2 hright.2]
      apply and_congr_left'
      rw [hname, spelled_eq_iff]
      exact setValue_text_eq_iff hleft.1.2 hright.1.2 hleft.1.1 hright.1.1

theorem members_spelled_iff (hleft : left.Plain) (hright : right.Plain) :
    left.members.map spelled = right.members.map spelled ↔
      left.Same right := by
  have hsets := @sets_spelled_iff left.sets right.sets rfl
    (fun set hset => ⟨hleft.full set hset, hleft.set hset⟩)
    (fun set hset => ⟨hright.full set hset, hright.set hset⟩)
  have hsingle : ∀ (key : JsString) (first second : String × JsValue),
      first ∈ left.singles → second ∈ right.singles →
        (spelled (key, first.2) = spelled (key, second.2) ↔
          SameJson first.2 second.2) := by
    intro key first second hfirst hsecond
    rw [spelled_eq_iff]
    exact jsonText_eq_iff (hleft.single hfirst) (hright.single hsecond)
  have hscope := hsingle (JsString.ofString "scope")
    ("scope", left.scope) ("scope", right.scope)
    (by simp [FactRecord.singles]) (by simp [FactRecord.singles])
  have hcomplete := hsingle (JsString.ofString "complete")
    ("complete", left.complete)
    ("complete", right.complete)
    (by simp [FactRecord.singles]) (by simp [FactRecord.singles])
  have hauthorization := hsingle (JsString.ofString "authorization")
    ("authorization", left.authorization)
    ("authorization", right.authorization)
    (by simp [FactRecord.singles]) (by simp [FactRecord.singles])
  have hmembers : ∀ facts : FactRecord, facts.members.map spelled =
      spelled (JsString.ofString "scope", facts.scope) ::
        spelled (JsString.ofString "complete", facts.complete) ::
          spelled (JsString.ofString "authorization", facts.authorization) ::
            facts.sets.map fun set =>
              spelled (JsString.ofString set.1, setValue set.2) := by
    intro facts
    rw [FactRecord.members, List.map_append, List.map_map, List.map_map]
    rfl
  rw [hmembers, hmembers, List.cons.injEq, List.cons.injEq, List.cons.injEq,
    hscope, hcomplete, hauthorization, hsets]
  constructor
  · rintro ⟨hscope, hcomplete, hauthorization, hsets⟩
    exact ⟨hscope, hcomplete, hauthorization, hsets⟩
  · intro hsame
    exact ⟨hsame.scope, hsame.complete, hsame.authorization, hsame.sets⟩

/-- Plain facts have one text exactly when they are the same. -/
theorem text_eq_iff (hleft : left.Plain) (hright : right.Plain)
    {text other : JsString}
    (htext : serializeFinalDeliveryFacts left = .ok text)
    (hother : serializeFinalDeliveryFacts right = .ok other) :
    text = other ↔ left.Same right := by
  rw [serialize_plain hleft] at htext
  rw [serialize_plain hright] at hother
  obtain rfl := Except.ok.inj htext
  obtain rfl := Except.ok.inj hother
  rw [← members_spelled_iff hleft hright]
  constructor
  · intro hsame
    apply spelled_of_normal hleft.members hright.members
    apply normal_members hleft hright
    have htail := (List.cons.inj hsame).2
    rw [List.append_cancel_left_eq] at htail
    exact (List.cons.inj htail).2
  · intro hsame
    rw [hsame]

/-- Facts without a hole, and those that are rejected for something else, are
the ones whose text tells what they are. -/
theorem final_delivery_text_iff (left right : FinalDeliveryFacts) :
    TellsApart left.toFactRecord right.toFactRecord ↔
      (left.Holed → left.Foreign) ∧ (right.Holed → right.Foreign) := by
  have hjudged : ∀ facts : FinalDeliveryFacts,
      (∀ text, serializeFinalDeliveryFacts facts.toFactRecord = .ok text →
        facts.ordinary.Plain) ↔ (facts.Holed → facts.Foreign) := by
    intro facts
    constructor
    · intro hplain hholed
      by_contra hforeign
      obtain ⟨text, htext⟩ := (spelled_facts facts.toFactRecord).2 hforeign
      exact FactRecord.Plain.notHoled (hplain text htext) hholed
    · intro hjudged text htext
      have hforeign := (spelled_facts facts.toFactRecord).1 ⟨text, htext⟩
      exact facts.plain hforeign fun hholed => hforeign (hjudged hholed)
  rw [← hjudged, ← hjudged]
  constructor
  · intro htells
    exact ⟨htells.first, htells.second⟩
  · rintro ⟨hleft, hright⟩
    refine ⟨hleft, hright, fun text other htext hother => ?_⟩
    have hleft := hleft text htext
    have hright := hright other hother
    rw [← serialize_ordinary] at htext hother
    exact text_eq_iff hleft hright htext hother

namespace HoleInAnArtifact

/-- Facts with one artifact. -/
def record (artifact : JsValue) : FactRecord where
  scope := .null
  complete := .boolean true
  authorization := .string (JsString.ofString "current")
  now := .null
  ownedRunIds := []
  explicitReferenceVersionIds := []
  artifacts := [some artifact]
  checks := []
  requirements := []
  qualityReceipts := none
  ordinaryFileCitations := none

theorem mentioned {artifact : JsValue} (h : (record artifact).Mentions value) :
    value = .null ∨ value = .boolean true ∨
      value = .string (JsString.ofString "current") ∨ value = artifact := by
  rcases h with ⟨single, hsingle, rfl⟩ | ⟨set, hset, hvalue⟩
  · simp only [FactRecord.singles, record, List.mem_cons, List.not_mem_nil,
      or_false] at hsingle
    rcases hsingle with rfl | rfl | rfl
    · exact .inl rfl
    · exact .inr (.inl rfl)
    · exact .inr (.inr (.inl rfl))
  · simp only [FactRecord.sets, record, List.mem_cons, List.not_mem_nil,
      Option.getD_none, or_false] at hset
    rcases hset with rfl | rfl | rfl | rfl | rfl | rfl | rfl
    all_goals simp_all

/-- An artifact that is an array of nothing but holes. -/
def holes (count : Nat) : FinalDeliveryFacts where
  toFactRecord := record (.array (List.replicate count none))
  proper value h := by
    rcases mentioned h with rfl | rfl | rfl | rfl
    · exact .null
    · exact .boolean true
    · exact .string _
    · apply Proper.array
      intro value hvalue
      cases (List.mem_replicate.1 hvalue).2

/-- The array with a hole is accepted, and has the text of the empty array. -/
theorem hole_goes_unseen :
    serializeFinalDeliveryFacts (holes 1).toFactRecord =
        serializeFinalDeliveryFacts (holes 0).toFactRecord ∧
      ¬∀ left right : FinalDeliveryFacts,
        TellsApart left.toFactRecord right.toFactRecord := by
  constructor
  · rfl
  · intro hall
    obtain ⟨text, htext⟩ : ∃ text, serializeFinalDeliveryFacts
        (holes 1).toFactRecord = .ok text := ⟨_, rfl⟩
    apply FactRecord.Plain.notHoled
      ((hall (holes 1) (holes 0)).first text htext)
    refine .inl ⟨.array [none], .inr ⟨("artifacts", [some (.array [none])]),
      ?_, ?_⟩, .hole _ ?_⟩
    · simp [FactRecord.sets, holes, record]
    · exact List.mem_singleton.2 rfl
    · exact List.mem_singleton.2 rfl

end HoleInAnArtifact

end Allrice.FactText
