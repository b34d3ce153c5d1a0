/-
What the loops over the snapshot leave behind when they find nothing wrong,
said without their order: which artifacts are in the catalog, and which issues
were raised.
-/
import Allrice.FinalDelivery
import Allrice.JsonRoundTrip

namespace Allrice

namespace FinalDelivery

open JsonText JsValue

variable {log : IssueLog}

theorem issue_unavailable (h : log.evidenceUnavailable = true)
    (value : DeliveryIssue) (evidence : Bool) :
    (log.issue value evidence).evidenceUnavailable = true := by
  unfold IssueLog.issue
  split
  · rfl
  · simp [h]

theorem incomplete_unavailable (log : IssueLog) (reason : String) :
    (log.incomplete reason).evidenceUnavailable = true := by
  unfold IssueLog.incomplete IssueLog.issue
  split
  · rfl
  · simp

/-- Several issues that are not about the evidence. -/
def IssueLog.issueAll (log : IssueLog) (values : List DeliveryIssue) :
    IssueLog :=
  values.foldl (fun log value => log.issue value false) log

theorem issueAll_unavailable (h : log.evidenceUnavailable = true)
    (values : List DeliveryIssue) :
    (log.issueAll values).evidenceUnavailable = true := by
  induction values generalizing log with
  | nil => exact h
  | cons value rest ih => exact ih (issue_unavailable h value false)

theorem issueAll_append (log : IssueLog) (first second : List DeliveryIssue) :
    log.issueAll (first ++ second) = (log.issueAll first).issueAll second :=
  List.foldl_append

/-- An issue that still has room is put behind the others. -/
theorem issue_room (h : log.issues.length < maxIssues) (value : DeliveryIssue) :
    log.issue value false =
      ⟨log.issues ++ [value], log.evidenceUnavailable⟩ := by
  rw [IssueLog.issue, if_neg (Nat.not_le.mpr h), Bool.or_false]

theorem issue_full (h : maxIssues ≤ log.issues.length) (value : DeliveryIssue)
    (evidence : Bool) :
    (log.issue value evidence).evidenceUnavailable = true := by
  rw [IssueLog.issue, if_pos h]

/-- The issues fit. -/
def Fits (log : IssueLog) (values : List DeliveryIssue) : Prop :=
  log.evidenceUnavailable = false ∧
    (values = [] ∨ log.issues.length + values.length ≤ maxIssues)

theorem issueAll_quiet_iff (log : IssueLog) (values : List DeliveryIssue) :
    (log.issueAll values).evidenceUnavailable = false ↔ Fits log values := by
  induction values generalizing log with
  | nil => simp [IssueLog.issueAll, Fits]
  | cons value rest ih =>
    change ((log.issue value false).issueAll rest).evidenceUnavailable =
      false ↔ _
    rw [ih]
    by_cases hroom : log.issues.length < maxIssues
    · rw [issue_room hroom, Fits, Fits]
      simp only [List.length_append, List.length_cons, List.length_nil,
        List.cons_ne_nil, false_or]
      constructor
      · rintro ⟨hquiet, hrest⟩
        refine ⟨hquiet, ?_⟩
        rcases hrest with rfl | hrest
        · exact hroom
        · omega
      · rintro ⟨hquiet, hlength⟩
        exact ⟨hquiet, .inr (by omega)⟩
    · have hfull := issue_full (Nat.not_lt.mp hroom) value false
      constructor
      · intro hfits
        rw [hfits.1] at hfull
        exact absurd hfull Bool.false_ne_true
      · rintro ⟨-, hnil | hlength⟩
        · exact absurd hnil (List.cons_ne_nil _ _)
        · rw [List.length_cons] at hlength
          omega

theorem issueAll_issues {values : List DeliveryIssue} (h : Fits log values) :
    (log.issueAll values).issues = log.issues ++ values := by
  induction values generalizing log with
  | nil => simp [IssueLog.issueAll]
  | cons value rest ih =>
    have hlength := h.2.resolve_left (List.cons_ne_nil _ _)
    rw [List.length_cons] at hlength
    have hroom : log.issues.length < maxIssues := by omega
    change ((log.issue value false).issueAll rest).issues = _
    rw [issue_room hroom]
    have hrest : Fits ⟨log.issues ++ [value], log.evidenceUnavailable⟩
        rest := by
      refine ⟨h.1, .inr ?_⟩
      simp only [List.length_append, List.length_cons, List.length_nil]
      omega
    rw [ih hrest, List.append_assoc]
    rfl

/-- A raised issue does not go away. -/
theorem issue_issues_ne (log : IssueLog) (value : DeliveryIssue)
    (evidence : Bool) : (log.issue value evidence).issues ≠ [] := by
  rw [IssueLog.issue]
  split
  · rename_i hfull
    intro hnil
    have hlength := congrArg List.length hnil
    rw [List.length_set, List.length_nil] at hlength
    rw [hlength] at hfull
    exact absurd hfull (by decide)
  · exact List.append_ne_nil_of_right_ne_nil _ (List.cons_ne_nil _ _)

/-- The same member of two records. -/
theorem record_field {left right : List (String × JsValue)}
    (h : SameJson (record left) (record right)) (i : Nat) {name : String}
    {a b : JsValue} (ha : left[i]? = some (name, a))
    (hb : right[i]? = some (name, b)) : SameJson a b := by
  cases h with
  | object _ _ hkeys hmembers =>
    exact hmembers (JsString.ofString name) a b
      (List.mem_map.mpr ⟨(name, a), List.mem_of_getElem? ha, rfl⟩)
      (List.mem_map.mpr ⟨(name, b), List.mem_of_getElem? hb, rfl⟩)

theorem textFact_same {left right : JsString}
    (h : SameJson (textFact left) (textFact right)) : left = right := by
  cases h
  rfl

theorem boolean_same {left right : Bool}
    (h : SameJson (.boolean left) (.boolean right)) : left = right := by
  cases h
  rfl

theorem nullableFact_same {left right : Option JsString}
    (h : SameJson (nullableFact left) (nullableFact right)) :
    left = right := by
  cases left with
  | none =>
    cases right with
    | none => rfl
    | some text => cases h
  | some text =>
    cases right with
    | none => cases h
    | some other =>
      cases h
      rfl

theorem state_text {left right : ArtifactState}
    (h : left.text = right.text) : left = right := by
  cases left <;> cases right <;> first | rfl | exact absurd h (by decide)

theorem scope_of_fact {left right : ArtifactScope}
    (h : SameJson left.fact right.fact) : left = right := by
  have horganization := textFact_same (record_field h 0 rfl rfl)
  have hworkspace := textFact_same (record_field h 1 rfl rfl)
  have howner := textFact_same (record_field h 2 rfl rfl)
  have hsession := textFact_same (record_field h 3 rfl rfl)
  cases left
  cases right
  simp_all

variable {left right : DeliveryArtifact} {value : JsValue}

theorem artifact_of_fact (h : SameJson left.fact right.fact) :
    left = right := by
  have hobject := textFact_same (record_field h 0 rfl rfl)
  have hversion := textFact_same (record_field h 1 rfl rfl)
  have hchecksum := textFact_same (record_field h 2 rfl rfl)
  have hscope := scope_of_fact (record_field h 3 rfl rfl)
  have horigin := nullableFact_same (record_field h 4 rfl rfl)
  have hname := textFact_same (record_field h 5 rfl rfl)
  have hstate := state_text (textFact_same (record_field h 6 rfl rfl))
  have himmutable := boolean_same (record_field h 7 rfl rfl)
  have hdeleted := nullableFact_same (record_field h 8 rfl rfl)
  have hretention := nullableFact_same (record_field h 9 rfl rfl)
  rcases left with ⟨⟨_, _, _⟩, _, _, _, _, _, _, _⟩
  rcases right with ⟨⟨_, _, _⟩, _, _, _, _, _, _, _⟩
  simp_all

/-- Facts without arrays: `stable` writes them as they are. -/
inductive Plain : JsValue → Prop
  | null : Plain .null
  | boolean (value : Bool) : Plain (.boolean value)
  | string (text : JsString) : Plain (.string text)
  | object (members : List (JsString × JsValue))
      (hkeys : (members.map Prod.fst).Nodup)
      (hmembers : ∀ member ∈ members, Plain member.2) :
      Plain (.object .object members)

theorem Plain.isJson (h : Plain value) : IsJson value := by
  induction h with
  | null => exact .null
  | boolean value => exact .boolean value
  | string text => exact .string text
  | object members hkeys hmembers ih => exact .object members hkeys ih

theorem stableMembers_eq {members : List (JsString × JsValue)}
    (h : ∀ member ∈ members, stable member.2 = jsonText member.2) :
    stableMembers members = memberTexts members := by
  induction members with
  | nil => rfl
  | cons member rest ih =>
    rcases member with ⟨key, value⟩
    have hvalue := h (key, value) List.mem_cons_self
    have hrest := ih fun other hother =>
      h other (List.mem_cons_of_mem _ hother)
    simp only [stableMembers, memberTexts, hrest, hvalue]

theorem Plain.stable_eq (h : Plain value) : stable value = jsonText value := by
  induction h with
  | null | boolean value | string text => rfl
  | object members hkeys hmembers ih =>
    rw [stable, jsonText, stableMembers_eq ih]

theorem plain_nullable (text : Option JsString) : Plain (nullableFact text) := by
  cases text with
  | none => exact .null
  | some text => exact .string text

theorem plain_record {members : List (String × JsValue)}
    (hkeys : (members.map fun member => JsString.ofString member.1).Nodup)
    (hmembers : ∀ member ∈ members, Plain member.2) :
    Plain (record members) := by
  apply Plain.object
  · rw [List.map_map]
    exact hkeys
  · intro member hmember
    obtain ⟨source, hsource, rfl⟩ := List.mem_map.mp hmember
    exact hmembers source hsource

theorem plain_scope (scope : ArtifactScope) : Plain scope.fact := by
  apply plain_record
  · change (["organizationId", "workspaceId", "ownerId", "sessionId"].map
      JsString.ofString).Nodup
    decide
  · intro member hmember
    simp only [List.mem_cons, List.not_mem_nil, or_false] at hmember
    rcases hmember with rfl | rfl | rfl | rfl <;> exact .string _

theorem plain_artifact (artifact : DeliveryArtifact) :
    Plain artifact.fact := by
  apply plain_record
  · change (["objectId", "versionId", "checksum", "scope", "originRunId",
      "fileName", "state", "immutable", "deletedAt", "retentionUntil"].map
        JsString.ofString).Nodup
    decide
  · intro member hmember
    simp only [List.mem_cons, List.not_mem_nil, or_false] at hmember
    rcases hmember with rfl | rfl | rfl | rfl | rfl | rfl | rfl | rfl | rfl | rfl
    · exact .string _
    · exact .string _
    · exact .string _
    · exact plain_scope _
    · exact plain_nullable _
    · exact .string _
    · exact .string _
    · exact .boolean _
    · exact plain_nullable _
    · exact plain_nullable _

theorem artifact_of_stable (h : stable left.fact = stable right.fact) :
    left = right := by
  rw [(plain_artifact left).stable_eq, (plain_artifact right).stable_eq,
    jsonText_eq_iff (plain_artifact left).isJson
      (plain_artifact right).isJson] at h
  exact artifact_of_fact h

section Host

variable (host : DeliveryHost) (snapshot : DeliverySnapshot) (now : Int)

/-- The identity of an artifact that may be delivered. -/
def identityOf (artifact : DeliveryArtifact) : Option ArtifactIdentity :=
  normalizedIdentity host artifact.toArtifactIdentity

/-- What one artifact needs to be in the catalog. -/
def Registrable (artifact : DeliveryArtifact) : Prop :=
  ∃ identity, identityOf host artifact = some identity ∧
    isDeliverable host snapshot now artifact identity = true

/-- Two artifacts of one catalog: an object or a version is in one identity
only, and an identity in one artifact. -/
def Agree (left right : DeliveryArtifact) : Prop :=
  ∀ i j, identityOf host left = some i → identityOf host right = some j →
    (key i = key j → left = right) ∧
      (i.objectId = j.objectId → key i = key j) ∧
      (i.versionId = j.versionId → key i = key j)

/-- Artifacts that may be in one catalog, whatever their order. -/
structure Registered (artifacts : List DeliveryArtifact) : Prop where
  each : ∀ artifact ∈ artifacts, Registrable host snapshot now artifact
  agree : ∀ left ∈ artifacts, ∀ right ∈ artifacts, Agree host left right

/-- The tables of a catalog, said without an order. -/
structure Catalogued (artifacts : List DeliveryArtifact)
    (catalog : Catalog) : Prop where
  entries : ∀ k entry, catalog.artifacts.find? k = some entry ↔
    entry.artifact ∈ artifacts ∧
      identityOf host entry.artifact = some entry.identity ∧
      key entry.identity = k
  byObject : ∀ o row, catalog.byObject.find? o = some row ↔
    ∃ artifact ∈ artifacts, ∃ i, identityOf host artifact = some i ∧
      i.objectId = o ∧ row = (o, key i)
  byVersion : ∀ v row, catalog.byVersion.find? v = some row ↔
    ∃ artifact ∈ artifacts, ∃ i, identityOf host artifact = some i ∧
      i.versionId = v ∧ row = (v, key i)

end Host

section Loops

variable {host : DeliveryHost} {snapshot : DeliverySnapshot} {now : Int}

theorem any_ne_iff {α β : Type} [DecidableEq β] {o : Option α} {f : α → β}
    {b : β} : (o.any fun a => decide (f a ≠ b)) = false ↔
      ∀ a, o = some a → f a = b := by
  cases o with
  | none | some a => simp

variable {done : List DeliveryArtifact} {catalog : Catalog}
  {artifact : DeliveryArtifact} {i : ArtifactIdentity}

/-- The artifacts so far agree with another one. -/
theorem conflicts_iff (h : Catalogued host done catalog)
    (hi : identityOf host artifact = some i) :
    conflicts catalog artifact i = false ↔
      ∀ other ∈ done, Agree host other artifact := by
  rw [conflicts, Bool.or_eq_false_iff, Bool.or_eq_false_iff, any_ne_iff,
    any_ne_iff, any_ne_iff]
  constructor
  · rintro ⟨⟨hprior, hobject⟩, hversion⟩ other hother j k hj hk
    rw [hi] at hk
    obtain rfl := Option.some.inj hk
    refine ⟨?_, ?_, ?_⟩
    · intro hkey
      have hfind := (h.entries (key i) ⟨j, other⟩).mpr ⟨hother, hj, hkey⟩
      have hstable := hprior _ hfind
      exact artifact_of_stable hstable
    · intro hsame
      have hfind := (h.byObject i.objectId (i.objectId, key j)).mpr
        ⟨other, hother, j, hj, hsame, rfl⟩
      exact hobject _ hfind
    · intro hsame
      have hfind := (h.byVersion i.versionId (i.versionId, key j)).mpr
        ⟨other, hother, j, hj, hsame, rfl⟩
      exact hversion _ hfind
  · intro hagree
    refine ⟨⟨?_, ?_⟩, ?_⟩
    · intro entry hentry
      obtain ⟨hmem, hj, hkey⟩ := (h.entries _ _).mp hentry
      have hsame := (hagree entry.artifact hmem _ _ hj hi).1 hkey
      rw [hsame]
    · intro row hrow
      obtain ⟨other, hother, j, hj, hsame, rfl⟩ := (h.byObject _ _).mp hrow
      exact (hagree other hother j i hj hi).2.1 hsame
    · intro row hrow
      obtain ⟨other, hother, j, hj, hsame, rfl⟩ := (h.byVersion _ _).mp hrow
      exact (hagree other hother j i hj hi).2.2 hsame

/-- A part of the identity that leads to the whole, with one more artifact. -/
theorem find?_put_part (part : ArtifactIdentity → JsString)
    {t : Table JsString (JsString × JsString) Prod.fst}
    (h : ∀ o row, t.find? o = some row ↔
      ∃ artifact ∈ done, ∃ i, identityOf host artifact = some i ∧
        part i = o ∧ row = (o, key i)) (hi : identityOf host artifact = some i)
    (hagree : ∀ other ∈ done, ∀ j, identityOf host other = some j →
      part j = part i → key j = key i) (o : JsString)
    (row : JsString × JsString) :
    (t.put (part i, key i)).find? o = some row ↔
      ∃ other ∈ done ++ [artifact], ∃ i, identityOf host other = some i ∧
        part i = o ∧ row = (o, key i) := by
  rw [Table.find?_put]
  by_cases hsame : part i = o
  · rw [if_pos hsame]
    constructor
    · intro hrow
      refine ⟨artifact, by simp, i, hi, hsame, ?_⟩
      rw [← Option.some.inj hrow, hsame]
    · rintro ⟨other, hother, j, hj, hpart, rfl⟩
      have hkey : key j = key i := by
        rcases List.mem_append.mp hother with hmem | hmem
        · exact hagree other hmem j hj (hpart.trans hsame.symm)
        · obtain rfl := List.mem_singleton.mp hmem
          rw [Option.some.inj (hj.symm.trans hi)]
      rw [hkey, hsame]
  · rw [if_neg hsame, h]
    constructor
    · rintro ⟨other, hother, rest⟩
      exact ⟨other, List.mem_append_left _ hother, rest⟩
    · rintro ⟨other, hother, j, hj, hpart, hrow⟩
      rcases List.mem_append.mp hother with hmem | hmem
      · exact ⟨other, hmem, j, hj, hpart, hrow⟩
      · obtain rfl := List.mem_singleton.mp hmem
        rw [Option.some.inj (hj.symm.trans hi)] at hpart
        exact absurd hpart hsame

theorem Catalogued.add (h : Catalogued host done catalog)
    (hi : identityOf host artifact = some i)
    (hagree : ∀ other ∈ done, Agree host other artifact) :
    Catalogued host (done ++ [artifact]) (catalog.add artifact i) where
  entries := by
    intro k entry
    rw [Catalog.add, Table.find?_put]
    by_cases hsame : key i = k
    · rw [if_pos (by exact hsame)]
      constructor
      · intro hentry
        rw [← Option.some.inj hentry]
        exact ⟨by simp, hi, hsame⟩
      · rintro ⟨hmem, hj, hkey⟩
        have hartifact : entry.artifact = artifact := by
          rcases List.mem_append.mp hmem with hmem | hmem
          · exact (hagree entry.artifact hmem _ _ hj hi).1
              (hkey.trans hsame.symm)
          · exact List.mem_singleton.mp hmem
        rw [hartifact, hi] at hj
        rw [Option.some.inj hj, ← hartifact]
    · rw [if_neg (by exact hsame), h.entries]
      constructor
      · rintro ⟨hmem, rest⟩
        exact ⟨List.mem_append_left _ hmem, rest⟩
      · rintro ⟨hmem, hj, hkey⟩
        rcases List.mem_append.mp hmem with hmem | hmem
        · exact ⟨hmem, hj, hkey⟩
        · rw [List.mem_singleton.mp hmem, hi] at hj
          rw [← Option.some.inj hj] at hkey
          exact absurd hkey hsame
  byObject := by
    intro o row
    exact find?_put_part ArtifactIdentity.objectId h.byObject hi
      (fun other hother j hj => (hagree other hother j i hj hi).2.1) o row
  byVersion := by
    intro v row
    exact find?_put_part ArtifactIdentity.versionId h.byVersion hi
      (fun other hother j hj => (hagree other hother j i hj hi).2.2) v row

theorem Agree.symm (h : Agree host left right) : Agree host right left := by
  intro i j hi hj
  obtain ⟨hkey, hobject, hversion⟩ := h j i hj hi
  exact ⟨fun hsame => (hkey hsame.symm).symm,
    fun hsame => (hobject hsame.symm).symm,
    fun hsame => (hversion hsame.symm).symm⟩

theorem Agree.refl (artifact : DeliveryArtifact) :
    Agree host artifact artifact := by
  intro i j hi hj
  have hsame : i = j := Option.some.inj (hi.symm.trans hj)
  rw [hsame]
  exact ⟨fun _ => rfl, fun _ => rfl, fun _ => rfl⟩

/-- One more artifact. -/
theorem registered_snoc :
    Registered host snapshot now (done ++ [artifact]) ↔
      Registered host snapshot now done ∧
        Registrable host snapshot now artifact ∧
        ∀ other ∈ done, Agree host other artifact := by
  constructor
  · intro h
    refine ⟨⟨?_, ?_⟩, h.each artifact (by simp), ?_⟩
    · intro other hother
      exact h.each other (List.mem_append_left _ hother)
    · intro left hleft right hright
      exact h.agree left (List.mem_append_left _ hleft) right
        (List.mem_append_left _ hright)
    · intro other hother
      exact h.agree other (List.mem_append_left _ hother) artifact (by simp)
  · rintro ⟨h, hnew, hagree⟩
    constructor
    · intro other hother
      rcases List.mem_append.mp hother with hmem | hmem
      · exact h.each other hmem
      · rw [List.mem_singleton.mp hmem]
        exact hnew
    · intro left hleft right hright
      rcases List.mem_append.mp hleft with hleft | hleft <;>
        rcases List.mem_append.mp hright with hright | hright
      · exact h.agree left hleft right hright
      · rw [List.mem_singleton.mp hright]
        exact hagree left hleft
      · rw [List.mem_singleton.mp hleft]
        exact (hagree right hright).symm
      · rw [List.mem_singleton.mp hleft, List.mem_singleton.mp hright]
        exact Agree.refl artifact

theorem registered_nil : Registered host snapshot now [] := by
  constructor <;> simp

theorem catalogued_nil : Catalogued host [] Catalog.empty := by
  constructor <;> simp [Catalog.empty]

variable {α : Type} {left right : List DeliveryArtifact}

/-- A loop keeps what its rounds keep. -/
theorem foldl_keeps {σ : Type} {P : σ → Prop} {f : σ → α → σ}
    (h : ∀ s a, P s → P (f s a)) {s : σ} (hs : P s) (values : List α) :
    P (values.foldl f s) := by
  induction values generalizing s with
  | nil => exact hs
  | cons value rest ih => exact ih (h s value hs)

theorem registerArtifact_unavailable (state : IssueLog × Catalog)
    (artifact : DeliveryArtifact)
    (h : state.1.evidenceUnavailable = true) :
    (registerArtifact host snapshot now state artifact).1.evidenceUnavailable =
      true := by
  unfold registerArtifact
  split
  · exact incomplete_unavailable _ _
  · split
    · exact incomplete_unavailable _ _
    · split
      · exact incomplete_unavailable _ _
      · exact h

/-- One round: the artifact is put into the catalog, or the evidence is
incomplete. -/
theorem registerArtifact_spec (snapshot : DeliverySnapshot) (now : Int)
    (h : Catalogued host done catalog) (log : IssueLog)
    (artifact : DeliveryArtifact) :
    (∃ i, identityOf host artifact = some i ∧
      isDeliverable host snapshot now artifact i = true ∧
      (∀ other ∈ done, Agree host other artifact) ∧
      registerArtifact host snapshot now (log, catalog) artifact =
        (log, catalog.add artifact i)) ∨
    (¬(Registrable host snapshot now artifact ∧
        ∀ other ∈ done, Agree host other artifact) ∧
      (registerArtifact host snapshot now (log, catalog)
        artifact).1.evidenceUnavailable = true) := by
  cases hi : identityOf host artifact with
  | none =>
    right
    refine ⟨?_, ?_⟩
    · rintro ⟨⟨i, hsome, -⟩, -⟩
      rw [hi] at hsome
      exact absurd hsome (by simp)
    · rw [identityOf] at hi
      simp only [registerArtifact, hi]
      exact incomplete_unavailable _ _
  | some i =>
    have hnormal : normalizedIdentity host artifact.toArtifactIdentity =
        some i := hi
    cases hdeliverable : isDeliverable host snapshot now artifact i with
    | false =>
      right
      refine ⟨?_, ?_⟩
      · rintro ⟨⟨j, hsome, htrue⟩, -⟩
        rw [← Option.some.inj (hi.symm.trans hsome), hdeliverable] at htrue
        exact Bool.false_ne_true htrue
      · simp only [registerArtifact, hnormal, hdeliverable, if_true]
        exact incomplete_unavailable _ _
    | true =>
      cases hconflicts : conflicts catalog artifact i with
      | false =>
        left
        refine ⟨i, rfl, hdeliverable,
          (conflicts_iff h hi).mp hconflicts, ?_⟩
        simp [registerArtifact, hnormal, hdeliverable, hconflicts]
      | true =>
        right
        refine ⟨?_, ?_⟩
        · rintro ⟨-, hagree⟩
          rw [(conflicts_iff h hi).mpr hagree] at hconflicts
          exact Bool.false_ne_true hconflicts
        · simp only [registerArtifact, hnormal, hdeliverable,
            hconflicts, Bool.true_eq_false, if_false, if_true]
          exact incomplete_unavailable _ _

/-- The loop over the artifacts. -/
theorem register_spec (h : Catalogued host done catalog)
    (hdone : Registered host snapshot now done) (log : IssueLog)
    (rest : List DeliveryArtifact) :
    (Registered host snapshot now (done ++ rest) ∧
      ∃ last, rest.foldl (registerArtifact host snapshot now) (log, catalog) =
          (log, last) ∧ Catalogued host (done ++ rest) last) ∨
    (¬Registered host snapshot now (done ++ rest) ∧
      (rest.foldl (registerArtifact host snapshot now)
        (log, catalog)).1.evidenceUnavailable = true) := by
  induction rest generalizing done catalog with
  | nil =>
    left
    rw [List.append_nil]
    exact ⟨hdone, catalog, rfl, h⟩
  | cons artifact rest ih =>
    have hsplit : done ++ artifact :: rest = (done ++ [artifact]) ++ rest := by
      simp
    rw [hsplit, List.foldl_cons]
    rcases registerArtifact_spec snapshot now h log artifact with
       ⟨i, hi, hdeliverable, hagree, hround⟩ | ⟨hnot, hbad⟩
    · rw [hround]
      exact ih (h.add hi hagree)
        (registered_snoc.mpr ⟨hdone, ⟨i, hi, hdeliverable⟩, hagree⟩)
    · right
      refine ⟨?_, foldl_keeps registerArtifact_unavailable hbad rest⟩
      intro hall
      apply hnot
      have hfirst : Registered host snapshot now (done ++ [artifact]) := by
        constructor
        · intro other hother
          exact hall.each other (List.mem_append_left _ hother)
        · intro left hleft right hright
          exact hall.agree left (List.mem_append_left _ hleft) right
            (List.mem_append_left _ hright)
      exact (registered_snoc.mp hfirst).2

/-- The order of the artifacts does not matter. -/
theorem Registered.perm (hperm : left.Perm right)
    (h : Registered host snapshot now left) :
    Registered host snapshot now right := by
  constructor
  · intro artifact hartifact
    exact h.each artifact (hperm.mem_iff.mpr hartifact)
  · intro a ha b hb
    exact h.agree a (hperm.mem_iff.mpr ha) b (hperm.mem_iff.mpr hb)

theorem Catalogued.perm (hperm : left.Perm right)
    (h : Catalogued host left catalog) :
    Catalogued host right catalog where
  entries k entry := by
    rw [h.entries, hperm.mem_iff]
  byObject o row := by
    rw [h.byObject]
    constructor
    · rintro ⟨artifact, hmem, hrest⟩
      exact ⟨artifact, hperm.mem_iff.mp hmem, hrest⟩
    · rintro ⟨artifact, hmem, hrest⟩
      exact ⟨artifact, hperm.mem_iff.mpr hmem, hrest⟩
  byVersion v row := by
    rw [h.byVersion]
    constructor
    · rintro ⟨artifact, hmem, hrest⟩
      exact ⟨artifact, hperm.mem_iff.mp hmem, hrest⟩
    · rintro ⟨artifact, hmem, hrest⟩
      exact ⟨artifact, hperm.mem_iff.mpr hmem, hrest⟩

/-- The lookups of a catalog are determined by what is in it. -/
theorem Catalogued.lookups {artifacts : List DeliveryArtifact} {other : Catalog}
    (h : Catalogued host artifacts catalog)
    (h' : Catalogued host artifacts other) :
    catalog.artifacts.find? = other.artifacts.find? ∧
      catalog.byObject.find? = other.byObject.find? := by
  constructor
  · funext k
    apply Option.ext
    intro entry
    rw [h.entries, h'.entries]
  · funext o
    apply Option.ext
    intro row
    rw [h.byObject, h'.byObject]

/-- The loop over the citations. -/
theorem cite_spec (host : DeliveryHost) (now : Int) (catalog : Catalog) (log : IssueLog)
    (ordinary : List JsString) (citations : List OrdinaryFileCitation) :
    ((∀ citation ∈ citations, isCitable host now catalog citation = true) ∧
      citations.foldl (registerCitation host now catalog) (log, ordinary) =
        (log, ordinary ++ citations.map fun citation =>
          toLowerCase host citation.objectId)) ∨
    (¬(∀ citation ∈ citations, isCitable host now catalog citation = true) ∧
      (citations.foldl (registerCitation host now catalog)
        (log, ordinary)).1.evidenceUnavailable = true) := by
  induction citations generalizing ordinary with
  | nil => simp
  | cons citation rest ih =>
    rw [List.foldl_cons]
    cases hcitable : isCitable host now catalog citation with
    | true =>
      have hround : registerCitation host now catalog (log, ordinary)
          citation =
            (log, ordinary ++ [toLowerCase host citation.objectId]) := by
        simp [registerCitation, hcitable]
      rw [hround]
      rcases ih (ordinary ++ [toLowerCase host citation.objectId]) with
        ⟨hall, hlast⟩ | ⟨hnot, hbad⟩
      · left
        refine ⟨?_, ?_⟩
        · intro other hother
          rcases List.mem_cons.mp hother with rfl | hother
          · exact hcitable
          · exact hall other hother
        · rw [hlast, List.map_cons, List.append_assoc]
          rfl
      · right
        refine ⟨fun hall => hnot fun other hother => ?_, hbad⟩
        exact hall other (List.mem_cons_of_mem _ hother)
    | false =>
      right
      refine ⟨?_, ?_⟩
      · intro hall
        have htrue := hall citation List.mem_cons_self
        rw [hcitable] at htrue
        exact Bool.false_ne_true htrue
      · have hkeeps : ∀ (state : IssueLog × List JsString)
            (other : OrdinaryFileCitation),
            state.1.evidenceUnavailable = true →
              (registerCitation host now catalog state
                other).1.evidenceUnavailable = true := by
          intro state other hstate
          unfold registerCitation
          split
          · exact incomplete_unavailable _ _
          · exact hstate
        apply foldl_keeps (P := fun state : IssueLog × List JsString =>
          state.1.evidenceUnavailable = true) hkeeps
        simp only [registerCitation, hcitable, if_true]
        exact incomplete_unavailable _ _

/-- Requirements that are well formed, each with an id of its own. -/
structure Formed (ids : List JsString)
    (requirements : List DeliveryRequirement) : Prop where
  each : ∀ required ∈ requirements, isFormed required = true
  distinct : (requirements.map DeliveryRequirement.id).Nodup
  fresh : ∀ required ∈ requirements, required.id ∉ ids

theorem formed_cons {ids : List JsString} {required : DeliveryRequirement}
    {rest : List DeliveryRequirement} :
    Formed ids (required :: rest) ↔
      isFormed required = true ∧ required.id ∉ ids ∧
        Formed (ids ++ [required.id]) rest := by
  constructor
  · intro h
    have hdistinct := h.distinct
    rw [List.map_cons, List.nodup_cons] at hdistinct
    refine ⟨h.each required List.mem_cons_self,
      h.fresh required List.mem_cons_self, ?_, hdistinct.2, ?_⟩
    · intro other hother
      exact h.each other (List.mem_cons_of_mem _ hother)
    · intro other hother hmem
      rcases List.mem_append.mp hmem with hold | hnew
      · exact h.fresh other (List.mem_cons_of_mem _ hother) hold
      · apply hdistinct.1
        rw [← List.mem_singleton.mp hnew]
        exact List.mem_map_of_mem hother
  · rintro ⟨hformed, hfresh, h⟩
    constructor
    · intro other hother
      rcases List.mem_cons.mp hother with rfl | hother
      · exact hformed
      · exact h.each other hother
    · rw [List.map_cons, List.nodup_cons]
      refine ⟨?_, h.distinct⟩
      intro hmem
      obtain ⟨other, hother, hid⟩ := List.mem_map.mp hmem
      apply h.fresh other hother
      rw [hid]
      simp
    · intro other hother
      rcases List.mem_cons.mp hother with rfl | hother
      · exact hfresh
      · intro hmem
        exact h.fresh other hother (List.mem_append_left _ hmem)

theorem checkRequirement_unavailable (catalog : Catalog) (linked : Linked)
    (state : IssueLog × List JsString) (required : DeliveryRequirement)
    (h : state.1.evidenceUnavailable = true) :
    (checkRequirement host snapshot catalog linked state
      required).1.evidenceUnavailable = true := by
  unfold checkRequirement
  split
  · exact incomplete_unavailable _ _
  · exact issueAll_unavailable h _

/-- The loop over the requirements raises their issues one after the other. -/
theorem require_spec (host : DeliveryHost) (snapshot : DeliverySnapshot)
    (catalog : Catalog) (linked : Linked) (log : IssueLog)
    (ids : List JsString) (requirements : List DeliveryRequirement) :
    (Formed ids requirements ∧
      (requirements.foldl (checkRequirement host snapshot catalog linked)
        (log, ids)).1 =
          log.issueAll (requirements.flatMap
            (requirementIssues host snapshot catalog linked))) ∨
    (¬Formed ids requirements ∧
      (requirements.foldl (checkRequirement host snapshot catalog linked)
        (log, ids)).1.evidenceUnavailable = true) := by
  induction requirements generalizing log ids with
  | nil =>
    left
    exact ⟨⟨by simp, by simp, by simp⟩, rfl⟩
  | cons required rest ih =>
    rw [List.foldl_cons, formed_cons]
    by_cases hbad : isFormed required = false ∨ required.id ∈ ids
    · right
      refine ⟨?_, ?_⟩
      · rintro ⟨hformed, hfresh, -⟩
        rcases hbad with hfalse | hmem
        · rw [hformed] at hfalse
          exact Bool.false_ne_true hfalse.symm
        · exact hfresh hmem
      · apply foldl_keeps (P := fun state : IssueLog × List JsString =>
          state.1.evidenceUnavailable = true)
          (checkRequirement_unavailable catalog linked)
        rw [checkRequirement, if_pos hbad]
        exact incomplete_unavailable _ _
    · have hround : checkRequirement host snapshot catalog linked (log, ids)
          required =
            (log.issueAll
              (requirementIssues host snapshot catalog linked required),
              ids ++ [required.id]) := by
        rw [checkRequirement, if_neg hbad]
        rfl
      rw [hround]
      rw [not_or] at hbad
      have hformed : isFormed required = true := by simpa using hbad.1
      rcases ih (log.issueAll
          (requirementIssues host snapshot catalog linked required))
        (ids ++ [required.id]) with ⟨hrest, hlast⟩ | ⟨hnot, hunavailable⟩
      · left
        refine ⟨⟨hformed, hbad.2, hrest⟩, ?_⟩
        rw [hlast, List.flatMap_cons, issueAll_append]
      · right
        exact ⟨fun h => hnot h.2.2, hunavailable⟩

/-- The snapshot allows a decision about the reply. -/
structure Ready (host : DeliveryHost) (input : DeliveryInput) (now : Int)
    (catalog : Catalog) : Prop where
  admitted : admittedTime host input = some now
  registered : Registered host input.snapshot now input.snapshot.artifacts
  catalogued : Catalogued host input.snapshot.artifacts catalog
  bound : input.snapshot.ordinaryFileCitations.length ≤ maxLinks
  citable : ∀ citation ∈ input.snapshot.ordinaryFileCitations,
    isCitable host now catalog citation = true

/-- The ordinary files that a reply may link to. -/
def ordinaryFiles (host : DeliveryHost) (input : DeliveryInput) :
    List JsString :=
  input.snapshot.ordinaryFileCitations.map fun citation =>
    toLowerCase host citation.objectId

/-- Either the reply is checked against the catalog, or the evidence is
incomplete. -/
theorem checkFinalDelivery_spec (host : DeliveryHost) (input : DeliveryInput) :
    (∃ now catalog, Ready host input now catalog ∧
      checkFinalDelivery host input =
        let replied := checkReply host input catalog (ordinaryFiles host input)
          IssueLog.empty
        decision host input replied.1 replied.2) ∨
    ((∀ now catalog, ¬Ready host input now catalog) ∧
      ∃ log : IssueLog, log.evidenceUnavailable = true ∧
        checkFinalDelivery host input =
          decision host input log Table.empty) := by
  unfold checkFinalDelivery
  cases hadmitted : admittedTime host input with
  | none =>
    right
    refine ⟨?_, _, incomplete_unavailable _ _, rfl⟩
    intro now catalog h
    rw [h.admitted] at hadmitted
    exact absurd hadmitted (by simp)
  | some now =>
    have hnow : ∀ time catalog, Ready host input time catalog →
        time = now := by
      intro time catalog h
      exact Option.some.inj (h.admitted.symm.trans hadmitted)
    have hnil : Registered host input.snapshot now [] := registered_nil
    rcases register_spec catalogued_nil hnil IssueLog.empty
      input.snapshot.artifacts with
      ⟨hregistered, catalog, hlast, hcatalog⟩ | ⟨hnot, hbad⟩
    · simp only [hlast]
      rw [if_neg (by simp [IssueLog.empty])]
      by_cases hbound :
          maxLinks < input.snapshot.ordinaryFileCitations.length
      · right
        rw [if_pos hbound]
        refine ⟨?_, _, incomplete_unavailable _ _, rfl⟩
        intro time other h
        exact absurd h.bound (Nat.not_le.mpr hbound)
      · rw [if_neg hbound]
        rcases cite_spec host now catalog IssueLog.empty []
          input.snapshot.ordinaryFileCitations with
          ⟨hall, hcited⟩ | ⟨hnone, hbad⟩
        · left
          refine ⟨now, catalog, ⟨hadmitted, hregistered, hcatalog,
            Nat.not_lt.mp hbound, hall⟩, ?_⟩
          simp only [hcited]
          rw [if_neg (by simp [IssueLog.empty])]
          rfl
        · right
          rw [if_pos hbad]
          refine ⟨?_, _, hbad, rfl⟩
          intro time other h
          apply hnone
          intro citation hcitation
          have hcitable := h.citable citation hcitation
          rw [hnow time other h] at hcitable
          simp only [isCitable] at hcitable ⊢
          rw [(hcatalog.lookups h.catalogued).2]
          exact hcitable
    · right
      refine ⟨?_, _, hbad, if_pos hbad⟩
      intro time catalog h
      apply hnot
      have hregistered := h.registered
      rw [hnow time catalog h] at hregistered
      exact hregistered

end Loops

end FinalDelivery

end Allrice
