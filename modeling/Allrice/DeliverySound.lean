/-
A reply that is found valid: its managed links lead to files that may be
delivered, and every requirement of the run is met.
-/
import Allrice.DeliveryCatalog

namespace Allrice

namespace FinalDelivery

open Pattern (matchesWhole)

/-- The units of an id. -/
def IdUnit (unit : UInt16) : Prop := isHex unit = true ∨ unit = 0x2D

theorem within_hexRun (count : Nat) : (hexRun count).Within IdUnit := by
  apply Pattern.within_sequence
  intro pattern hpattern
  rw [(List.mem_replicate.mp hpattern).2]
  intro unit hunit
  exact .inl hunit

theorem within_dash : (Pattern.literal "-").Within IdUnit := by
  have htext : JsString.ofString "-" = [0x2D] := by decide
  rw [Pattern.literal, htext]
  intro unit hunit
  exact .inr (beq_iff_eq.mp hunit)

theorem isUuid_units {text : JsString} (h : isUuid text = true) :
    ∀ unit ∈ text, IdUnit unit := by
  have hwithin : uuidPattern.Within IdUnit := by
    apply Pattern.within_sequence
    intro pattern hpattern
    simp only [List.mem_cons, List.not_mem_nil, or_false] at hpattern
    rcases hpattern with rfl | rfl | rfl | rfl | rfl | rfl | rfl | rfl | rfl <;>
      first | exact within_hexRun _ | exact within_dash
  rw [isUuid, matchesWhole, List.any_eq_true] at h
  obtain ⟨last, hlast, hrest⟩ := h
  obtain ⟨passed, hpassed, hunits⟩ := Pattern.ends_passes hwithin hlast
  rw [List.isEmpty_iff.mp hrest, List.append_nil] at hpassed
  intro unit hunit
  exact hunits unit (hpassed ▸ hunit)

theorem isHex_cases {unit : UInt16} (h : isHex unit = true) :
    unit.toNat < 0x80 ∧ Pattern.fold unit ≠ 0x2F := by
  have hcases : (0x30 ≤ unit.toNat ∧ unit.toNat ≤ 0x39) ∨
      unit ∈ JsString.ofString "abcdefABCDEF" := by
    simpa [isHex, Pattern.isDigit, Pattern.among] using h
  rcases hcases with hdigit | hletter
  · refine ⟨by omega, ?_⟩
    intro hfold
    have hsmall : ¬0x41 ≤ unit.toNat := by omega
    simp only [Pattern.fold, hsmall, decide_false, Bool.false_and,
      Bool.false_eq_true, if_false] at hfold
    rw [hfold] at hdigit
    exact absurd hdigit (by decide)
  · have htext : JsString.ofString "abcdefABCDEF" =
        [0x61, 0x62, 0x63, 0x64, 0x65, 0x66, 0x41, 0x42, 0x43, 0x44, 0x45,
          0x46] := by
      decide
    rw [htext] at hletter
    simp only [List.mem_cons, List.not_mem_nil, or_false] at hletter
    rcases hletter with rfl | rfl | rfl | rfl | rfl | rfl | rfl | rfl | rfl |
      rfl | rfl | rfl <;> decide

section Host

variable {host : DeliveryHost} {catalog : Catalog} {input : DeliveryInput}
  {entry : CatalogEntry} {text : JsString} {value identity : ArtifactIdentity}
  {now : Int} {log : IssueLog} {snapshot : DeliverySnapshot}
  {required : DeliveryRequirement} {linked : Linked}

/-- An id in lower case has no slash. -/
theorem lower_id (h : isUuid text = true) :
    (0x2F : UInt16) ∉ toLowerCase host text := by
  have hascii : ∀ unit ∈ text,
      unit.toNat < 0x80 ∧ Pattern.fold unit ≠ 0x2F := by
    intro unit hunit
    rcases isUuid_units h unit hunit with hhex | rfl
    · exact isHex_cases hhex
    · decide
  rw [toLowerCase, if_pos]
  · intro hmem
    obtain ⟨unit, hunit, hfold⟩ := List.mem_map.mp hmem
    exact (hascii unit hunit).2 hfold
  · rw [List.all_eq_true]
    intro unit hunit
    exact decide_eq_true (hascii unit hunit).1

/-- Where a normalized identity comes from. -/
theorem normalized_parts (h : normalizedIdentity host value = some identity) :
    (0x2F : UInt16) ∉ identity.objectId ∧
      (0x2F : UInt16) ∉ identity.versionId := by
  rw [normalizedIdentity] at h
  split at h
  · exact absurd h (by simp)
  · split at h
    · rename_i hids
      rw [Bool.and_eq_true] at hids
      rw [← Option.some.inj h]
      exact ⟨lower_id hids.1, lower_id hids.2⟩
    · exact absurd h (by simp)

/-- A text is cut at its first separator. -/
theorem cut_first {sep : UInt16} {a b rest rest' : JsString} (ha : sep ∉ a)
    (hb : sep ∉ b) (h : a ++ sep :: rest = b ++ sep :: rest') :
    a = b ∧ rest = rest' := by
  induction a generalizing b with
  | nil =>
    cases b with
    | nil => exact ⟨rfl, (List.cons.inj h).2⟩
    | cons unit b =>
      exact absurd ((List.cons.inj h).1 ▸ List.mem_cons_self) hb
  | cons unit a ih =>
    cases b with
    | nil => exact absurd ((List.cons.inj h).1 ▸ List.mem_cons_self) ha
    | cons other b =>
      obtain ⟨hunit, hrest⟩ := List.cons.inj h
      obtain ⟨hsame, htail⟩ :=
        ih (fun hmem => ha (List.mem_cons_of_mem _ hmem))
          (fun hmem => hb (List.mem_cons_of_mem _ hmem)) hrest
      exact ⟨by rw [hunit, hsame], htail⟩

/-- The key of an identity is all of it. -/
theorem key_inj {other left right : ArtifactIdentity}
    (hleft : normalizedIdentity host value = some left)
    (hright : normalizedIdentity host other = some right)
    (h : key left = key right) : left = right := by
  obtain ⟨hlo, hlv⟩ := normalized_parts hleft
  obtain ⟨hro, hrv⟩ := normalized_parts hright
  simp only [key, List.append_assoc, List.singleton_append] at h
  obtain ⟨hobject, hrest⟩ := cut_first hlo hro h
  obtain ⟨hversion, hchecksum⟩ := cut_first hlv hrv hrest
  obtain ⟨leftObject, leftVersion, leftChecksum⟩ := left
  obtain ⟨rightObject, rightVersion, rightChecksum⟩ := right
  rw [ArtifactIdentity.mk.injEq]
  exact ⟨hobject, hversion, hchecksum⟩

mutual

/-- The nodes outside quoted text, without the definitions of references. -/
def shownNodes : MarkdownNode → List MarkdownNode
  | .node type url identifier value children offset =>
    if isQuoted type then []
    else if type = JsString.ofString "definition" then []
    else .node type url identifier value children offset ::
      shownAll children

def shownAll : List MarkdownNode → List MarkdownNode
  | [] => []
  | node :: rest => shownNodes node ++ shownAll rest

end

mutual

/-- The definitions of references outside quoted text, with their
identifiers. -/
def shownDefinitions :
    MarkdownNode → List (Option JsString × Option JsString)
  | .node type url identifier _ children _ =>
    if isQuoted type then []
    else if type = JsString.ofString "definition" then [(identifier, url)]
    else definitionsOfAll children

def definitionsOfAll :
    List MarkdownNode → List (Option JsString × Option JsString)
  | [] => []
  | node :: rest => shownDefinitions node ++ definitionsOfAll rest

end

/-- What a definition defines, if it does. -/
def definedReference (host : DeliveryHost)
    (definition : Option JsString × Option JsString) :
    Option (JsString × JsString) :=
  match definition.2 with
  | none => none
  | some url =>
    let id := referenceId host (definition.1.getD [])
    if id = [] then none else some (id, url)

/-- The first definition of a reference. -/
def firstDefinition (host : DeliveryHost)
    (definitions : List (Option JsString × Option JsString))
    (id : JsString) : Option JsString :=
  ((definitions.filterMap (definedReference host)).find? (·.1 = id)).map
    Prod.snd

def addDefinitions (host : DeliveryHost) (definitions : Definitions)
    (more : List (Option JsString × Option JsString)) : Definitions :=
  more.foldl (fun definitions definition =>
    addDefinition host definitions definition.1 definition.2) definitions

theorem addDefinitions_append (definitions : Definitions)
    (first second : List (Option JsString × Option JsString)) :
    addDefinitions host definitions (first ++ second) =
      addDefinitions host (addDefinitions host definitions first) second :=
  List.foldl_append

mutual

/-- A walk that ends has seen the shown nodes and definitions. -/
theorem walk_spec : ∀ (node : MarkdownNode) (state last : WalkState),
    walk host node state = some last →
      last.nodes = state.nodes ++ shownNodes node ∧
        last.definitions =
          addDefinitions host state.definitions (shownDefinitions node)
  | .node type url identifier value children offset, state, last, h => by
      simp only [walk] at h
      split at h
      · exact absurd h (by simp)
      · split at h
        · rename_i hquoted
          rw [← Option.some.inj h]
          simp [shownNodes, shownDefinitions, hquoted, addDefinitions]
        · rename_i hquoted
          split at h
          · rename_i hdefinition
            subst hdefinition
            rw [← Option.some.inj h]
            simp [shownNodes, shownDefinitions, hquoted, addDefinitions]
          · rename_i hdefinition
            have hall := walkAll_spec children _ last h
            simp only [shownNodes, shownDefinitions, hquoted, hdefinition,
              Bool.false_eq_true, if_false]
            refine ⟨?_, hall.2⟩
            rw [hall.1, List.append_assoc]
            rfl

theorem walkAll_spec : ∀ (nodes : List MarkdownNode) (state last : WalkState),
    walkAll host nodes state = some last →
      last.nodes = state.nodes ++ shownAll nodes ∧
        last.definitions =
          addDefinitions host state.definitions (definitionsOfAll nodes)
  | [], state, last, h => by
      rw [walkAll] at h
      rw [← Option.some.inj h]
      simp [shownAll, definitionsOfAll, addDefinitions]
  | node :: rest, state, last, h => by
      rw [walkAll] at h
      cases hnode : walk host node state with
      | none =>
        rw [hnode] at h
        exact absurd h (by simp)
      | some middle =>
        rw [hnode] at h
        have hfirst := walk_spec node state middle hnode
        have hrest := walkAll_spec rest middle last h
        rw [shownAll, definitionsOfAll, addDefinitions_append, ← hfirst.2,
          ← List.append_assoc, ← hfirst.1]
        exact hrest

end

/-- The table of the definitions leads to the first of each. -/
theorem addDefinitions_find (definitions : Definitions)
    (more : List (Option JsString × Option JsString)) (id : JsString) :
    ((addDefinitions host definitions more).find? id).map Prod.snd =
      ((definitions.find? id).map Prod.snd).or (firstDefinition host more id) := by
  induction more generalizing definitions with
  | nil => simp [addDefinitions, firstDefinition]
  | cons definition rest ih =>
    change ((addDefinitions host (addDefinition host definitions definition.1
      definition.2) rest).find? id).map Prod.snd = _
    rw [ih]
    obtain ⟨identifier, url⟩ := definition
    cases url with
    | none => simp [addDefinition, firstDefinition, definedReference]
    | some url =>
      by_cases hid : referenceId host (identifier.getD []) = []
      · simp [addDefinition, firstDefinition, definedReference, hid]
      · cases hfind : definitions.find?
            (referenceId host (identifier.getD [])) with
        | some old =>
          by_cases hsame : referenceId host (identifier.getD []) = id
          · rw [hsame] at hfind
            simp [addDefinition, hfind, hsame]
          · simp [addDefinition, firstDefinition, definedReference, hid,
              hfind, hsame]
        | none =>
          have hput : addDefinition host definitions identifier
              (some url) =
                definitions.put
                  (referenceId host (identifier.getD []), url) := by
            simp [addDefinition, hid, hfind]
          have hdefined : definedReference host (identifier, some url) =
              some (referenceId host (identifier.getD []), url) := by
            simp [definedReference, hid]
          rw [hput, Table.find?_put, firstDefinition, firstDefinition,
            List.filterMap_cons_some hdefined, List.find?_cons]
          by_cases hsame : referenceId host (identifier.getD []) = id
          · rw [hsame] at hfind
            simp [hsame, hfind]
          · simp [hsame]

/-- Where a node outside quoted text leads. -/
inductive LeadsTo (host : DeliveryHost) (root : MarkdownNode) :
    MarkdownNode → JsString → Prop
  | link {type href : JsString} {identifier value : Option JsString}
      {children : List MarkdownNode} {offset : Option Nat}
      (htype : type = JsString.ofString "link" ∨
        type = JsString.ofString "image") :
      LeadsTo host root
        (.node type (some href) identifier value children offset) href
  | reference {type href : JsString} {url identifier value : Option JsString}
      {children : List MarkdownNode} {offset : Option Nat}
      (htype : type = JsString.ofString "linkReference" ∨
        type = JsString.ofString "imageReference")
      (hfirst : firstDefinition host (shownDefinitions root)
        (referenceId host (identifier.getD [])) = some href) :
      LeadsTo host root
        (.node type url identifier value children offset) href
  | html {type href : JsString} {url identifier value : Option JsString}
      {children : List MarkdownNode} {offset : Option Nat}
      {fragment : HtmlFragment} (htype : type = JsString.ofString "html")
      (hfragment : host.html (value.getD []) = some fragment)
      (hhref : href ∈ fragment.links) :
      LeadsTo host root
        (.node type url identifier value children offset) href

/-- A link outside quoted and code text. -/
def IsLink (host : DeliveryHost) (text : JsString) (href : JsString) : Prop :=
  ∃ root, host.markdown text = some root ∧
    ∃ node ∈ shownNodes root, LeadsTo host root node href

variable {links : List CandidateLink} {root : MarkdownNode}
  {definitions : Definitions} {origins ordinary : List JsString}

/-- The links of one node are where it leads. -/
theorem nodeLinks_spec
    (hdefinitions : ∀ id, (definitions.find? id).map Prod.snd =
      firstDefinition host (shownDefinitions root) id) {node : MarkdownNode}
    (h : nodeLinks host definitions node = some links) (href : JsString) :
    (∃ link ∈ links, link.href = href) ↔ LeadsTo host root node href := by
  obtain ⟨type, url, identifier, value, children, offset⟩ := node
  simp only [nodeLinks] at h
  split at h
  · rename_i htype
    obtain ⟨own, rfl, rfl⟩ := Option.map_eq_some_iff.mp h
    constructor
    · rintro ⟨link, hlink, rfl⟩
      rw [List.mem_singleton.mp hlink]
      exact .link htype
    · intro hleads
      cases hleads with
      | link _ => exact ⟨⟨href, offset⟩, by simp, rfl⟩
      | reference htype' _ =>
        rcases htype with rfl | rfl <;> rcases htype' with hne | hne <;>
          exact absurd hne (by decide)
      | html htype' _ _ =>
        rcases htype with rfl | rfl <;> exact absurd htype' (by decide)
  · rename_i hlink
    split at h
    · rename_i htype
      obtain ⟨definition, hfind, rfl⟩ := Option.map_eq_some_iff.mp h
      have hfirst := hdefinitions (referenceId host (identifier.getD []))
      rw [hfind, Option.map_some] at hfirst
      constructor
      · rintro ⟨link, hmem, rfl⟩
        rw [List.mem_singleton.mp hmem]
        exact .reference htype hfirst.symm
      · intro hleads
        cases hleads with
        | link htype' => exact absurd htype' hlink
        | reference _ hfirst' =>
          rw [← hfirst] at hfirst'
          exact ⟨⟨definition.2, offset⟩, by simp,
            Option.some.inj hfirst'⟩
        | html htype' _ _ =>
          rcases htype with rfl | rfl <;> exact absurd htype' (by decide)
    · rename_i hreference
      split at h
      · rename_i htype
        split at h
        · exact absurd h (by simp)
        · rename_i fragment hfragment
          split at h
          · rw [← Option.some.inj h]
            constructor
            · rintro ⟨link, hmem, rfl⟩
              obtain ⟨own, hown, rfl⟩ := List.mem_map.mp hmem
              exact .html htype hfragment hown
            · intro hleads
              cases hleads with
              | link htype' => exact absurd htype' hlink
              | reference htype' _ => exact absurd htype' hreference
              | html _ hfragment' hhref =>
                rw [hfragment] at hfragment'
                rw [← Option.some.inj hfragment'] at hhref
                exact ⟨⟨href, offset⟩, List.mem_map_of_mem hhref, rfl⟩
          · exact absurd h (by simp)
      · rename_i hhtml
        rw [← Option.some.inj h]
        constructor
        · rintro ⟨link, hmem, -⟩
          exact absurd hmem List.not_mem_nil
        · intro hleads
          cases hleads with
          | link htype' => exact absurd htype' hlink
          | reference htype' _ => exact absurd htype' hreference
          | html htype' _ _ => exact absurd htype' hhtml

theorem collectLinks_spec
    (hdefinitions : ∀ id, (definitions.find? id).map Prod.snd =
      firstDefinition host (shownDefinitions root) id)
    {nodes : List MarkdownNode} {last : List CandidateLink}
    (h : collectLinks host definitions nodes links = some last)
    (href : JsString) :
    (∃ link ∈ last, link.href = href) ↔
      (∃ link ∈ links, link.href = href) ∨
        ∃ node ∈ nodes, LeadsTo host root node href := by
  induction nodes generalizing links with
  | nil =>
    rw [collectLinks] at h
    rw [← Option.some.inj h]
    simp
  | cons node rest ih =>
    rw [collectLinks] at h
    cases hnode : nodeLinks host definitions node with
    | none =>
      rw [hnode] at h
      exact absurd h (by simp)
    | some more =>
      simp only [hnode] at h
      split at h
      · exact absurd h (by simp)
      · have hown := nodeLinks_spec hdefinitions hnode href
        rw [ih h]
        simp only [List.mem_append, List.mem_cons, or_and_right,
          exists_or, exists_eq_left, hown, or_assoc]

/-- The links that are read are those outside quoted and code text. -/
theorem readLinks_spec {links : List CandidateLink}
    (h : readLinks host text = some links) (href : JsString) :
    (∃ link ∈ links, link.href = href) ↔ IsLink host text href := by
  rw [readLinks] at h
  split at h
  · exact absurd h (by simp)
  · rename_i type url identifier value children offset hmarkdown
    split at h
    · exact absurd h (by simp)
    · split at h
      · exact absurd h (by simp)
      · rename_i state hwalk
        obtain ⟨hnodes, hdefinitions⟩ := walk_spec _ _ _ hwalk
        have hfirst : ∀ id, (state.definitions.find? id).map Prod.snd =
            firstDefinition host (shownDefinitions
              (.node type url identifier value children offset)) id := by
          intro id
          rw [hdefinitions, addDefinitions_find, Table.find?_empty,
            Option.map_none, Option.none_or]
        rw [collectLinks_spec hfirst h href, hnodes, List.nil_append]
        constructor
        · rintro (⟨link, hmem, -⟩ | hleads)
          · exact absurd hmem List.not_mem_nil
          · exact ⟨_, hmarkdown, hleads⟩
        · rintro ⟨root, hroot, hleads⟩
          rw [hmarkdown] at hroot
          rw [← Option.some.inj hroot] at hleads
          exact .inr hleads

/-- The entry of an object. -/
def objectEntry (catalog : Catalog) (objectId : JsString) :
    Option CatalogEntry :=
  (catalog.byObject.find? objectId).bind fun row =>
    catalog.artifacts.find? row.2

theorem objectEntry_iff {artifacts : List DeliveryArtifact}
    (h : Catalogued host artifacts catalog) {objectId : JsString} :
    objectEntry catalog objectId = some entry ↔
      entry.artifact ∈ artifacts ∧
        identityOf host entry.artifact = some entry.identity ∧
        entry.identity.objectId = objectId := by
  rw [objectEntry, Option.bind_eq_some_iff]
  constructor
  · rintro ⟨row, hrow, hentry⟩
    obtain ⟨artifact, -, i, hi, hobject, rfl⟩ := (h.byObject _ _).mp hrow
    obtain ⟨hmem, hidentity, hkey⟩ := (h.entries _ _).mp hentry
    have hsame := key_inj hidentity hi hkey
    exact ⟨hmem, hidentity, hsame ▸ hobject⟩
  · rintro ⟨hmem, hidentity, hobject⟩
    refine ⟨(objectId, key entry.identity), ?_, ?_⟩
    · exact (h.byObject _ _).mpr
        ⟨entry.artifact, hmem, entry.identity, hidentity, hobject, rfl⟩
    · exact (h.entries _ _).mpr ⟨hmem, hidentity, rfl⟩

/-- A link without an issue. -/
def LinkFine (host : DeliveryHost) (origins : List JsString)
    (catalog : Catalog) (ordinary : List JsString) (href : JsString) : Prop :=
  managedTarget host href origins = .external ∨
    ∃ objectId, managedTarget host href origins = .managed objectId ∧
      (objectId ∈ ordinary ∨ ∃ entry, objectEntry catalog objectId = some entry)

/-- A link to an artifact. -/
def LinksTo (host : DeliveryHost) (origins : List JsString)
    (catalog : Catalog) (ordinary : List JsString) (href : JsString)
    (identity : ArtifactIdentity) : Prop :=
  ∃ objectId entry, managedTarget host href origins = .managed objectId ∧
    objectId ∉ ordinary ∧ objectEntry catalog objectId = some entry ∧
    entry.identity = identity

/-- One round: an issue, or a fine link. -/
theorem checkLink_spec (host : DeliveryHost) (origins : List JsString)
    (catalog : Catalog)
    (ordinary : List JsString) (state : IssueLog × Linked)
    (link : CandidateLink) :
    (checkLink host origins catalog ordinary state link).1.issues ≠ [] ∨
    (LinkFine host origins catalog ordinary link.href ∧
      (checkLink host origins catalog ordinary state link).1 = state.1 ∧
      ∀ k, ((checkLink host origins catalog ordinary state
          link).2.find? k).isSome = true ↔
        (state.2.find? k).isSome = true ∨
          ∃ identity, LinksTo host origins catalog ordinary link.href identity ∧
            key identity = k) := by
  cases htarget : managedTarget host link.href origins with
  | external =>
    right
    simp only [checkLink, htarget]
    refine ⟨.inl htarget, trivial, ?_⟩
    intro k
    simp [LinksTo, htarget]
  | invalid reason =>
    left
    simp only [checkLink, htarget]
    exact issue_issues_ne _ _ _
  | managed objectId =>
    by_cases hordinary : objectId ∈ ordinary
    · right
      have hcontains : ordinary.contains objectId = true := by
        simpa using hordinary
      simp only [checkLink, htarget, hcontains, if_true]
      refine ⟨.inr ⟨objectId, htarget, .inl hordinary⟩, trivial, ?_⟩
      intro k
      simp [LinksTo, htarget, hordinary]
    · have hcontains : ordinary.contains objectId = false := by
        simpa using hordinary
      cases hentry : objectEntry catalog objectId with
      | none =>
        left
        have hlookup := hentry
        rw [objectEntry] at hlookup
        simp only [checkLink, htarget, hcontains, hlookup,
          Bool.false_eq_true, if_false]
        exact issue_issues_ne _ _ _
      | some entry =>
        right
        have hlookup := hentry
        rw [objectEntry] at hlookup
        simp only [checkLink, htarget, hcontains, hlookup,
          Bool.false_eq_true, if_false]
        refine ⟨.inr ⟨objectId, htarget, .inr ⟨entry, hentry⟩⟩,
          trivial, ?_⟩
        intro k
        have hlinks : ∀ identity,
            LinksTo host origins catalog ordinary link.href identity ↔
              entry.identity = identity := by
          intro identity
          constructor
          · rintro ⟨other, found, hother, -, hfound, hidentity⟩
            rw [htarget] at hother
            rw [← LinkTarget.managed.inj hother, hentry] at hfound
            rw [Option.some.inj hfound]
            exact hidentity
          · intro hidentity
            exact ⟨objectId, entry, htarget, hordinary, hentry, hidentity⟩
        simp only [hlinks, exists_eq_left', Table.find?_put]
        by_cases hk : key entry.identity = k
        · simp [hk]
        · simp [hk]

/-- The loop, when it raises no issue. -/
theorem checkLinks_spec {state : IssueLog × Linked}
    (h : (links.foldl (checkLink host origins catalog ordinary)
      state).1.issues = []) :
    state.1.issues = [] ∧
      (∀ link ∈ links, LinkFine host origins catalog ordinary link.href) ∧
      ∀ k, ((links.foldl (checkLink host origins catalog ordinary)
          state).2.find? k).isSome = true ↔
        (state.2.find? k).isSome = true ∨
          ∃ link ∈ links, ∃ identity,
            LinksTo host origins catalog ordinary link.href identity ∧
              key identity = k := by
  induction links generalizing state with
  | nil => exact ⟨h, by simp, by simp⟩
  | cons link rest ih =>
    rw [List.foldl_cons] at h ⊢
    obtain ⟨hlog, hrest, hlinked⟩ := ih h
    rcases checkLink_spec host origins catalog ordinary state link with
      hissue | ⟨hfine, hsame, hown⟩
    · exact absurd hlog hissue
    · rw [hsame] at hlog
      refine ⟨hlog, ?_, ?_⟩
      · intro other hother
        rcases List.mem_cons.mp hother with rfl | hother
        · exact hfine
        · exact hrest other hother
      · intro k
        have hk := hlinked k
        rw [hown k] at hk
        rw [hk]
        simp only [List.mem_cons, or_and_right, exists_or, exists_eq_left,
          or_assoc]

/-- An artifact of the snapshot that may be delivered: it is in scope, ready,
immutable, not deleted, and still kept. -/
structure Deliverable (host : DeliveryHost) (input : DeliveryInput)
    (now : Int) (artifact : DeliveryArtifact) (identity : ArtifactIdentity) :
    Prop where
  listed : artifact ∈ input.snapshot.artifacts
  normalized : identityOf host artifact = some identity
  scope : sameScope host artifact.scope
    input.snapshot.scope.toArtifactScope = true
  bound : ownsRun host input.snapshot artifact.originRunId = true ∨
    isReference host input.snapshot identity.versionId = true
  ready : artifact.state = .ready
  immutable : artifact.immutable = true
  deletedAt : artifact.deletedAt = none
  kept : validUntil host artifact.retentionUntil now = true

/-- An ordinary file that the snapshot allows to cite. -/
structure Citable (host : DeliveryHost) (input : DeliveryInput) (now : Int)
    (citation : OrdinaryFileCitation) : Prop where
  listed : citation ∈ input.snapshot.ordinaryFileCitations
  uuid : isUuid citation.objectId = true
  kept : validUntil host citation.retentionUntil now = true

/-- The reply links to an object outside quoted and code text. -/
def LinkedObject (host : DeliveryHost) (input : DeliveryInput)
    (origins : List JsString) (objectId : JsString) : Prop :=
  ∃ href, IsLink host input.candidate href ∧
    managedTarget host href origins = .managed objectId

/-- A requirement is met by an artifact, in its exact version. -/
structure Met (host : DeliveryHost) (input : DeliveryInput)
    (origins : List JsString) (required : DeliveryRequirement)
    (artifact : DeliveryArtifact) (identity : ArtifactIdentity) : Prop where
  version : required.expected.bind (normalizedIdentity host) = some identity
  source : if required.source = .currentRun then
      ownsRun host input.snapshot artifact.originRunId = true
    else isReference host input.snapshot identity.versionId = true
  active : (required.whenLinked = some true →
      LinkedObject host input origins identity.objectId) →
    (required.requireLink = true →
      LinkedObject host input origins identity.objectId) ∧
    ∀ checkId ∈ required.requiredChecks,
      (∃ check ∈ input.snapshot.checks,
        concerns host input.snapshot ⟨identity, artifact⟩ checkId check =
          true) ∧
      ∀ check ∈ input.snapshot.checks,
        concerns host input.snapshot ⟨identity, artifact⟩ checkId check =
          true → check.status = .passed

/-- What a valid reply and its snapshot are like. -/
structure Sound (host : DeliveryHost) (input : DeliveryInput) (now : Int)
    (origins : List JsString) : Prop where
  links : ∀ href, IsLink host input.candidate href →
    managedTarget host href origins = .external ∨
      ∃ objectId, managedTarget host href origins = .managed objectId ∧
        ((∃ artifact identity,
            Deliverable host input now artifact identity ∧
              identity.objectId = objectId) ∨
          ∃ citation, Citable host input now citation ∧
            toLowerCase host citation.objectId = objectId)
  requirements : ∀ required ∈ input.snapshot.requirements,
    ∃ artifact identity, Deliverable host input now artifact identity ∧
      Met host input origins required artifact identity

theorem deliverable_of_registered
    (h : Registered host input.snapshot now input.snapshot.artifacts)
    {artifact : DeliveryArtifact} (hmem : artifact ∈ input.snapshot.artifacts)
    (hidentity : identityOf host artifact = some identity) :
    Deliverable host input now artifact identity := by
  obtain ⟨other, hother, hdeliverable⟩ := h.each artifact hmem
  rw [hidentity] at hother
  rw [← Option.some.inj hother] at hdeliverable
  simp only [isDeliverable, Bool.and_eq_true, Bool.or_eq_true,
    decide_eq_true_eq] at hdeliverable
  obtain ⟨⟨⟨⟨⟨⟨hscope, hbound⟩, hready⟩, himmutable⟩, hdeleted⟩, hkept⟩, -⟩ :=
    hdeliverable
  exact ⟨hmem, hidentity, hscope, hbound, hready, himmutable, hdeleted, hkept⟩

/-- The rounds that leave a log empty. -/
theorem checkReply_valid
    (hquiet : (checkReply host input catalog ordinary
      log).1.evidenceUnavailable = false)
    (hempty : (checkReply host input catalog ordinary log).1.issues = []) :
    ∃ origins links, input.managedOrigins.mapM (managedOrigin host) =
        some origins ∧ readLinks host input.candidate = some links ∧
      (∀ link ∈ links, LinkFine host origins catalog ordinary link.href) ∧
      ∃ linked : Linked,
        (∀ k, (linked.find? k).isSome = true ↔ ∃ link ∈ links, ∃ identity,
          LinksTo host origins catalog ordinary link.href identity ∧
            key identity = k) ∧
        ∀ required ∈ input.snapshot.requirements,
          requirementIssues host input.snapshot catalog linked required =
            [] := by
  unfold checkReply at hquiet hempty
  cases hlinks : candidateLinks host input with
  | none =>
    simp only [hlinks] at hempty
    exact absurd hempty (issue_issues_ne _ _ _)
  | some found =>
    obtain ⟨origins, links⟩ := found
    have horigins : input.managedOrigins.mapM (managedOrigin host) =
        some origins ∧ readLinks host input.candidate = some links := by
      unfold candidateLinks at hlinks
      split at hlinks
      · exact absurd hlinks (by simp)
      · split at hlinks
        · exact absurd hlinks (by simp)
        · rename_i read hread
          obtain ⟨own, hown, hpair⟩ := Option.map_eq_some_iff.mp hlinks
          obtain ⟨horigin, hlink⟩ := Prod.mk.inj hpair
          rw [← horigin, ← hlink]
          exact ⟨hread, hown⟩
    simp only [hlinks] at hquiet hempty
    rcases require_spec host input.snapshot catalog _ _ []
      input.snapshot.requirements with ⟨-, hlast⟩ | ⟨-, hbad⟩
    · rw [hlast] at hquiet hempty
      have hfits := (issueAll_quiet_iff _ _).mp hquiet
      rw [issueAll_issues hfits, List.append_eq_nil_iff] at hempty
      obtain ⟨hchecked, hissues⟩ := hempty
      obtain ⟨-, hfine, hlinked⟩ := checkLinks_spec hchecked
      refine ⟨origins, links, horigins.1, horigins.2, hfine, _, ?_,
        List.flatMap_eq_nil_iff.mp hissues⟩
      intro k
      rw [hlinked k]
      simp
    · exact absurd (hbad.symm.trans hquiet).symm Bool.false_ne_true

/-- The artifact that is found for a requirement. -/
theorem requiredEntry_spec
    (h : requiredEntry host snapshot catalog required = some entry) :
    (∃ raw expected, required.expected = some raw ∧
      normalizedIdentity host raw = some expected ∧
      catalog.artifacts.find? (key expected) = some entry) ∧
    if required.source = .currentRun then
      ownsRun host snapshot entry.artifact.originRunId = true
    else isReference host snapshot entry.identity.versionId = true := by
  unfold requiredEntry at h
  split at h
  · exact absurd h (by simp)
  · rename_i found hlookup
    obtain ⟨expected, hexpected, hfind⟩ := Option.bind_eq_some_iff.mp hlookup
    obtain ⟨raw, hraw, hnormal⟩ := Option.bind_eq_some_iff.mp hexpected
    by_cases hcurrent : required.source = .currentRun
    · simp only [if_pos hcurrent] at h ⊢
      by_cases howned :
          ownsRun host snapshot found.artifact.originRunId = true
      · rw [if_pos howned] at h
        obtain rfl := Option.some.inj h
        exact ⟨⟨raw, expected, hraw, hnormal, hfind⟩, howned⟩
      · rw [if_neg howned] at h
        exact absurd h (by simp)
    · simp only [if_neg hcurrent] at h ⊢
      by_cases hreference :
          isReference host snapshot found.identity.versionId = true
      · rw [if_pos hreference] at h
        obtain rfl := Option.some.inj h
        exact ⟨⟨raw, expected, hraw, hnormal, hfind⟩, hreference⟩
      · rw [if_neg hreference] at h
        exact absurd h (by simp)

/-- A check that counts: it has a receipt, and only passed ones. -/
theorem isChecked_spec {checkId : JsString}
    (h : isChecked host snapshot entry checkId = true) :
    (∃ check ∈ snapshot.checks,
      concerns host snapshot entry checkId check = true) ∧
    ∀ check ∈ snapshot.checks,
      concerns host snapshot entry checkId check = true →
        check.status = .passed := by
  simp only [isChecked, Bool.and_eq_true, decide_eq_true_eq, ne_eq,
    List.length_eq_zero_iff, Bool.not_eq_true'] at h
  obtain ⟨⟨-, hsome⟩, hpassed⟩ := h
  constructor
  · obtain ⟨check, hcheck⟩ := List.exists_mem_of_ne_nil _ hsome
    rw [List.mem_filter] at hcheck
    exact ⟨check, hcheck.1, hcheck.2⟩
  · intro check hcheck hconcerns
    rw [List.any_eq_false] at hpassed
    have hstatus := hpassed check (List.mem_filter.mpr ⟨hcheck, hconcerns⟩)
    simpa using hstatus

/-- A requirement without an issue is met. -/
theorem met_of_no_issues (hready : Ready host input now catalog)
    (hlinked : ∀ entry : CatalogEntry,
      entry.artifact ∈ input.snapshot.artifacts →
      identityOf host entry.artifact = some entry.identity →
      ((linked.find? (key entry.identity)).isSome = true ↔
        LinkedObject host input origins entry.identity.objectId))
    (h : requirementIssues host input.snapshot catalog linked required = []) :
    ∃ artifact identity, Deliverable host input now artifact identity ∧
      Met host input origins required artifact identity := by
  cases hentry : requiredEntry host input.snapshot catalog required with
  | none => simp [requirementIssues, hentry] at h
  | some entry =>
    obtain ⟨⟨raw, expected, hraw, hnormal, hfind⟩, hsource⟩ :=
      requiredEntry_spec hentry
    obtain ⟨hmem, hidentity, hkey⟩ :=
      (hready.catalogued.entries _ _).mp hfind
    have hsame := key_inj hidentity hnormal hkey
    have hlink := hlinked entry hmem hidentity
    refine ⟨entry.artifact, entry.identity,
      deliverable_of_registered hready.registered hmem hidentity, ?_,
      hsource, ?_⟩
    · rw [hraw, Option.bind_some, hnormal, hsame]
    · intro hactive
      simp only [requirementIssues, hentry] at h
      split at h
      · rename_i hskipped
        have hyes := hlink.mpr (hactive hskipped.1)
        rw [hskipped.2] at hyes
        exact absurd hyes Bool.false_ne_true
      · rw [List.append_eq_nil_iff, List.map_eq_nil_iff,
          List.filter_eq_nil_iff] at h
        obtain ⟨hmissing, hchecks⟩ := h
        refine ⟨?_, ?_⟩
        · intro hrequire
          apply hlink.mp
          by_contra hnot
          have hfalse : (linked.find?
              (key entry.identity)).isSome = false := by
            simpa using hnot
          rw [if_pos ⟨hrequire, hfalse⟩] at hmissing
          exact absurd hmissing (List.cons_ne_nil _ _)
        · intro checkId hcheckId
          have hchecked := hchecks checkId hcheckId
          exact isChecked_spec (by simpa using hchecked)

/-- The verdict `valid`, read off the log. -/
theorem decision_valid (h : (decision host input log linked).status = .valid) :
    log.evidenceUnavailable = false ∧ log.issues = [] := by
  simp only [decision] at h
  split at h
  · exact absurd h (by decide)
  · rename_i hquiet
    split at h
    · rename_i hempty
      exact ⟨by simpa using hquiet, List.isEmpty_iff.mp hempty⟩
    · exact absurd h (by decide)

/-- A reply that is found valid keeps what the check promises: each managed
link outside quoted and code text leads to an artifact that may be delivered
or to an ordinary file that may be cited, and each requirement is met by its
exact version. -/
theorem final_delivery_sound (host : DeliveryHost) (input : DeliveryInput)
    (h : (checkFinalDelivery host input).status = .valid) :
    ∃ now origins, admittedTime host input = some now ∧
      input.managedOrigins.mapM (managedOrigin host) = some origins ∧
      Sound host input now origins := by
  rcases checkFinalDelivery_spec host input with
    ⟨now, catalog, hready, hcheck⟩ | ⟨-, log, hbad, hcheck⟩
  · rw [hcheck] at h
    obtain ⟨hquiet, hempty⟩ := decision_valid h
    obtain ⟨origins, links, horigins, hread, hfine, linked, hlinked,
      hrequired⟩ := checkReply_valid hquiet hempty
    have hlinks : ∀ href, (∃ link ∈ links, link.href = href) ↔
        IsLink host input.candidate href :=
      readLinks_spec hread
    have hordinary : ∀ objectId ∈ ordinaryFiles host input,
        catalog.byObject.find? objectId = none ∧
          ∃ citation, Citable host input now citation ∧
            toLowerCase host citation.objectId = objectId := by
      intro objectId hmem
      obtain ⟨citation, hcitation, rfl⟩ := List.mem_map.mp hmem
      have hcitable := hready.citable citation hcitation
      simp only [isCitable, Bool.and_eq_true, Option.isNone_iff_eq_none]
        at hcitable
      exact ⟨hcitable.2, citation,
        ⟨hcitation, hcitable.1.1, hcitable.1.2⟩, rfl⟩
    refine ⟨now, origins, hready.admitted, horigins, ?_, ?_⟩
    · intro href hhref
      obtain ⟨link, hlink, rfl⟩ := (hlinks href).mpr hhref
      rcases hfine link hlink with
        hexternal | ⟨objectId, htarget, hmem | ⟨entry, hentry⟩⟩
      · exact .inl hexternal
      · exact .inr ⟨objectId, htarget, .inr (hordinary objectId hmem).2⟩
      · obtain ⟨hmem, hidentity, hobject⟩ :=
          (objectEntry_iff hready.catalogued).mp hentry
        exact .inr ⟨objectId, htarget, .inl ⟨entry.artifact,
          entry.identity,
          deliverable_of_registered hready.registered hmem hidentity,
          hobject⟩⟩
    · intro required hmem
      apply met_of_no_issues hready _ (hrequired required hmem)
      intro entry hartifact hidentity
      have hentry : objectEntry catalog entry.identity.objectId =
          some entry :=
        (objectEntry_iff hready.catalogued).mpr ⟨hartifact, hidentity, rfl⟩
      rw [hlinked]
      constructor
      · rintro ⟨link, hlink, identity, ⟨objectId, found, htarget, -, hfound,
          rfl⟩, hkey⟩
        obtain ⟨-, hnormal, hobject⟩ :=
          (objectEntry_iff hready.catalogued).mp hfound
        have hsame := key_inj hnormal hidentity hkey
        rw [hsame] at hobject
        exact ⟨link.href, (hlinks _).mp ⟨link, hlink, rfl⟩,
          hobject ▸ htarget⟩
      · rintro ⟨href, hhref, htarget⟩
        obtain ⟨link, hlink, rfl⟩ := (hlinks href).mpr hhref
        refine ⟨link, hlink, entry.identity,
          ⟨entry.identity.objectId, entry, htarget, ?_, hentry, rfl⟩, rfl⟩
        intro hmemOrdinary
        have hnone := (hordinary _ hmemOrdinary).1
        rw [objectEntry, hnone] at hentry
        exact absurd hentry (by simp)
  · rw [hcheck] at h
    have hquiet := (decision_valid h).1
    rw [hbad] at hquiet
    exact absurd hquiet.symm Bool.false_ne_true

end Host

namespace DeliveryWitness

theorem final_delivery_sound_one :
    (checkFinalDelivery host (input [artifact 0x31])).status = .valid ∧
      ∃ now origins, admittedTime host (input [artifact 0x31]) = some now ∧
        (input [artifact 0x31]).managedOrigins.mapM (managedOrigin host) =
          some origins ∧
        Sound host (input [artifact 0x31]) now origins := by
  have hvalid :
      (checkFinalDelivery host (input [artifact 0x31])).status = .valid := by
    decide +kernel
  exact ⟨hvalid, final_delivery_sound host (input [artifact 0x31]) hvalid⟩

end DeliveryWitness

end FinalDelivery

end Allrice
