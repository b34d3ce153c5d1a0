/-
The order in which a snapshot lists its facts does not change what is decided
about a reply.
-/
import Allrice.DeliveryCatalog
import Allrice.FinalDeliveryText

namespace Allrice

namespace FinalDelivery

open FactText (FactRecord)

/-- The same facts, in any order. -/
structure SameFacts (left right : DeliverySnapshot) : Prop where
  scope : left.scope = right.scope
  complete : left.complete = right.complete
  authorization : left.authorization = right.authorization
  now : left.now = right.now
  ownedRunIds : left.ownedRunIds.Perm right.ownedRunIds
  explicitReferenceVersionIds :
    left.explicitReferenceVersionIds.Perm right.explicitReferenceVersionIds
  artifacts : left.artifacts.Perm right.artifacts
  checks : left.checks.Perm right.checks
  requirements : left.requirements.Perm right.requirements
  qualityReceipts : left.qualityReceipts.Perm right.qualityReceipts
  ordinaryFileCitations :
    left.ordinaryFileCitations.Perm right.ordinaryFileCitations

/-- What a decision says, apart from its diagnostics. -/
structure SameVerdict (left right : DeliveryDecision) : Prop where
  status : left.status = right.status
  linked : ∀ identity, identity ∈ left.linked ↔ identity ∈ right.linked
  textRepairEligible : left.textRepairEligible = right.textRepairEligible

section Host

variable {host : DeliveryHost} {left right : DeliverySnapshot}

theorem SameFacts.symm (h : SameFacts left right) : SameFacts right left where
  scope := h.scope.symm
  complete := h.complete.symm
  authorization := h.authorization.symm
  now := h.now.symm
  ownedRunIds := h.ownedRunIds.symm
  explicitReferenceVersionIds := h.explicitReferenceVersionIds.symm
  artifacts := h.artifacts.symm
  checks := h.checks.symm
  requirements := h.requirements.symm
  qualityReceipts := h.qualityReceipts.symm
  ordinaryFileCitations := h.ordinaryFileCitations.symm

theorem SameFacts.sets (h : SameFacts left right) :
    List.Forall₂ (fun first second => first.2.Perm second.2)
      left.facts.sets right.facts.sets :=
  .cons (h.ownedRunIds.map _) (.cons (h.explicitReferenceVersionIds.map _)
    (.cons (h.artifacts.map _) (.cons (h.checks.map _)
      (.cons (h.requirements.map _) (.cons (h.qualityReceipts.map _)
        (.cons (h.ordinaryFileCitations.map _) .nil))))))

theorem SameFacts.mentions (h : SameFacts left right) {value : JsValue}
    (hvalue : left.facts.Mentions value) : right.facts.Mentions value := by
  rcases hvalue with ⟨single, hsingle, hvalue⟩ | ⟨set, hset, hvalue⟩
  · refine .inl ⟨single, ?_, hvalue⟩
    have hsingles : left.facts.singles = right.facts.singles := by
      simp only [FactRecord.singles, DeliverySnapshot.facts, h.scope,
        h.complete, h.authorization]
    rwa [← hsingles]
  · obtain ⟨i, hi, rfl⟩ := List.getElem_of_mem hset
    obtain ⟨hlength, hall⟩ := List.forall₂_iff_get.1 h.sets
    exact .inr ⟨_, List.getElem_mem (hlength ▸ hi),
      (hall i hi (hlength ▸ hi)).mem_iff.1 hvalue⟩

/-- Whether the facts can be written does not depend on their order. -/
theorem SameFacts.serialize (h : SameFacts left right) :
    left.factsText.isSome = right.factsText.isSome := by
  have hspelled : ∀ snapshot : DeliverySnapshot,
      snapshot.factsText.isSome = true ↔ ¬snapshot.facts.Foreign := by
    intro snapshot
    rw [← FactText.spelled_facts, DeliverySnapshot.factsText]
    cases FactText.serializeFinalDeliveryFacts snapshot.facts with
    | ok text => exact iff_of_true rfl ⟨text, rfl⟩
    | error error =>
      exact iff_of_false Bool.false_ne_true FactText.not_spelled
  rw [Bool.eq_iff_iff, hspelled, hspelled, not_iff_not]
  constructor
  · rintro ⟨value, hvalue, hforeign⟩
    exact ⟨value, h.mentions hvalue, hforeign⟩
  · rintro ⟨value, hvalue, hforeign⟩
    exact ⟨value, h.symm.mentions hvalue, hforeign⟩

/-- The two inputs differ in the order of their facts only. -/
structure SameInput (left right : DeliveryInput) : Prop where
  candidate : left.candidate = right.candidate
  expectedScope : left.expectedScope = right.expectedScope
  managedOrigins : left.managedOrigins = right.managedOrigins
  facts : SameFacts left.snapshot right.snapshot

theorem SameInput.admittedTime {left right : DeliveryInput}
    (h : SameInput left right) :
    admittedTime host left = admittedTime host right := by
  have hfacts := h.facts
  simp only [FinalDelivery.admittedTime, h.expectedScope, hfacts.now,
    hfacts.serialize, hfacts.scope, hfacts.authorization, hfacts.complete,
    hfacts.artifacts.length_eq, hfacts.checks.length_eq,
    hfacts.requirements.length_eq, hfacts.ownedRunIds.length_eq,
    hfacts.explicitReferenceVersionIds.length_eq, hfacts.ownedRunIds.all_eq,
    hfacts.explicitReferenceVersionIds.all_eq, hfacts.ownedRunIds.any_eq]

theorem SameFacts.ownsRun (h : SameFacts left right)
    (runId : Option JsString) :
    ownsRun host left runId = ownsRun host right runId := by
  unfold FinalDelivery.ownsRun
  congr 1
  funext id
  exact (h.ownedRunIds.map _).contains_eq

theorem SameFacts.isReference (h : SameFacts left right)
    (versionId : JsString) :
    isReference host left versionId = isReference host right versionId :=
  (h.explicitReferenceVersionIds.map _).contains_eq

theorem SameFacts.isDeliverable (h : SameFacts left right) (now : Int)
    (artifact : DeliveryArtifact) (identity : ArtifactIdentity) :
    isDeliverable host left now artifact identity =
      isDeliverable host right now artifact identity := by
  simp only [FinalDelivery.isDeliverable, h.scope, h.ownsRun, h.isReference]

variable {catalog other : Catalog} {now : Int}
  {ordinary ordinary' : List JsString}

theorem SameFacts.registered (h : SameFacts left right)
    (hleft : Registered host left now left.artifacts) :
    Registered host right now right.artifacts := by
  apply Registered.perm h.artifacts
  refine ⟨?_, hleft.agree⟩
  intro artifact hartifact
  obtain ⟨identity, hidentity, hdeliverable⟩ := hleft.each artifact hartifact
  exact ⟨identity, hidentity, h.isDeliverable now artifact identity ▸
    hdeliverable⟩

theorem SameFacts.isChecked (h : SameFacts left right) (entry : CatalogEntry)
    (checkId : JsString) :
    isChecked host left entry checkId = isChecked host right entry checkId := by
  have hconcerns : concerns host left entry checkId =
      concerns host right entry checkId := by
    funext check
    simp only [concerns, h.scope]
  have hperm : (left.checks.filter (concerns host left entry checkId)).Perm
      (right.checks.filter (concerns host right entry checkId)) := by
    rw [hconcerns]
    exact h.checks.filter _
  simp only [FinalDelivery.isChecked, hperm.length_eq, hperm.any_eq]

/-- The issues of a requirement are read off the lookups. -/
theorem SameFacts.requirementIssues (h : SameFacts left right)
    (hlookup : catalog.artifacts.find? = other.artifacts.find?)
    (linked : Linked) (required : DeliveryRequirement) :
    requirementIssues host left catalog linked required =
      requirementIssues host right other linked required := by
  simp only [FinalDelivery.requirementIssues, requiredEntry, hlookup,
    h.ownsRun, h.isReference, h.isChecked]

theorem checkLink_congr
    (hartifacts : catalog.artifacts.find? = other.artifacts.find?)
    (hobjects : catalog.byObject.find? = other.byObject.find?)
    (hordinary : ordinary.Perm ordinary') (origins : List JsString) :
    checkLink host origins catalog ordinary =
      checkLink host origins other ordinary' := by
  funext state link
  simp only [checkLink, hartifacts, hobjects, hordinary.contains_eq]

theorem Formed.perm {ids : List JsString}
    {requirements other : List DeliveryRequirement}
    (hperm : requirements.Perm other) (h : Formed ids requirements) :
    Formed ids other where
  each required hrequired := h.each required (hperm.mem_iff.mpr hrequired)
  distinct := (hperm.map _).nodup_iff.mp h.distinct
  fresh required hrequired := h.fresh required (hperm.mem_iff.mpr hrequired)

/-- Logs that lead to one verdict. -/
structure SameLog (left right : IssueLog) : Prop where
  unavailable : left.evidenceUnavailable = right.evidenceUnavailable
  issues : left.evidenceUnavailable = false → left.issues.Perm right.issues

theorem SameLog.of_unavailable {left right : IssueLog}
    (hleft : left.evidenceUnavailable = true)
    (hright : right.evidenceUnavailable = true) : SameLog left right where
  unavailable := hleft.trans hright.symm
  issues hfalse := absurd (hleft.symm.trans hfalse).symm Bool.false_ne_true

theorem SameLog.verdict {left right : IssueLog} (h : SameLog left right)
    (input other : DeliveryInput) (linked : Linked) :
    SameVerdict (decision host input left linked)
      (decision host other right linked) := by
  cases hunavailable : left.evidenceUnavailable with
  | true =>
    have hright := h.unavailable ▸ hunavailable
    constructor
    · simp [decision, hunavailable, hright]
    · intro identity
      rfl
    · simp [decision, hunavailable, hright]
  | false =>
    have hright := h.unavailable ▸ hunavailable
    have hperm := h.issues hunavailable
    have hempty : left.issues.isEmpty = right.issues.isEmpty :=
      hperm.isEmpty_eq
    constructor
    · simp [decision, hunavailable, hright, hempty]
    · intro identity
      rfl
    · simp only [decision, hunavailable, hright, hempty, hperm.all_eq]

/-- Issues that are raised in another order. -/
theorem SameLog.issueAll {log : IssueLog} {values other : List DeliveryIssue}
    (hperm : values.Perm other) :
    SameLog (log.issueAll values) (log.issueAll other) := by
  have hfits : Fits log values ↔ Fits log other := by
    rw [Fits, Fits, hperm.length_eq, ← List.length_eq_zero_iff,
      hperm.length_eq, List.length_eq_zero_iff]
  by_cases hleft : Fits log values
  · have hquiet := (issueAll_quiet_iff log values).mpr hleft
    have hquiet' := (issueAll_quiet_iff log other).mpr (hfits.mp hleft)
    refine ⟨hquiet.trans hquiet'.symm, fun _ => ?_⟩
    rw [issueAll_issues hleft, issueAll_issues (hfits.mp hleft)]
    exact hperm.append_left _
  · apply SameLog.of_unavailable
    · by_contra hne
      exact hleft ((issueAll_quiet_iff log values).mp (by simpa using hne))
    · by_contra hne
      exact hleft (hfits.mpr
        ((issueAll_quiet_iff log other).mp (by simpa using hne)))

/-- The loop over the requirements. -/
theorem SameFacts.required (h : SameFacts left right)
    (hlookup : catalog.artifacts.find? = other.artifacts.find?)
    (linked : Linked) (log : IssueLog) :
    SameLog
      (left.requirements.foldl (checkRequirement host left catalog linked)
        (log, [])).1
      (right.requirements.foldl (checkRequirement host right other linked)
        (log, [])).1 := by
  rcases require_spec host left catalog linked log []
    left.requirements with ⟨hformed, hlast⟩ | ⟨hnot, hbad⟩
  · rcases require_spec host right other linked log []
      right.requirements with ⟨-, hlast'⟩ | ⟨hnot', -⟩
    · rw [hlast, hlast']
      have hissues : FinalDelivery.requirementIssues host left catalog linked =
          FinalDelivery.requirementIssues host right other linked := by
        funext required
        exact h.requirementIssues hlookup linked required
      rw [hissues]
      exact SameLog.issueAll (h.requirements.flatMap_right _)
    · exact absurd (hformed.perm h.requirements) hnot'
  · rcases require_spec host right other linked log []
      right.requirements with ⟨hformed', -⟩ | ⟨-, hbad'⟩
    · exact absurd (hformed'.perm h.requirements.symm) hnot
    · exact SameLog.of_unavailable hbad hbad'

/-- The reply is checked against the same lookups. -/
theorem SameInput.checkReply (host : DeliveryHost) {left right : DeliveryInput}
    (h : SameInput left right)
    (hartifacts : catalog.artifacts.find? = other.artifacts.find?)
    (hobjects : catalog.byObject.find? = other.byObject.find?)
    (hordinary : ordinary.Perm ordinary') (log : IssueLog) :
    SameLog (checkReply host left catalog ordinary log).1
        (checkReply host right other ordinary' log).1 ∧
      (checkReply host left catalog ordinary log).2 =
        (checkReply host right other ordinary' log).2 := by
  have hlinks : candidateLinks host left = candidateLinks host right := by
    simp only [candidateLinks, h.candidate, h.managedOrigins]
  simp only [FinalDelivery.checkReply, hlinks, h.candidate,
    checkLink_congr hartifacts hobjects hordinary]
  cases candidateLinks host right with
  | none => exact ⟨⟨rfl, fun _ => List.Perm.refl _⟩, rfl⟩
  | some found => exact ⟨h.facts.required hartifacts _ _, rfl⟩

theorem SameInput.ready {left right : DeliveryInput} (h : SameInput left right)
    (hready : Ready host left now catalog) : Ready host right now catalog where
  admitted := h.admittedTime ▸ hready.admitted
  registered := h.facts.registered hready.registered
  catalogued := hready.catalogued.perm h.facts.artifacts
  bound := h.facts.ordinaryFileCitations.length_eq ▸ hready.bound
  citable citation hcitation := hready.citable citation
    (h.facts.ordinaryFileCitations.mem_iff.mpr hcitation)

theorem SameInput.symm {left right : DeliveryInput}
    (h : SameInput left right) : SameInput right left :=
  ⟨h.candidate.symm, h.expectedScope.symm, h.managedOrigins.symm,
    h.facts.symm⟩

/-- The verdict does not depend on the order of the facts. -/
theorem final_delivery_order (host : DeliveryHost)
    {left right : DeliveryInput} (h : SameInput left right) :
    SameVerdict (checkFinalDelivery host left)
      (checkFinalDelivery host right) := by
  rcases checkFinalDelivery_spec host left with
    ⟨now, catalog, hready, hleft⟩ | ⟨hnot, log, hbad, hleft⟩
  · rcases checkFinalDelivery_spec host right with
      ⟨now', other, hready', hright⟩ | ⟨hnot', -⟩
    · obtain ⟨hartifacts, hobjects⟩ :=
        (hready.catalogued.perm h.facts.artifacts).lookups hready'.catalogued
      have hordinary : (ordinaryFiles host left).Perm
          (ordinaryFiles host right) :=
        h.facts.ordinaryFileCitations.map _
      obtain ⟨hlog, hlinked⟩ := h.checkReply host hartifacts hobjects
        hordinary IssueLog.empty
      rw [hleft, hright]
      simp only [hlinked]
      exact hlog.verdict _ _ _
    · exact absurd (h.ready hready) (hnot' now catalog)
  · rcases checkFinalDelivery_spec host right with
      ⟨now', other, hready', -⟩ | ⟨-, log', hbad', hright⟩
    · exact absurd (h.symm.ready hready') (hnot now' other)
    · rw [hleft, hright]
      exact (SameLog.of_unavailable hbad hbad').verdict _ _ _

end Host

namespace DeliveryWitness

theorem final_delivery_order_swapped :
    SameInput (input [artifact 0x31, artifact 0x32])
        (input [artifact 0x32, artifact 0x31]) ∧
      SameVerdict
        (checkFinalDelivery host (input [artifact 0x31, artifact 0x32]))
        (checkFinalDelivery host (input [artifact 0x32, artifact 0x31])) := by
  have hsame : SameInput (input [artifact 0x31, artifact 0x32])
      (input [artifact 0x32, artifact 0x31]) := by
    refine ⟨rfl, rfl, rfl, ⟨rfl, rfl, rfl, rfl, ?_, ?_, ?_, ?_, ?_, ?_, ?_⟩⟩
    · exact List.Perm.refl _
    · exact List.Perm.refl _
    · exact List.Perm.swap _ _ _
    · exact List.Perm.refl _
    · exact List.Perm.refl _
    · exact List.Perm.refl _
    · exact List.Perm.refl _
  exact ⟨hsame, final_delivery_order host hsame⟩

end DeliveryWitness

end FinalDelivery

end Allrice
