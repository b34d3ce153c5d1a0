/-
What the router selects.  The best authorized candidate is first in the order of
the router; the direct answer, which stands in for it where nothing was named,
is a good choice exactly where the employee may invoke the model at all.
-/
import Allrice.CapabilityRouter

namespace Allrice.CapabilityRouter

section Local

variable {locale : Locale}

/-- The plan's candidate may be used, and no other one that may comes first. -/
def PicksBest (locale : Locale) (plan : CapabilityRoutePlan) : Prop :=
  ∃ selected ∈ plan.candidates,
    selected.id = plan.selectedCandidateId ∧
      selected.kind = plan.selectedKind ∧ selected.authorized = true ∧
        ∀ other ∈ plan.candidates, other.authorized = true →
          compareRoutes locale other selected ≠ .lt

/-- The model may be invoked, or the request names a capability that it may
use. -/
def MayAnswer (locale : Locale) (input : RouteInput) : Prop :=
  .modelInvoke ∈ input.grantedCapabilities ∨
    ∃ facts ∈ input.capabilityFacts, facts.candidate.authorized = true ∧
      1 < (scoreCandidate locale (normalize locale input.request.prompt)
        facts).score

/-- The order is one, as far as the locale's is. -/
theorem compareRoutes_trans : Std.TransCmp (compareRoutes locale) := by
  have hlocale := locale.compare_trans
  have hscore : Std.TransCmp fun left right : RouteCandidate =>
      compare right.score left.score :=
    { eq_swap := Std.OrientedCmp.eq_swap
      isLE_trans := fun hfirst hsecond => Std.TransCmp.isLE_trans hsecond hfirst }
  have hkind : Std.TransCmp fun left right : RouteCandidate =>
      compare (kindPriority left.kind) (kindPriority right.kind) :=
    { eq_swap := Std.OrientedCmp.eq_swap
      isLE_trans := Std.TransCmp.isLE_trans }
  have hid : Std.TransCmp fun left right : RouteCandidate =>
      locale.localeCompare left.id right.id :=
    { eq_swap := hlocale.eq_swap
      isLE_trans := hlocale.isLE_trans }
  exact inferInstanceAs (Std.TransCmp (compareLex _ (compareLex _ _)))

theorem compareRoutes_self (candidate : RouteCandidate) :
    compareRoutes locale candidate candidate = .eq := by
  have htrans := @compareRoutes_trans locale
  exact Std.ReflCmp.compare_self

theorem compareRoutes_swap (left right : RouteCandidate) :
    compareRoutes locale left right = (compareRoutes locale right left).swap := by
  have htrans := @compareRoutes_trans locale
  exact Std.OrientedCmp.eq_swap

theorem authorizedRoutes_perm (candidates : List RouteCandidate) :
    (authorizedRoutes locale candidates).Perm
      (candidates.filter RouteCandidate.authorized) :=
  List.mergeSort_perm _ _

variable {candidates : List RouteCandidate}
  {candidate left right : RouteCandidate}

/-- Nothing comes before the first one. -/
theorem first_of_authorized {rest : List RouteCandidate} {best : RouteCandidate}
    (h : authorizedRoutes locale candidates = best :: rest)
    {other : RouteCandidate} (hother : other ∈ candidates)
    (hauthorized : other.authorized = true) :
    compareRoutes locale other best ≠ .lt := by
  have htrans := @compareRoutes_trans locale
  have hmem : other ∈ best :: rest := by
    rw [← h, (authorizedRoutes_perm candidates).mem_iff, List.mem_filter]
    exact ⟨hother, hauthorized⟩
  have hsorted : (best :: rest).Pairwise fun left right =>
      (compareRoutes locale left right).isLE = true := by
    rw [← h]
    apply List.pairwise_mergeSort
    · intro first second third
      exact Std.TransCmp.isLE_trans
    · intro first second
      rw [compareRoutes_swap second first]
      cases compareRoutes locale first second with
      | lt | eq | gt => rfl
  intro hlt
  rcases List.mem_cons.1 hmem with rfl | hmem
  · rw [compareRoutes_self] at hlt
    cases hlt
  · have hle := (List.pairwise_cons.1 hsorted).1 other hmem
    rw [compareRoutes_swap, hlt] at hle
    cases hle

theorem parseCandidate_eq_ok {parsed : RouteCandidate}
    (h : parseCandidate candidate = .ok parsed) :
    parsed.kind = candidate.kind ∧ parsed.authorized = candidate.authorized ∧
      parsed.score = candidate.score := by
  unfold parseCandidate at h
  simp only at h
  split at h
  · obtain rfl := Except.ok.inj h
    exact ⟨rfl, rfl, rfl⟩
  · cases h

/-- A candidate that is shown is what its facts say. -/
structure Shows (locale : Locale) (prompt : JsString) (facts : CandidateFacts)
    (candidate : RouteCandidate) : Prop where
  kind : candidate.kind = facts.candidate.kind
  authorized : candidate.authorized = facts.candidate.authorized
  score : candidate.score = (scoreCandidate locale prompt facts).score

variable {input : RouteInput} {prompt : JsString} {facts : CandidateFacts}
  {plan : CapabilityRoutePlan}

theorem scored_eq_ok (h : scored locale prompt facts = .ok candidate) :
    Shows locale prompt facts candidate := by
  unfold scored at h
  cases hparse : parseCandidate facts.candidate with
  | error error =>
    rw [hparse] at h
    cases h
  | ok parsed =>
    rw [hparse] at h
    obtain ⟨hkind, hauthorized, hscore⟩ := parseCandidate_eq_ok hparse
    obtain ⟨hkind', hauthorized', hscore'⟩ :=
      @parseCandidate_eq_ok _ candidate h
    exact ⟨hkind'.trans hkind, hauthorized'.trans hauthorized, hscore'⟩

theorem mapM_forall₂ {facts : List CandidateFacts}
    (h : facts.mapM (scored locale prompt) = .ok candidates) :
    List.Forall₂ (Shows locale prompt) facts candidates := by
  induction facts generalizing candidates with
  | nil =>
    obtain rfl := Except.ok.inj h
    exact .nil
  | cons first rest ih =>
    rw [List.mapM_cons] at h
    cases hfirst : scored locale prompt first with
    | error error =>
      rw [hfirst] at h
      cases h
    | ok candidate =>
      rw [hfirst] at h
      cases hrest : rest.mapM (scored locale prompt) with
      | error error =>
        rw [hrest] at h
        cases h
      | ok others =>
        rw [hrest] at h
        obtain rfl := Except.ok.inj h
        exact .cons (scored_eq_ok hfirst) (ih hrest)

/-- Only the direct answer scores one. -/
theorem score_of_not_direct (prompt : JsString)
    (h : facts.candidate.kind ≠ .direct) :
    (scoreCandidate locale prompt facts).score ≠ 1 := by
  unfold scoreCandidate
  simp only [if_neg h]
  split
  · split
    · decide
    · decide
  · split
    · decide
    · decide

theorem capabilityFacts_kind (h : facts ∈ input.capabilityFacts) :
    facts.candidate.kind ≠ .direct := by
  unfold RouteInput.capabilityFacts at h
  rcases List.mem_append.1 h with hknowledge | htool
  · split at hknowledge
    · split at hknowledge
      · obtain ⟨binding, -, rfl⟩ := List.mem_map.1 hknowledge
        exact RouteKind.noConfusion
      · cases hknowledge
    · cases hknowledge
  · obtain ⟨tool, -, rfl⟩ := List.mem_map.1 htool
    exact RouteKind.noConfusion

theorem direct_authorized (input : RouteInput) :
    input.directFacts.candidate.authorized = true ↔
      .modelInvoke ∈ input.grantedCapabilities := by
  unfold RouteInput.directFacts RouteInput.candidate authorization
  simp only [Bool.true_eq_false, if_false, List.all_cons, List.all_nil,
    Bool.and_true, Bool.false_eq_true, false_and]
  split
  · rename_i hdenied
    constructor
    · nofun
    · intro hgranted
      rw [List.contains_iff_mem.2 hgranted] at hdenied
      cases hdenied
  · rename_i hgranted
    constructor
    · intro _
      exact List.contains_iff_mem.1 (Bool.of_not_eq_false hgranted)
    · intro _
      rfl

/-- What a plan was made of. -/
structure Planned (locale : Locale) (input : RouteInput)
    (plan : CapabilityRoutePlan) (direct best : RouteCandidate)
    (others : List RouteCandidate) : Prop where
  candidates : plan.candidates = direct :: others
  answer : Shows locale (normalize locale input.request.prompt)
    input.directFacts direct
  shown : List.Forall₂ (Shows locale (normalize locale input.request.prompt))
    input.capabilityFacts others
  first : ∃ rest, authorizedRoutes locale (direct :: others) = best :: rest
  id : plan.selectedCandidateId = (selectRoute (direct :: others) best).id
  kind : plan.selectedKind = (selectRoute (direct :: others) best).kind

theorem decide_eq_ok (h : decideCapabilityRoute locale input = .ok plan) :
    ∃ direct best others, Planned locale input plan direct best others := by
  unfold decideCapabilityRoute at h
  simp only [pure, bind, Except.bind, Except.pure, throw, throwThe,
    MonadExceptOf.throw] at h
  split at h
  · cases h
  · split at h
    · cases h
    · split at h
      · cases h
      · split at h
        · cases h
        · rename_i candidates hcandidates
          split at h
          · cases h
          · rename_i best rest hbest
            obtain rfl := Except.ok.inj h
            cases mapM_forall₂ hcandidates with
            | cons hdirect hothers =>
              exact ⟨_, best, _, rfl, hdirect, hothers, ⟨rest, hbest⟩, rfl,
                rfl⟩

/-- Every other candidate has facts, and the other way round. -/
theorem exists_facts {facts : List CandidateFacts}
    {others : List RouteCandidate}
    (h : List.Forall₂ (Shows locale prompt) facts others) :
    (∀ other ∈ others, ∃ fact ∈ facts, Shows locale prompt fact other) ∧
      ∀ fact ∈ facts, ∃ other ∈ others, Shows locale prompt fact other := by
  induction h with
  | nil => exact ⟨by simp, by simp⟩
  | cons hfirst hrest ih =>
    constructor
    · intro other hother
      rcases List.mem_cons.1 hother with rfl | hother
      · exact ⟨_, List.mem_cons_self, hfirst⟩
      · obtain ⟨fact, hfact, hshows⟩ := ih.1 other hother
        exact ⟨fact, List.mem_cons_of_mem _ hfact, hshows⟩
    · intro fact hfact
      rcases List.mem_cons.1 hfact with rfl | hfact
      · exact ⟨_, List.mem_cons_self, hfirst⟩
      · obtain ⟨other, hother, hshows⟩ := ih.2 fact hfact
        exact ⟨other, List.mem_cons_of_mem _ hother, hshows⟩

/-- The order looks at the score first. -/
theorem compare_of_score (h : left.score < right.score) :
    compareRoutes locale left right = .gt := by
  unfold compareRoutes
  rw [Nat.compare_eq_gt.2 h]
  rfl

theorem score_le_of_not_lt (h : compareRoutes locale left right ≠ .lt) :
    left.score ≤ right.score := by
  by_contra hnot
  apply h
  unfold compareRoutes
  rw [Nat.compare_eq_lt.2 (by omega)]
  rfl

/-- A plan picks the best authorized candidate exactly when the model may be
invoked, or the request names something that may be used. -/
theorem picksBest_iff (h : decideCapabilityRoute locale input = .ok plan) :
    PicksBest locale plan ↔ MayAnswer locale input := by
  obtain ⟨direct, best, others, hplan⟩ := decide_eq_ok h
  obtain ⟨rest, hbest⟩ := hplan.first
  obtain ⟨hshown, hshows⟩ := exists_facts hplan.shown
  have hbestMem : best ∈ (direct :: others).filter RouteCandidate.authorized := by
    rw [← (@authorizedRoutes_perm locale _).mem_iff, hbest]
    exact List.mem_cons_self
  obtain ⟨hbestIn, hbestAuthorized⟩ := List.mem_filter.1 hbestMem
  have hscore : direct.score = 1 := hplan.answer.score
  constructor
  · rintro ⟨selected, hselected, -, hkind, hauthorized, -⟩
    by_contra hnone
    have hdirect : direct.authorized = false := by
      rw [hplan.answer.authorized, Bool.eq_false_iff]
      exact fun hgranted => hnone (.inl ((direct_authorized input).1 hgranted))
    have hlow : best.score ≤ 1 := by
      rcases List.mem_cons.1 hbestIn with rfl | hother
      · omega
      · obtain ⟨facts, hfacts, hshow⟩ := hshown best hother
        by_contra hhigh
        refine hnone (.inr ⟨facts, hfacts, ?_, ?_⟩)
        · rw [← hshow.authorized]
          exact hbestAuthorized
        · rw [← hshow.score]
          omega
    have hselect : selectRoute (direct :: others) best = direct :=
      if_neg (by omega)
    rw [hplan.kind, hselect, hplan.answer.kind] at hkind
    rw [hplan.candidates] at hselected
    rcases List.mem_cons.1 hselected with rfl | hother
    · rw [hdirect] at hauthorized
      cases hauthorized
    · obtain ⟨facts, hfacts, hshow⟩ := hshown selected hother
      exact capabilityFacts_kind hfacts (hshow.kind.symm.trans hkind)
  · intro hmay
    refine ⟨selectRoute (direct :: others) best, ?_, hplan.id.symm,
      hplan.kind.symm, ?_⟩
    · rw [hplan.candidates]
      unfold selectRoute
      split
      · exact hbestIn
      · exact List.mem_cons_self
    · rw [hplan.candidates]
      unfold selectRoute
      split
      · exact ⟨hbestAuthorized, fun other hother hauthorized =>
          first_of_authorized hbest hother hauthorized⟩
      · rename_i hlow
        have hnotHigher : ∀ other ∈ direct :: others,
            other.authorized = true → other.score ≤ 1 := by
          intro other hother hauthorized
          have hle := score_le_of_not_lt
            (first_of_authorized hbest hother hauthorized)
          omega
        have hgranted : direct.authorized = true := by
          rcases hmay with hgranted | ⟨facts, hfacts, hauthorized, hhigh⟩
          · rw [hplan.answer.authorized]
            exact (direct_authorized input).2 hgranted
          · obtain ⟨other, hother, hshow⟩ := hshows facts hfacts
            have hle := hnotHigher other (List.mem_cons_of_mem _ hother)
              (hshow.authorized.trans hauthorized)
            rw [hshow.score] at hle
            omega
        refine ⟨hgranted, fun other hother hauthorized => ?_⟩
        rcases List.mem_cons.1 hother with rfl | hmem
        · change compareRoutes locale other other ≠ .lt
          rw [compareRoutes_self]
          decide
        · obtain ⟨facts, hfacts, hshow⟩ := hshown other hmem
          have hle := hnotHigher other hother hauthorized
          have hne : other.score ≠ 1 := by
            rw [hshow.score]
            exact score_of_not_direct _ (capabilityFacts_kind hfacts)
          change compareRoutes locale other direct ≠ .lt
          rw [compare_of_score (by omega)]
          decide

/-- A plan has a candidate that may be used. -/
theorem exists_authorized (h : decideCapabilityRoute locale input = .ok plan) :
    ∃ facts ∈ input.directFacts :: input.capabilityFacts,
      facts.candidate.authorized = true := by
  obtain ⟨direct, best, others, hplan⟩ := decide_eq_ok h
  obtain ⟨rest, hbest⟩ := hplan.first
  have hmem : best ∈ (direct :: others).filter RouteCandidate.authorized := by
    rw [← (@authorizedRoutes_perm locale _).mem_iff, hbest]
    exact List.mem_cons_self
  obtain ⟨hbestIn, hauthorized⟩ := List.mem_filter.1 hmem
  obtain ⟨facts, hfacts, hshow⟩ :=
    (exists_facts (.cons hplan.answer hplan.shown)).1 best hbestIn
  exact ⟨facts, hfacts, hshow.authorized.symm.trans hauthorized⟩

end Local

/-- A plan picks the best authorized candidate exactly when the model may be
invoked or the request names something that may be used; without an authorized
candidate there is no plan. -/
theorem route_picks_best (locale : Locale) (input : RouteInput) :
    (∀ plan, decideCapabilityRoute locale input = .ok plan →
        (PicksBest locale plan ↔ MayAnswer locale input)) ∧
      ((∀ facts ∈ input.directFacts :: input.capabilityFacts,
          facts.candidate.authorized = false) →
        ∀ plan, decideCapabilityRoute locale input ≠ .ok plan) := by
  constructor
  · intro plan hplan
    exact picksBest_iff hplan
  · intro hnone plan hplan
    obtain ⟨facts, hfacts, hauthorized⟩ := exists_authorized hplan
    rw [hnone facts hfacts] at hauthorized
    cases hauthorized

namespace Reader

/-- Texts in the order of their units, and no case. -/
def locale : Locale where
  toLocaleLowerCase := id
  localeCompare := compare
  compare_trans := inferInstance

def snapshot : ExecutionSnapshot where
  version2 := true
  workflowInvocation := false
  organizationId := text "o"
  workspaceId := text "w"
  actorId := text "a"
  employeeId := text "e"
  securityPolicy := some ⟨.confirmExternal, []⟩
  grantedCapabilities := [.storageRead]
  knowledge := []

def input : RouteInput where
  request := ⟨text "o", text "w", text "a", text "e", text "Hi"⟩
  executionSnapshot := some snapshot
  tools := [⟨text "workspace.file.list", text "List files", .storageRead⟩]
  nativeScheduling := false

def tool : RouteCandidate :=
  input.candidate (text "tool:workspace.file.list") .tool
    (text "workspace.file.list") none .storageRead false true true true 0

theorem shown :
    (input.directFacts :: input.capabilityFacts).mapM
        (scored locale (normalize locale input.request.prompt)) =
      .ok [input.directFacts.candidate, tool] := by
  decide

theorem authorized :
    authorizedRoutes locale [input.directFacts.candidate, tool] = [tool] := by
  have hfilter : [input.directFacts.candidate, tool].filter
      RouteCandidate.authorized = [tool] := by
    decide
  rw [authorizedRoutes, hfilter, List.mergeSort_singleton]

theorem accepted : ∃ plan, decideCapabilityRoute locale input = .ok plan := by
  unfold decideCapabilityRoute
  simp only [shown, authorized, bind, Except.bind, pure, Except.pure, throw,
    throwThe, MonadExceptOf.throw]
  rw [if_neg (by decide), if_neg (by decide), if_neg (by decide)]
  exact ⟨_, rfl⟩

/-- The request names nothing, and the answer that is planned is one that the
employee may not give. -/
theorem picks_unauthorized :
    ¬∀ (locale : Locale) (input : RouteInput) (plan : CapabilityRoutePlan),
      decideCapabilityRoute locale input = .ok plan →
        PicksBest locale plan := by
  intro hall
  obtain ⟨plan, hplan⟩ := accepted
  rcases (picksBest_iff hplan).1 (hall locale input plan hplan) with
    hgranted | ⟨facts, hfacts, -, hhigh⟩
  · cases hgranted with
    | tail _ hrest => cases hrest
  · obtain rfl := List.mem_singleton.1 hfacts
    revert hhigh
    decide

end Reader

end Allrice.CapabilityRouter
