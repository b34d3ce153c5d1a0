/-
What a summary of attached sessions can be trusted for.  The walk ends, since
every catalog is put on the work list once at most; a child is one that the
catalog of a trusted session names; and no entry of a trusted session is lost.
-/
import Allrice.LiveSubagents

namespace Allrice.LiveSubagents

section Query

variable {δ : Type} {registry : Registry δ} {rootId : JsString}

/-- The rows that are children, in the order in which they are listed. -/
def childIds (descendants : List (Descendant δ)) : List JsString :=
  descendants.filterMap Descendant.childId

/-- A child's session and its parent's are attached, and the parent's catalog
has the child as it is. -/
structure Named (registry : Registry δ) (summary : ChildSummary δ) : Prop where
  attached : summary.id ∈ registry.attached
  parentAttached : summary.parentId ∈ registry.attached
  entry : ∃ child parent catalog,
    registry.observeSession summary.id = .ok child ∧
    registry.observeSession summary.parentId = .ok parent ∧
    child.header.id = summary.id ∧
    child.header.parentSession = some summary.parentId ∧
    parent.catalog = some catalog ∧
    ∃ entry ∈ catalog, entry.id = summary.id ∧ entry.mode = summary.mode ∧
      entry.label = summary.label ∧
      entry.createdAt = child.header.createdAt

/-- Every child stands behind its parent, and is named by it. -/
def Grounded (registry : Registry δ) (rootId : JsString)
    (descendants : List (Descendant δ)) : Prop :=
  ∀ front summary back,
    descendants = front ++ Descendant.child summary :: back →
    (summary.parentId = rootId ∨ summary.parentId ∈ childIds front) ∧
      Named registry summary

/-- An entry of a session's catalog has a row. -/
def Listed (descendants : List (Descendant δ)) (id : JsString)
    (entry : CatalogEntry) : Prop :=
  ∃ row ∈ descendants, row.id = entry.id ∧ row.parentId = id

structure Verified (registry : Registry δ) (summary : Summary δ) : Prop where
  once : (childIds summary.descendants).Nodup
  notRoot : summary.rootId ∉ childIds summary.descendants
  grounded : Grounded registry summary.rootId summary.descendants
  complete : ∀ id, id = summary.rootId ∨ id ∈ childIds summary.descendants →
    ∀ session, registry.observeSession id = .ok session →
      ∀ entry ∈ session.catalog.getD [],
        entry.id = summary.rootId ∨ entry.id ∈ childIds summary.descendants ∨
          Listed summary.descendants id entry

/-- The walk has observed some more sessions, and nothing else. -/
structure Observes (registry : Registry δ) (w t : Walk δ) : Prop where
  more : ∃ ids, t = { w with observed := w.observed ++ ids }
  attached : ∀ id ∈ t.observed, id ∈ registry.attached

theorem Observes.trans {w t u : Walk δ} (hfirst : Observes registry w t)
    (hsecond : Observes registry t u) : Observes registry w u := by
  obtain ⟨ids, rfl⟩ := hfirst.more
  obtain ⟨others, rfl⟩ := hsecond.more
  refine ⟨⟨ids ++ others, ?_⟩, hsecond.attached⟩
  rw [List.append_assoc]

theorem observe_spec {w t : Walk δ} {id : JsString}
    {result : Except QueryError (Observation δ)}
    (hattached : ∀ id ∈ w.observed, id ∈ registry.attached)
    (h : observe registry w id = (t, result)) :
    Observes registry w t ∧ ∀ session, result = .ok session →
      registry.observeSession id = .ok session ∧ id ∈ registry.attached := by
  have hsame : Observes registry w w := by
    refine ⟨⟨[], ?_⟩, hattached⟩
    rw [List.append_nil]
  unfold observe at h
  split at h
  · rename_i hkept
    obtain ⟨rfl, rfl⟩ := Prod.mk.inj h
    exact ⟨hsame, fun session hsession => ⟨hsession, hattached id hkept.1⟩⟩
  · split at h
    · obtain ⟨rfl, rfl⟩ := Prod.mk.inj h
      refine ⟨hsame, fun session hsession => ?_⟩
      cases hsession
    · rename_i hlive
      have hlive := not_not.1 hlive
      obtain ⟨rfl, rfl⟩ := Prod.mk.inj h
      refine ⟨⟨⟨[id], rfl⟩, ?_⟩, fun session hsession => ⟨hsession, hlive⟩⟩
      intro other hother
      rcases List.mem_append.1 hother with hother | hother
      · exact hattached other hother
      · rw [List.mem_singleton.1 hother]
        exact hlive

theorem verified_named {row : Row} {child parent : Observation δ}
    {summary : ChildSummary δ} {root : Observation δ}
    (h : verified row child parent = true)
    (hsummary : summarize registry root row child parent = some summary)
    (hchild : registry.observeSession row.id = .ok child)
    (hparent : registry.observeSession row.parentId = .ok parent)
    (hattached : row.id ∈ registry.attached)
    (hparentAttached : row.parentId ∈ registry.attached) :
    summary.id = row.id ∧ summary.parentId = row.parentId ∧
      Named registry summary := by
  unfold summarize at hsummary
  simp only at hsummary
  split at hsummary
  · cases hsummary
  · obtain ⟨shown, hshown, rfl⟩ := Option.map_eq_some_iff.1 hsummary
    rw [verified, Bool.and_eq_true, Bool.and_eq_true, beq_iff_eq,
      beq_iff_eq] at h
    obtain ⟨⟨hid, hparentSession⟩, hidentity⟩ := h
    obtain ⟨identity, -, hidentity⟩ := (Option.any_eq_true _ _).1 hidentity
    simp only [Bool.and_eq_true, beq_iff_eq] at hidentity
    obtain ⟨⟨⟨hmode, hlabel⟩, -⟩, hcatalog⟩ := hidentity
    obtain ⟨catalog, hcatalog, hentry⟩ := (Option.any_eq_true _ _).1 hcatalog
    obtain ⟨entry, hmem, hentry⟩ := List.any_eq_true.1 hentry
    simp only [Bool.and_eq_true, beq_iff_eq] at hentry
    obtain ⟨⟨⟨hentryId, hentryMode⟩, hentryLabel⟩, hcreated⟩ := hentry
    exact ⟨rfl, rfl, hattached, hparentAttached, child, parent, catalog, hchild,
      hparent, hid, hparentSession, hcatalog, entry, hmem, hentryId,
      hentryMode.trans hmode, hentryLabel.trans hlabel, hcreated⟩

/-- What a visit finds: a child that has been verified, with its catalog. -/
def Found (registry : Registry δ) (row : Row) : Visit δ → Prop
  | .child summary rows =>
    summary.id = row.id ∧ summary.parentId = row.parentId ∧
      Named registry summary ∧
        ∃ child, registry.observeSession row.id = .ok child ∧
          liveChildren child row.id (row.depth + 1) = some rows
  | .mismatch => True
  | .failed _ => True

theorem visit_spec {root : Observation δ} {row : Row} {w : Walk δ}
    (hattached : ∀ id ∈ w.observed, id ∈ registry.attached) :
    Observes registry w (visit registry root row w).1 ∧
      Found registry row (visit registry root row w).2 := by
  unfold visit
  cases hchild : observe registry w row.id with
  | mk t result =>
    obtain ⟨hfirst, hfound⟩ := observe_spec hattached hchild
    cases result with
    | error error => exact ⟨hfirst, trivial⟩
    | ok child =>
      cases hparent : observe registry t row.parentId with
      | mk u result =>
        obtain ⟨hsecond, hfoundParent⟩ :=
          observe_spec hfirst.attached hparent
        have hobserves := hfirst.trans hsecond
        cases result with
        | error error =>
          simp only [hparent]
          exact ⟨hobserves, trivial⟩
        | ok parent =>
          obtain ⟨hchild, hlive⟩ := hfound child rfl
          obtain ⟨hparentSession, hparentLive⟩ :=
            hfoundParent parent rfl
          simp only [hparent]
          split
          · exact ⟨hobserves, trivial⟩
          · rename_i hverified
            rw [Bool.not_eq_false] at hverified
            split
            · exact ⟨hobserves, trivial⟩
            · exact ⟨hobserves, trivial⟩
            · rename_i summary rows hsummary hrows
              obtain ⟨hid, hparentId, hnamed⟩ := verified_named
                hverified hsummary hchild hparentSession hlive
                hparentLive
              exact ⟨hobserves, hid, hparentId, hnamed, child, hchild,
                hrows⟩

/-- An entry that is a child already, has a row, or will get one. -/
def Covered (w : Walk δ) (id : JsString) (entry : CatalogEntry) : Prop :=
  entry.id ∈ w.trusted ∨ Listed w.descendants id entry ∨
    ∃ row ∈ w.pending, row.id = entry.id ∧ row.parentId = id

structure Walked (registry : Registry δ) (rootId : JsString) (w : Walk δ) :
    Prop where
  observed : ∀ id ∈ w.observed, id ∈ registry.attached
  trusted : w.trusted = (childIds w.descendants).reverse ++ [rootId]
  distinct : w.trusted.Nodup
  grounded : Grounded registry rootId w.descendants
  covered : ∀ id ∈ w.trusted, ∀ session,
    registry.observeSession id = .ok session →
      ∀ entry ∈ session.catalog.getD [], Covered w id entry

/-- How many entries a session's catalog has. -/
def weight (registry : Registry δ) (id : JsString) : ℕ :=
  match registry.observeSession id with
  | .ok session => (session.catalog.getD []).length
  | .error _ => 0

/-- The rows that may still come: those on the list, and the catalogs of the
sessions that are not trusted yet. -/
def budget (registry : Registry δ) (w : Walk δ) : ℕ :=
  w.pending.length +
    ((registry.attached.filter (· ∉ w.trusted)).map (weight registry)).sum

theorem sum_without {attached trusted : List JsString} {id : JsString}
    (hattached : id ∈ attached) (hnew : id ∉ trusted) (f : JsString → ℕ) :
    ((attached.filter (· ∉ id :: trusted)).map f).sum + f id ≤
      ((attached.filter (· ∉ trusted)).map f).sum := by
  induction attached with
  | nil => cases hattached
  | cons first rest ih =>
    have hrest : ((rest.filter (· ∉ id :: trusted)).map f).sum ≤
        ((rest.filter (· ∉ trusted)).map f).sum := by
      apply List.Sublist.sum_le_sum
      · apply List.Sublist.map
        apply List.monotone_filter_right
        intro other hother
        simp only [List.mem_cons, not_or, decide_eq_true_eq] at hother ⊢
        exact hother.2
      · intro amount _
        exact Nat.zero_le amount
    rw [List.filter_cons, List.filter_cons]
    by_cases hsame : first = id
    · subst hsame
      rw [if_neg (by simp), if_pos (by simpa using hnew), List.map_cons,
        List.sum_cons]
      omega
    · have hmem : id ∈ rest := by
        rcases List.mem_cons.1 hattached with hfirst | hmem
        · exact absurd hfirst.symm hsame
        · exact hmem
      have hlater := ih hmem
      by_cases hold : first ∈ trusted
      · rw [if_neg (by simp [hold]), if_neg (by simp [hold])]
        exact hlater
      · rw [if_pos (by simp [hold, hsame]), if_pos (by simp [hold]),
          List.map_cons, List.map_cons, List.sum_cons, List.sum_cons]
        omega

theorem childIds_append (first second : List (Descendant δ)) :
    childIds (first ++ second) = childIds first ++ childIds second :=
  List.filterMap_append

/-- A row at the end of the list. -/
theorem Grounded.diagnosed {descendants : List (Descendant δ)}
    (h : Grounded registry rootId descendants) (id parentId : JsString)
    (depth : ℕ) (reason : Reason) :
    Grounded registry rootId
      (descendants ++ [Descendant.diagnostic id parentId depth reason]) := by
  intro front summary back hsplit
  rcases List.eq_nil_or_concat back with rfl | ⟨others, last, rfl⟩
  · have hlast := (List.append_inj' hsplit rfl).2
    cases hlast
  · rw [List.concat_eq_append, ← List.cons_append, ← List.append_assoc]
      at hsplit
    exact h front summary others (List.append_inj' hsplit rfl).1

theorem Grounded.child {descendants : List (Descendant δ)}
    (h : Grounded registry rootId descendants) {summary : ChildSummary δ}
    (hparent : summary.parentId = rootId ∨
      summary.parentId ∈ childIds descendants)
    (hnamed : Named registry summary) :
    Grounded registry rootId (descendants ++ [Descendant.child summary]) := by
  intro front other back hsplit
  rcases List.eq_nil_or_concat back with rfl | ⟨others, last, rfl⟩
  · obtain ⟨rfl, hlast⟩ := List.append_inj' hsplit rfl
    cases hlast
    exact ⟨hparent, hnamed⟩
  · rw [List.concat_eq_append, ← List.cons_append, ← List.append_assoc]
      at hsplit
    exact h front other others (List.append_inj' hsplit rfl).1

/-- The walk after its first row has been taken from the list. -/
structure Taken (registry : Registry δ) (w : Walk δ) (rest : List Row)
    (t : Walk δ) : Prop where
  pending : t.pending = rest
  trusted : t.trusted = w.trusted
  descendants : t.descendants = w.descendants
  observed : ∀ id ∈ t.observed, id ∈ registry.attached

theorem Observes.taken {w t u : Walk δ} {rest : List Row}
    (h : Observes registry t u) (ht : Taken registry w rest t) :
    Taken registry w rest u := by
  obtain ⟨ids, rfl⟩ := h.more
  exact ⟨ht.pending, ht.trusted, ht.descendants, h.attached⟩

theorem Taken.checked {w t : Walk δ} {rest : List Row}
    (h : Taken registry w rest t) (checks : ℕ) :
    Taken registry w rest { t with checks } :=
  ⟨h.pending, h.trusted, h.descendants, h.observed⟩

/-- A row that is a child already. -/
theorem Walked.skip {w t : Walk δ} {row : Row} {rest : List Row}
    (h : Walked registry rootId w) (hpending : w.pending = row :: rest)
    (ht : Taken registry w rest t) (htrusted : row.id ∈ w.trusted) :
    Walked registry rootId t ∧ budget registry t + 1 ≤ budget registry w := by
  constructor
  · constructor
    case observed => exact ht.observed
    case trusted =>
      rw [ht.trusted, ht.descendants]
      exact h.trusted
    case distinct =>
      rw [ht.trusted]
      exact h.distinct
    case grounded =>
      rw [ht.descendants]
      exact h.grounded
    case covered =>
      intro id hid session hsession entry hentry
      rw [ht.trusted] at hid
      rw [Covered, ht.trusted, ht.descendants, ht.pending]
      rcases h.covered id hid session hsession entry hentry with
        hchild | hlisted | ⟨other, hother, hotherId, hparentId⟩
      · exact .inl hchild
      · exact .inr (.inl hlisted)
      · rw [hpending] at hother
        rcases List.mem_cons.1 hother with rfl | hother
        · rw [hotherId] at htrusted
          exact .inl htrusted
        · exact .inr (.inr ⟨other, hother, hotherId, hparentId⟩)
  · unfold budget
    rw [ht.pending, ht.trusted, hpending, List.length_cons]
    omega

/-- A row that is reported. -/
theorem Walked.diagnosed {w t : Walk δ} {row : Row} {rest : List Row}
    (h : Walked registry rootId w) (hpending : w.pending = row :: rest)
    (ht : Taken registry w rest t) (reason : Reason) :
    Walked registry rootId (diagnose t row reason) ∧
      budget registry (diagnose t row reason) + 1 ≤ budget registry w := by
  have hdescendants : (diagnose t row reason).descendants = w.descendants ++
      [Descendant.diagnostic row.id row.parentId row.depth reason] := by
    rw [← ht.descendants]
    rfl
  constructor
  · constructor
    case observed => exact ht.observed
    case trusted =>
      rw [hdescendants, childIds_append, childIds, childIds]
      exact ht.trusted.trans (h.trusted.trans (by simp [childIds,
        Descendant.childId]))
    case distinct =>
      change t.trusted.Nodup
      rw [ht.trusted]
      exact h.distinct
    case grounded =>
      rw [hdescendants]
      exact h.grounded.diagnosed _ _ _ _
    case covered =>
      intro id hid session hsession entry hentry
      change id ∈ t.trusted at hid
      rw [ht.trusted] at hid
      rw [Covered, hdescendants]
      rcases h.covered id hid session hsession entry hentry with
        hchild | ⟨listed, hlisted, hlistedId⟩ |
          ⟨other, hother, hotherId, hparentId⟩
      · left
        rw [← ht.trusted] at hchild
        exact hchild
      · exact .inr (.inl ⟨listed, List.mem_append_left _ hlisted, hlistedId⟩)
      · rw [hpending] at hother
        rcases List.mem_cons.1 hother with rfl | hother
        · exact .inr (.inl ⟨_, List.mem_append_right _
            (List.mem_singleton.2 rfl), hotherId, hparentId⟩)
        · refine .inr (.inr ⟨other, ?_, hotherId, hparentId⟩)
          rw [← ht.pending] at hother
          exact hother
  · unfold budget
    change t.pending.length + ((registry.attached.filter
      (· ∉ t.trusted)).map (weight registry)).sum + 1 ≤ _
    rw [ht.pending, ht.trusted, hpending, List.length_cons]
    omega

/-- A child: its catalog goes on the list. -/
theorem Walked.child {w t : Walk δ} {row : Row} {rest rows : List Row}
    {summary : ChildSummary δ} (h : Walked registry rootId w)
    (hpending : w.pending = row :: rest) (ht : Taken registry w rest t)
    (hnew : row.id ∉ w.trusted) (hparent : row.parentId ∈ w.trusted)
    (hfound : Found registry row (.child summary rows)) :
    Walked registry rootId
        { t with
          pending := rows ++ t.pending
          trusted := row.id :: t.trusted
          descendants := t.descendants ++ [Descendant.child summary] } ∧
      budget registry
          { t with
            pending := rows ++ t.pending
            trusted := row.id :: t.trusted
            descendants := t.descendants ++ [Descendant.child summary] } + 1 ≤
        budget registry w := by
  obtain ⟨hid, hparentId, hnamed, child, hchild, hrows⟩ := hfound
  obtain ⟨catalog, hcatalog, rfl⟩ := Option.map_eq_some_iff.1 hrows
  have hweight : weight registry row.id = catalog.length := by
    rw [weight, hchild]
    simp only [hcatalog, Option.getD_some]
  constructor
  · constructor
    case observed => exact ht.observed
    case trusted =>
      change row.id :: t.trusted = _
      rw [ht.trusted, ht.descendants, h.trusted, childIds_append,
        List.reverse_append, List.append_assoc, ← hid]
      rfl
    case distinct =>
      change (row.id :: t.trusted).Nodup
      rw [ht.trusted, List.nodup_cons]
      exact ⟨hnew, h.distinct⟩
    case grounded =>
      change Grounded registry rootId
        (t.descendants ++ [Descendant.child summary])
      rw [ht.descendants]
      apply h.grounded.child _ hnamed
      rw [h.trusted] at hparent
      rw [hparentId]
      rcases List.mem_append.1 hparent with hearlier | hroot
      · exact .inr (List.mem_reverse.1 hearlier)
      · exact .inl (List.mem_singleton.1 hroot)
    case covered =>
      intro id hmem session hsession entry hentry
      simp only [Covered, ht.trusted, ht.descendants, ht.pending] at hmem ⊢
      rcases List.mem_cons.1 hmem with rfl | hmem
      · rw [hchild] at hsession
        obtain rfl := Except.ok.inj hsession
        rw [hcatalog, Option.getD_some] at hentry
        exact .inr (.inr ⟨_, List.mem_append_left _
          (List.mem_map_of_mem hentry), rfl, rfl⟩)
      · rcases h.covered id hmem session hsession entry hentry with
          hold | ⟨listed, hlisted, hlistedId⟩ |
            ⟨other, hother, hotherId, hotherParent⟩
        · exact .inl (List.mem_cons_of_mem _ hold)
        · exact .inr (.inl ⟨listed, List.mem_append_left _ hlisted, hlistedId⟩)
        · rw [hpending] at hother
          rcases List.mem_cons.1 hother with rfl | hother
          · left
            rw [← hotherId]
            exact List.mem_cons_self
          · exact .inr (.inr ⟨other, List.mem_append_right _ hother, hotherId,
              hotherParent⟩)
  · have hsum := sum_without (hid ▸ hnamed.attached) hnew (weight registry)
    unfold budget
    simp only [ht.pending, ht.trusted, hpending, List.length_append,
      List.length_map, List.length_cons]
    omega

/-- One row is taken from the list, and nothing that counts is lost. -/
theorem Walked.step {aborted : ℕ → Bool} {root : Observation δ} {w : Walk δ}
    {row : Row} {rest : List Row} (h : Walked registry rootId w)
    (hpending : w.pending = row :: rest) :
    (∀ t, LiveSubagents.step registry aborted root row
        { w with pending := rest } = .error t →
      ∀ id ∈ t.observed, id ∈ registry.attached) ∧
    ∀ t, LiveSubagents.step registry aborted root row
        { w with pending := rest } = .ok t →
      Walked registry rootId t ∧
        budget registry t + 1 ≤ budget registry w := by
  have htaken : Taken registry w rest
      { w with pending := rest, checks := w.checks + 1 } :=
    ⟨rfl, rfl, rfl, h.observed⟩
  obtain ⟨hobserves, hfound⟩ := @visit_spec _ _ root row _
    htaken.observed
  unfold LiveSubagents.step
  split
  · constructor
    · intro t ht
      obtain rfl := Except.error.inj ht
      exact h.observed
    · intro t ht
      cases ht
  · simp only
    split
    · rename_i htrusted
      constructor
      · intro t ht
        cases ht
      · intro t ht
        obtain rfl := Except.ok.inj ht
        exact h.skip hpending htaken htrusted
    · rename_i hnew
      split
      · constructor
        · intro t ht
          cases ht
        · intro t ht
          obtain rfl := Except.ok.inj ht
          exact h.diagnosed hpending htaken _
      · rename_i hparent
        have hparent := not_not.1 hparent
        split
        · constructor
          · intro t ht
            cases ht
          · intro t ht
            obtain rfl := Except.ok.inj ht
            exact h.diagnosed hpending htaken _
        · cases hvisit : visit registry root row
              { w with pending := rest, checks := w.checks + 1 } with
          | mk u outcome =>
            rw [hvisit] at hobserves hfound
            have hvisited := hobserves.taken htaken
            cases outcome with
            | mismatch =>
              constructor
              · intro t ht
                cases ht
              · intro t ht
                obtain rfl := Except.ok.inj ht
                exact h.diagnosed hpending hvisited _
            | failed error =>
              simp only
              split
              · constructor
                · intro t ht
                  obtain rfl := Except.error.inj ht
                  exact hvisited.observed
                · intro t ht
                  cases ht
              · constructor
                · intro t ht
                  cases ht
                · intro t ht
                  obtain rfl := Except.ok.inj ht
                  exact h.diagnosed hpending (hvisited.checked _) _
            | child summary rows =>
              constructor
              · intro t ht
                cases ht
              · intro t ht
                obtain rfl := Except.ok.inj ht
                exact h.child hpending hvisited hnew hparent hfound

/-- How a walk ends. -/
def Ended (registry : Registry δ) (rootId : JsString) :
    Except (Walk δ) (Walk δ) → Prop
  | .error t => ∀ id ∈ t.observed, id ∈ registry.attached
  | .ok t => Walked registry rootId t ∧ t.pending = []

section Step

variable {aborted : ℕ → Bool} {root : Observation δ} {w t : Walk δ} {row : Row}
  {rest : List Row}

end Step

theorem Walked.verified {w : Walk δ} (h : Walked registry rootId w)
    (hpending : w.pending = []) (root : Cut) :
    Verified registry ⟨rootId, root, w.descendants⟩ := by
  have hdistinct := h.distinct
  rw [h.trusted, List.nodup_append, List.nodup_reverse] at hdistinct
  obtain ⟨honce, -, hapart⟩ := hdistinct
  constructor
  case once => exact honce
  case notRoot =>
    intro hroot
    exact hapart rootId (List.mem_reverse.2 hroot) rootId
      (List.mem_singleton.2 rfl) rfl
  case grounded => exact h.grounded
  case complete =>
    intro id hid session hsession entry hentry
    have hmem : ∀ {id : JsString}, id ∈ w.trusted ↔
        id = rootId ∨ id ∈ childIds w.descendants := by
      intro id
      rw [h.trusted, List.mem_append, List.mem_reverse, List.mem_singleton,
        or_comm]
    rcases h.covered id (hmem.2 hid) session hsession entry hentry with
      hchild | hlisted | ⟨row, hrow, -⟩
    · rcases hmem.1 hchild with hroot | hchild
      · exact .inl hroot
      · exact .inr (.inl hchild)
    · exact .inr (.inr hlisted)
    · rw [hpending] at hrow
      cases hrow

/-- Where the walk begins: the root is trusted, and its catalog is listed. -/
theorem Walked.start {root : Observation δ} {w : Walk δ} {rows : List Row}
    (hroot : registry.observeSession rootId = .ok root)
    (hobserves : Observes registry ⟨[], [rootId], [], [], 0⟩ w)
    (hrows : liveChildren root rootId 1 = some rows) :
    Walked registry rootId { w with pending := rows } := by
  obtain ⟨ids, rfl⟩ := hobserves.more
  obtain ⟨catalog, hcatalog, rfl⟩ := Option.map_eq_some_iff.1 hrows
  constructor
  case observed => exact hobserves.attached
  case trusted => rfl
  case distinct => exact List.nodup_singleton rootId
  case grounded =>
    intro front summary back hsplit
    cases front with
    | nil | cons first rest => cases hsplit
  case covered =>
    intro id hid session hsession entry hentry
    obtain rfl := List.mem_singleton.1 hid
    rw [hroot] at hsession
    obtain rfl := Except.ok.inj hsession
    rw [hcatalog, Option.getD_some] at hentry
    exact .inr (.inr ⟨_, List.mem_map_of_mem hentry, rfl, rfl⟩)

end Query

end Allrice.LiveSubagents
