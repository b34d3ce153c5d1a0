/-
What the three views have to say before a worker returns, before it writes to
the registry, and before it calls a runtime exited.
-/
import Allrice.DshWorkerClose

namespace Allrice.DshWorkerClose

open InsertionSet

section Rows

variable {worker : Worker} {m : Matching}

def idsOf (rows : List Coverage) : List JsString :=
  rows.map (·.owner.runtimeId)

/-- Every row is kept or leaves an error. -/
theorem matchRow_length (items : List Coverage) :
    (items.foldl (matchRow worker) m).rows.length +
        (items.foldl (matchRow worker) m).errors.length =
      m.rows.length + m.errors.length + items.length := by
  induction items generalizing m with
  | nil => rfl
  | cons item items ih =>
    rw [List.foldl_cons, ih, matchRow, List.length_cons]
    split
    · simp only [List.length_append, List.length_singleton]
      omega
    · simp only [List.length_append, List.length_singleton]
      omega

theorem matchRow_errors (items : List Coverage) :
    m.errors <+: (items.foldl (matchRow worker) m).errors := by
  induction items generalizing m with
  | nil => exact List.prefix_refl _
  | cons item items ih =>
    rw [List.foldl_cons]
    refine List.IsPrefix.trans ?_ ih
    rw [matchRow]
    split
    · exact List.prefix_append ..
    · exact List.prefix_refl _

/-- Where no row is lost, each is the worker's own and is there once. -/
theorem matchRow_all (items : List Coverage)
    (hall : (items.foldl (matchRow worker) m).rows.length =
      m.rows.length + items.length)
    (hnodup : (idsOf m.rows).Nodup) :
    (items.foldl (matchRow worker) m).rows = m.rows ++ items ∧
      (∀ item ∈ items, worker.owns item.owner = true) ∧
        (idsOf (m.rows ++ items)).Nodup := by
  induction items generalizing m with
  | nil =>
    rw [List.append_nil]
    exact ⟨rfl, fun _ hmem => absurd hmem List.not_mem_nil, hnodup⟩
  | cons item items ih =>
    rw [List.foldl_cons] at hall ⊢
    rw [matchRow] at hall ⊢
    split at hall
    · -- A lost row cannot be made up for.
      rename_i hlost
      have hlength := @matchRow_length worker
        { m with errors := m.errors ++ [.bootIdentityMismatch] } items
      have herrors := (@matchRow_errors worker
        { m with errors := m.errors ++ [.bootIdentityMismatch] }
        items).length_le
      rw [hall] at hlength
      simp only [List.length_append, List.length_cons] at hlength herrors
      omega
    · rename_i hkept
      rw [if_neg hkept]
      rw [not_or, Bool.not_eq_false] at hkept
      have hnext : (idsOf (m.rows ++ [item])).Nodup := by
        rw [idsOf, List.map_append, List.nodup_append]
        refine ⟨hnodup, List.nodup_singleton _, fun id hid other hother => ?_⟩
        rw [List.map_singleton, List.mem_singleton] at hother
        rintro rfl
        rw [hother] at hid
        exact hkept.2 hid
      rw [List.length_cons] at hall
      obtain ⟨hrows, howns, hids⟩ := ih (by
        rw [hall]
        simp only [List.length_append, List.length_singleton]
        omega) hnext
      rw [List.append_assoc, List.singleton_append] at hrows hids
      refine ⟨hrows, fun other hother => ?_, hids⟩
      rcases List.mem_cons.1 hother with rfl | hother
      · exact hkept.1
      · exact howns other hother

theorem matchRow_own (items : List Coverage)
    (howns : ∀ item ∈ items, worker.owns item.owner = true)
    (hnodup : (idsOf (m.rows ++ items)).Nodup) :
    (items.foldl (matchRow worker) m).rows = m.rows ++ items := by
  induction items generalizing m with
  | nil => exact (List.append_nil _).symm
  | cons item items ih =>
    have hnew : item.owner.runtimeId ∉ idsOf m.rows := by
      rw [idsOf, List.map_append, List.map_cons, List.nodup_append] at hnodup
      intro hmem
      exact hnodup.2.2 _ hmem _ List.mem_cons_self rfl
    have hkept : ¬(worker.owns item.owner = false ∨
        item.owner.runtimeId ∈ m.rows.map (·.owner.runtimeId)) := by
      rw [not_or, Bool.not_eq_false]
      exact ⟨howns item List.mem_cons_self, hnew⟩
    rw [List.foldl_cons, matchRow, if_neg hkept, ih]
    · rw [List.append_assoc, List.singleton_append]
    · intro other hother
      exact howns other (List.mem_cons_of_mem _ hother)
    · rw [List.append_assoc, List.singleton_append]
      exact hnodup

theorem rowOf_eq_some {rows : List Coverage} (hnodup : (idsOf rows).Nodup)
    {row : Coverage} (hmem : row ∈ rows) :
    rowOf rows row.owner.runtimeId = some row := by
  rw [rowOf]
  cases hfind : rows.find? (·.owner.runtimeId = row.owner.runtimeId) with
  | none =>
    have hnone := List.find?_eq_none.1 hfind row hmem
    exact absurd (decide_eq_true rfl) hnone
  | some other =>
    have hfound := List.find?_some hfind
    have hid : other.owner.runtimeId = row.owner.runtimeId :=
      of_decide_eq_true hfound
    rw [List.inj_on_of_nodup_map hnodup (List.mem_of_find?_eq_some hfind) hmem
      hid]

end Rows

section Review

variable {rows : List Coverage} {r : Review} {id : JsString}

/-- What a part of the review does not take back. -/
structure Grows (r t : Review) : Prop where
  unconfirmed : r.unconfirmed ⊆ t.unconfirmed
  errors : r.errors <+: t.errors

theorem Grows.refl (r : Review) : Grows r r :=
  ⟨List.Subset.refl _, List.prefix_refl _⟩

theorem Grows.trans {s t : Review} (first : Grows r s) (second : Grows s t) :
    Grows r t :=
  ⟨List.Subset.trans first.unconfirmed second.unconfirmed,
    first.errors.trans second.errors⟩

theorem grows_foldl {α : Type} (f : Review → α → Review)
    (hf : ∀ r item, Grows r (f r item)) (items : List α) (r : Review) :
    Grows r (items.foldl f r) := by
  induction items generalizing r with
  | nil => exact .refl r
  | cons item items ih => exact (hf r item).trans (ih (f r item))

theorem subset_insert (s : List JsString) (id : JsString) : s ⊆ insert s id :=
  fun _ hmem => mem_insert.2 (.inl hmem)

theorem checkLive_grows (r : Review) (item : ProcessSnapshot) :
    Grows r (checkLive rows r item) := by
  rw [checkLive]
  split
  · exact .refl r
  · exact ⟨subset_insert _ _, List.prefix_append ..⟩

theorem withhold_grows (r : Review) (id : JsString) : Grows r (r.withhold id) :=
  ⟨subset_insert _ _, List.prefix_refl _⟩

theorem checkClosure_grows (r : Review) (item : ClosureSnapshot) :
    Grows r (checkClosure rows r item) := by
  have hfirst : Grows r
      (if accepts (rowOf rows item.id) item then r
      else
        { r.withhold item.id with
          valid := false
          errors := r.errors ++ [.physicalOwnerMismatch] }) := by
    split
    · exact .refl r
    · exact ⟨subset_insert _ _, List.prefix_append ..⟩
  simp only [checkClosure]
  split
  · exact hfirst
  · exact hfirst.trans (withhold_grows _ _)

theorem checkActive_grows (r : Review) (id : JsString) :
    Grows r (checkActive r id) := by
  refine ⟨subset_insert _ _, ?_⟩
  simp only [checkActive]
  split
  · exact List.prefix_append ..
  · exact List.prefix_refl _

theorem checkLive_foldl (items : List ProcessSnapshot) :
    (items.foldl (checkLive rows) r).exited = r.exited ∧
      (items.foldl (checkLive rows) r).registryExited = r.registryExited ∧
        ((items.foldl (checkLive rows) r).valid = true ↔
          r.valid = true ∧
            ∀ item ∈ items, holds (rowOf rows item.id) item = true) := by
  induction items generalizing r with
  | nil =>
    refine ⟨rfl, rfl, ?_⟩
    exact (and_iff_left fun _ hmem => absurd hmem List.not_mem_nil).symm
  | cons item items ih =>
    obtain ⟨hexited, hregistry, hvalid⟩ := @ih (checkLive rows r item)
    rw [List.foldl_cons, hexited, hregistry, hvalid, List.forall_mem_cons,
      checkLive]
    split
    · rename_i hholds
      exact ⟨rfl, rfl, by rw [and_iff_right hholds]⟩
    · rename_i hholds
      refine ⟨rfl, rfl, iff_of_false (fun h => ?_) fun h => ?_⟩
      · exact Bool.false_ne_true h.1
      · exact hholds h.2.1

theorem checkClosure_exited (r : Review) (item : ClosureSnapshot) :
    (checkClosure rows r item).exited = r.exited := by
  simp only [checkClosure]
  split
  · split
    · rfl
    · rfl
  · split
    · rfl
    · rfl

theorem checkClosure_valid (r : Review) (item : ClosureSnapshot) :
    (checkClosure rows r item).valid = true ↔
      r.valid = true ∧ accepts (rowOf rows item.id) item = true := by
  have hvalid : (checkClosure rows r item).valid =
      if accepts (rowOf rows item.id) item then r.valid else false := by
    simp only [checkClosure]
    split
    · split
      · rfl
      · rfl
    · split
      · rfl
      · rfl
  rw [hvalid]
  split
  · rename_i haccepts
    exact (and_iff_left haccepts).symm
  · rename_i haccepts
    exact iff_of_false Bool.false_ne_true fun h => haccepts h.2

theorem checkClosure_registry (r : Review) (item : ClosureSnapshot) :
    id ∈ (checkClosure rows r item).registryExited ↔
      id ∈ r.registryExited ∧
        (item.id = id → accepts (rowOf rows item.id) item = true ∧
          hasEnded (rowOf rows item.id) item = true) := by
  simp only [checkClosure]
  by_cases haccepts : accepts (rowOf rows item.id) item = true
  · rw [if_pos haccepts]
    by_cases hended : hasEnded (rowOf rows item.id) item = true
    · rw [if_pos hended]
      exact (and_iff_left fun _ => ⟨haccepts, hended⟩).symm
    · rw [if_neg hended]
      show id ∈ erase r.registryExited item.id ↔ _
      rw [mem_erase]
      refine and_congr_right fun _ => ⟨fun hne hsame => ?_, fun h hsame => ?_⟩
      · exact absurd hsame.symm hne
      · exact hended (h hsame.symm).2
  · rw [if_neg haccepts]
    have herased : id ∈ erase r.registryExited item.id ↔
        id ∈ r.registryExited ∧
          (item.id = id → accepts (rowOf rows item.id) item = true ∧
            hasEnded (rowOf rows item.id) item = true) := by
      rw [mem_erase]
      refine and_congr_right fun _ => ⟨fun hne hsame => ?_, fun h hsame => ?_⟩
      · exact absurd hsame.symm hne
      · exact haccepts (h hsame.symm).1
    split
    · exact herased
    · show id ∈ erase (erase r.registryExited item.id) item.id ↔ _
      rw [mem_erase, herased, and_assoc]
      refine and_congr_right fun _ => and_iff_left_of_imp fun h hsame => ?_
      exact haccepts (h hsame.symm).1

theorem checkClosure_foldl (items : List ClosureSnapshot) :
    (items.foldl (checkClosure rows) r).exited = r.exited ∧
      (id ∈ (items.foldl (checkClosure rows) r).registryExited ↔
        id ∈ r.registryExited ∧ ∀ item ∈ items, item.id = id →
          accepts (rowOf rows item.id) item = true ∧
            hasEnded (rowOf rows item.id) item = true) ∧
        ((items.foldl (checkClosure rows) r).valid = true ↔
          r.valid = true ∧
            ∀ item ∈ items, accepts (rowOf rows item.id) item = true) := by
  induction items generalizing r with
  | nil =>
    refine ⟨rfl, ?_, ?_⟩
    · exact (and_iff_left fun _ hmem => absurd hmem List.not_mem_nil).symm
    · exact (and_iff_left fun _ hmem => absurd hmem List.not_mem_nil).symm
  | cons item items ih =>
    obtain ⟨hexited, hregistry, hvalid⟩ := @ih (checkClosure rows r item)
    rw [List.foldl_cons, hexited, hregistry, hvalid, checkClosure_exited,
      checkClosure_registry, checkClosure_valid, List.forall_mem_cons,
      List.forall_mem_cons, and_assoc, and_assoc]
    exact ⟨rfl, Iff.rfl, Iff.rfl⟩

theorem checkActive_foldl (items : List JsString) :
    (id ∈ (items.foldl checkActive r).exited ↔
        id ∈ r.exited ∧ id ∉ items) ∧
      (id ∈ (items.foldl checkActive r).registryExited ↔
        id ∈ r.registryExited ∧ id ∉ items) ∧
        (items.foldl checkActive r).valid = r.valid ∧
          items ⊆ (items.foldl checkActive r).unconfirmed := by
  induction items generalizing r with
  | nil => simp
  | cons item items ih =>
    obtain ⟨hexited, hregistry, hvalid, hunconfirmed⟩ :=
      @ih (checkActive r item)
    have hgrows := grows_foldl checkActive checkActive_grows items
      (checkActive r item)
    rw [List.foldl_cons]
    refine ⟨?_, ?_, hvalid, ?_⟩
    · rw [hexited, List.mem_cons, not_or]
      show id ∈ erase r.exited item ∧ _ ↔ _
      rw [mem_erase, and_assoc]
    · rw [hregistry, List.mem_cons, not_or]
      show id ∈ erase r.registryExited item ∧ _ ↔ _
      rw [mem_erase, and_assoc]
    · intro other hother
      rcases List.mem_cons.1 hother with rfl | hother
      · exact hgrows.unconfirmed (mem_insert.2 (.inr rfl))
      · exact hunconfirmed hother

end Review

variable {ids : List JsString}

theorem mem_sorted {id : JsString} : id ∈ sorted ids ↔ id ∈ ids :=
  List.mem_mergeSort

theorem sorted_eq_nil : sorted ids = [] ↔ ids = [] := by
  rw [← List.length_eq_zero_iff, sorted, List.length_mergeSort,
    List.length_eq_zero_iff]

/-- All rows are the worker's own, each once. -/
structure Owned (worker : Worker) (rows : List Coverage) : Prop where
  own : ∀ row ∈ rows, worker.owns row.owner = true
  once : (idsOf rows).Nodup

/-- Everything has been read, and the views name the same things. -/
structure Agreed (worker : Worker) (views : Views)
    (live : List ProcessSnapshot) (closure : List ClosureSnapshot)
    (rows : List Coverage) : Prop where
  readLive : views.live = some live
  readClosure : views.closure = some closure
  readCoverage : views.coverage = some rows
  owned : Owned worker rows
  holds : ∀ item ∈ live, holds (rowOf rows item.id) item = true
  accepts : ∀ item ∈ closure, accepts (rowOf rows item.id) item = true

/-- Nothing runs any more, and each row has a confirmed close unless it was
never spawned. -/
structure AllEnded (worker : Worker) (views : Views) (rows : List Coverage) :
    Prop where
  readLive : views.live = some []
  readClosure : ∃ closure, views.closure = some closure ∧
    ∀ item ∈ closure, item.processState = .exited
  readCoverage : views.coverage = some rows
  owned : Owned worker rows
  ended : ∀ row ∈ rows, row.physical = .neverSpawned ∨
    row.publicClose = .confirmed

section

variable {worker : Worker} {views : Views} {m : Matching} {id : JsString}
  {rows : List Coverage}

theorem mem_active :
    id ∈ views.active ↔
      (∃ item ∈ views.live.getD [], item.id = id) ∨
        ∃ item ∈ views.closure.getD [], item.processState ≠ .exited ∧
          item.id = id := by
  have hfoldl : ∀ (items : List ClosureSnapshot) (active : List JsString),
      id ∈ items.foldl (fun active (item : ClosureSnapshot) =>
        if item.processState = .exited then active
        else insert active item.id) active ↔
      id ∈ active ∨ ∃ item ∈ items, item.processState ≠ .exited ∧
        item.id = id := by
    intro items
    induction items with
    | nil => simp
    | cons item items ih =>
      intro active
      simp only [List.foldl_cons, ih, List.mem_cons, exists_eq_or_imp]
      rw [← or_assoc]
      refine or_congr_left ?_
      split
      · rename_i hexited
        exact (or_iff_left fun h => h.1 hexited).symm
      · rename_i hexited
        rw [mem_insert, and_iff_right hexited, eq_comm]
  rw [Views.active, hfoldl, mem_ofList, List.mem_map]

theorem mem_recorded :
    id ∈ ofList ((rows.filter (·.physical = .exited)).map
      (·.owner.runtimeId)) ↔
      ∃ row ∈ rows, row.owner.runtimeId = id ∧ row.physical = .exited := by
  rw [mem_ofList, List.mem_map]
  constructor
  · intro h
    obtain ⟨row, hmem, hid⟩ := h
    rw [List.mem_filter, decide_eq_true_eq] at hmem
    exact ⟨row, hmem.1, hid, hmem.2⟩
  · intro h
    obtain ⟨row, hmem, hid, hexited⟩ := h
    exact ⟨row, List.mem_filter.2 ⟨hmem, decide_eq_true hexited⟩, hid⟩

/-- The sets at the end. -/
theorem mem_reviewed_exited (h : id ∈ (views.reviewed m).exited) :
    id ∉ views.active :=
  ((checkActive_foldl views.active).1.1 h).2

theorem mem_reviewed_registry :
    id ∈ (views.reviewed m).registryExited ↔
      (∃ row ∈ m.rows, row.owner.runtimeId = id ∧ row.physical = .exited) ∧
        (∀ item ∈ views.closure.getD [], item.id = id →
          accepts (rowOf m.rows item.id) item = true ∧
            hasEnded (rowOf m.rows item.id) item = true) ∧
          id ∉ views.active := by
  rw [Views.reviewed, (checkActive_foldl views.active).2.1,
    (checkClosure_foldl _).2.1, (checkLive_foldl _).2.1, and_assoc]
  refine and_congr_left fun _ => ?_
  exact mem_recorded

theorem reviewed_valid :
    (views.reviewed m).valid = true ↔
      (∀ item ∈ views.live.getD [],
        holds (rowOf m.rows item.id) item = true) ∧
        ∀ item ∈ views.closure.getD [],
          accepts (rowOf m.rows item.id) item = true := by
  rw [Views.reviewed, (@checkActive_foldl _ [] views.active).2.2.1,
    (@checkClosure_foldl _ _ [] _).2.2, (checkLive_foldl _).2.2]
  refine and_congr_left fun _ => ?_
  exact and_iff_right rfl

theorem reviewed_grows (m : Matching) :
    Grows (views.started m) (views.reviewed m) :=
  ((grows_foldl _ checkLive_grows _ _).trans
    (grows_foldl _ checkClosure_grows _ _)).trans
      (grows_foldl _ checkActive_grows _ _)

/-- The rows that were read back, when none of them was lost. -/
theorem matching_rows (hcoverage : views.coverage = some rows)
    (hlength : rows.length = (views.matching worker).rows.length) :
    (views.matching worker).rows = rows ∧ Owned worker rows := by
  rw [Views.matching, hcoverage] at hlength ⊢
  have hall := @matchRow_all worker ⟨[], views.readErrors⟩ rows
    (hlength.symm.trans (Nat.zero_add _).symm) List.nodup_nil
  exact ⟨hall.1, hall.2.1, hall.2.2⟩

theorem matching_own (hcoverage : views.coverage = some rows)
    (howned : Owned worker rows) : (views.matching worker).rows = rows := by
  rw [Views.matching, hcoverage]
  exact @matchRow_own worker ⟨[], views.readErrors⟩ rows howned.own howned.once

variable {r : Review} {write : RegistryWrite}

theorem readback_iff :
    (views.summary m r).readbackConfirmed = true ↔
      ∃ rows, views.coverage = some rows ∧ rows.length = m.rows.length := by
  rw [Views.summary, Option.any_eq_true]
  refine exists_congr fun rows => and_congr_right fun _ => ?_
  exact decide_eq_true_iff

theorem readErrors_eq_nil (h : views.readErrors = []) :
    (∃ live, views.live = some live) ∧
      (∃ closure, views.closure = some closure) ∧
        ∃ rows, views.coverage = some rows := by
  rw [Views.readErrors, List.append_eq_nil_iff, List.append_eq_nil_iff] at h
  obtain ⟨⟨hlive, hclosure⟩, hcoverage⟩ := h
  have hread : ∀ {α : Type} {read : Option α}, Views.readError read = [] →
      ∃ value, read = some value := by
    intro α read hnil
    cases read with
    | none => cases hnil
    | some value => exact ⟨value, rfl⟩
  exact ⟨hread hlive, hread hclosure, hread hcoverage⟩

/-- It writes to the registry exactly when everything was read and agrees. -/
theorem registryWrite_iff :
    (verifyWorkerDshRuntimeClosure worker views).registry = some write ↔
      ∃ live closure rows, Agreed worker views live closure rows ∧
        write = ⟨live.filter (·.sessionId.isSome),
          sorted (views.reviewed (views.matching worker)).registryExited⟩ := by
  simp only [verifyWorkerDshRuntimeClosure, registryWrite]
  constructor
  · intro h
    split at h
    · rename_i live hlive
      split at h
      · rename_i hagreed
        obtain ⟨hclosure, hreadback, hvalid⟩ := hagreed
        obtain ⟨closure, hclosure⟩ := Option.isSome_iff_exists.1 hclosure
        obtain ⟨rows, hcoverage, hlength⟩ := readback_iff.1 hreadback
        obtain ⟨hrows, howned⟩ := matching_rows hcoverage hlength
        have hviews := reviewed_valid.1 hvalid
        rw [hlive, hclosure, hrows] at hviews
        exact ⟨live, closure, rows,
          ⟨hlive, hclosure, hcoverage, howned, hviews.1, hviews.2⟩,
          (Option.some.inj h).symm⟩
      · cases h
    · cases h
  · intro h
    obtain ⟨live, closure, rows, hagreed, rfl⟩ := h
    have hrows := matching_own hagreed.readCoverage hagreed.owned
    have hvalid : (views.reviewed (views.matching worker)).valid = true := by
      rw [reviewed_valid, hagreed.readLive, hagreed.readClosure, hrows]
      exact ⟨hagreed.holds, hagreed.accepts⟩
    rw [hagreed.readLive]
    simp only
    rw [if_pos ⟨Option.isSome_iff_exists.2 ⟨closure, hagreed.readClosure⟩,
      readback_iff.2 ⟨rows, hagreed.readCoverage,
        congrArg List.length hrows.symm⟩, hvalid⟩]

theorem reviewed_started_errors (h : (views.reviewed m).errors = []) :
    m.errors = [] :=
  List.prefix_nil.1 (h ▸ (reviewed_grows m).errors)

/-- Nothing is left to confirm. -/
theorem ended_of_confirmed (h : (views.reviewed m).unconfirmed = []) :
    views.active = [] ∧ ∀ row ∈ m.rows,
      row.physical = .neverSpawned ∨ row.publicClose = .confirmed := by
  constructor
  · have hactive : views.active ⊆ (views.reviewed m).unconfirmed :=
      (@checkActive_foldl _ [] views.active).2.2.2
    rw [h] at hactive
    exact List.subset_nil.1 hactive
  · intro row hmem
    by_contra hopen
    rw [not_or] at hopen
    have hstarted : row.owner.runtimeId ∈ (views.started m).unconfirmed :=
      mem_ofList.2 (List.mem_map.2
        ⟨row, List.mem_filter.2 ⟨hmem, decide_eq_true hopen⟩, rfl⟩)
    have hreviewed := (reviewed_grows m).unconfirmed hstarted
    rw [h] at hreviewed
    exact List.not_mem_nil hreviewed

theorem mem_liveOrUnknown :
    id ∈ views.liveOrUnknown m r ↔
      id ∈ views.active ∨ ∃ row ∈ m.rows,
        row.physical = .unknown ∧ id ∉ r.exited ∧ row.owner.runtimeId = id := by
  have hfoldl : ∀ (items : List Coverage) (ids : List JsString),
      id ∈ items.foldl (fun (ids : List JsString) (item : Coverage) =>
        InsertionSet.insert ids item.owner.runtimeId) ids ↔
        id ∈ ids ∨ ∃ item ∈ items, item.owner.runtimeId = id := by
    intro items
    induction items with
    | nil => simp
    | cons item items ih =>
      intro ids
      simp only [List.foldl_cons, ih, List.mem_cons, exists_eq_or_imp]
      rw [mem_insert, or_assoc, eq_comm]
  rw [Views.liveOrUnknown, hfoldl]
  refine or_congr_right ⟨fun h => ?_, fun h => ?_⟩
  · obtain ⟨row, hmem, rfl⟩ := h
    rw [List.mem_filter, decide_eq_true_eq] at hmem
    exact ⟨row, hmem.1, hmem.2.1, hmem.2.2, rfl⟩
  · obtain ⟨row, hmem, hunknown, hnot, rfl⟩ := h
    exact ⟨row, List.mem_filter.2 ⟨hmem, decide_eq_true ⟨hunknown, hnot⟩⟩, rfl⟩

/-- It returns only when every read has succeeded and everything has ended. -/
theorem returns_ended
    (h : (verifyWorkerDshRuntimeClosure worker views).errors = []) :
    (∃ rows, AllEnded worker views rows) ∧
      (verifyWorkerDshRuntimeClosure worker views).summary.liveOrUnknown =
        [] := by
  simp only [verifyWorkerDshRuntimeClosure, List.append_eq_nil_iff] at h
  obtain ⟨⟨herrors, -⟩, hunconfirmed⟩ := h
  have hconfirmed :
      (views.reviewed (views.matching worker)).unconfirmed = [] := by
    split at hunconfirmed
    · rename_i hnone
      exact sorted_eq_nil.1 hnone
    · cases hunconfirmed
  have hmatching := reviewed_started_errors herrors
  have hread : views.readErrors = [] := by
    have hprefix := @matchRow_errors worker ⟨[], views.readErrors⟩
      (views.coverage.getD [])
    rw [show ((views.coverage.getD []).foldl (matchRow worker)
      ⟨[], views.readErrors⟩).errors = [] from hmatching] at hprefix
    exact List.prefix_nil.1 hprefix
  obtain ⟨⟨live, hlive⟩, ⟨closure, hclosure⟩, ⟨rows, hcoverage⟩⟩ :=
    readErrors_eq_nil hread
  have hlength : rows.length = (views.matching worker).rows.length := by
    have hsum := @matchRow_length worker ⟨[], views.readErrors⟩
      (views.coverage.getD [])
    rw [show ((views.coverage.getD []).foldl (matchRow worker)
      ⟨[], views.readErrors⟩).errors = [] from hmatching, hread,
      hcoverage] at hsum
    rw [Views.matching, hread, hcoverage]
    simp only [List.length_nil] at hsum
    exact (hsum.trans (Nat.zero_add _)).symm
  obtain ⟨hrows, howned⟩ := matching_rows hcoverage hlength
  obtain ⟨hactive, hended⟩ := ended_of_confirmed hconfirmed
  have hnotActive : ∀ id, id ∉ views.active := by
    rw [hactive]
    exact fun id => List.not_mem_nil
  refine ⟨⟨rows, ?_⟩, ?_⟩
  · refine ⟨?_, ⟨closure, hclosure, fun item hmem => ?_⟩, hcoverage, howned, ?_⟩
    · rw [hlive]
      cases live with
      | nil => rfl
      | cons item live =>
        refine absurd (mem_active.2 (.inl ⟨item, ?_, rfl⟩))
          (hnotActive item.id)
        rw [hlive]
        exact List.mem_cons_self
    · by_contra hrunning
      refine absurd (mem_active.2 (.inr ⟨item, ?_, hrunning, rfl⟩))
        (hnotActive item.id)
      rw [hclosure]
      exact hmem
    · rw [← hrows]
      exact hended
  · show sorted (views.liveOrUnknown _ _) = []
    rw [sorted_eq_nil, List.eq_nil_iff_forall_not_mem]
    intro id hmem
    rcases mem_liveOrUnknown.1 hmem with hactive | hunknown
    · exact hnotActive id hactive
    · obtain ⟨row, hmem, hunknown, -, -⟩ := hunknown
      rcases hended row hmem with hnever | hconfirmed
      · rw [hunknown] at hnever
        cases hnever
      · rw [Coverage.exited_of_confirmed hconfirmed] at hunknown
        cases hunknown

/-- The runtimes that the registry is told to have exited. -/
theorem mem_exitedRuntimeIds {live : List ProcessSnapshot}
    {closure : List ClosureSnapshot}
    (h : (verifyWorkerDshRuntimeClosure worker views).registry = some write)
    (hagreed : Agreed worker views live closure rows) :
    id ∈ write.exitedRuntimeIds ↔
      ∃ row ∈ rows, row.owner.runtimeId = id ∧ row.physical = .exited ∧
        (∀ item ∈ live, item.id ≠ id) ∧
          ∀ item ∈ closure, item.id = id →
            item.processState = .exited ∧ item.stdioClosed = true ∧
              item.nativeArtifactId = some row.owner.artifactId := by
  obtain ⟨_, _, _, _, rfl⟩ := registryWrite_iff.1 h
  have hrows := matching_own hagreed.readCoverage hagreed.owned
  rw [mem_sorted, mem_reviewed_registry, hrows, mem_active, hagreed.readLive,
    hagreed.readClosure]
  constructor
  · intro h
    obtain ⟨⟨row, hmem, rfl, hexited⟩, hclosure, hactive⟩ := h
    rw [not_or] at hactive
    refine ⟨row, hmem, rfl, hexited, fun item hitem hid => ?_,
      fun item hitem hid => ?_⟩
    · exact hactive.1 ⟨item, hitem, hid⟩
    · obtain ⟨haccepts, hended⟩ := hclosure item hitem hid
      rw [hid, rowOf_eq_some hagreed.owned.once hmem] at haccepts hended
      simp only [accepts, hasEnded, Option.any_some, Bool.and_eq_true,
        beq_iff_eq] at haccepts hended
      exact ⟨hended.2, hended.1.2, haccepts.1.symm⟩
  · intro h
    obtain ⟨row, hmem, rfl, hexited, hlive, hclosure⟩ := h
    refine ⟨⟨row, hmem, rfl, hexited⟩, fun item hitem hid => ?_, ?_⟩
    · obtain ⟨hstate, hstdio, hartifact⟩ := hclosure item hitem hid
      rw [hid, rowOf_eq_some hagreed.owned.once hmem]
      constructor
      · simp [accepts, hartifact, hstdio]
      · simp [hasEnded, hexited, hstdio, hstate]
    · rw [not_or]
      constructor
      · intro hitem
        obtain ⟨item, hitem, hid⟩ := hitem
        exact hlive item hitem hid
      · intro hitem
        obtain ⟨item, hitem, hrunning, hid⟩ := hitem
        exact hrunning (hclosure item hitem hid).1

end

/-- What the verification of one worker promises. -/
structure Verifies (worker : Worker) (views : Views) : Prop where
  returns : (verifyWorkerDshRuntimeClosure worker views).errors = [] →
    (∃ rows, AllEnded worker views rows) ∧
      (verifyWorkerDshRuntimeClosure worker views).summary.liveOrUnknown = []
  registry : ∀ write,
    (verifyWorkerDshRuntimeClosure worker views).registry = some write →
    ∃ live closure rows, Agreed worker views live closure rows ∧
      ∀ id, id ∈ write.exitedRuntimeIds ↔
        ∃ row ∈ rows, row.owner.runtimeId = id ∧ row.physical = .exited ∧
          (∀ item ∈ live, item.id ≠ id) ∧
            ∀ item ∈ closure, item.id = id →
              item.processState = .exited ∧ item.stdioClosed = true ∧
                item.nativeArtifactId = some row.owner.artifactId
  disjoint : ∀ id,
    id ∈ (verifyWorkerDshRuntimeClosure worker views).summary.physicalExited →
    id ∉ (verifyWorkerDshRuntimeClosure worker views).summary.liveOrUnknown

/-- Whatever the views say, and whichever of them cannot be read. -/
theorem worker_closure_verified (worker : Worker) (views : Views) :
    Verifies worker views where
  returns := returns_ended
  registry write hwrite := by
    obtain ⟨live, closure, rows, hagreed, -⟩ := registryWrite_iff.1 hwrite
    exact ⟨live, closure, rows, hagreed,
      fun id => mem_exitedRuntimeIds hwrite hagreed⟩
  disjoint id hexited hlive := by
    have hmem : id ∈ (views.reviewed (views.matching worker)).exited :=
      mem_sorted.1 hexited
    rcases mem_liveOrUnknown.1 (mem_sorted.1 hlive) with hactive | hunknown
    · exact mem_reviewed_exited hmem hactive
    · obtain ⟨row, -, -, hnot, -⟩ := hunknown
      exact hnot hmem

end Allrice.DshWorkerClose
