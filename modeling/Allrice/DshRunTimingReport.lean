/-
Every run of the timing: one report, which adds up, and which nothing changes
that ends later.
-/
import Allrice.DshRunTimingSums

namespace Allrice.DshRunTiming

open TimeSpan

variable {ε : Type} {s : State ε}

def Action.isFinish : Action ε → Bool
  | .finish .. => true
  | _ => false

/-- The phase of the check that an action begins. -/
def Action.begun : Action ε → Option Phase
  | .checkContent phase _ => some (phase.getD .other)
  | _ => none

/-- The name under which an action records a model call. -/
def Action.modelId : Action ε → Option JsString
  | .modelStarted callId _ => identity callId
  | _ => none

/-- What was done before the report. -/
def beforeFinish (run : List (Action ε)) : List (Action ε) :=
  run.takeWhile fun action => !action.isFinish

def State.observed (s : State ε) : List Observed :=
  s.calls.filterMap (·.observed)

variable {calls : List (Call ε)} {call : Nat} {o : Option Observed}

/-- The observation of one call stands where the call stands. -/
theorem observed_split {result : Option (Except ε Unit)}
    (h : calls[call]? = some ⟨o, result⟩) :
    ∃ before rest,
      calls.filterMap (·.observed) = before ++ o.toList ++ rest ∧
      ∀ o' result', (calls.set call ⟨o', result'⟩).filterMap (·.observed) =
        before ++ o'.toList ++ rest := by
  induction calls generalizing call with
  | nil => cases h
  | cons first calls ih =>
    cases call with
    | zero =>
      cases h
      refine ⟨[], calls.filterMap (·.observed), ?_, fun o' _ => ?_⟩
      · cases o <;> rfl
      · cases o' <;> rfl
    | succ call =>
      obtain ⟨before, rest, hold, hnew⟩ := ih h
      have hcons : ∀ calls : List (Call ε),
          (first :: calls).filterMap (·.observed) =
            first.observed.toList ++ calls.filterMap (·.observed) := by
        intro calls
        rw [List.filterMap_cons]
        cases first.observed <;> rfl
      refine ⟨first.observed.toList ++ before, rest, ?_,
        fun o' result' => ?_⟩
      · rw [hcons, hold]
        simp
      · rw [List.set_cons_succ, hcons, hnew o' result']
        simp

namespace State

variable (reading : Option ℚ)

@[simp] theorem elapsed_finished :
    (s.elapsed reading).finished = s.finished := by
  cases reading <;> rfl

@[simp] theorem elapsed_reports : (s.elapsed reading).reports = s.reports := by
  cases reading <;> rfl

@[simp] theorem elapsed_checks : (s.elapsed reading).checks = s.checks := by
  cases reading <;> rfl

@[simp] theorem elapsed_activeChecks :
    (s.elapsed reading).activeChecks = s.activeChecks := by
  cases reading <;> rfl

@[simp] theorem elapsed_unionStart :
    (s.elapsed reading).unionStart = s.unionStart := by
  cases reading <;> rfl

@[simp] theorem elapsed_checkUnionMs :
    (s.elapsed reading).checkUnionMs = s.checkUnionMs := by
  cases reading <;> rfl

@[simp] theorem elapsed_models : (s.elapsed reading).models = s.models := by
  cases reading <;> rfl

@[simp] theorem elapsed_calls : (s.elapsed reading).calls = s.calls := by
  cases reading <;> rfl

@[simp] theorem elapsed_observed :
    (s.elapsed reading).observed = s.observed := by
  rw [observed, elapsed_calls, observed]

theorem elapsed_le (hnonneg : 0 ≤ s.lastElapsedMs)
    (hlimit : s.lastElapsedMs ≤ maxSafeInteger) :
    s.lastElapsedMs ≤ (s.elapsed reading).lastElapsedMs := by
  cases reading with
  | none => exact le_rfl
  | some value =>
    refine le_min hlimit ?_
    rw [max_eq_right (hnonneg.trans (le_max_left _ _))]
    exact le_max_left _ _

theorem elapsed_limit (hlimit : s.lastElapsedMs ≤ maxSafeInteger) :
    (s.elapsed reading).lastElapsedMs ≤ maxSafeInteger := by
  cases reading with
  | none => exact hlimit
  | some value => exact bounded_le _

end State

/-- The names that are recorded are the first ones, each of them once. -/
structure Recorded (names ids : List JsString) : Prop where
  nodup : ids.Nodup
  named : ∀ id ∈ ids, id ∈ names
  limit : ids.length ≤ maxModelSpans
  complete : ids.length < maxModelSpans → ∀ id ∈ names, id ∈ ids

namespace Recorded

variable {names ids : List JsString} {id : JsString}

theorem again (h : Recorded names ids) (hmem : id ∈ ids) :
    Recorded (names ++ [id]) ids where
  nodup := h.nodup
  named other hother := List.mem_append_left _ (h.named other hother)
  limit := h.limit
  complete hlt other hother := by
    rcases List.mem_append.1 hother with hold | hnew
    · exact h.complete hlt other hold
    · rw [List.mem_singleton.1 hnew]
      exact hmem

theorem full (h : Recorded names ids) (hfull : maxModelSpans ≤ ids.length) :
    Recorded (names ++ [id]) ids where
  nodup := h.nodup
  named other hother := List.mem_append_left _ (h.named other hother)
  limit := h.limit
  complete hlt := absurd hlt (Nat.not_lt.2 hfull)

theorem add (h : Recorded names ids) (hnew : id ∉ ids)
    (hlt : ids.length < maxModelSpans) :
    Recorded (names ++ [id]) (ids ++ [id]) where
  nodup := by
    rw [List.nodup_append]
    refine ⟨h.nodup, List.nodup_singleton id, fun other hmem same hsame => ?_⟩
    rw [List.mem_singleton.1 hsame]
    intro heq
    rw [heq] at hmem
    exact hnew hmem
  named other hother := by
    rcases List.mem_append.1 hother with hold | hself
    · exact List.mem_append_left _ (h.named other hold)
    · exact List.mem_append_right _ hself
  limit := by
    rw [List.length_append, List.length_singleton]
    exact hlt
  complete _ other hother := by
    rcases List.mem_append.1 hother with hold | hself
    · exact List.mem_append_left _ (h.complete hlt other hold)
    · exact List.mem_append_right _ hself

theorem length (h : Recorded names ids) :
    ids.length = min maxModelSpans names.toFinset.card := by
  have hcard : ids.toFinset.card = ids.length :=
    List.toFinset_card_of_nodup h.nodup
  have hsub : ids.toFinset ⊆ names.toFinset := fun id hmem =>
    List.mem_toFinset.2 (h.named id (List.mem_toFinset.1 hmem))
  rcases Nat.lt_or_ge ids.length maxModelSpans with hlt | hfull
  · have hsame : ids.toFinset = names.toFinset :=
      hsub.antisymm fun id hmem =>
        List.mem_toFinset.2 (h.complete hlt id (List.mem_toFinset.1 hmem))
    rw [← hsame, hcard, min_eq_right hlt.le]
  · have hle := Finset.card_le_card hsub
    rw [hcard] at hle
    rw [min_eq_left (hfull.trans hle)]
    exact le_antisymm h.limit hfull

end Recorded

/-- What holds while no report has been given. -/
structure Live (run : List (Action ε)) (s : State ε) : Prop where
  running : s.finished = false
  silent : s.reports = []
  time : OnTime s.observed s.lastElapsedMs
  tally : Tally s.observed s.checks s.activeChecks
  busy : Busy s.observed s.activeChecks s.unionStart s.checkUnionMs
    s.lastElapsedMs
  unended : ∀ call ∈ s.calls, call.result = none →
    ∀ o, call.observed = some o → o.ended = none
  begun : s.observed.map (·.phase) = run.filterMap Action.begun
  models : Recorded (run.filterMap Action.modelId) (s.models.map (·.callId))

theorem Live.initial (options : Options) (reading : Option ℚ) :
    Live [] (State.initial ε options reading) where
  running := rfl
  silent := rfl
  time :=
    { nonneg := le_rfl
      limit := by norm_num [State.initial, maxSafeInteger]
      started := fun o hmem => absurd hmem List.not_mem_nil
      ended := fun o hmem => absurd hmem List.not_mem_nil }
  tally := by constructor <;> simp [State.observed, State.initial]
  busy :=
    { fills := by
        refine ⟨∅, ?_, Fills.empty⟩
        simp [State.observed, State.initial, spansAt]
      started := fun h => absurd h (Nat.lt_irrefl 0) }
  unended call hmem := absurd hmem List.not_mem_nil
  begun := rfl
  models :=
    { nodup := List.nodup_nil
      named := fun id hmem => absurd hmem List.not_mem_nil
      limit := Nat.zero_le _
      complete := fun _ id hmem => absurd hmem List.not_mem_nil }

namespace Live

variable {run : List (Action ε)}

theorem elapsed (h : Live run s) (reading : Option ℚ) :
    Live run (s.elapsed reading) := by
  have hle := State.elapsed_le reading h.time.nonneg h.time.limit
  have hlimit := State.elapsed_limit reading h.time.limit
  constructor
  · rw [State.elapsed_finished, h.running]
  · rw [State.elapsed_reports, h.silent]
  · rw [State.elapsed_observed]
    exact h.time.later hle hlimit
  · rw [State.elapsed_observed, State.elapsed_checks,
      State.elapsed_activeChecks]
    exact h.tally
  · rw [State.elapsed_observed, State.elapsed_activeChecks,
      State.elapsed_unionStart, State.elapsed_checkUnionMs]
    exact h.busy.later h.tally.active h.time hle
  · rw [State.elapsed_calls]
    exact h.unended
  · rw [State.elapsed_observed, h.begun]
  · rw [State.elapsed_models]
    exact h.models

variable {action : Action ε}

/-- An action that begins nothing. -/
theorem quiet (h : Live run s) (hbegun : action.begun = none)
    (hmodel : action.modelId = none) :
    Live (run ++ [action]) s where
  running := h.running
  silent := h.silent
  time := h.time
  tally := h.tally
  busy := h.busy
  unended := h.unended
  begun := by
    rw [List.filterMap_append, h.begun]
    simp [hbegun]
  models := by
    rw [List.filterMap_append]
    simpa [hmodel] using h.models

theorem mark (h : Live run s) (point : Option Point) (reading : Option ℚ) :
    Live run (s.mark point reading) := by
  cases point with
  | none => exact h
  | some point =>
    simp only [State.mark]
    split
    · exact h
    split
    · have hlive := h.elapsed reading
      exact ⟨hlive.running, hlive.silent, hlive.time, hlive.tally,
        hlive.busy, hlive.unended, hlive.begun, hlive.models⟩
    · exact h

theorem checkContent (h : Live run s) (phase : Option Phase)
    (reading : Option ℚ) :
    Live (run ++ [Action.checkContent phase reading])
      (s.checkContent phase reading) := by
  have hlive := h.elapsed reading
  have hobserved : (s.checkContent phase reading).observed =
      (s.elapsed reading).observed ++
        [⟨phase.getD .other, (s.elapsed reading).lastElapsedMs, none⟩] := by
    simp [State.checkContent, State.observed, h.running]
  rw [State.checkContent, if_neg (by rw [h.running]; exact Bool.false_ne_true)]
    at hobserved ⊢
  constructor
  · exact hlive.running
  · exact hlive.silent
  · rw [hobserved]
    exact hlive.time.begins _
  · rw [hobserved]
    exact hlive.tally.begins _ _
  · rw [hobserved]
    exact hlive.busy.begins _
  · intro call hmem hresult o ho
    rcases List.mem_append.1 hmem with hold | hnew
    · exact hlive.unended call hold hresult o ho
    · rw [List.mem_singleton.1 hnew] at ho
      cases ho
      rfl
  · rw [hobserved, List.map_append, hlive.begun, List.filterMap_append]
    rfl
  · rw [List.filterMap_append]
    have hmodels := hlive.models
    rw [← List.append_nil (run.filterMap Action.modelId)] at hmodels
    exact hmodels

theorem settle (h : Live run s) (call : Nat) (result : Except ε Unit)
    (reading : Option ℚ) : Live run (s.settle call result reading) := by
  rw [State.settle]
  split
  case h_2 => exact h
  rename_i observed hcall
  have hmem := List.mem_of_getElem? hcall
  obtain ⟨before, rest, hold, hnew⟩ := observed_split hcall
  have hopen : ∀ {calls : List (Call ε)} {o : Option Observed},
      (∀ call ∈ calls, call.result = none →
        ∀ o, call.observed = some o → o.ended = none) →
      ∀ found ∈ calls.set call ⟨o, some result⟩, found.result = none →
        ∀ o, found.observed = some o → o.ended = none := by
    intro calls o hcalls found hfound hresult
    rcases List.mem_or_eq_of_mem_set hfound with hfound | hself
    · exact hcalls found hfound hresult
    · rw [hself] at hresult
      cases hresult
  split
  · rename_i o hrunning
    have hlive := h.elapsed reading
    have hpending : o.ended = none := h.unended _ hmem rfl o rfl
    have hsplit : (s.elapsed reading).observed = before ++ o :: rest := by
      rw [State.elapsed_observed, State.observed, hold]
      simp
    have htime := hlive.time
    have htally := hlive.tally
    have hbusy := hlive.busy
    have hbegun := hlive.begun
    rw [hsplit] at htime htally hbusy hbegun
    have hactive : 0 < (s.elapsed reading).activeChecks := by
      rw [htally.active, List.countP_append, List.countP_cons]
      simp [Observed.isPending, hpending]
    have hended : ∀ ended : Observed,
        ((s.elapsed reading).calls.set call
          ⟨some ended, some result⟩).filterMap (·.observed) =
            before ++ ended :: rest := by
      intro ended
      rw [State.elapsed_calls, hnew]
      simp
    constructor
    · exact hlive.running
    · exact hlive.silent
    · have hends := htime.ends (State.failed result)
      rw [← hended] at hends
      exact hends
    · have hends := htally.ends hpending (s.elapsed reading).lastElapsedMs
        (State.failed result)
      rw [← hended] at hends
      exact hends
    · have hends := hbusy.ends hpending hactive (State.failed result)
      rw [← hended] at hends
      exact hends
    · exact hopen hlive.unended
    · have hphases : ∀ ended : Observed, ended.phase = o.phase →
          (before ++ ended :: rest).map (·.phase) =
            (before ++ o :: rest).map (·.phase) := by
        intro ended hphase
        simp [hphase]
      have hends := (hphases
        { o with
          ended := some
            ((s.elapsed reading).lastElapsedMs, State.failed result) }
        rfl).trans hbegun
      rw [← hended] at hends
      exact hends
    · exact hlive.models
  · rename_i kept observed finished hlate
    have hsame : (s.calls.set call ⟨kept, some result⟩).filterMap
        (·.observed) = s.observed := by
      rw [hnew, State.observed, hold]
    have htime := h.time
    have htally := h.tally
    have hbusy := h.busy
    have hbegun := h.begun
    rw [← hsame] at htime htally hbusy hbegun
    exact ⟨h.running, h.silent, htime, htally, hbusy, hopen h.unended, hbegun,
      h.models⟩

theorem modelStarted (h : Live run s) (callId : JsString)
    (reading : Option ℚ) :
    Live (run ++ [Action.modelStarted callId reading])
      (s.modelStarted callId reading) := by
  have hnames : ∀ {ids : List JsString},
      Recorded (run.filterMap Action.modelId ++ (identity callId).toList) ids →
        Recorded ((run ++ [Action.modelStarted callId reading]).filterMap
          Action.modelId) ids := by
    intro ids hrecorded
    rw [List.filterMap_append]
    cases hid : identity callId with
    | none | some id => simpa [Action.modelId, hid] using hrecorded
  have hbegun : ∀ {phases : List Phase}, phases = run.filterMap Action.begun →
      phases = (run ++ [Action.modelStarted callId reading]).filterMap
        Action.begun := by
    intro phases hphases
    rw [List.filterMap_append, hphases]
    simp [Action.begun]
  rw [State.modelStarted]
  split
  · rename_i hid
    refine ⟨h.running, h.silent, h.time, h.tally, h.busy, h.unended,
      hbegun h.begun, hnames ?_⟩
    rw [hid, Option.toList_none, List.append_nil]
    exact h.models
  rename_i id hid
  rw [hid, Option.toList_some] at hnames
  split
  · rename_i hknown
    rw [h.running] at hknown
    refine ⟨h.running, h.silent, h.time, h.tally, h.busy, h.unended,
      hbegun h.begun, hnames (h.models.again ?_)⟩
    simpa using hknown
  rename_i hfresh
  rw [not_or] at hfresh
  split
  · rename_i hfull
    refine ⟨h.running, h.silent, h.time, h.tally, h.busy, h.unended,
      hbegun h.begun, hnames (h.models.full ?_)⟩
    rw [List.length_map]
    exact hfull
  · rename_i hroom
    have hlive := h.elapsed reading
    refine ⟨hlive.running, hlive.silent, hlive.time, hlive.tally, hlive.busy,
      hlive.unended, hbegun hlive.begun, ?_⟩
    show Recorded _ (((s.elapsed reading).models ++
      [(⟨id, (s.elapsed reading).lastElapsedMs, none⟩ : ModelSpan)]).map
        (·.callId))
    rw [State.elapsed_models, List.map_append]
    refine hnames (h.models.add hfresh.2 ?_)
    rw [List.length_map]
    exact Nat.lt_of_not_le hroom

theorem modelFinished (h : Live run s) (callId : JsString)
    (reading : Option ℚ) : Live run (s.modelFinished callId reading) := by
  rw [State.modelFinished]
  split
  · exact h
  rename_i id hid
  split
  · have hlive := h.elapsed reading
    refine ⟨hlive.running, hlive.silent, hlive.time, hlive.tally, hlive.busy,
      hlive.unended, hlive.begun, ?_⟩
    have hsame : ((s.elapsed reading).models.map fun span =>
        if span.callId = id then
          { span with stop := some (s.elapsed reading).lastElapsedMs }
        else span).map (·.callId) =
          (s.elapsed reading).models.map (·.callId) := by
      rw [List.map_map]
      refine List.map_congr_left fun span _ => ?_
      by_cases hspan : span.callId = id
      · simp [hspan]
      · simp [hspan]
    have hmodels := hlive.models
    rw [← hsame] at hmodels
    exact hmodels
  · exact h

/-- What an action does that is not the last one. -/
theorem step (h : Live run s) (hgoes : action.isFinish = false) :
    Live (run ++ [action]) (s.step action) := by
  cases action with
  | mark point reading => exact (h.mark point reading).quiet rfl rfl
  | checkContent phase reading => exact h.checkContent phase reading
  | settle call result reading =>
    exact (h.settle call result reading).quiet rfl rfl
  | modelStarted callId reading => exact h.modelStarted callId reading
  | modelFinished callId reading =>
    exact (h.modelFinished callId reading).quiet rfl rfl
  | finish outcome reading => cases hgoes

end Live

/-- A report that adds up: up to the greatest safe integer, the sums and
counters are those of the checks that were begun before it. -/
structure AddsUp (run : List (Action ε)) (obs : List Observed) (r : Report) :
    Prop where
  sumMs : r.contentChecks.sumMs =
    min maxSafeInteger (total (spansAt r.elapsedMs obs))
  unionMs : (r.contentChecks.unionMs : ℝ) = measure (spansAt r.elapsedMs obs)
  ordered : r.contentChecks.unionMs ≤ min r.contentChecks.sumMs r.elapsedMs
  begun : obs.map (·.phase) = (beforeFinish run).filterMap Action.begun
  calls : ∀ phase, (r.contentChecks.phases phase).calls =
    min maxSafeInteger (countIn phase (fun _ => true) obs)
  failed : ∀ phase, (r.contentChecks.phases phase).failed =
    min maxSafeInteger (countIn phase Observed.hasFailed obs)
  pending : ∀ phase, (r.contentChecks.phases phase).pending =
    min maxSafeInteger (countIn phase Observed.isPending obs)
  durationMs : ∀ phase, (r.contentChecks.phases phase).durationMs =
    min maxSafeInteger
      (sumIn phase (fun o => (o.spanAt r.elapsedMs).length) obs)
  allCalls : r.contentChecks.calls = min maxSafeInteger obs.length
  allFailed : r.contentChecks.failed =
    min maxSafeInteger (obs.countP Observed.hasFailed)
  allPending : r.contentChecks.pending =
    min maxSafeInteger (obs.countP Observed.isPending)
  modelCalls : r.modelChain.completed + r.modelChain.unclosed =
    r.modelChain.calls
  recorded : r.modelChain.calls = min maxModelSpans
    ((beforeFinish run).filterMap Action.modelId).toFinset.card

theorem foldl_addSpan (models : List ModelSpan) (chain : ModelChain) :
    (models.foldl s.addSpan chain).completed +
        (models.foldl s.addSpan chain).unclosed =
      chain.completed + chain.unclosed + models.length ∧
    (models.foldl s.addSpan chain).calls = chain.calls := by
  induction models generalizing chain with
  | nil => exact ⟨rfl, rfl⟩
  | cons span models ih =>
    obtain ⟨hsum, hcalls⟩ := ih (s.addSpan chain span)
    rw [List.foldl_cons, hsum, hcalls, List.length_cons, State.addSpan]
    cases span.stop with
    | none | some stop => exact ⟨by simp only []; omega, rfl⟩

theorem sumIn_nonneg {phase : Phase} {obs : List Observed} {now : ℚ}
    (h : OnTime obs now) :
    0 ≤ sumIn phase (fun o => (o.spanAt now).length) obs := by
  refine List.sum_nonneg fun x hx => ?_
  obtain ⟨o, ho, rfl⟩ := List.mem_map.1 hx
  have hspan := h.spans _ (List.mem_map_of_mem ho)
  rw [Observed.inPhase]
  split
  · exact sub_nonneg.2 hspan.2.1
  · exact le_rfl

theorem bounded_count (n : Nat) : bounded n = min maxSafeInteger n :=
  bounded_of_nonneg (Nat.cast_nonneg n)

/-- The counters of all phases together. -/
theorem bounded_totals (field : ContentCheckTotals → ℚ)
    (p : Observed → Bool)
    (hfield : ∀ phase, field (s.phaseTotals phase) =
      bounded (countIn phase p s.observed)) :
    bounded (contentPhases.foldl
      (fun sum phase => sum + field (s.phaseTotals phase)) 0) =
        min maxSafeInteger (s.observed.countP p) := by
  rw [foldl_add, zero_add, List.map_congr_left fun phase _ => hfield phase,
    bounded_sum _ _ fun phase _ => Nat.cast_nonneg _, sum_countIn,
    bounded_count]

namespace Live

variable {run : List (Action ε)}

theorem phaseTotals_durationMs (h : Live run s) (phase : Phase) :
    (s.phaseTotals phase).durationMs = bounded
      (sumIn phase (fun o => (o.spanAt s.lastElapsedMs).length)
        s.observed) := by
  rw [sumIn_length, ← h.tally.durationMs, ← h.tally.pending,
    ← h.tally.pendingStarts]
  rfl

theorem sumMs (h : Live run s) : s.contentChecks.sumMs =
    min maxSafeInteger (total (spansAt s.lastElapsedMs s.observed)) := by
  have htotal : total (spansAt s.lastElapsedMs s.observed) =
      (s.observed.map fun o => (o.spanAt s.lastElapsedMs).length).sum := by
    rw [total, spansAt, List.map_map]
    rfl
  have hnonneg : 0 ≤ total (spansAt s.lastElapsedMs s.observed) := by
    refine List.sum_nonneg fun x hx => ?_
    obtain ⟨span, hmem, rfl⟩ := List.mem_map.1 hx
    exact sub_nonneg.2 (h.time.spans span hmem).2.1
  rw [← bounded_of_nonneg hnonneg, htotal, ← sum_sumIn,
    ← bounded_sum _ _ fun phase _ => sumIn_nonneg h.time]
  show bounded (contentPhases.foldl
    (fun sum phase => sum + (s.phaseTotals phase).durationMs) 0) = _
  rw [foldl_add, zero_add, List.map_congr_left fun phase _ =>
    h.phaseTotals_durationMs phase]

/-- What is covered fits into the run, so the bound on it is never reached. -/
theorem unionMs (h : Live run s) : (s.contentChecks.unionMs : ℝ) =
    measure (spansAt s.lastElapsedMs s.observed) := by
  have hmeasure := h.busy.measure
  have hle := measure_le h.time.nonneg fun span hmem =>
    ⟨(h.time.spans span hmem).1, (h.time.spans span hmem).2.2⟩
  rw [← hmeasure] at hle ⊢
  have hnonneg := @measure_nonneg (spansAt s.lastElapsedMs s.observed)
  rw [← hmeasure] at hnonneg
  have hpositive := Rat.cast_nonneg.1 hnonneg
  rw [← Rat.cast_sub, Rat.cast_le, sub_zero] at hle
  rw [Rat.cast_inj]
  exact bounded_eq hpositive (hle.trans h.time.limit)

theorem ordered (h : Live run s) :
    s.contentChecks.unionMs ≤ min s.contentChecks.sumMs s.lastElapsedMs := by
  have hmeasure := h.unionMs
  have hlong := measure_le h.time.nonneg fun span hmem =>
    ⟨(h.time.spans span hmem).1, (h.time.spans span hmem).2.2⟩
  have htotal := measure_le_total fun span hmem =>
    (h.time.spans span hmem).2.1
  rw [← hmeasure] at hlong htotal
  rw [← Rat.cast_sub, Rat.cast_le, sub_zero] at hlong
  rw [Rat.cast_le] at htotal
  rw [h.sumMs]
  exact le_min (le_min (bounded_le _) htotal) hlong

/-- What `finish` reports. -/
theorem report (h : Live run s) (outcome : Option Outcome)
    {more : List (Action ε)}
    (hrun : beforeFinish more = run) :
    AddsUp more s.observed (s.report outcome) where
  sumMs := h.sumMs
  unionMs := h.unionMs
  ordered := h.ordered
  begun := by rw [hrun, h.begun]
  calls phase := by
    rw [← bounded_count, ← h.tally.calls]
    rfl
  failed phase := by
    rw [← bounded_count, ← h.tally.failed]
    rfl
  pending phase := by
    rw [← bounded_count, ← h.tally.pending]
    rfl
  durationMs phase :=
    (h.phaseTotals_durationMs phase).trans
      (bounded_of_nonneg (sumIn_nonneg h.time))
  allCalls := by
    have htotals := bounded_totals (·.calls) (fun _ => true) fun phase => by
      rw [← h.tally.calls]
      rfl
    rw [List.countP_true] at htotals
    exact htotals
  allFailed := bounded_totals (·.failed) Observed.hasFailed fun phase => by
    rw [← h.tally.failed]
    rfl
  allPending := bounded_totals (·.pending) Observed.isPending fun phase => by
    rw [← h.tally.pending]
    rfl
  modelCalls := by
    have hsum := (foldl_addSpan (s := s) s.models
      ⟨s.models.length, 0, 0, 0, 0, s.modelsTruncated⟩).1
    have hcalls := (foldl_addSpan (s := s) s.models
      ⟨s.models.length, 0, 0, 0, 0, s.modelsTruncated⟩).2
    rw [zero_add, zero_add] at hsum
    exact hsum.trans hcalls.symm
  recorded := by
    have hcalls := (foldl_addSpan (s := s) s.models
      ⟨s.models.length, 0, 0, 0, 0, s.modelsTruncated⟩).2
    rw [hrun, ← h.models.length, List.length_map]
    exact hcalls

end Live

/-- Behind the report. -/
theorem step_finished (h : s.finished = true) (action : Action ε) :
    (s.step action).finished = true ∧
      (s.step action).reports = s.reports ∧
        (s.step action).observed = s.observed := by
  cases action with
  | mark point reading =>
    cases point with
    | none => exact ⟨h, rfl, rfl⟩
    | some point => simp [State.step, State.mark, h]
  | checkContent phase reading =>
    simp [State.step, State.checkContent, h, State.observed]
  | settle call result reading =>
    simp only [State.step, State.settle]
    split
    case h_2 => exact ⟨h, rfl, rfl⟩
    rename_i observed hcall
    split
    · rename_i hrunning
      rw [h] at hrunning
      cases hrunning
    · obtain ⟨before, rest, hold, hnew⟩ := observed_split hcall
      refine ⟨h, rfl, ?_⟩
      rw [State.observed, State.observed, hold]
      exact hnew _ _
  | modelStarted callId reading =>
    simp only [State.step, State.modelStarted]
    split
    · exact ⟨h, rfl, rfl⟩
    · simp [h]
  | modelFinished callId reading =>
    simp only [State.step, State.modelFinished]
    split
    · exact ⟨h, rfl, rfl⟩
    · simp [h]
  | finish outcome reading => simp [State.step, State.finish, h]

/-- What holds after every run. -/
inductive Kept (run : List (Action ε)) (s : State ε) : Prop
  | live (goes : run.any Action.isFinish = false) (live : Live run s)
  | reported (ended : run.any Action.isFinish = true)
      (finished : s.finished = true) {r : Report} (reports : s.reports = [r])
      (adds : AddsUp run s.observed r)

variable {run : List (Action ε)} {n : Nat} {c : Call ε} {result : Except ε Unit}

theorem beforeFinish_of_none (h : run.any Action.isFinish = false)
    (action : Action ε) :
    beforeFinish (run ++ [action]) =
      run ++ if action.isFinish then [] else [action] := by
  induction run with
  | nil => cases action <;> rfl
  | cons first run ih =>
    rw [List.any_cons, Bool.or_eq_false_iff] at h
    rw [beforeFinish, List.cons_append, List.takeWhile_cons, h.1]
    exact congrArg (first :: ·) (ih h.2)

theorem beforeFinish_of_some (h : run.any Action.isFinish = true)
    (action : Action ε) :
    beforeFinish (run ++ [action]) = beforeFinish run := by
  induction run with
  | nil => cases h
  | cons first run ih =>
    cases hfirst : first.isFinish with
    | true => simp [beforeFinish, hfirst]
    | false =>
      rw [List.any_cons, hfirst, Bool.false_or] at h
      rw [beforeFinish, List.cons_append, List.takeWhile_cons, beforeFinish,
        List.takeWhile_cons, hfirst]
      exact congrArg (first :: ·) (ih h)

theorem Kept.step (h : Kept run s) (action : Action ε) :
    Kept (run ++ [action]) (s.step action) := by
  cases h with
  | live hgoes hlive =>
    cases hfinish : action.isFinish with
    | false =>
      refine .live ?_ (hlive.step hfinish)
      rw [List.any_append, hgoes, List.any_cons, hfinish]
      rfl
    | true =>
      cases action with
      | finish outcome reading =>
        have hbefore :=
          beforeFinish_of_none hgoes (.finish outcome reading)
        rw [hfinish, if_pos rfl, List.append_nil] at hbefore
        have hadds := (hlive.elapsed reading).report outcome hbefore
        have hstep : s.step (.finish outcome reading) =
            { s.elapsed reading with
              finished := true
              reports := [(s.elapsed reading).report outcome] } := by
          rw [State.step, State.finish, if_neg (by simp [hlive.running])]
          have hsilent := hlive.silent
          cases reading <;> simp [State.elapsed, hsilent] <;> rfl
        rw [hstep]
        refine .reported ?_ rfl rfl hadds
        rw [List.any_append, List.any_cons, hfinish]
        simp
      | _ => cases hfinish
  | reported hended hfinished hreports hadds =>
    obtain ⟨hfinished', hreports', hobserved⟩ :=
      step_finished hfinished action
    refine .reported ?_ hfinished' (hreports'.trans hreports) ?_
    · rw [List.any_append, hended, Bool.true_or]
    · rw [hobserved]
      have hbefore := beforeFinish_of_some hended action
      exact
        { hadds with
          begun := hbefore ▸ hadds.begun
          recorded := hbefore ▸ hadds.recorded }

/-- The state after a run. -/
def stateAfter (options : Options) (origin : Option ℚ)
    (run : List (Action ε)) : State ε :=
  (machine ε).after (State.initial ε options origin) run

end Allrice.DshRunTiming
