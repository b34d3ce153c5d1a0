/-
Where the proof of a read comes from.  Over a whole run, an object carries what
was attached to it or moved to it, and nothing ever replaces it; a proof object
has the guard that it was bound to first.
-/
import Allrice.CheckedDelivery

namespace Allrice.CheckedDelivery

variable {host : DeliveryHost} {s s' : State}

theorem object_eq_some {value : Value} {o : Obj}
    (h : object host value = some o) : value = .object o := by
  unfold object at h
  split at h
  · split at h
    · cases h
    · cases h
      rfl
  · cases h

theorem assertAnswer_iff {value : Value} {entry : Entry} :
    assertAnswer host s value entry = true ↔
      (∀ binding ∈ entry.commit, assertCommit s binding = true) ∧
        answer host s value = some entry.answer ∧
          digest host entry.answer = entry.proof.candidateDigest := by
  unfold assertAnswer
  cases hanswer : answer host s value with
  | none => simp
  | some current =>
    simp only [Bool.and_eq_true, Option.all_eq_true, Option.any_some,
      beq_iff_eq, Option.some_inj, Option.mem_def]
    constructor
    · rintro ⟨hcommit, rfl, hdigest⟩
      exact ⟨hcommit, rfl, hdigest⟩
    · rintro ⟨hcommit, rfl, hdigest⟩
      exact ⟨hcommit, rfl, hdigest⟩

/-- The guard and the function of a binding. -/
def CommitBinding.bound (binding : CommitBinding) : Obj × Callable :=
  (binding.guard, binding.assertCurrent)

theorem assertCommit_iff {binding : CommitBinding} :
    assertCommit s binding = true ↔
      guardFunction s binding.guard = some binding.assertCurrent := by
  simp [assertCommit]

/-- A bind leaves a proof with the guard it had, or gives it its first one. -/
theorem bind_spec {proof guard : Value}
    (h : bindCheckedFinalDeliveryCommitGuard host s proof guard = some s') :
    ∃ p g f, proof = .object p ∧ guard = .object g ∧
      guardFunction s g = some f ∧
      ((s' = s ∧ (s.commitGuards p).map (·.bound) = some (g, f)) ∨
        ∃ binding : CommitBinding, binding.bound = (g, f) ∧
          s.commitGuards p = none ∧
          s' = { s with
            commitGuards := Function.update s.commitGuards p (some binding)
            identities := s.identities + 1 }) := by
  simp only [bindCheckedFinalDeliveryCommitGuard, Option.bind_eq_bind,
    Option.bind_eq_some_iff] at h
  obtain ⟨safe, -, p, hp, g, hg, f, hf, h⟩ := h
  refine ⟨p, g, f, object_eq_some hp, object_eq_some hg, hf, ?_⟩
  cases hguards : s.commitGuards p with
  | none =>
    simp only [hguards, Option.some_inj] at h
    exact .inr ⟨_, rfl, rfl, h.symm⟩
  | some existing =>
    simp only [hguards] at h
    split at h
    · cases h
    · rename_i hsame
      simp only [Bool.not_eq_true, Bool.or_eq_false_iff,
        Bool.not_eq_false', decide_eq_false_iff_not, not_not] at hsame
      obtain ⟨⟨hcommit, hguard⟩, -⟩ := hsame
      rw [assertCommit_iff, hguard, hf, Option.some_inj] at hcommit
      refine .inl ⟨(Option.some.inj h).symm, ?_⟩
      simp [CommitBinding.bound, hguard, hcommit]

/-- An attachment leaves an object with an entry of the answer, the proof and
the guard as they are, the one it had or its first one. -/
theorem attach_spec {target proof : Value}
    (h : attachCheckedFinalDelivery host s target proof = some s') :
    ∃ o p entry, target = .object o ∧ proof = .object p ∧
      answer host s target = some entry.answer ∧
      snapshot host s proof = some entry.proof ∧
      entry.commit = s.commitGuards p ∧
      (s.deliveries o = none ∨ s.deliveries o = some entry) ∧
      s'.deliveries = Function.update s.deliveries o (some entry) ∧
      s'.commitGuards = s.commitGuards ∧ s'.executions = s.executions := by
  simp only [attachCheckedFinalDelivery, Option.bind_eq_bind,
    Option.bind_eq_some_iff] at h
  obtain ⟨current, hcurrent, safe, hsafe, p, hp, h⟩ := h
  split at h
  · simp at h
  split at h
  · simp at h
  simp only [Option.bind_eq_some_iff] at h
  obtain ⟨o, ho, h⟩ := h
  cases hdeliveries : s.deliveries o with
  | none =>
    simp only [hdeliveries, Option.some_inj] at h
    exact ⟨o, p, _, object_eq_some ho, object_eq_some hp, hcurrent, hsafe, rfl,
      Or.inl hdeliveries, by rw [← h], by rw [← h], by rw [← h]⟩
  | some existing =>
    simp only [hdeliveries] at h
    split at h
    · cases h
    · rename_i hsame
      simp only [Bool.not_eq_true, Bool.or_eq_false_iff,
        Bool.not_eq_false', decide_eq_false_iff_not, not_not] at hsame
      obtain ⟨⟨hanswer, hproof⟩, hcommit⟩ := hsame
      cases Option.some.inj h
      refine ⟨o, p, existing, object_eq_some ho, object_eq_some hp,
        (assertAnswer_iff.1 hanswer).2.1, by rw [hproof]; exact hsafe,
        hcommit, .inr hdeliveries, ?_, rfl, rfl⟩
      rw [← hdeliveries, Function.update_eq_self]

/-- A transfer gives an object the entry of another one. -/
theorem transfer_spec {source target : Value}
    (h : transferCheckedFinalDelivery host s source target = some s') :
    ∃ src o entry, source = .object src ∧ target = .object o ∧
      s.deliveries src = some entry ∧
      (s.deliveries o = none ∨ s.deliveries o = some entry) ∧
      s' = { s with deliveries := Function.update s.deliveries o (some entry) } := by
  simp only [transferCheckedFinalDelivery, Option.bind_eq_bind,
    Option.bind_eq_some_iff] at h
  obtain ⟨entry, ⟨src, hsrc, hentry⟩, h⟩ := h
  split at h
  · simp at h
  simp only [Option.bind_eq_some_iff] at h
  obtain ⟨o, ho, h⟩ := h
  split at h
  · simp at h
  · rename_i hother
    cases Option.some.inj h
    refine ⟨src, o, entry, object_eq_some hsrc, object_eq_some ho, hentry, ?_,
      rfl⟩
    cases hdeliveries : s.deliveries o with
    | none => exact .inl rfl
    | some existing => exact .inr (by simpa [hdeliveries] using hother)

/-- Delivery is required of an invocation. -/
def IsRequired (s : State) (scope : Obj) : Prop :=
  ∃ state, s.executions scope = some state ∧ state.required = true

/-- With delivery required, a transfer for an execution is a transfer; without,
it changes nothing. -/
theorem transferForExecution_spec {scope source target : Value}
    (h : transferCheckedFinalDeliveryForExecution host s scope source target =
      some s') :
    ∃ scopeObject, scope = .object scopeObject ∧
      ((¬IsRequired s scopeObject ∧ s' = s) ∨
        ∃ state next output entry, IsRequired s scopeObject ∧
          s.executions scopeObject = some state ∧
          transferCheckedFinalDelivery host s source target = some next ∧
          target = .object output ∧
          s' = { next with
            executions := Function.update next.executions scopeObject
              (some { state with
                entry := some entry
                output := some output }) }) := by
  simp only [transferCheckedFinalDeliveryForExecution, Option.bind_eq_bind,
    Option.bind_eq_some_iff] at h
  obtain ⟨scopeObject, hscope, h⟩ := h
  refine ⟨scopeObject, object_eq_some hscope, ?_⟩
  split at h
  · rename_i hfree
    refine .inl ⟨?_, ?_⟩
    · rintro ⟨state, hstate, hrequired⟩
      simp [hstate, hrequired] at hfree
    · simp only [Option.bind_eq_some_iff] at h
      obtain ⟨_, -, _, -, h⟩ := h
      split at h
      · cases h
      · exact (Option.some.inj h).symm
  · rename_i state hstate
    obtain ⟨hstate, hrequired⟩ := Option.filter_eq_some_iff.1 hstate
    simp only [Option.bind_eq_some_iff] at h
    obtain ⟨entry, -, h⟩ := h
    split at h
    · simp at h
    split at h
    · simp at h
    simp only [Option.bind_eq_some_iff, Option.some_inj] at h
    obtain ⟨next, hnext, output, houtput, rfl⟩ := h
    exact .inr ⟨state, next, output, entry, ⟨state, hstate, hrequired⟩, hstate,
      hnext, object_eq_some houtput, rfl⟩

theorem begin_spec {scope : Value}
    (h : beginCheckedFinalDeliveryExecution host s scope = some s') :
    ∃ scopeObject, scope = .object scopeObject ∧
      s.executions scopeObject = none ∧
      s' = { s with
        executions := Function.update s.executions scopeObject
          (some ⟨false, none, none⟩) } := by
  simp only [beginCheckedFinalDeliveryExecution, Option.bind_eq_bind,
    Option.bind_eq_some_iff] at h
  obtain ⟨scopeObject, hscope, h⟩ := h
  split at h
  · simp at h
  · rename_i hnone
    exact ⟨scopeObject, object_eq_some hscope, by simpa using hnone,
      (Option.some.inj h).symm⟩

theorem require_spec {scope : Value}
    (h : requireCheckedFinalDelivery host s scope = some s') :
    ∃ scopeObject state, scope = .object scopeObject ∧
      s.executions scopeObject = some state ∧
      s' = { s with
        executions := Function.update s.executions scopeObject
          (some { state with required := true }) } := by
  simp only [requireCheckedFinalDelivery, Option.bind_eq_bind,
    Option.bind_eq_some_iff] at h
  obtain ⟨scopeObject, hscope, state, hstate, h⟩ := h
  split at h
  · simp at h
  · exact ⟨scopeObject, state, object_eq_some hscope, hstate,
      (Option.some.inj h).symm⟩

/-- A proof comes from the entry of the object, and the object still carries the
answer. -/
theorem get_spec {target : Value} {proof : FinalDeliveryProof}
    (h : getCheckedFinalDelivery host s target = some (some proof)) :
    ∃ o entry, target = .object o ∧ s.deliveries o = some entry ∧
      entry.proof = proof ∧ assertAnswer host s target entry = true := by
  unfold getCheckedFinalDelivery at h
  split at h
  · simp at h
  · rename_i entry hentry
    obtain ⟨o, ho, hentry⟩ := Option.bind_eq_some_iff.1 hentry
    split at h
    · rename_i hanswer
      exact ⟨o, entry, object_eq_some ho, hentry,
        Option.some.inj (Option.some.inj h), hanswer⟩
    · cases h

theorem read_uncovered {scope result : Value}
    (h : readCheckedFinalDeliveryForExecution host s scope result =
      some .uncovered) :
    ∃ scopeObject, scope = .object scopeObject ∧ ¬IsRequired s scopeObject := by
  simp only [readCheckedFinalDeliveryForExecution, Option.bind_eq_bind,
    Option.bind_eq_some_iff] at h
  obtain ⟨scopeObject, hscope, state, hstate, proof, -, h⟩ := h
  refine ⟨scopeObject, object_eq_some hscope, ?_⟩
  rintro ⟨state', hstate', hrequired⟩
  cases Option.some.inj (hstate.symm.trans hstate')
  simp only [hrequired, Bool.not_true, Bool.false_eq_true, ↓reduceIte,
    Option.bind_eq_some_iff] at h
  obtain ⟨_, -, _, -, h⟩ := h
  split at h
  · simp at h
  · simp only [Option.bind_eq_some_iff] at h
    obtain ⟨_, -, _, -, h⟩ := h
    split at h <;> simp at h

/-- A checked read is one of an entry whose guard is unmodified. -/
theorem read_checked {scope result : Value} {proof : FinalDeliveryProof}
    {guard : Obj}
    (h : readCheckedFinalDeliveryForExecution host s scope result =
      some (.checkedNativeV1 proof guard)) :
    ∃ o entry commit, result = .object o ∧ s.deliveries o = some entry ∧
      entry.proof = proof ∧ assertAnswer host s result entry = true ∧
      entry.commit = some commit ∧ commit.guard = guard ∧
      assertCommit s commit = true := by
  simp only [readCheckedFinalDeliveryForExecution, Option.bind_eq_bind,
    Option.bind_eq_some_iff] at h
  obtain ⟨-, -, state, -, found, hfound, h⟩ := h
  split at h
  · split at h <;> simp at h
  simp only [Option.bind_eq_some_iff] at h
  obtain ⟨proof', rfl, o, ho, h⟩ := h
  split at h
  · simp at h
  simp only [Option.bind_eq_some_iff] at h
  obtain ⟨entry, hentry, commit, hcommit, h⟩ := h
  split at h
  · rename_i hcurrent
    simp only [Option.some_inj, CheckedFinalDeliveryCoverage.checkedNativeV1.injEq]
      at h
    obtain ⟨rfl, rfl⟩ := h
    obtain ⟨o', entry', rfl, hentry', hproof, hanswer⟩ := get_spec hfound
    cases object_eq_some ho
    cases Option.some.inj (hentry.symm.trans hentry')
    exact ⟨o, entry, commit, rfl, hentry, hproof, hanswer, hcommit, rfl,
      hcurrent⟩
  · cases h

section Histories

variable (host : DeliveryHost) (heap : Obj → Shape)

/-- The state after a run. -/
def after (run : List Action) : State :=
  (calls host).after (State.initial heap) run

/-- The call goes through after the run. -/
def Succeeds (run : List Action) (action : Action) : Prop :=
  (step host (after host heap run) action).2 = .done

/-- A guard and its function were bound to a proof object. -/
inductive BoundTo : List Action → Obj → Obj × Callable → Prop
  | bound {run p g f} :
      Succeeds host heap run (.bind (.object p) (.object g)) →
      guardFunction (after host heap run) g = some f →
      BoundTo (run ++ [Action.bind (.object p) (.object g)]) p (g, f)
  | later {run p bound} (action : Action) : BoundTo run p bound →
      BoundTo (run ++ [action]) p bound

/-- Delivery was required of an invocation. -/
inductive Required : List Action → Obj → Prop
  | required {run scope} : Succeeds host heap run (.require (.object scope)) →
      Required (run ++ [Action.require (.object scope)]) scope
  | later {run scope} (action : Action) : Required run scope →
      Required (run ++ [action]) scope

end Histories

/-- An attachment: the answer of the object, the fields of the proof, the proof
object, and the guard that was bound to it before. -/
structure Attachment where
  answer : JsString
  proof : FinalDeliveryProof
  source : Obj
  commit : Option (Obj × Callable)

/-- An object received an attachment: it was attached to it, or moved to it from
an object that had received it. -/
inductive Received (host : DeliveryHost) (heap : Obj → Shape) :
    List Action → Obj → Attachment → Prop
  | attached {run o a} :
      Succeeds host heap run (.attach (.object o) (.object a.source)) →
      CheckedDelivery.answer host (after host heap run) (.object o) =
        some a.answer →
      snapshot host (after host heap run) (.object a.source) = some a.proof →
      (∀ bound, BoundTo host heap run a.source bound ↔
        a.commit = some bound) →
      Received host heap
        (run ++ [Action.attach (.object o) (.object a.source)]) o a
  | transferred {run source o a} : Received host heap run source a →
      Succeeds host heap run (.transfer (.object source) (.object o)) →
      Received host heap
        (run ++ [Action.transfer (.object source) (.object o)]) o a
  | executed {run scope source o a} : Received host heap run source a →
      Required host heap run scope →
      Succeeds host heap run
        (.transferForExecution (.object scope) (.object source) (.object o)) →
      Received host heap
        (run ++ [Action.transferForExecution (.object scope) (.object source)
          (.object o)]) o a
  | later {run o a} (action : Action) : Received host heap run o a →
      Received host heap (run ++ [action]) o a

variable {heap : Obj → Shape} {run : List Action}

theorem after_concat (action : Action) :
    after host heap (run ++ [action]) =
      (step host (after host heap run) action).1 := by
  rw [after, Machine.after_append]
  rfl

theorem BoundTo.of_concat {action : Action} {p : Obj}
    {bound : Obj × Callable} (h : BoundTo host heap (run ++ [action]) p bound) :
    BoundTo host heap run p bound ∨
      action = .bind (.object p) (.object bound.1) ∧
        Succeeds host heap run action ∧
        guardFunction (after host heap run) bound.1 = some bound.2 := by
  generalize hlong : run ++ [action] = long at h
  cases h with
  | bound hsucceeds hfunction =>
    obtain ⟨rfl, hsame⟩ := List.append_inj' hlong rfl
    cases hsame
    exact .inr ⟨rfl, hsucceeds, hfunction⟩
  | later _ hbefore =>
    obtain ⟨rfl, -⟩ := List.append_inj' hlong rfl
    exact .inl hbefore

theorem Required.of_concat {action : Action} {scope : Obj}
    (h : Required host heap (run ++ [action]) scope) :
    Required host heap run scope ∨
      action = .require (.object scope) ∧ Succeeds host heap run action := by
  generalize hlong : run ++ [action] = long at h
  cases h with
  | required hsucceeds =>
    obtain ⟨rfl, hsame⟩ := List.append_inj' hlong rfl
    cases hsame
    exact .inr ⟨rfl, hsucceeds⟩
  | later _ hbefore =>
    obtain ⟨rfl, -⟩ := List.append_inj' hlong rfl
    exact .inl hbefore

/-- What a step does: nothing to the three maps, or what a call that went
through does to them. -/
inductive Effect (host : DeliveryHost) (s s' : State) : Action → Answer → Prop
  | idle {action answer} : s'.commitGuards = s.commitGuards →
      s'.deliveries = s.deliveries → s'.executions = s.executions →
      (answer = .done → ∃ o shape, action = .mutate o shape) →
      Effect host s s' action answer
  | bound (p g f binding) : guardFunction s g = some f →
      CommitBinding.bound binding = (g, f) →
      (s.commitGuards p = none ∨ s.commitGuards p = some binding) →
      s'.commitGuards = Function.update s.commitGuards p (some binding) →
      s'.deliveries = s.deliveries → s'.executions = s.executions →
      Effect host s s' (.bind (.object p) (.object g)) .done
  | attached (o p entry) : answer host s (.object o) = some entry.answer →
      snapshot host s (.object p) = some entry.proof →
      entry.commit = s.commitGuards p →
      (s.deliveries o = none ∨ s.deliveries o = some entry) →
      s'.deliveries = Function.update s.deliveries o (some entry) →
      s'.commitGuards = s.commitGuards → s'.executions = s.executions →
      Effect host s s' (.attach (.object o) (.object p)) .done
  | moved (source o entry) : s.deliveries source = some entry →
      (s.deliveries o = none ∨ s.deliveries o = some entry) →
      s'.deliveries = Function.update s.deliveries o (some entry) →
      s'.commitGuards = s.commitGuards → s'.executions = s.executions →
      Effect host s s' (.transfer (.object source) (.object o)) .done
  | executed (scope source o entry) : IsRequired s scope →
      s.deliveries source = some entry →
      (s.deliveries o = none ∨ s.deliveries o = some entry) →
      s'.deliveries = Function.update s.deliveries o (some entry) →
      s'.commitGuards = s.commitGuards →
      (∀ other, IsRequired s' other ↔ IsRequired s other) →
      Effect host s s'
        (.transferForExecution (.object scope) (.object source) (.object o))
        .done
  | uncovered (scope source target) : ¬IsRequired s scope → s' = s →
      Effect host s s' (.transferForExecution (.object scope) source target)
        .done
  | began (scope) : s'.commitGuards = s.commitGuards →
      s'.deliveries = s.deliveries →
      (∀ other, IsRequired s' other ↔ IsRequired s other) →
      Effect host s s' (.begin (.object scope)) .done
  | required (scope) : s'.commitGuards = s.commitGuards →
      s'.deliveries = s.deliveries →
      (∀ other, IsRequired s' other ↔ IsRequired s other ∨ other = scope) →
      Effect host s s' (.require (.object scope)) .done

/-- A call that throws does nothing. -/
theorem settle_effect {action : Action} {next : Option State}
    (h : ∀ s', next = some s' → Effect host s s' action .done) :
    Effect host s (settle s next).1 action (settle s next).2 := by
  cases next with
  | none => exact .idle rfl rfl rfl nofun
  | some next => exact h next rfl

theorem isRequired_update {scope other : Obj} {state : ExecutionCoverage}
    (hexecutions : s'.executions =
      Function.update s.executions scope (some state)) :
    IsRequired s' other ↔
      if other = scope then state.required = true else IsRequired s other := by
  unfold IsRequired
  rw [hexecutions]
  by_cases hsame : other = scope
  · subst hsame
    simp
  · simp [hsame]

theorem step_effect (host : DeliveryHost) (s : State) (action : Action) :
    Effect host s (step host s action).1 action (step host s action).2 := by
  cases action with
  | mutate o shape => exact .idle rfl rfl rfl fun _ => ⟨o, shape, rfl⟩
  | get target =>
    refine .idle rfl rfl rfl ?_
    simp only [step]
    cases getCheckedFinalDelivery host s target <;> nofun
  | checkpoint target =>
    refine .idle rfl rfl rfl ?_
    simp only [step]
    cases checkedFinalDeliveryCheckpointGuard host s target <;> nofun
  | read scope result =>
    refine .idle rfl rfl rfl ?_
    simp only [step]
    cases readCheckedFinalDeliveryForExecution host s scope result <;> nofun
  | bind proof guard =>
    refine settle_effect fun s' hs' => ?_
    obtain ⟨p, g, f, rfl, rfl, hf, hcase⟩ := bind_spec hs'
    rcases hcase with ⟨rfl, hbound⟩ | ⟨binding, hbound, hnone, rfl⟩
    · obtain ⟨binding, hbinding, hbound⟩ := Option.map_eq_some_iff.1 hbound
      refine .bound p g f binding hf hbound (.inr hbinding) ?_ rfl rfl
      rw [← hbinding, Function.update_eq_self]
    · exact .bound p g f binding hf hbound (.inl hnone) rfl rfl rfl
  | attach target proof =>
    refine settle_effect fun s' hs' => ?_
    obtain ⟨o, p, entry, rfl, rfl, hanswer, hproof, hcommit, hfree,
      hdeliveries, hguards, hexecutions⟩ := attach_spec hs'
    exact .attached o p entry hanswer hproof hcommit hfree hdeliveries hguards
      hexecutions
  | transfer source target =>
    refine settle_effect fun s' hs' => ?_
    obtain ⟨src, o, entry, rfl, rfl, hentry, hfree, rfl⟩ := transfer_spec hs'
    exact .moved src o entry hentry hfree rfl rfl rfl
  | begin scope =>
    refine settle_effect fun s' hs' => ?_
    obtain ⟨scope, rfl, hnone, rfl⟩ := begin_spec hs'
    refine .began scope rfl rfl fun other => ?_
    rw [isRequired_update rfl]
    split
    · rename_i hsame
      rw [hsame]
      simp [IsRequired, hnone]
    · exact Iff.rfl
  | require scope =>
    refine settle_effect fun s' hs' => ?_
    obtain ⟨scope, state, rfl, hstate, rfl⟩ := require_spec hs'
    refine .required scope rfl rfl fun other => ?_
    rw [isRequired_update rfl]
    split
    · rename_i hsame
      simp [hsame]
    · rename_i hother
      simp [hother]
  | transferForExecution scope source target =>
    refine settle_effect fun s' hs' => ?_
    obtain ⟨scope, rfl, ⟨hfree, rfl⟩ | ⟨state, next, output, entry, hrequired,
      hstate, hnext, -, rfl⟩⟩ := transferForExecution_spec hs'
    · exact .uncovered scope source target hfree rfl
    · obtain ⟨src, o, moved, rfl, rfl, hmoved, hfree, rfl⟩ :=
        transfer_spec hnext
      refine .executed scope src o moved hrequired hmoved hfree rfl rfl
        fun other => ?_
      rw [isRequired_update (s := s) rfl]
      split
      · rename_i hsame
        obtain ⟨state', hstate', hrequired'⟩ := hrequired
        rw [hsame]
        cases Option.some.inj (hstate.symm.trans hstate')
        simp [hrequired', IsRequired, hstate]
      · exact Iff.rfl

/-- The maps of the state are what the run says. -/
structure Agrees (host : DeliveryHost) (heap : Obj → Shape)
    (run : List Action) : Prop where
  bound : ∀ p c, BoundTo host heap run p c ↔
    ((after host heap run).commitGuards p).map (·.bound) = some c
  required : ∀ scope, Required host heap run scope ↔
    IsRequired (after host heap run) scope

theorem nil_agrees : Agrees host heap [] where
  bound := by
    intro p c
    constructor
    · intro h
      generalize hempty : ([] : List Action) = long at h
      cases h <;> simp at hempty
    · simp [after, State.initial]
  required := by
    intro scope
    constructor
    · intro h
      generalize hempty : ([] : List Action) = long at h
      cases h <;> simp at hempty
    · simp [after, State.initial, IsRequired]

theorem boundTo_concat {action : Action} {p : Obj} {c : Obj × Callable} :
    BoundTo host heap (run ++ [action]) p c ↔
      BoundTo host heap run p c ∨
      action = .bind (.object p) (.object c.1) ∧
        Succeeds host heap run action ∧
        guardFunction (after host heap run) c.1 = some c.2 := by
  refine ⟨BoundTo.of_concat, ?_⟩
  rintro (hbefore | ⟨rfl, hsucceeds, hfunction⟩)
  · exact .later action hbefore
  · exact .bound hsucceeds hfunction

theorem required_concat {action : Action} {scope : Obj} :
    Required host heap (run ++ [action]) scope ↔
      Required host heap run scope ∨
      action = .require (.object scope) ∧ Succeeds host heap run action := by
  refine ⟨Required.of_concat, ?_⟩
  rintro (hbefore | ⟨rfl, hsucceeds⟩)
  · exact .later action hbefore
  · exact .required hsucceeds

theorem Agrees.concat (h : Agrees host heap run) (action : Action) :
    Agrees host heap (run ++ [action]) where
  bound := by
    intro p c
    rw [boundTo_concat, h.bound, after_concat, Succeeds]
    generalize after host heap run = s
    have heffect := step_effect host s action
    generalize (step host s action).1 = s' at heffect ⊢
    generalize (step host s action).2 = reply at heffect ⊢
    cases heffect with
    | idle hguards _ _ hquiet =>
      rw [hguards]
      refine or_iff_left ?_
      rintro ⟨rfl, hdone, -⟩
      obtain ⟨_, _, hmutate⟩ := hquiet hdone
      cases hmutate
    | bound p' g f binding hf hbinding hfree hguards _ _ =>
      rw [hguards]
      by_cases hsame : p = p'
      · subst hsame
        rw [Function.update_self, Option.map_some, hbinding, Option.some_inj]
        constructor
        · rintro (hold | ⟨hbind, -, hfunction⟩)
          · rcases hfree with hnone | hsome
            · simp [hnone] at hold
            · rw [hsome, Option.map_some, hbinding] at hold
              exact Option.some.inj hold
          · cases hbind
            rw [hf, Option.some_inj] at hfunction
            exact Prod.ext rfl hfunction
        · rintro rfl
          exact .inr ⟨rfl, rfl, hf⟩
      · rw [Function.update_of_ne hsame]
        refine or_iff_left ?_
        rintro ⟨hbind, -, -⟩
        cases hbind
        exact hsame rfl
    | attached _ _ _ _ _ _ _ _ hguards _ | moved _ _ _ _ _ _ hguards _
    | executed _ _ _ _ _ _ _ _ hguards _ => simp [hguards]
    | uncovered _ _ _ _ hsame => simp [hsame]
    | began _ hguards _ _ | required _ hguards _ _ => simp [hguards]
  required := by
    intro scope
    rw [required_concat, h.required, after_concat, Succeeds]
    generalize after host heap run = s
    have heffect := step_effect host s action
    generalize (step host s action).1 = s' at heffect ⊢
    generalize (step host s action).2 = reply at heffect ⊢
    have hkept : s'.executions = s.executions →
        (IsRequired s' scope ↔ IsRequired s scope) := by
      intro hsame
      simp [IsRequired, hsame]
    cases heffect with
    | idle _ _ hexecutions hquiet =>
      rw [hkept hexecutions]
      refine or_iff_left ?_
      rintro ⟨rfl, hdone⟩
      obtain ⟨_, _, hmutate⟩ := hquiet hdone
      cases hmutate
    | bound _ _ _ _ _ _ _ _ _ hexecutions
    | attached _ _ _ _ _ _ _ _ _ hexecutions
    | moved _ _ _ _ _ _ _ hexecutions => simp [hkept hexecutions]
    | executed _ _ _ _ _ _ _ _ _ hrequired => simp [hrequired]
    | uncovered _ _ _ _ hsame => simp [hsame]
    | began _ _ _ hrequired => simp [hrequired]
    | required scope' _ _ hrequired =>
      rw [hrequired]
      simp [eq_comm]

theorem agrees (host : DeliveryHost) (heap : Obj → Shape)
    (run : List Action) : Agrees host heap run := by
  induction run using List.reverseRecOn with
  | nil => exact nil_agrees
  | append_singleton run action ih => exact ih.concat action

/-- An entry of an attachment. -/
def Records (a : Attachment) (entry : Entry) : Prop :=
  a.answer = entry.answer ∧ a.proof = entry.proof ∧
    a.commit = entry.commit.map (·.bound)

/-- No step replaces the entry of an object. -/
theorem Effect.keeps {action : Action} {reply : Answer} {o : Obj} {entry : Entry}
    (h : Effect host s s' action reply) (hentry : s.deliveries o = some entry) :
    s'.deliveries o = some entry := by
  have hupdate : ∀ {o' : Obj} {entry' : Entry},
      (s.deliveries o' = none ∨ s.deliveries o' = some entry') →
      Function.update s.deliveries o' (some entry') o = some entry := by
    intro o' entry' hfree
    by_cases hsame : o = o'
    · subst hsame
      rcases hfree with hnone | hsome
      · simp [hnone] at hentry
      · rw [Function.update_self, ← hsome, hentry]
    · rw [Function.update_of_ne hsame, hentry]
  cases h with
  | idle _ hdeliveries _ _ | bound _ _ _ _ _ _ _ _ hdeliveries _ =>
    rw [hdeliveries, hentry]
  | attached _ _ _ _ _ _ hfree hdeliveries _ _
  | moved _ _ _ _ hfree hdeliveries _ _
  | executed _ _ _ _ _ _ hfree hdeliveries _ _ =>
    rw [hdeliveries]
    exact hupdate hfree
  | uncovered _ _ _ _ hsame => rw [hsame, hentry]
  | began _ _ hdeliveries _ | required _ _ hdeliveries _ =>
    rw [hdeliveries, hentry]

theorem Agrees.commit_eq (h : Agrees host heap run) {a : Attachment}
    (hcommit : ∀ bound, BoundTo host heap run a.source bound ↔
      a.commit = some bound) :
    a.commit = ((after host heap run).commitGuards a.source).map (·.bound) := by
  apply Option.ext
  intro bound
  rw [← hcommit, h.bound]

/-- An object carries the entry of everything that it received. -/
theorem Received.carried {o : Obj} {a : Attachment}
    (h : Received host heap run o a) :
    ∃ entry, (after host heap run).deliveries o = some entry ∧
      Records a entry := by
  induction h with
  | @attached run o a hsucceeds hanswer hproof hcommit =>
    have heffect := step_effect host (after host heap run)
      (.attach (.object o) (.object a.source))
    rw [Succeeds] at hsucceeds
    rw [hsucceeds] at heffect
    rw [after_concat]
    cases heffect with
    | idle _ _ _ hquiet =>
      obtain ⟨_, _, hmutate⟩ := hquiet rfl
      cases hmutate
    | attached _ _ entry hanswer' hproof' hcommit' _ hdeliveries _ _ =>
      refine ⟨entry, by rw [hdeliveries, Function.update_self], ?_, ?_, ?_⟩
      · exact Option.some.inj (hanswer.symm.trans hanswer')
      · exact Option.some.inj (hproof.symm.trans hproof')
      · rw [hcommit', (agrees host heap run).commit_eq hcommit]
  | @transferred run source o a hbefore hsucceeds ih =>
    obtain ⟨entry, hentry, hrecords⟩ := ih
    have heffect := step_effect host (after host heap run)
      (.transfer (.object source) (.object o))
    rw [Succeeds] at hsucceeds
    rw [hsucceeds] at heffect
    rw [after_concat]
    cases heffect with
    | idle _ _ _ hquiet =>
      obtain ⟨_, _, hmutate⟩ := hquiet rfl
      cases hmutate
    | moved _ _ moved hmoved _ hdeliveries _ _ =>
      cases Option.some.inj (hentry.symm.trans hmoved)
      exact ⟨entry, by rw [hdeliveries, Function.update_self], hrecords⟩
  | @executed run scope source o a hbefore hrequired hsucceeds ih =>
    obtain ⟨entry, hentry, hrecords⟩ := ih
    have heffect := step_effect host (after host heap run)
      (.transferForExecution (.object scope) (.object source) (.object o))
    rw [Succeeds] at hsucceeds
    rw [hsucceeds] at heffect
    rw [after_concat]
    cases heffect with
    | idle _ _ _ hquiet =>
      obtain ⟨_, _, hmutate⟩ := hquiet rfl
      cases hmutate
    | executed _ _ _ moved _ hmoved _ hdeliveries _ _ =>
      cases Option.some.inj (hentry.symm.trans hmoved)
      exact ⟨entry, by rw [hdeliveries, Function.update_self], hrecords⟩
    | uncovered _ _ _ hfree _ =>
      exact absurd (((agrees host heap run).required scope).1 hrequired)
        hfree
  | later action hbefore ih =>
    obtain ⟨entry, hentry, hrecords⟩ := ih
    rw [after_concat]
    exact ⟨entry, (step_effect host _ action).keeps hentry, hrecords⟩

/-- What an object carries, it received. -/
theorem carried_received (host : DeliveryHost) (heap : Obj → Shape)
    (run : List Action) : ∀ o entry,
    (after host heap run).deliveries o = some entry →
      ∃ a, Received host heap run o a ∧ Records a entry := by
  induction run using List.reverseRecOn with
  | nil => intro o entry h; cases h
  | append_singleton run action ih =>
    intro o entry h
    have hagrees := agrees host heap run
    have hbefore : (after host heap run).deliveries o = some entry →
        ∃ a, Received host heap (run ++ [action]) o a ∧ Records a entry := by
      intro hentry
      obtain ⟨a, ha, hrecords⟩ := ih o entry hentry
      exact ⟨a, .later action ha, hrecords⟩
    rw [after_concat] at h
    generalize hs : after host heap run = s at *
    have heffect := step_effect host s action
    generalize (step host s action).1 = s' at heffect h
    generalize hreply : (step host s action).2 = reply at heffect
    cases heffect with
    | idle _ hdeliveries _ _ | bound _ _ _ _ _ _ _ _ hdeliveries _ =>
      exact hbefore (hdeliveries ▸ h)
    | uncovered _ _ _ _ hsame => exact hbefore (hsame ▸ h)
    | began _ _ hdeliveries _ | required _ _ hdeliveries _ =>
      exact hbefore (hdeliveries ▸ h)
    | attached o' p entry' hanswer hproof hcommit _ hdeliveries _ _ =>
      rw [hdeliveries, Function.update_apply] at h
      split at h
      · rename_i hsame
        cases Option.some.inj h
        subst hsame
        have hsucceeds : Succeeds host heap run
            (.attach (.object o) (.object p)) := by
          rw [Succeeds, hs]
          exact hreply
        have hbound : ∀ bound, BoundTo host heap run p bound ↔
            entry.commit.map (·.bound) = some bound := by
          intro bound
          rw [hagrees.bound, hs, hcommit]
        rw [← hs] at hanswer hproof
        let a : Attachment :=
          ⟨entry.answer, entry.proof, p, entry.commit.map (·.bound)⟩
        have hattached : Received host heap
            (run ++ [Action.attach (.object o) (.object a.source)]) o a :=
          .attached hsucceeds hanswer hproof hbound
        exact ⟨a, hattached, rfl, rfl, rfl⟩
      · exact hbefore h
    | moved source o' entry' hentry _ hdeliveries _ _ =>
      rw [hdeliveries, Function.update_apply] at h
      split at h
      · rename_i hsame
        cases Option.some.inj h
        subst hsame
        obtain ⟨a, ha, hrecords⟩ := ih source entry hentry
        exact ⟨a, .transferred ha (by rw [Succeeds, hs]; exact hreply),
          hrecords⟩
      · exact hbefore h
    | executed scope source o' entry' hrequired hentry _ hdeliveries _ _ =>
      rw [hdeliveries, Function.update_apply] at h
      split at h
      · rename_i hsame
        cases Option.some.inj h
        subst hsame
        obtain ⟨a, ha, hrecords⟩ := ih source entry hentry
        refine ⟨a, .executed ha ?_ (by rw [Succeeds, hs]; exact hreply),
          hrecords⟩
        rw [hagrees.required, hs]
        exact hrequired
      · exact hbefore h

/-- Everything an object received has the same answer, proof and guard. -/
theorem Received.unique {o : Obj} {a b : Attachment}
    (ha : Received host heap run o a) (hb : Received host heap run o b) :
    a.answer = b.answer ∧ a.proof = b.proof ∧ a.commit = b.commit := by
  obtain ⟨entry, hentry, ha₁, ha₂, ha₃⟩ := ha.carried
  obtain ⟨entry', hentry', hb₁, hb₂, hb₃⟩ := hb.carried
  cases Option.some.inj (hentry.symm.trans hentry')
  exact ⟨ha₁.trans hb₁.symm, ha₂.trans hb₂.symm, ha₃.trans hb₃.symm⟩

/-- The guard of an attachment is the one of its proof object, now as then. -/
theorem Received.bound {o : Obj} {a : Attachment} {c : Obj × Callable}
    (h : Received host heap run o a) (hcommit : a.commit = some c) :
    ∀ other, BoundTo host heap run a.source other ↔ other = c := by
  have hone : BoundTo host heap run a.source c := by
    induction h with
    | attached _ _ _ hbound => exact .later _ ((hbound c).2 hcommit)
    | transferred _ _ ih | executed _ _ _ ih => exact .later _ (ih hcommit)
    | later action _ ih => exact .later action (ih hcommit)
  intro other
  rw [(agrees host heap run).bound] at hone ⊢
  rw [hone, Option.some_inj, eq_comm]

/-- Over every run, a checked read is of an object that received the proof, with
the attached answer and the guard of that proof object; a required delivery is
never read as uncovered; and nothing that an object received is replaced. -/
theorem checked_delivery_sound (host : DeliveryHost) (heap : Obj → Shape)
    (run : List Action) :
    let s := after host heap run
    (∀ scope result proof guard,
      (step host s (.read scope result)).2 =
        .coverage (.checkedNativeV1 proof guard) →
      ∃ o a f, result = .object o ∧ Received host heap run o a ∧
        a.proof = proof ∧ answer host s result = some a.answer ∧
        digest host a.answer = proof.candidateDigest ∧
        a.commit = some (guard, f) ∧
        (∀ bound, BoundTo host heap run a.source bound ↔ bound = (guard, f)) ∧
        guardFunction s guard = some f) ∧
    (∀ target proof, (step host s (.get target)).2 = .proof (some proof) →
      ∃ o a, target = .object o ∧ Received host heap run o a ∧
        a.proof = proof ∧ answer host s target = some a.answer ∧
        digest host a.answer = proof.candidateDigest) ∧
    (∀ scope result, Required host heap run scope →
      (step host s (.read (.object scope) result)).2 ≠
        .coverage .uncovered) ∧
    ∀ o a b, Received host heap run o a → Received host heap run o b →
      a.answer = b.answer ∧ a.proof = b.proof ∧ a.commit = b.commit := by
  refine ⟨?_, ?_, ?_, fun o a b => Received.unique⟩
  · intro scope result proof guard hread
    simp only [step] at hread
    cases hresult : readCheckedFinalDeliveryForExecution host
      (after host heap run) scope result with
    | none => simp [hresult] at hread
    | some coverage =>
      simp only [hresult, Option.map_some, Option.getD_some,
        Answer.coverage.injEq] at hread
      rw [hread] at hresult
      obtain ⟨o, entry, commit, rfl, hentry, rfl, hanswer, hcommit, rfl,
        hcurrent⟩ := read_checked hresult
      obtain ⟨a, ha, hanswer', hproof, hcommit'⟩ :=
        carried_received host heap run o entry hentry
      obtain ⟨-, htext, hdigest⟩ := assertAnswer_iff.1 hanswer
      rw [hcommit] at hcommit'
      refine ⟨o, a, commit.assertCurrent, rfl, ha, hproof, ?_, ?_, hcommit',
        ha.bound hcommit', assertCommit_iff.1 hcurrent⟩
      · rw [hanswer', htext]
      · rw [hanswer', hdigest]
  · intro target proof hget
    simp only [step] at hget
    cases hresult : getCheckedFinalDelivery host (after host heap run)
      target with
    | none => simp [hresult] at hget
    | some found =>
      simp only [hresult, Option.map_some, Option.getD_some,
        Answer.proof.injEq] at hget
      rw [hget] at hresult
      obtain ⟨o, entry, rfl, hentry, rfl, hanswer⟩ := get_spec hresult
      obtain ⟨a, ha, hanswer', hproof, -⟩ :=
        carried_received host heap run o entry hentry
      obtain ⟨-, htext, hdigest⟩ := assertAnswer_iff.1 hanswer
      refine ⟨o, a, rfl, ha, hproof, ?_, ?_⟩
      · rw [hanswer', htext]
      · rw [hanswer', hdigest]
  · intro scope result hrequired hread
    simp only [step] at hread
    cases hresult : readCheckedFinalDeliveryForExecution host
      (after host heap run) (.object scope) result with
    | none => simp [hresult] at hread
    | some coverage =>
      simp only [hresult, Option.map_some, Option.getD_some,
        Answer.coverage.injEq] at hread
      rw [hread] at hresult
      obtain ⟨other, hsame, hfree⟩ := read_uncovered hresult
      cases hsame
      exact hfree (((agrees host heap run).required scope).1 hrequired)

namespace CheckedDeliveryWitness

/-- A host whose digests are all zeros. -/
def zeroHost : DeliveryHost := ⟨fun _ => false, fun _ => List.replicate 64 0x30⟩

def record (fields : List (String × Value)) : Shape :=
  ⟨true, fields.foldl (fun properties field =>
    properties.insert (.name (JsString.ofString field.1)) (.data field.2)) ∅⟩

def zeros : JsString :=
  JsString.ofString "sha256:" ++ List.replicate 64 0x30

/-- Object 1 is a proof, 2 a guard, and the others are answers. -/
def objects : Obj → Shape
  | 1 => record [("nativeSessionId", .text [0x73]),
      ("publicMessageId", .text [0x6D]), ("durableSeq", .integer 0),
      ("nativeBindingId", .text [0x62]), ("nativeCandidateDigest", .text zeros),
      ("candidateDigest", .text zeros), ("factSetDigest", .text zeros),
      ("attempt", .integer 1), ("generation", .integer 0)]
  | 2 => record [("assertCurrent", .function 7)]
  | _ => record [("answer", .text [0x61])]

def moves : List Action :=
  [.bind (.object 1) (.object 2), .attach (.object 0) (.object 1),
    .begin (.object 3), .require (.object 3),
    .transferForExecution (.object 3) (.object 0) (.object 4)]

/-- The copy that the execution moved the proof to reads as checked. -/
example :
    (step zeroHost (after zeroHost objects moves)
      (.read (.object 3) (.object 4))).2 =
    .coverage (.checkedNativeV1
      ⟨[0x73], [0x6D], 0, [0x62], zeros, zeros, zeros, 1, 0⟩ 2) := by
  decide

end CheckedDeliveryWitness

end Allrice.CheckedDelivery
