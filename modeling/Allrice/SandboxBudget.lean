/-
The execution budget of a sandbox: a deadline that finite, persisted renewals
move forward under a hard deadline fixed at the start.
-/
import Allrice.RuntimeIdentity
import Allrice.Runs

namespace Allrice

def defaultSandboxExecutionMs : Nat := 600000

/-- `SandboxExecutionLimitMsSchema`. -/
def sandboxExecutionLimitsMs : List Nat := [600000, 1800000, 3600000]

inductive PolicyScope where
  | tenant
  | user
deriving DecidableEq

inductive PolicyOverride where
  | tenantOverride
  | platformOverride
deriving DecidableEq

structure SandboxExecutionPolicySource where
  scope : PolicyScope
  scopeId : Uuid
  source : PolicyOverride
  maxExecutionMs : Nat
deriving DecidableEq

structure SandboxExecutionPolicy where
  maxExecutionMs : Nat
  sources : List SandboxExecutionPolicySource
deriving DecidableEq

/-- The smallest limit of the sources, or the default when there is none. -/
def resolvedLimitMs (sources : List SandboxExecutionPolicySource) : Nat :=
  ((sources.map (·.maxExecutionMs)).min?).getD defaultSandboxExecutionMs

structure SandboxExecutionPolicy.Valid (policy : SandboxExecutionPolicy) :
    Prop where
  limit : policy.maxExecutionMs ∈ sandboxExecutionLimitsMs
  limits : ∀ source ∈ policy.sources,
    source.maxExecutionMs ∈ sandboxExecutionLimitsMs
  few : policy.sources.length ≤ 2
  scopes : (policy.sources.map (·.scope)).Nodup
  resolved : policy.maxExecutionMs = resolvedLimitMs policy.sources

instance SandboxExecutionPolicy.decidableValid
    (policy : SandboxExecutionPolicy) :
    Decidable policy.Valid :=
  decidable_of_iff
    (policy.maxExecutionMs ∈ sandboxExecutionLimitsMs ∧
      (∀ source ∈ policy.sources,
        source.maxExecutionMs ∈ sandboxExecutionLimitsMs) ∧
      policy.sources.length ≤ 2 ∧ (policy.sources.map (·.scope)).Nodup ∧
      policy.maxExecutionMs = resolvedLimitMs policy.sources)
    ⟨fun ⟨h₁, h₂, h₃, h₄, h₅⟩ => ⟨h₁, h₂, h₃, h₄, h₅⟩,
      fun ⟨h₁, h₂, h₃, h₄, h₅⟩ => ⟨h₁, h₂, h₃, h₄, h₅⟩⟩

inductive SandboxWork where
  | compute
  | install
  | build
deriving DecidableEq

def SandboxWork.initialBudgetMs : SandboxWork → Nat
  | .compute => 60000
  | .install | .build => 120000

structure SandboxExecutionBudgetSpec where
  kind : SandboxWork
  policy : SandboxExecutionPolicy
  initialBudgetMs : Nat
deriving DecidableEq

def SandboxExecutionBudgetSpec.Valid (spec : SandboxExecutionBudgetSpec) :
    Prop :=
  spec.policy.Valid ∧ spec.initialBudgetMs = spec.kind.initialBudgetMs

instance SandboxExecutionBudgetSpec.decidableValid
    (spec : SandboxExecutionBudgetSpec) :
    Decidable spec.Valid :=
  inferInstanceAs (Decidable (_ ∧ _))

/-- Cumulative measurements of the executor. -/
structure SandboxExecutionProgress where
  cpuNanos : Nat
  readBytes : Nat
  writtenBytes : Nat
deriving DecidableEq

def SandboxExecutionProgress.Valid (progress : SandboxExecutionProgress) :
    Prop :=
  progress.cpuNanos ≤ maxSafeInteger ∧ progress.readBytes ≤ maxSafeInteger ∧
    progress.writtenBytes ≤ maxSafeInteger

instance SandboxExecutionProgress.decidableValid
    (progress : SandboxExecutionProgress) :
    Decidable progress.Valid :=
  inferInstanceAs (Decidable (_ ∧ _ ∧ _))

def maximumRenewals : Nat := 60

structure SandboxExecutionRenewal where
  requestId : Uuid
  sequence : Nat
  progress : SandboxExecutionProgress
deriving DecidableEq

def SandboxExecutionRenewal.Valid (request : SandboxExecutionRenewal) : Prop :=
  1 ≤ request.sequence ∧ request.sequence ≤ maximumRenewals ∧
    request.progress.Valid

instance SandboxExecutionRenewal.decidableValid
    (request : SandboxExecutionRenewal) :
    Decidable request.Valid :=
  inferInstanceAs (Decidable (_ ∧ _ ∧ _))

/-- A renewal that was granted. -/
structure GrantedRenewal where
  request : SandboxExecutionRenewal
  grantedAt : Nat
  deadlineAt : Nat
deriving DecidableEq

structure SandboxExecutionBudgetState where
  spec : SandboxExecutionBudgetSpec
  startedAt : Nat
  hardDeadlineAt : Nat
  deadlineAt : Nat
  lastProgressAt : Nat
  progress : SandboxExecutionProgress
  sequence : Nat
  renewals : List GrantedRenewal
deriving DecidableEq

/-- What the schema says of one granted renewal at its position. -/
def GrantedRenewal.Fits (renewal : GrantedRenewal)
    (state : SandboxExecutionBudgetState) (position : Nat) : Prop :=
  renewal.request.Valid ∧ renewal.grantedAt ≤ maxSafeInteger ∧
    renewal.deadlineAt ≤ maxSafeInteger ∧
    renewal.request.sequence = position + 1 ∧
    state.startedAt ≤ renewal.grantedAt ∧
    renewal.grantedAt < renewal.deadlineAt ∧
    renewal.deadlineAt ≤ state.hardDeadlineAt

instance GrantedRenewal.decidableFits
    (renewal : GrantedRenewal) (state : SandboxExecutionBudgetState)
    (position : Nat) : Decidable (renewal.Fits state position) :=
  inferInstanceAs (Decidable (_ ∧ _ ∧ _ ∧ _ ∧ _ ∧ _ ∧ _))

/-- `SandboxExecutionBudgetStateSchema`. -/
structure SandboxExecutionBudgetState.Valid
    (state : SandboxExecutionBudgetState) : Prop where
  spec : state.spec.Valid
  counters : state.startedAt ≤ maxSafeInteger ∧
    state.hardDeadlineAt ≤ maxSafeInteger ∧
    state.deadlineAt ≤ maxSafeInteger ∧ state.lastProgressAt ≤ maxSafeInteger
  progress : state.progress.Valid
  bounded : state.sequence ≤ maximumRenewals
  opened : state.startedAt < state.deadlineAt
  capped : state.deadlineAt ≤ state.hardDeadlineAt
  hard : state.hardDeadlineAt ≤
    state.startedAt + state.spec.policy.maxExecutionMs
  progressed : state.startedAt ≤ state.lastProgressAt ∧
    state.lastProgressAt < state.hardDeadlineAt
  counted : state.renewals.length = state.sequence
  renewals : ∀ i, (h : i < state.renewals.length) →
    (state.renewals[i]).Fits state i
  distinct : (state.renewals.map (·.request.requestId)).Nodup

instance SandboxExecutionBudgetState.decidableValid
    (state : SandboxExecutionBudgetState) :
    Decidable state.Valid :=
  decidable_of_iff
    (state.spec.Valid ∧ (state.startedAt ≤ maxSafeInteger ∧
        state.hardDeadlineAt ≤ maxSafeInteger ∧
        state.deadlineAt ≤ maxSafeInteger ∧
        state.lastProgressAt ≤ maxSafeInteger) ∧
      state.progress.Valid ∧ state.sequence ≤ maximumRenewals ∧
      state.startedAt < state.deadlineAt ∧
      state.deadlineAt ≤ state.hardDeadlineAt ∧
      state.hardDeadlineAt ≤
        state.startedAt + state.spec.policy.maxExecutionMs ∧
      (state.startedAt ≤ state.lastProgressAt ∧
        state.lastProgressAt < state.hardDeadlineAt) ∧
      state.renewals.length = state.sequence ∧
      (∀ i, (h : i < state.renewals.length) →
        (state.renewals[i]).Fits state i) ∧
      (state.renewals.map (·.request.requestId)).Nodup)
    ⟨fun ⟨h₁, h₂, h₃, h₄, h₅, h₆, h₇, h₈, h₉, h₁₀, h₁₁⟩ =>
        ⟨h₁, h₂, h₃, h₄, h₅, h₆, h₇, h₈, h₉, h₁₀, h₁₁⟩,
      fun ⟨h₁, h₂, h₃, h₄, h₅, h₆, h₇, h₈, h₉, h₁₀, h₁₁⟩ =>
        ⟨h₁, h₂, h₃, h₄, h₅, h₆, h₇, h₈, h₉, h₁₀, h₁₁⟩⟩

inductive BudgetError where
  | schema
  | deadline
  | renewalConflict
  | renewalEarly
  | progressChanged
  | noProgress
  | limit
deriving DecidableEq

def parseBudgetState (state : SandboxExecutionBudgetState) :
    Except BudgetError SandboxExecutionBudgetState :=
  if state.Valid then .ok state else .error .schema

/-- The numbers that the schema of a counter accepts. -/
def isCounter (reading : Int) : Prop :=
  0 ≤ reading ∧ reading ≤ maxSafeInteger

instance decidableIsCounter (reading : Int) : Decidable (isCounter reading) :=
  inferInstanceAs (Decidable (_ ∧ _))

/-- `startSandboxExecutionBudget` after its arguments were parsed. -/
def startAt (spec : SandboxExecutionBudgetSpec) (now rootDeadlineAt : Nat) :
    Except BudgetError SandboxExecutionBudgetState :=
  if rootDeadlineAt ≤ now then .error .deadline
  else
    let hardDeadlineAt := min rootDeadlineAt (now + spec.policy.maxExecutionMs)
    parseBudgetState
      { spec
        startedAt := now
        hardDeadlineAt
        deadlineAt := min hardDeadlineAt (now + spec.initialBudgetMs)
        lastProgressAt := now
        progress := ⟨0, 0, 0⟩
        sequence := 0
        renewals := [] }

def startSandboxExecutionBudget (spec : SandboxExecutionBudgetSpec)
    (now rootDeadlineAt : Int) :
    Except BudgetError SandboxExecutionBudgetState :=
  if ¬spec.Valid ∨ ¬isCounter now ∨ ¬isCounter rootDeadlineAt then
    .error .schema
  else startAt spec now.toNat rootDeadlineAt.toNat

/-- One of the cumulative measurements is smaller than before. -/
def SandboxExecutionProgress.Rewinds (old new : SandboxExecutionProgress) :
    Prop :=
  new.cpuNanos < old.cpuNanos ∨ new.readBytes < old.readBytes ∨
    new.writtenBytes < old.writtenBytes

instance SandboxExecutionProgress.decidableRewinds
    (old new : SandboxExecutionProgress) :
    Decidable (old.Rewinds new) :=
  inferInstanceAs (Decidable (_ ∨ _ ∨ _))

/-- A millisecond of processor time, or any input or output. -/
def SandboxExecutionProgress.Advances (old new : SandboxExecutionProgress) :
    Prop :=
  1000000 ≤ new.cpuNanos - old.cpuNanos ∨ old.readBytes < new.readBytes ∨
    old.writtenBytes < new.writtenBytes

instance SandboxExecutionProgress.decidableAdvances
    (old new : SandboxExecutionProgress) :
    Decidable (old.Advances new) :=
  inferInstanceAs (Decidable (_ ∨ _ ∨ _))

/-- When the work last advanced, as a renewal measures it. -/
def SandboxExecutionBudgetState.progressedAt
    (state : SandboxExecutionBudgetState) (request : SandboxExecutionRenewal)
    (now : Nat) : Nat :=
  if state.progress.Advances request.progress then now
  else state.lastProgressAt

/-- The deadline that a renewal asks for. -/
def SandboxExecutionBudgetState.renewedDeadline
    (state : SandboxExecutionBudgetState) (rootDeadlineAt : Nat) : Nat :=
  min (min state.hardDeadlineAt rootDeadlineAt) (state.deadlineAt + 60000)

/-- A renewal that was not granted before. -/
def extendBudget (state : SandboxExecutionBudgetState)
    (request : SandboxExecutionRenewal) (now rootDeadlineAt : Nat) :
    Except BudgetError SandboxExecutionBudgetState :=
  if request.sequence ≠ state.sequence + 1 then .error .renewalConflict
  else if 15000 < state.deadlineAt - now then .error .renewalEarly
  else if state.progress.Rewinds request.progress then .error .progressChanged
  else if 120000 ≤ now - state.progressedAt request now then
    .error .noProgress
  else if state.renewedDeadline rootDeadlineAt ≤ state.deadlineAt then
    .error .limit
  else
    parseBudgetState { state with
      deadlineAt := state.renewedDeadline rootDeadlineAt
      lastProgressAt := state.progressedAt request now
      progress := request.progress
      sequence := request.sequence
      renewals := state.renewals ++
        [⟨request, now, state.renewedDeadline rootDeadlineAt⟩] }

/-- `renewSandboxExecutionBudget` after its arguments were parsed. -/
def renewAt (state : SandboxExecutionBudgetState)
    (request : SandboxExecutionRenewal) (now rootDeadlineAt : Nat) :
    Except BudgetError SandboxExecutionBudgetState :=
  if now < state.startedAt ∨ min state.deadlineAt rootDeadlineAt ≤ now then
    .error .deadline
  else
    match state.renewals.find? (·.request.requestId = request.requestId) with
    | some prior =>
      if prior.request.sequence ≠ request.sequence ∨
          prior.request.progress ≠ request.progress then
        .error .renewalConflict
      else .ok state
    | none => extendBudget state request now rootDeadlineAt

def renewSandboxExecutionBudget (state : SandboxExecutionBudgetState)
    (request : SandboxExecutionRenewal) (now rootDeadlineAt : Int) :
    Except BudgetError SandboxExecutionBudgetState :=
  if ¬state.Valid ∨ ¬request.Valid ∨ ¬isCounter now ∨
      ¬isCounter rootDeadlineAt then .error .schema
  else renewAt state request now.toNat rootDeadlineAt.toNat

variable {state next : SandboxExecutionBudgetState} {now root : Int}

theorem parseBudgetState_eq_ok :
    parseBudgetState state = .ok next ↔ next = state ∧ state.Valid := by
  unfold parseBudgetState
  by_cases hvalid : state.Valid
  · simp [hvalid, eq_comm]
  · simp [hvalid]

/-- The state of a budget that just began. -/
structure Starts (spec : SandboxExecutionBudgetSpec)
    (state : SandboxExecutionBudgetState) : Prop where
  valid : state.Valid
  spec : state.spec = spec
  fresh : state.renewals = []

theorem start_eq_ok {spec : SandboxExecutionBudgetSpec}
    (h : startSandboxExecutionBudget spec now root = .ok state) :
    Starts spec state := by
  unfold startSandboxExecutionBudget startAt at h
  split at h
  · simp at h
  · split at h
    · simp at h
    · obtain ⟨rfl, hvalid⟩ := parseBudgetState_eq_ok.1 h
      exact ⟨hvalid, rfl, rfl⟩

/-- One granted extension. -/
structure Extends (state next : SandboxExecutionBudgetState)
    (request : SandboxExecutionRenewal) (now : Nat) : Prop where
  fresh : ∀ renewal ∈ state.renewals,
    renewal.request.requestId ≠ request.requestId
  sequence : request.sequence = state.sequence + 1
  inTime : now < state.deadlineAt
  later : state.deadlineAt < next.deadlineAt
  step : next.deadlineAt ≤ state.deadlineAt + 60000
  next : next = { state with
    deadlineAt := next.deadlineAt
    lastProgressAt := next.lastProgressAt
    progress := request.progress
    sequence := request.sequence
    renewals := state.renewals ++ [⟨request, now, next.deadlineAt⟩] }

theorem extendBudget_eq_ok {request : SandboxExecutionRenewal} {now root : Nat}
    (hfresh : ∀ renewal ∈ state.renewals,
      renewal.request.requestId ≠ request.requestId)
    (htime : now < state.deadlineAt)
    (h : extendBudget state request now root = .ok next) :
    Extends state next request now ∧ next.Valid := by
  unfold extendBudget at h
  split at h
  · simp at h
  split at h
  · simp at h
  split at h
  · simp at h
  split at h
  · simp at h
  split at h
  · simp at h
  · rename_i hsequence _ _ _ hlater
    obtain ⟨rfl, hvalid⟩ := parseBudgetState_eq_ok.1 h
    refine ⟨⟨hfresh, not_not.1 hsequence, htime, not_le.1 hlater, ?_, rfl⟩,
      hvalid⟩
    exact Nat.min_le_right _ _

/-- A renewal that succeeds either was granted before and changes nothing, or
extends the budget. -/
theorem renew_eq_ok {request : SandboxExecutionRenewal}
    (h : renewSandboxExecutionBudget state request now root = .ok next) :
    next.Valid ∧ now < state.deadlineAt ∧
      ((next = state ∧ ∃ renewal ∈ state.renewals, renewal.request = request) ∨
        Extends state next request now.toNat) := by
  unfold renewSandboxExecutionBudget at h
  split at h
  · simp at h
  rename_i hvalid
  simp only [not_or, not_not] at hvalid
  obtain ⟨hstate, hrequest, hnow, _⟩ := hvalid
  unfold renewAt at h
  split at h
  · simp at h
  rename_i hopen
  simp only [not_or, not_lt, not_le, lt_min_iff] at hopen
  have htime : now < state.deadlineAt := by
    have hnat := hopen.2.1
    omega
  cases hprior : state.renewals.find?
      (·.request.requestId = request.requestId) with
  | some prior =>
    simp only [hprior] at h
    split at h
    · simp at h
    · rename_i hsame
      simp only [not_or, not_not] at hsame
      obtain rfl := Except.ok.inj h
      have hid := List.find?_some hprior
      refine ⟨hstate, htime, .inl ⟨rfl, prior, ?_, ?_⟩⟩
      · exact List.mem_of_find?_eq_some hprior
      · cases hrenewal : prior.request
        cases request
        simp_all
  | none =>
    simp only [hprior] at h
    have hfresh : ∀ renewal ∈ state.renewals,
        renewal.request.requestId ≠ request.requestId := by
      intro renewal hmem
      simpa using List.find?_eq_none.1 hprior renewal hmem
    obtain ⟨hextends, hnext⟩ := extendBudget_eq_ok hfresh hopen.2.1 h
    exact ⟨hnext, htime, .inr hextends⟩

/-- Asking again for what was granted changes nothing while the budget is open,
and is refused afterwards. -/
theorem renew_granted {request : SandboxExecutionRenewal} (hvalid : state.Valid)
    (hgranted : request ∈ state.renewals.map (·.request)) (hnow : isCounter now)
    (hroot : isCounter root) :
    renewSandboxExecutionBudget state request now root =
      if now < state.startedAt ∨ min (state.deadlineAt : Int) root ≤ now then
        .error .deadline
      else .ok state := by
  obtain ⟨renewal, hmem, rfl⟩ := List.mem_map.1 hgranted
  obtain ⟨i, hi, hrenewal⟩ := List.mem_iff_getElem.1 hmem
  have hrequest : renewal.request.Valid := by
    have hfits := hvalid.renewals i hi
    rw [hrenewal] at hfits
    exact hfits.1
  have hfound : state.renewals.find?
      (·.request.requestId = renewal.request.requestId) = some renewal := by
    have hsome : (state.renewals.find?
        (·.request.requestId = renewal.request.requestId)).isSome := by
      rw [List.find?_isSome]
      exact ⟨renewal, hmem, by simp⟩
    obtain ⟨prior, hprior⟩ := Option.isSome_iff_exists.1 hsome
    have hid := List.find?_some hprior
    have hpriorMem := List.mem_of_find?_eq_some hprior
    have hsame : prior = renewal :=
      List.inj_on_of_nodup_map hvalid.distinct hpriorMem hmem (by simpa using hid)
    rw [hprior, hsame]
  have hopen : (now.toNat < state.startedAt ∨
      min state.deadlineAt root.toNat ≤ now.toNat) ↔
        (now < state.startedAt ∨ min (state.deadlineAt : Int) root ≤ now) := by
    have hnow' := hnow.1
    have hroot' := hroot.1
    omega
  unfold renewSandboxExecutionBudget renewAt
  rw [if_neg (by simp [hvalid, hrequest, hnow, hroot])]
  simp only [hopen, hfound, ne_eq, not_true_eq_false, or_self, ↓reduceIte]

/-- A call of `renewSandboxExecutionBudget` with the readings it was given. -/
structure RenewalCall where
  request : SandboxExecutionRenewal
  now : Int
  rootDeadlineAt : Int

/-- A refused renewal leaves the persisted state alone. -/
def budgetStep (state : SandboxExecutionBudgetState) (call : RenewalCall) :
    SandboxExecutionBudgetState × Except BudgetError
      SandboxExecutionBudgetState :=
  match renewSandboxExecutionBudget state call.request call.now
      call.rootDeadlineAt with
  | .ok next => (next, .ok next)
  | .error error => (state, .error error)

def budgetMachine : Machine SandboxExecutionBudgetState RenewalCall
    (Except BudgetError SandboxExecutionBudgetState) :=
  ⟨budgetStep⟩

/-- The requests of a run that were accepted. -/
def acceptedRequests (events : List (RenewalCall ×
    Except BudgetError SandboxExecutionBudgetState)) :
    List SandboxExecutionRenewal :=
  events.filterMap fun event =>
    match event.2 with
    | .ok _ => some event.1.request
    | .error _ => none

/-- What every renewal keeps. -/
structure BudgetStep (state next : SandboxExecutionBudgetState) : Prop where
  spec : next.spec = state.spec
  started : next.startedAt = state.startedAt
  hard : next.hardDeadlineAt = state.hardDeadlineAt
  deadline : state.deadlineAt ≤ next.deadlineAt
  granted : state.renewals <+: next.renewals

theorem BudgetStep.refl (state : SandboxExecutionBudgetState) :
    BudgetStep state state :=
  ⟨rfl, rfl, rfl, le_refl _, List.prefix_refl _⟩

theorem BudgetStep.trans {a b c : SandboxExecutionBudgetState}
    (hab : BudgetStep a b) (hbc : BudgetStep b c) : BudgetStep a c where
  spec := hbc.spec.trans hab.spec
  started := hbc.started.trans hab.started
  hard := hbc.hard.trans hab.hard
  deadline := hab.deadline.trans hbc.deadline
  granted := hab.granted.trans hbc.granted

theorem Extends.budgetStep {request : SandboxExecutionRenewal} {now : Nat}
    (h : Extends state next request now) : BudgetStep state next := by
  have hnext := h.next
  constructor
  · rw [hnext]
  · rw [hnext]
  · rw [hnext]
  · exact h.later.le
  · rw [hnext]
    exact List.prefix_append _ _

theorem renew_budgetStep {request : SandboxExecutionRenewal}
    (h : renewSandboxExecutionBudget state request now root = .ok next) :
    BudgetStep state next ∧ request ∈ next.renewals.map (·.request) := by
  obtain ⟨_, _, ⟨rfl, renewal, hmem, rfl⟩ | hextends⟩ := renew_eq_ok h
  · exact ⟨.refl _, List.mem_map_of_mem hmem⟩
  · refine ⟨hextends.budgetStep, ?_⟩
    rw [hextends.next]
    simp

theorem budgetStep_keeps (state : SandboxExecutionBudgetState)
    (call : RenewalCall) (hvalid : state.Valid) :
    (budgetMachine.step state call).1.Valid ∧
      BudgetStep state (budgetMachine.step state call).1 := by
  simp only [budgetMachine, budgetStep]
  cases hrenew : renewSandboxExecutionBudget state call.request call.now
      call.rootDeadlineAt with
  | error error => exact ⟨hvalid, .refl state⟩
  | ok next => exact ⟨(renew_eq_ok hrenew).1, (renew_budgetStep hrenew).1⟩

theorem budget_run_valid {first : SandboxExecutionBudgetState}
    (hvalid : first.Valid) (calls : List RenewalCall) :
    (budgetMachine.after first calls).Valid :=
  Machine.after_invariant (m := budgetMachine)
    SandboxExecutionBudgetState.Valid
    (fun state call h => (budgetStep_keeps state call h).1) hvalid calls

theorem budget_run_step {first : SandboxExecutionBudgetState}
    (hvalid : first.Valid) (calls : List RenewalCall) :
    BudgetStep first (budgetMachine.after first calls) :=
  Machine.after_rel (m := budgetMachine) SandboxExecutionBudgetState.Valid
    BudgetStep .refl .trans
    (fun state call h => (budgetStep_keeps state call h).1)
    (fun state call h => (budgetStep_keeps state call h).2) hvalid calls

/-- What was accepted at some time stays granted. -/
theorem accepted_granted {first : SandboxExecutionBudgetState}
    (hvalid : first.Valid) (calls : List RenewalCall) :
    ∀ request ∈ acceptedRequests (budgetMachine.events first calls),
      request ∈ (budgetMachine.after first calls).renewals.map (·.request) := by
  induction calls generalizing first with
  | nil => simp [acceptedRequests]
  | cons call rest ih =>
    intro request hrequest
    have hnext := (budgetStep_keeps first call hvalid).1
    rw [Machine.events_cons, acceptedRequests, List.filterMap_cons] at hrequest
    cases hrenew : renewSandboxExecutionBudget first call.request call.now
        call.rootDeadlineAt with
    | error error =>
      simp only [budgetMachine, budgetStep, hrenew] at hrequest
      exact ih hnext request (by simpa [acceptedRequests, budgetMachine,
        budgetStep, hrenew] using hrequest)
    | ok next =>
      have hstep : budgetMachine.step first call = (next, .ok next) := by
        simp [budgetMachine, budgetStep, hrenew]
      rw [hstep] at hnext hrequest
      rw [Machine.after_cons, hstep]
      simp only [List.mem_cons] at hrequest
      rcases hrequest with rfl | hlater
      · have hgranted := (renew_budgetStep hrenew).2
        have hrun := (budget_run_step hnext rest).granted
        exact (hrun.map _).subset hgranted
      · exact ih hnext request hlater

/-- A budget whose deadline was reached stays as it is under every call that
does not turn the clock back. -/
theorem expired_run {calls : List RenewalCall}
    (hcalls : ∀ call ∈ calls, (state.deadlineAt : Int) ≤ call.now) :
    budgetMachine.after state calls = state := by
  induction calls with
  | nil => rfl
  | cons call rest ih =>
    have hstep : (budgetMachine.step state call).1 = state := by
      simp only [budgetMachine, budgetStep]
      cases hrenew : renewSandboxExecutionBudget state call.request call.now
          call.rootDeadlineAt with
      | error error => rfl
      | ok next =>
        have htime := (renew_eq_ok hrenew).2.1
        have hlate := hcalls call List.mem_cons_self
        omega
    rw [Machine.after_cons, hstep]
    exact ih fun other hother => hcalls other (List.mem_cons_of_mem _ hother)

/-- Every run of an execution budget: the states are valid, the hard deadline
stays, the deadline keeps under it and moves only by new renewals, each by at
most a minute and at most sixty of them; a renewal that was accepted before
changes nothing while the budget is open and is refused outside; and a budget
that has reached its deadline is not revived. -/
theorem sandbox_budget_runs (spec : SandboxExecutionBudgetSpec)
    (now root : Int) (first : SandboxExecutionBudgetState)
    (hstart : startSandboxExecutionBudget spec now root = .ok first)
    (calls : List RenewalCall) :
    let state := budgetMachine.after first calls
    let accepted := acceptedRequests (budgetMachine.events first calls)
    first.Valid ∧ state.Valid ∧
      state.hardDeadlineAt = first.hardDeadlineAt ∧
      state.deadlineAt ≤ first.hardDeadlineAt ∧
      accepted.dedup.length ≤ maximumRenewals ∧
      (∀ request now root next,
        renewSandboxExecutionBudget state request now root = .ok next →
          next.Valid ∧
            ((request ∈ state.renewals.map (·.request) ∧ next = state) ∨
              (request ∉ state.renewals.map (·.request) ∧
                state.deadlineAt < next.deadlineAt ∧
                next.deadlineAt ≤ state.deadlineAt + 60000))) ∧
      (∀ request ∈ accepted, ∀ now root, isCounter now → isCounter root →
        renewSandboxExecutionBudget state request now root =
          if now < state.startedAt ∨
              min (state.deadlineAt : Int) root ≤ now then .error .deadline
          else .ok state) ∧
      ∀ later : List RenewalCall,
        (∀ call ∈ later, (state.deadlineAt : Int) ≤ call.now) →
          budgetMachine.after state later = state := by
  intro state accepted
  have hfirst := (start_eq_ok hstart).valid
  have hvalid : state.Valid := budget_run_valid hfirst calls
  have hrun : BudgetStep first state := budget_run_step hfirst calls
  have hgranted : accepted ⊆ state.renewals.map (·.request) := fun request =>
    accepted_granted hfirst calls request
  refine ⟨hfirst, hvalid, hrun.hard, ?_, ?_, ?_, ?_, fun _ => expired_run⟩
  · rw [← hrun.hard]
    exact hvalid.capped
  · calc accepted.dedup.length
        ≤ (state.renewals.map (·.request)).length := by
          apply List.Subperm.length_le
          apply accepted.nodup_dedup.subperm
          exact fun request hmem => hgranted (List.mem_dedup.1 hmem)
      _ = state.sequence := by rw [List.length_map, hvalid.counted]
      _ ≤ maximumRenewals := hvalid.bounded
  · intro request now root next hrenew
    obtain ⟨hnext, _, ⟨hsame, renewal, hmem, rfl⟩ | hextends⟩ :=
      renew_eq_ok hrenew
    · exact ⟨hnext, .inl ⟨List.mem_map_of_mem hmem, hsame⟩⟩
    · refine ⟨hnext, .inr ⟨?_, hextends.later, hextends.step⟩⟩
      intro hmem
      obtain ⟨renewal, hrenewal, rfl⟩ := List.mem_map.1 hmem
      exact hextends.fresh renewal hrenewal rfl
  · intro request hrequest now root hnow hroot
    exact renew_granted hvalid (hgranted hrequest) hnow hroot

namespace SandboxBudgetWitness

def spec : SandboxExecutionBudgetSpec := ⟨.compute, ⟨600000, []⟩, 60000⟩

/-- A budget that began at time zero. -/
def first : SandboxExecutionBudgetState :=
  ⟨spec, 0, 600000, 60000, 0, ⟨0, 0, 0⟩, 0, []⟩

def request : SandboxExecutionRenewal := ⟨7, 1, ⟨1000000, 0, 0⟩⟩

def renewal : RenewalCall := ⟨request, 50000, 1000000⟩

theorem starts : startSandboxExecutionBudget spec 0 1000000 = .ok first := by
  decide

/-- After the deadline the same request is refused, accepted or not. -/
theorem late_replay_refused :
    ¬∀ (call : RenewalCall) (next : SandboxExecutionBudgetState) (now root),
      renewSandboxExecutionBudget first call.request call.now
          call.rootDeadlineAt = .ok next →
        renewSandboxExecutionBudget next call.request now root = .ok next := by
  intro hreplays
  have hlate := hreplays renewal (budgetStep first renewal).1 120000 1000000
    (by decide)
  exact absurd hlate (by decide)

theorem sandbox_budget_runs_renewed :
    let state := budgetMachine.after first [renewal]
    state.deadlineAt = 120000 ∧
      renewSandboxExecutionBudget state request 60000 1000000 = .ok state := by
  have hreplay := (sandbox_budget_runs spec 0 1000000 first starts
    [renewal]).2.2.2.2.2.2.1 request (by decide) 60000 1000000
      (by decide) (by decide)
  exact ⟨by decide, hreplay.trans (if_neg (by decide))⟩

end SandboxBudgetWitness

end Allrice
