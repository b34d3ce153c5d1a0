/-
The two parties of a budget renewal: the controller that a Bridge keeps beside a
running sandbox, and the server that persists the budget.  Requests and answers
may be lost; a request that was sent may be served late and more than once.
-/
import Allrice.SandboxBudget

namespace Allrice

inductive ExchangeError where
  | budget (error : BudgetError)
  /-- Lease, run, root or policy do not admit the call. -/
  | refused
  | policyChanged
  | notStarted
  | leaseLost

/-- What the surroundings of one call decide. -/
structure ExchangeEnv where
  /-- Lease, run, root and policy admit the call, now and before it commits. -/
  admitted : Bool
  /-- The specification that is resolved for the operation. -/
  spec : SandboxExecutionBudgetSpec
  beganAt : Int
  committedAt : Int
  rootDeadlineAt : Int

/-- The state that a call computes from the persisted one. -/
def exchangedState (env : ExchangeEnv)
    (row : Option SandboxExecutionBudgetState)
    (renewal : Option SandboxExecutionRenewal) :
    Except ExchangeError SandboxExecutionBudgetState :=
  match row, renewal with
  | some prior, renewal =>
    if ¬prior.Valid then .error (.budget .schema)
    else if prior.spec ≠ env.spec then .error .policyChanged
    else if prior.deadlineAt ≤ env.beganAt then .error (.budget .deadline)
    else
      match renewal with
      | some request =>
        (renewSandboxExecutionBudget prior request env.beganAt
          env.rootDeadlineAt).mapError .budget
      | none => .ok prior
  | none, some _ => .error .notStarted
  | none, none =>
    (startSandboxExecutionBudget env.spec env.beganAt
      env.rootDeadlineAt).mapError .budget

/-- `exchangeSandboxExecutionBudget`: one transaction, whose answer is the
state that it persists. -/
def exchangeSandboxExecutionBudget (env : ExchangeEnv)
    (row : Option SandboxExecutionBudgetState)
    (renewal : Option SandboxExecutionRenewal) :
    Except ExchangeError SandboxExecutionBudgetState :=
  if ¬env.admitted then .error .refused
  else if ¬env.spec.Valid then .error (.budget .schema)
  else
    match exchangedState env row renewal with
    | .error error => .error error
    | .ok state =>
      if state.deadlineAt ≤ env.committedAt then .error .leaseLost
      else .ok state

/-- Where a call of `renew` stands. -/
inductive RenewStage where
  | idle
  | measuring
  | exchanging (request : SandboxExecutionRenewal)
deriving DecidableEq

structure BudgetController where
  value : SandboxExecutionBudgetState
  pending : Option SandboxExecutionRenewal
  stage : RenewStage
deriving DecidableEq

/-- The checks of the constructor. -/
def openController (spec : SandboxExecutionBudgetSpec)
    (initial : SandboxExecutionBudgetState) (now : Int) :
    Option BudgetController :=
  if initial.Valid ∧ initial.spec = spec ∧ now < initial.deadlineAt then
    some ⟨initial, none, .idle⟩
  else none

/-- A renewal would be granted in time and could move the deadline. -/
def BudgetController.isDue (controller : BudgetController) (now : Int) : Bool :=
  now < controller.value.deadlineAt ∧
    controller.value.deadlineAt - now ≤ 15000 ∧
    controller.value.deadlineAt ≠ controller.value.hardDeadlineAt

/-- The last granted renewal is the one that was asked for. -/
def LastGranted (renewed : SandboxExecutionBudgetState)
    (request : SandboxExecutionRenewal) : Prop :=
  ∃ last ∈ renewed.renewals.getLast?,
    last = ⟨request, last.grantedAt, renewed.deadlineAt⟩

instance SandboxExecutionBudgetState.decidableLastGranted
    (renewed : SandboxExecutionBudgetState)
    (request : SandboxExecutionRenewal) :
    Decidable (LastGranted renewed request) :=
  inferInstanceAs (Decidable (∃ _ ∈ _, _))

/-- Everything that `renew` checks of an answer but the clock. -/
structure Continues (state renewed : SandboxExecutionBudgetState)
    (request : SandboxExecutionRenewal) : Prop where
  valid : renewed.Valid
  spec : renewed.spec = state.spec
  started : renewed.startedAt = state.startedAt
  hard : renewed.hardDeadlineAt = state.hardDeadlineAt
  sequence : renewed.sequence = request.sequence
  before : renewed.renewals.dropLast = state.renewals
  progress : renewed.progress = request.progress
  last : LastGranted renewed request
  later : state.deadlineAt < renewed.deadlineAt
  step : renewed.deadlineAt ≤ state.deadlineAt + 60000

instance SandboxExecutionBudgetState.decidableContinues
    (state renewed : SandboxExecutionBudgetState)
    (request : SandboxExecutionRenewal) :
    Decidable (Continues state renewed request) :=
  decidable_of_iff
    (renewed.Valid ∧ renewed.spec = state.spec ∧
      renewed.startedAt = state.startedAt ∧
      renewed.hardDeadlineAt = state.hardDeadlineAt ∧
      renewed.sequence = request.sequence ∧
      renewed.renewals.dropLast = state.renewals ∧
      renewed.progress = request.progress ∧ LastGranted renewed request ∧
      state.deadlineAt < renewed.deadlineAt ∧
      renewed.deadlineAt ≤ state.deadlineAt + 60000)
    ⟨fun ⟨h₁, h₂, h₃, h₄, h₅, h₆, h₇, h₈, h₉, h₁₀⟩ =>
        ⟨h₁, h₂, h₃, h₄, h₅, h₆, h₇, h₈, h₉, h₁₀⟩,
      fun ⟨h₁, h₂, h₃, h₄, h₅, h₆, h₇, h₈, h₉, h₁₀⟩ =>
        ⟨h₁, h₂, h₃, h₄, h₅, h₆, h₇, h₈, h₉, h₁₀⟩⟩

/-- The checks of `renew` on an answer that arrives at a time. -/
def acceptsRenewal (state renewed : SandboxExecutionBudgetState)
    (request : SandboxExecutionRenewal) (now : Int) : Prop :=
  Continues state renewed request ∧ now < renewed.deadlineAt

instance SandboxExecutionBudgetState.decidableAcceptsRenewal
    (state renewed : SandboxExecutionBudgetState)
    (request : SandboxExecutionRenewal) (now : Int) :
    Decidable (acceptsRenewal state renewed request now) :=
  inferInstanceAs (Decidable (_ ∧ _))

structure ExchangeState where
  row : Option SandboxExecutionBudgetState
  controller : Option BudgetController
  /-- The requests that were sent; the server may take up any of them. -/
  requests : List SandboxExecutionRenewal
  /-- The answer on its way to the exchange that is going on. -/
  reply : Option SandboxExecutionBudgetState

def ExchangeState.init : ExchangeState := ⟨none, none, [], none⟩

inductive ExchangeAction where
  /-- The server takes up the exchange without a renewal. -/
  | serveOpen (env : ExchangeEnv)
  /-- The answer arrives and the controller is made. -/
  | receiveOpen (now : Int)
  | renew (now : Int)
  /-- The measurement of a renewal; `none` when the process has ended. -/
  | measured (progress : Option SandboxExecutionProgress) (requestId : Uuid)
  /-- The server takes up a request that was sent. -/
  | serve (index : Nat) (env : ExchangeEnv)
  | receive (now : Int)
  /-- The exchange fails: a timeout or a lost answer. -/
  | lose

/-- A granted extension that was not there before. -/
def isExtension (row : SandboxExecutionBudgetState)
    (next : SandboxExecutionBudgetState) : Bool :=
  row.renewals.length < next.renewals.length

/-- The server's part of `serve`: the answer of the step is the request that
extended the budget, if one did. -/
def serveRenewal (s : ExchangeState) (env : ExchangeEnv)
    (request : SandboxExecutionRenewal) :
    ExchangeState × Option SandboxExecutionRenewal :=
  match s.row, exchangeSandboxExecutionBudget env s.row (some request) with
  | some row, .ok next =>
    ({ s with
        row := some next
        reply :=
          if s.controller.any (·.stage = .exchanging request) then some next
          else s.reply },
      if isExtension row next then some request else none)
  | _, _ => (s, none)

def ExchangeState.withController (s : ExchangeState)
    (controller : BudgetController) : ExchangeState :=
  { s with controller := some controller, reply := none }

/-- `renew` from its start to its next await. -/
def beginRenew (s : ExchangeState) (controller : BudgetController)
    (now : Int) : ExchangeState :=
  if controller.isDue now then
    match controller.pending with
    | none => s.withController { controller with stage := .measuring }
    | some request =>
      { s.withController { controller with stage := .exchanging request } with
        requests := s.requests ++ [request] }
  else s

/-- `renew` after its measurement: a new request is made and sent. -/
def sendMeasured (s : ExchangeState) (controller : BudgetController)
    (progress : SandboxExecutionProgress) (requestId : Uuid) : ExchangeState :=
  let request := ⟨requestId, controller.value.sequence + 1, progress⟩
  if progress.Valid then
    { s.withController
        { controller with
          pending := some request
          stage := .exchanging request } with
      requests := s.requests ++ [request] }
  else s.withController { controller with stage := .idle }

def exchangeStep (spec : SandboxExecutionBudgetSpec) (s : ExchangeState) :
    ExchangeAction → ExchangeState × Option SandboxExecutionRenewal
  | .serveOpen env =>
    match s.controller, exchangeSandboxExecutionBudget env s.row none with
    | none, .ok state =>
      ({ s with row := some state, reply := some state }, none)
    | _, _ => (s, none)
  | .receiveOpen now =>
    match s.controller, s.reply with
    | none, some initial =>
      ({ s with
          controller := openController spec initial now
          reply := none }, none)
    | _, _ => (s, none)
  | .renew now =>
    match s.controller with
    | some ⟨value, pending, .idle⟩ =>
      (beginRenew s ⟨value, pending, .idle⟩ now, none)
    | _ => (s, none)
  | .measured progress requestId =>
    match s.controller, progress with
    | some ⟨value, pending, .measuring⟩, some progress =>
      (sendMeasured s ⟨value, pending, .measuring⟩ progress requestId, none)
    | some ⟨value, pending, .measuring⟩, none =>
      (s.withController ⟨value, pending, .idle⟩, none)
    | _, _ => (s, none)
  | .serve index env =>
    match s.requests[index]? with
    | some request => serveRenewal s env request
    | none => (s, none)
  | .receive now =>
    match s.controller, s.reply with
    | some ⟨value, pending, .exchanging request⟩, some renewed =>
      if acceptsRenewal value renewed request now then
        (s.withController ⟨renewed, none, .idle⟩, none)
      else (s.withController ⟨value, pending, .idle⟩, none)
    | _, _ => (s, none)
  | .lose =>
    match s.controller with
    | some ⟨value, pending, .exchanging _⟩ =>
      (s.withController ⟨value, pending, .idle⟩, none)
    | _ => ({ s with reply := none }, none)

/-- A sandbox that was dispatched with a specification. -/
def exchangeMachine (spec : SandboxExecutionBudgetSpec) :
    Machine ExchangeState ExchangeAction (Option SandboxExecutionRenewal) :=
  ⟨exchangeStep spec⟩

variable {state row next : SandboxExecutionBudgetState} {s : ExchangeState}
  {now : Nat}

theorem exchange_eq_ok {env : ExchangeEnv}
    {row : Option SandboxExecutionBudgetState}
    {renewal : Option SandboxExecutionRenewal}
    (h : exchangeSandboxExecutionBudget env row renewal = .ok state) :
    exchangedState env row renewal = .ok state := by
  unfold exchangeSandboxExecutionBudget at h
  split at h
  · simp at h
  split at h
  · simp at h
  split at h
  · simp at h
  split at h
  · simp at h
  · rename_i hstate _
    rw [hstate, ← h]

/-- The exchange without a renewal starts the budget or reads it. -/
theorem exchange_open {env : ExchangeEnv}
    {row : Option SandboxExecutionBudgetState}
    (h : exchangeSandboxExecutionBudget env row none = .ok state) :
    state.Valid ∧ ∀ prior, row = some prior → state = prior := by
  have hstate := exchange_eq_ok h
  cases row with
  | none =>
    refine ⟨?_, by simp⟩
    unfold exchangedState at hstate
    cases hstart : startSandboxExecutionBudget env.spec env.beganAt
        env.rootDeadlineAt with
    | error error => simp [hstart, Except.mapError] at hstate
    | ok first =>
      simp only [hstart, Except.mapError, Except.ok.injEq] at hstate
      exact hstate ▸ (start_eq_ok hstart).valid
  | some prior =>
    simp only [exchangedState] at hstate
    split at hstate
    · simp at hstate
    split at hstate
    · simp at hstate
    split at hstate
    · simp at hstate
    · rename_i hvalid _ _
      obtain rfl := Except.ok.inj hstate
      exact ⟨not_not.1 hvalid, by simp⟩

/-- An exchange with a renewal renews the persisted budget. -/
theorem exchange_renewal {env : ExchangeEnv} {request : SandboxExecutionRenewal}
    (h : exchangeSandboxExecutionBudget env (some row) (some request) =
      .ok next) :
    next.Valid ∧
      ((next = row ∧ request ∈ row.renewals.map (·.request)) ∨
        Extends row next request env.beganAt.toNat) := by
  have hstate := exchange_eq_ok h
  simp only [exchangedState] at hstate
  split at hstate
  · simp at hstate
  split at hstate
  · simp at hstate
  split at hstate
  · simp at hstate
  cases hrenew : renewSandboxExecutionBudget row request env.beganAt
      env.rootDeadlineAt with
  | error error => simp [hrenew, Except.mapError] at hstate
  | ok renewed =>
    simp only [hrenew, Except.mapError, Except.ok.injEq] at hstate
    subst hstate
    obtain ⟨hvalid, _, ⟨hsame, renewal, hmem, rfl⟩ | hextends⟩ :=
      renew_eq_ok hrenew
    · exact ⟨hvalid, .inl ⟨hsame, List.mem_map_of_mem hmem⟩⟩
    · exact ⟨hvalid, .inr hextends⟩

theorem Extends.granted {request : SandboxExecutionRenewal}
    (h : Extends state next request now) :
    next.renewals.map (·.request) =
      state.renewals.map (·.request) ++ [request] := by
  rw [h.next]
  simp

theorem Extends.not_granted {request : SandboxExecutionRenewal}
    (h : Extends state next request now) :
    request ∉ state.renewals.map (·.request) := by
  intro hmem
  obtain ⟨renewal, hrenewal, rfl⟩ := List.mem_map.1 hmem
  exact h.fresh renewal hrenewal rfl

theorem Extends.continues {request : SandboxExecutionRenewal}
    (h : Extends state next request now) (hvalid : next.Valid) :
    Continues state next request := by
  have hnext := h.next
  constructor
  · exact hvalid
  · rw [hnext]
  · rw [hnext]
  · rw [hnext]
  · rw [hnext]
  · rw [hnext]
    simp
  · rw [hnext]
  · rw [hnext]
    simp [LastGranted]
  · exact h.later
  · exact h.step

/-- A granted request has one of the numbers that were granted. -/
theorem granted_sequence (hvalid : state.Valid)
    {request : SandboxExecutionRenewal}
    (h : request ∈ state.renewals.map (·.request)) :
    request.sequence ≤ state.sequence := by
  obtain ⟨renewal, hmem, rfl⟩ := List.mem_map.1 h
  obtain ⟨i, hi, rfl⟩ := List.mem_iff_getElem.1 hmem
  obtain ⟨_, _, _, hsequence, _⟩ := hvalid.renewals i hi
  rw [hsequence, ← hvalid.counted]
  omega

/-- The controller knows the server's state, or the state before the extension
that its pending request brought about. -/
def Known (controller : BudgetController) (row : SandboxExecutionBudgetState) :
    Prop :=
  controller.value = row ∨ ∃ request now,
    controller.pending = some request ∧
      Extends controller.value row request now

structure InStep (controller : BudgetController)
    (row : SandboxExecutionBudgetState)
    (requests : List SandboxExecutionRenewal)
    (reply : Option SandboxExecutionBudgetState) : Prop where
  known : Known controller row
  valid : controller.value.Valid
  next : ∀ request, controller.pending = some request →
    request.sequence = controller.value.sequence + 1
  sent : ∀ request ∈ requests, request ∈ row.renewals.map (·.request) ∨
    controller.pending = some request
  measuring : controller.stage = .measuring → controller.pending = none
  stage : ∀ request, controller.stage = .exchanging request →
    controller.pending = some request
  reply : ∀ renewed, reply = some renewed → renewed = row ∧
    ∃ request now, controller.stage = .exchanging request ∧
      Extends controller.value row request now

structure Synced (s : ExchangeState) : Prop where
  valid : ∀ row, s.row = some row → row.Valid
  opening : s.controller = none →
    s.requests = [] ∧ ∀ state, s.reply = some state → s.row = some state
  running : ∀ controller, s.controller = some controller →
    ∃ row, s.row = some row ∧ InStep controller row s.requests s.reply

/-- A request that was granted is not the next one. -/
theorem InStep.extends_of_granted {controller : BudgetController}
    {requests : List SandboxExecutionRenewal}
    {reply : Option SandboxExecutionBudgetState}
    {request : SandboxExecutionRenewal}
    (h : InStep controller row requests reply)
    (hpending : controller.pending = some request)
    (hgranted : request ∈ row.renewals.map (·.request)) :
    ∃ now, Extends controller.value row request now := by
  rcases h.known with hsame | ⟨other, now, hother, hextends⟩
  · have hnumber := granted_sequence h.valid (hsame ▸ hgranted)
    have hnext := h.next request hpending
    omega
  · rw [hpending] at hother
    obtain rfl := Option.some.inj hother
    exact ⟨now, hextends⟩

/-- The controller changes and no answer is on its way. -/
theorem Synced.withController {row} {controller : BudgetController}
    (h : Synced s) (hrow : s.row = some row)
    (hcontroller : InStep controller row s.requests none) :
    Synced (s.withController controller) := by
  refine ⟨h.valid, ?_, ?_⟩
  · intro hnone
    simp [ExchangeState.withController] at hnone
  · intro other hother
    obtain rfl := Option.some.inj hother
    exact ⟨row, hrow, hcontroller⟩

theorem Synced.send {controller : BudgetController}
    {request : SandboxExecutionRenewal} (h : Synced s)
    (hcontroller : s.controller = some controller)
    (hpending : controller.pending = some request) :
    Synced { s with requests := s.requests ++ [request] } := by
  refine ⟨h.valid, ?_, ?_⟩
  · intro hnone
    simp [hcontroller] at hnone
  · intro other hother
    obtain ⟨row, hrow, hin⟩ := h.running other hother
    rw [hcontroller] at hother
    obtain rfl := Option.some.inj hother
    refine ⟨row, hrow, ⟨hin.known, hin.valid, hin.next, ?_, hin.measuring,
      hin.stage, hin.reply⟩⟩
    intro other hmem
    rcases List.mem_append.1 hmem with hold | hnew
    · exact hin.sent other hold
    · rw [List.mem_singleton] at hnew
      subst hnew
      exact .inr hpending

/-- A controller that waits for nothing and has what the server has. -/
theorem InStep.idle {controller : BudgetController}
    {requests : List SandboxExecutionRenewal}
    {reply : Option SandboxExecutionBudgetState} (stage : RenewStage)
    (hstage : ∀ request, stage ≠ .exchanging request)
    (hmeasuring : stage = .measuring → controller.pending = none)
    (h : InStep controller row requests reply) :
    InStep { controller with stage } row requests none where
  known := h.known
  valid := h.valid
  next := h.next
  sent := h.sent
  measuring := hmeasuring
  stage := fun request heq => absurd heq (hstage request)
  reply := by simp

/-- The server takes up a request that was sent. -/
theorem Synced.serve {env : ExchangeEnv} {request : SandboxExecutionRenewal}
    (h : Synced s) (hrequest : request ∈ s.requests) :
    Synced (serveRenewal s env request).1 := by
  unfold serveRenewal
  split
  · rename_i row next hrow hexchange
    rw [hrow] at hexchange
    obtain ⟨hnext, hanswer⟩ := exchange_renewal hexchange
    cases hcontroller : s.controller with
    | none =>
      rw [(h.opening hcontroller).1] at hrequest
      simp at hrequest
    | some controller =>
      obtain ⟨row', hrow', hin⟩ := h.running controller hcontroller
      rw [hrow] at hrow'
      obtain rfl := Option.some.inj hrow'
      -- the server has the pending request, or has just granted it
      have hgranted : request ∈ next.renewals.map (·.request) ∧
          (row.renewals.map (·.request)) ⊆
            next.renewals.map (·.request) := by
        rcases hanswer with ⟨rfl, hold⟩ | hextends
        · exact ⟨hold, fun _ hmem => hmem⟩
        · rw [hextends.granted]
          exact ⟨by simp, List.subset_append_left _ _⟩
      have hknown : Known controller next := by
        rcases hanswer with ⟨rfl, _⟩ | hextends
        · exact hin.known
        · have hpending : controller.pending = some request := by
            rcases hin.sent request hrequest with hold | hpending
            · exact absurd hold hextends.not_granted
            · exact hpending
          rcases hin.known with hsame | ⟨other, now, hother, hbefore⟩
          · exact .inr ⟨request, _, hpending, hsame ▸ hextends⟩
          · rw [hpending] at hother
            obtain rfl := Option.some.inj hother
            refine absurd ?_ hextends.not_granted
            rw [hbefore.granted]
            simp
      have hmoved : InStep controller next s.requests none := by
        refine ⟨hknown, hin.valid, hin.next, ?_, hin.measuring, hin.stage,
          by simp⟩
        intro other hother
        rcases hin.sent other hother with hold | hpending
        · exact .inl (hgranted.2 hold)
        · exact .inr hpending
      refine ⟨?_, ?_, ?_⟩
      · intro state hstate
        obtain rfl := Option.some.inj hstate
        exact hnext
      · intro hnone
        simp at hnone
      · intro other hother
        obtain rfl := Option.some.inj hother
        refine ⟨next, rfl, hmoved.known, hmoved.valid, hmoved.next,
          hmoved.sent, hmoved.measuring, hmoved.stage, ?_⟩
        intro renewed hrenewed
        simp only [Option.any_some, decide_eq_true_eq] at hrenewed
        split at hrenewed
        · rename_i hstage
          obtain rfl := Option.some.inj hrenewed
          obtain ⟨now, hextends⟩ := hmoved.extends_of_granted
            (hin.stage request hstage) hgranted.1
          exact ⟨rfl, request, now, hstage, hextends⟩
        · obtain ⟨hold, asked, now, hstage, hbefore⟩ :=
            hin.reply renewed hrenewed
          -- an answer is on its way, so the extension was granted before
          have hsame : next = row := by
            rcases hanswer with ⟨hsame, _⟩ | hextends
            · exact hsame
            · refine absurd ?_ hextends.not_granted
              rcases hin.sent request hrequest with hgranted | hpending
              · exact hgranted
              · rw [hin.stage asked hstage] at hpending
                obtain rfl := Option.some.inj hpending
                rw [hbefore.granted]
                simp
          rw [hsame]
          exact ⟨hold, asked, now, hstage, hbefore⟩
  · exact h

theorem Synced.step {spec : SandboxExecutionBudgetSpec} (h : Synced s)
    (action : ExchangeAction) : Synced (exchangeStep spec s action).1 := by
  cases action with
  | serveOpen env =>
    simp only [exchangeStep]
    split
    · rename_i state hcontroller hexchange
      have hstate := (exchange_open hexchange).1
      refine ⟨?_, ?_, ?_⟩
      · intro row hrow
        obtain rfl := Option.some.inj hrow
        exact hstate
      · intro hnone
        exact ⟨(h.opening hcontroller).1, fun _ hreply => hreply⟩
      · intro controller hsome
        simp [hcontroller] at hsome
    · exact h
  | receiveOpen now =>
    simp only [exchangeStep]
    split
    · rename_i initial hcontroller hreply
      obtain ⟨hrequests, hopening⟩ := h.opening hcontroller
      have hrow := hopening initial hreply
      refine ⟨h.valid, fun _ => ⟨hrequests, by simp⟩, ?_⟩
      intro controller hopen
      simp only [openController] at hopen
      split at hopen
      · rename_i hchecks
        obtain rfl := Option.some.inj hopen
        refine ⟨initial, hrow, .inl rfl, hchecks.1, by simp, ?_, by simp,
          by simp, by simp⟩
        rw [hrequests]
        simp
      · simp at hopen
    · exact h
  | renew now =>
    simp only [exchangeStep]
    split
    · rename_i value pending hcontroller
      obtain ⟨row, hrow, hin⟩ := h.running _ hcontroller
      unfold beginRenew
      split
      · cases pending with
        | none =>
          exact h.withController hrow (hin.idle .measuring (by simp) fun _ => rfl)
        | some request =>
          have hwaiting : Synced (s.withController
              ⟨value, some request, .exchanging request⟩) := by
            refine h.withController hrow ⟨hin.known, hin.valid, hin.next,
              hin.sent, by simp, ?_, by simp⟩
            intro other hother
            simp only [RenewStage.exchanging.injEq] at hother
            exact congrArg some hother
          exact hwaiting.send rfl rfl
      · exact h
    · exact h
  | measured progress requestId =>
    simp only [exchangeStep]
    split
    · rename_i value pending measured hcontroller
      obtain ⟨row, hrow, hin⟩ := h.running _ hcontroller
      unfold sendMeasured
      split
      · obtain rfl := hin.measuring rfl
        have hsame : value = row := by
          rcases hin.known with hsame | ⟨request, _, hpending, _⟩
          · exact hsame
          · simp at hpending
        have hsending : Synced (s.withController
            ⟨value, some ⟨requestId, value.sequence + 1, measured⟩,
              .exchanging ⟨requestId, value.sequence + 1, measured⟩⟩) := by
          refine h.withController hrow ⟨.inl hsame, hin.valid, ?_, ?_,
            by simp, ?_, by simp⟩
          · intro request hrequest
            obtain rfl := Option.some.inj hrequest
            rfl
          · intro request hrequest
            rcases hin.sent request hrequest with hold | hpending
            · exact .inl hold
            · simp at hpending
          · intro request hrequest
            exact congrArg some (RenewStage.exchanging.inj hrequest)
        exact hsending.send rfl rfl
      · exact h.withController hrow (hin.idle .idle (by simp) (by simp))
    · rename_i value pending hcontroller
      obtain ⟨row, hrow, hin⟩ := h.running _ hcontroller
      exact h.withController hrow (hin.idle .idle (by simp) (by simp))
    · exact h
  | serve index env =>
    simp only [exchangeStep]
    cases hrequest : s.requests[index]? with
    | none => exact h
    | some request => exact h.serve (List.mem_of_getElem? hrequest)
  | receive now =>
    simp only [exchangeStep]
    split
    · rename_i value pending request renewed hcontroller hreply
      obtain ⟨row, hrow, hin⟩ := h.running _ hcontroller
      split
      · obtain ⟨rfl, asked, granted, hstage, hextends⟩ :=
          hin.reply renewed hreply
        obtain rfl := RenewStage.exchanging.inj hstage
        refine h.withController hrow ⟨.inl rfl, h.valid _ hrow, by simp, ?_,
          by simp, by simp, by simp⟩
        intro other hother
        refine .inl ?_
        rcases hin.sent other hother with hold | hpending
        · exact hold
        · have hasked := hin.stage request rfl
          rw [hpending] at hasked
          obtain rfl := Option.some.inj hasked
          rw [hextends.granted]
          simp
      · exact h.withController hrow (hin.idle .idle (by simp) (by simp))
    · exact h
  | lose =>
    simp only [exchangeStep]
    split
    · rename_i value pending request hcontroller
      obtain ⟨row, hrow, hin⟩ := h.running _ hcontroller
      exact h.withController hrow (hin.idle .idle (by simp) (by simp))
    · refine ⟨h.valid, fun hnone => ⟨(h.opening hnone).1, by simp⟩, ?_⟩
      intro controller hcontroller
      obtain ⟨row, hrow, hin⟩ := h.running controller hcontroller
      exact ⟨row, hrow, hin.known, hin.valid, hin.next, hin.sent,
        hin.measuring, hin.stage, by simp⟩

theorem synced_init : Synced .init := by
  refine ⟨?_, ?_, ?_⟩
  · intro row hrow
    simp [ExchangeState.init] at hrow
  · exact fun _ => ⟨rfl, by simp [ExchangeState.init]⟩
  · intro controller hcontroller
    simp [ExchangeState.init] at hcontroller

theorem reachable_synced (spec : SandboxExecutionBudgetSpec)
    (actions : List ExchangeAction) :
    Synced ((exchangeMachine spec).after .init actions) :=
  Machine.after_invariant Synced (fun _ action h => h.step action) synced_init
    actions

/-- The server has granted a request with this identifier. -/
def ServerGranted (requestId : Uuid) (s : ExchangeState) : Prop :=
  ∃ row, s.row = some row ∧
    requestId ∈ row.renewals.map (·.request.requestId)

/-- The step in which the server grants a request with this identifier. -/
def extendsBy (requestId : Uuid) :
    ExchangeAction × Option SandboxExecutionRenewal → Bool
  | (_, some request) => request.requestId = requestId
  | (_, none) => false

theorem extended_of_step {spec : SandboxExecutionBudgetSpec}
    {action : ExchangeAction} {request : SandboxExecutionRenewal}
    (h : (exchangeStep spec s action).2 = some request) :
    ∃ row next now, s.row = some row ∧ Extends row next request now ∧
      (exchangeStep spec s action).1.row = some next := by
  cases action with
  | serve index env =>
    simp only [exchangeStep] at h ⊢
    cases hrequest : s.requests[index]? with
    | none => simp [hrequest] at h
    | some asked =>
      simp only [hrequest, serveRenewal] at h ⊢
      split at h
      · rename_i row next hrow hexchange
        rw [hrow] at hexchange
        have hanswer : (if isExtension row next = true then some asked
            else none) = some request := h
        obtain ⟨hgrown, hasked⟩ := Option.ite_none_right_eq_some.1 hanswer
        obtain rfl := Option.some.inj hasked
        rcases (exchange_renewal hexchange).2 with ⟨rfl, _⟩ | hextends
        · simp [isExtension] at hgrown
        · exact ⟨row, next, _, hrow, hextends, rfl⟩
      · simp at h
  | _ =>
    simp only [exchangeStep] at h
    repeat' split at h
    all_goals simp at h

/-- The row of a step is the row before, read or extended. -/
theorem row_of_step (spec : SandboxExecutionBudgetSpec)
    (hrow : s.row = some row) (action : ExchangeAction) :
    ∃ next, (exchangeStep spec s action).1.row = some next ∧
      BudgetStep row next := by
  have hstays : ∃ next, s.row = some next ∧ BudgetStep row next :=
    ⟨row, hrow, .refl row⟩
  cases action with
  | serveOpen env =>
    simp only [exchangeStep]
    split
    · rename_i state hcontroller hexchange
      obtain rfl := (exchange_open hexchange).2 row hrow
      exact ⟨state, rfl, .refl state⟩
    · exact hstays
  | serve index env =>
    simp only [exchangeStep]
    cases hrequest : s.requests[index]? with
    | none => exact hstays
    | some request =>
      simp only [serveRenewal]
      split
      · rename_i row' next hrow' hexchange
        rw [hrow] at hrow'
        obtain rfl := Option.some.inj hrow'
        rw [hrow] at hexchange
        refine ⟨next, rfl, ?_⟩
        rcases (exchange_renewal hexchange).2 with ⟨rfl, _⟩ | hextends
        · exact .refl _
        · exact hextends.budgetStep
      · exact hstays
  | renew now =>
    simp only [exchangeStep, beginRenew]
    repeat' split
    all_goals exact hstays
  | measured progress requestId =>
    simp only [exchangeStep, sendMeasured]
    repeat' split
    all_goals exact hstays
  | _ =>
    simp only [exchangeStep]
    repeat' split
    all_goals exact hstays

theorem extendsBy_countP_le_one (spec : SandboxExecutionBudgetSpec)
    (requestId : Uuid) (actions : List ExchangeAction) :
    ((exchangeMachine spec).events .init actions).countP
      (extendsBy requestId) ≤ 1 := by
  have hextended : ∀ s action,
      extendsBy requestId (action, (exchangeStep spec s action).2) = true →
        ∃ request, (exchangeStep spec s action).2 = some request ∧
          request.requestId = requestId := by
    intro s action hevent
    cases hanswer : (exchangeStep spec s action).2 with
    | none => simp [hanswer, extendsBy] at hevent
    | some request =>
      rw [hanswer] at hevent
      exact ⟨request, rfl, of_decide_eq_true hevent⟩
  refine Machine.events_countP_le_one (fun _ => True) (ServerGranted requestId)
    (fun _ _ _ => trivial) ?_ ?_ ?_ trivial actions
  · rintro s action _ ⟨row, hrow, hgranted⟩
    obtain ⟨next, hnext, hstep⟩ := row_of_step spec hrow action
    exact ⟨next, hnext, (hstep.granted.map _).subset hgranted⟩
  · rintro s action _ ⟨row, hrow, hgranted⟩
    by_contra hevent
    rw [Bool.not_eq_false] at hevent
    obtain ⟨request, hanswer, rfl⟩ := hextended s action hevent
    obtain ⟨row', _, _, hrow', hextends, _⟩ := extended_of_step hanswer
    rw [hrow] at hrow'
    obtain rfl := Option.some.inj hrow'
    obtain ⟨renewal, hmem, hid⟩ := List.mem_map.1 hgranted
    exact hextends.fresh renewal hmem hid
  · intro s action _ hevent
    obtain ⟨request, hanswer, rfl⟩ := hextended s action hevent
    obtain ⟨row, next, now, _, hextends, hnext⟩ := extended_of_step hanswer
    refine ⟨next, hnext, ?_⟩
    rw [hextends.next]
    simp

/-- Controller and server stay in step: every request extends the budget at
most once; the controller has the server's state or the one before its last
extension, which its pending request brought about; and the answer to the
request of the exchange that is going on passes every check, that of the clock
exactly as long as the renewed deadline lies ahead. -/
theorem budget_controller_in_step (spec : SandboxExecutionBudgetSpec)
    (actions : List ExchangeAction) :
    let s := (exchangeMachine spec).after .init actions
    (∀ requestId, ((exchangeMachine spec).events .init actions).countP
      (extendsBy requestId) ≤ 1) ∧
    (∀ controller, s.controller = some controller →
      ∃ row, s.row = some row ∧ Known controller row) ∧
    ∀ controller renewed, s.controller = some controller →
      s.reply = some renewed →
        s.row = some renewed ∧ ∃ request,
          controller.stage = .exchanging request ∧
            Continues controller.value renewed request ∧
            ∀ now, acceptsRenewal controller.value renewed request now ↔
              now < renewed.deadlineAt := by
  intro s
  have hs : Synced s := reachable_synced spec actions
  refine ⟨fun _ => extendsBy_countP_le_one spec _ actions, ?_, ?_⟩
  · intro controller hcontroller
    obtain ⟨row, hrow, hin⟩ := hs.running controller hcontroller
    exact ⟨row, hrow, hin.known⟩
  · intro controller renewed hcontroller hreply
    obtain ⟨row, hrow, hin⟩ := hs.running controller hcontroller
    obtain ⟨rfl, request, now, hstage, hextends⟩ := hin.reply renewed hreply
    have hcontinues := hextends.continues (hs.valid _ hrow)
    refine ⟨hrow, request, hstage, hcontinues, ?_⟩
    intro now
    exact and_iff_right hcontinues

namespace SandboxExchangeWitness

open SandboxBudgetWitness

def envAt (time : Int) : ExchangeEnv := ⟨true, spec, time, time + 1, 1000000⟩

/-- The controller was opened and its first renewal was granted; the answer is
on its way. -/
def granted : List ExchangeAction :=
  [.serveOpen (envAt 0), .receiveOpen 2, .renew 50000,
    .measured (some ⟨1000000, 0, 0⟩) 7, .serve 0 (envAt 50001)]

def controller : BudgetController := ⟨first, some request, .exchanging request⟩

def renewed : SandboxExecutionBudgetState :=
  ⟨spec, 0, 600000, 120000, 50001, ⟨1000000, 0, 0⟩, 1,
    [⟨request, 50001, 120000⟩]⟩

theorem controller_waits :
    ((exchangeMachine spec).after .init granted).controller =
      some controller := by decide

theorem answer_under_way :
    ((exchangeMachine spec).after .init granted).reply = some renewed := by
  decide

/-- An answer that arrives when the renewed deadline has passed is refused. -/
theorem late_answer_refused :
    ¬∀ (actions : List ExchangeAction) (controller : BudgetController)
        (renewed : SandboxExecutionBudgetState)
        (request : SandboxExecutionRenewal) (now : Int),
      ((exchangeMachine spec).after .init actions).controller =
          some controller →
        controller.stage = .exchanging request →
        ((exchangeMachine spec).after .init actions).reply = some renewed →
          acceptsRenewal controller.value renewed request now := by
  intro hpasses
  have hlate := hpasses granted controller renewed request 120000
    controller_waits rfl answer_under_way
  exact absurd hlate (by decide)

theorem budget_controller_in_step_granted :
    acceptsRenewal first renewed request 50002 := by
  obtain ⟨_, asked, hstage, _, haccepts⟩ :=
    (budget_controller_in_step spec granted).2.2 controller renewed
      controller_waits answer_under_way
  obtain rfl := RenewStage.exchanging.inj hstage
  exact (haccepts 50002).2 (by decide)

end SandboxExchangeWitness

end Allrice
