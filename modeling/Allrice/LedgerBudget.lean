/-
Budget conservation.  The two counters of a budget are determined by the
reservations: what is reserved is the total of the unsettled ones, what is
spent is the total of the settled amounts.  The first half shows that every
write keeps this; the second half shows what an accepted creation and an
accepted settlement do, and that repeating either changes nothing.
-/
import Allrice.LedgerMachine

namespace Allrice

open Tx

/-- The budget that a reservation draws on. -/
def ReservationRow.budgetKey (row : ReservationRow) : Uuid × UsageMetric :=
  (row.rootRunId, row.metric)

/-- What a reservation holds back of a budget. -/
def openAmount (key : Uuid × UsageMetric) (row : ReservationRow) : Int :=
  if row.budgetKey = key ∧ row.settled = none then row.amount else 0

/-- What a settled reservation took out of a budget. -/
def settledAmount (key : Uuid × UsageMetric) (row : ReservationRow) : Int :=
  if row.budgetKey = key then
    match row.settled with
    | none => 0
    | some settled => settled.1
  else 0

def unsettledTotal (db : LedgerDb) (key : Uuid × UsageMetric) : Int :=
  (db.reservations.rows.map (openAmount key)).sum

def settledTotal (db : LedgerDb) (key : Uuid × UsageMetric) : Int :=
  (db.reservations.rows.map (settledAmount key)).sum

/-- The counters agree with the reservations, every reservation belongs to an
operation of its root, and its budget exists. -/
structure LedgerDb.Conserved (db : LedgerDb) : Prop where
  placed : ∀ {reservation}, reservation ∈ db.reservations.rows →
    ∃ row, db.operations.find? reservation.operationId = some row ∧
      row.rootRunId = reservation.rootRunId
  funded : ∀ {reservation}, reservation ∈ db.reservations.rows →
    ∃ budget, db.budgets.find? reservation.budgetKey = some budget
  reserved : ∀ {key budget}, db.budgets.find? key = some budget →
    budget.reserved = unsettledTotal db key
  spent : ∀ {key budget}, db.budgets.find? key = some budget →
    budget.spent = settledTotal db key

theorem openAmount_nonneg (key : Uuid × UsageMetric) (row : ReservationRow) :
    0 ≤ openAmount key row := by
  unfold openAmount
  split
  · exact Int.natCast_nonneg _
  · exact le_rfl

theorem settledAmount_nonneg (key : Uuid × UsageMetric)
    (row : ReservationRow) : 0 ≤ settledAmount key row := by
  unfold settledAmount
  split
  · split
    · exact le_rfl
    · exact Int.natCast_nonneg _
  · exact le_rfl

theorem unsettledTotal_nonneg (db : LedgerDb) (key : Uuid × UsageMetric) :
    0 ≤ unsettledTotal db key := by
  refine List.sum_nonneg fun amount hmem => ?_
  obtain ⟨row, _, rfl⟩ := List.mem_map.1 hmem
  exact openAmount_nonneg key row

theorem settledTotal_nonneg (db : LedgerDb) (key : Uuid × UsageMetric) :
    0 ≤ settledTotal db key := by
  refine List.sum_nonneg fun amount hmem => ?_
  obtain ⟨row, _, rfl⟩ := List.mem_map.1 hmem
  exact settledAmount_nonneg key row

variable {db next : LedgerDb} {input : CreateRuntimeOperationInput}
  {metric : UsageMetric} {operationId rootRunId : Uuid} {root : RootRow}
  {snapshot : RuntimeOperationSnapshot} {s : LedgerState} {scope : RuntimeScope}
  {reservations : List RuntimeBudgetReservation}

/-- A write that leaves budgets and reservations alone. -/
theorem LedgerDb.Conserved.of_same (h : db.Conserved)
    (hwrite : LedgerWrite db next) (hbudgets : next.budgets = db.budgets)
    (hreservations : next.reservations = db.reservations) : next.Conserved := by
  have hopen : ∀ key, unsettledTotal next key = unsettledTotal db key := by
    intro key
    simp only [unsettledTotal, hreservations]
  have hsettled : ∀ key, settledTotal next key = settledTotal db key := by
    intro key
    simp only [settledTotal, hreservations]
  constructor
  · intro reservation hmem
    rw [hreservations] at hmem
    obtain ⟨row, hrow, hroot⟩ := h.placed hmem
    obtain ⟨later, hlater, hkept⟩ := hwrite.operation_later hrow
    exact ⟨later, hlater, hkept.rootRunId.trans hroot⟩
  · intro reservation hmem
    rw [hreservations] at hmem
    rw [hbudgets]
    exact h.funded hmem
  · intro key budget hbudget
    rw [hbudgets] at hbudget
    rw [hopen]
    exact h.reserved hbudget
  · intro key budget hbudget
    rw [hbudgets] at hbudget
    rw [hsettled]
    exact h.spent hbudget

/-- A new budget has no reservations. -/
theorem LedgerDb.Conserved.budget (h : db.Conserved) {row : BudgetRow} {budgets}
    (hunused : row.reserved = 0 ∧ row.spent = 0)
    (hbudgets : db.budgets.insert? row = some budgets) :
    LedgerDb.Conserved { db with budgets } := by
  have hfind := Table.find?_insert? hbudgets
  have hnew := (Table.insert?_eq_some hbudgets).1
  have hfree : ∀ reservation ∈ db.reservations.rows,
      reservation.budgetKey ≠ row.key := by
    intro reservation hmem heq
    obtain ⟨budget, hbudget⟩ := h.funded hmem
    rw [heq, hnew] at hbudget
    simp at hbudget
  have hopen : unsettledTotal db row.key = 0 := by
    refine List.sum_eq_zero fun amount hmem => ?_
    obtain ⟨reservation, hreservation, rfl⟩ := List.mem_map.1 hmem
    simp [openAmount, hfree reservation hreservation]
  have hsettled : settledTotal db row.key = 0 := by
    refine List.sum_eq_zero fun amount hmem => ?_
    obtain ⟨reservation, hreservation, rfl⟩ := List.mem_map.1 hmem
    simp [settledAmount, hfree reservation hreservation]
  constructor
  · intro reservation hmem
    exact h.placed hmem
  · intro reservation hmem
    show ∃ budget, budgets.find? reservation.budgetKey = some budget
    rw [hfind, if_neg (Ne.symm (hfree reservation hmem))]
    exact h.funded hmem
  · intro key budget hbudget
    rw [hfind] at hbudget
    split at hbudget
    · rename_i hkey
      obtain rfl := Option.some.inj hbudget
      rw [← hkey]
      exact hunused.1.trans hopen.symm
    · exact h.reserved hbudget
  · intro key budget hbudget
    rw [hfind] at hbudget
    split at hbudget
    · rename_i hkey
      obtain rfl := Option.some.inj hbudget
      rw [← hkey]
      exact hunused.2.trans hsettled.symm
    · exact h.spent hbudget

/-- A change of one budget and of one reservation that draws on it: it is
enough that the totals of that budget follow and those of the others stay. -/
theorem LedgerDb.Conserved.change (h : db.Conserved)
    (reservation : ReservationRow) {budget : BudgetRow} (changed : BudgetRow)
    (hbudget : db.budgets.find? reservation.budgetKey = some budget)
    (hkey : changed.key = reservation.budgetKey)
    (hbudgets : next.budgets = db.budgets.replace changed)
    (hplaced : ∀ other ∈ next.reservations.rows,
      (∃ row, next.operations.find? other.operationId = some row ∧
        row.rootRunId = other.rootRunId) ∧
      (other ∈ db.reservations.rows ∨
        other.budgetKey = reservation.budgetKey))
    (hopen : ∀ key, unsettledTotal next key = unsettledTotal db key +
      if reservation.budgetKey = key
      then changed.reserved - budget.reserved else 0)
    (hsettled : ∀ key, settledTotal next key = settledTotal db key +
      if reservation.budgetKey = key
      then changed.spent - budget.spent else 0) : next.Conserved := by
  have hfind : ∀ key, next.budgets.find? key =
      if reservation.budgetKey = key then some changed
      else db.budgets.find? key := by
    intro key
    rw [hbudgets, Table.find?_replace, hkey]
    by_cases hsame : reservation.budgetKey = key
    · subst hsame
      simp [hbudget]
    · simp [hsame]
  constructor
  · intro other hmem
    exact (hplaced other hmem).1
  · intro other hmem
    rw [hfind]
    split
    · exact ⟨changed, rfl⟩
    · rename_i hother
      rcases (hplaced other hmem).2 with hold | hsame
      · exact h.funded hold
      · exact absurd hsame.symm hother
  · intro key found hfound
    rw [hfind] at hfound
    rw [hopen]
    split at hfound
    · rename_i hsame
      obtain rfl := Option.some.inj hfound
      subst hsame
      rw [if_pos rfl, ← h.reserved hbudget]
      omega
    · rename_i hother
      rw [if_neg hother, add_zero]
      exact h.reserved hfound
  · intro key found hfound
    rw [hfind] at hfound
    rw [hsettled]
    split at hfound
    · rename_i hsame
      obtain rfl := Option.some.inj hfound
      subst hsame
      rw [if_pos rfl, ← h.spent hbudget]
      omega
    · rename_i hother
      rw [if_neg hother, add_zero]
      exact h.spent hfound

variable {row : OperationRow} {reservation : ReservationRow}
  {answer : SettleAnswer} {call : LedgerCall}

theorem LedgerDb.Conserved.reserve (h : db.Conserved) {budget : BudgetRow}
    {reservations}
    (hrow : db.operations.find? reservation.operationId = some row)
    (hroot : row.rootRunId = reservation.rootRunId)
    (hunsettled : reservation.settled = none)
    (hbudget : db.budgets.find? (reservation.rootRunId, reservation.metric) =
      some budget)
    (hreservations : db.reservations.insert? reservation = some reservations) :
    LedgerDb.Conserved { db with
      reservations
      budgets := db.budgets.replace
        { budget with reserved := budget.reserved + reservation.amount } } := by
  have hkey := Table.key_of_find? hbudget
  refine h.change reservation
    { budget with reserved := budget.reserved + reservation.amount } hbudget
    hkey rfl ?_ ?_ ?_
  · intro other hmem
    rw [(Table.insert?_eq_some hreservations).2, List.mem_append,
      List.mem_singleton] at hmem
    rcases hmem with hold | rfl
    · exact ⟨h.placed hold, .inl hold⟩
    · exact ⟨⟨row, hrow, hroot⟩, .inr rfl⟩
  · intro key
    have hsum := Table.sum_insert? (openAmount key) hreservations
    simp only [unsettledTotal, hsum, openAmount, hunsettled, and_true]
    split
    · omega
    · rfl
  · intro key
    have hsum := Table.sum_insert? (settledAmount key) hreservations
    simp only [settledTotal, hsum, settledAmount, hunsettled, ite_self,
      sub_self]

theorem LedgerDb.Conserved.settle (h : db.Conserved) {budget : BudgetRow}
    {amount : Nat} {observation : RuntimeUsageObservation}
    (hreservation : db.reservations.find? reservation.key = some reservation)
    (hunsettled : reservation.settled = none)
    (hrow : db.operations.find? reservation.operationId = some row)
    (hbudget : db.budgets.find? (row.rootRunId, reservation.metric) =
      some budget) :
    LedgerDb.Conserved { db with
      reservations := db.reservations.replace
        { reservation with settled := some (amount, observation) }
      budgets := db.budgets.replace
        { budget with
          reserved := budget.reserved - reservation.amount
          spent := budget.spent + amount } } := by
  have hmem := Table.mem_of_find? hreservation
  have hroot : row.rootRunId = reservation.rootRunId := by
    obtain ⟨found, hfound, hsame⟩ := h.placed hmem
    rw [hrow] at hfound
    obtain rfl := Option.some.inj hfound
    exact hsame
  rw [hroot] at hbudget
  have hstored : db.reservations.find? (ReservationRow.key
      { reservation with settled := some (amount, observation) }) =
        some reservation := hreservation
  have hkey := Table.key_of_find? hbudget
  refine h.change reservation
    { budget with
      reserved := budget.reserved - reservation.amount
      spent := budget.spent + amount } hbudget
    hkey rfl ?_ ?_ ?_
  · intro other hother
    rcases Table.mem_replace.1 hother with ⟨hold, _⟩ | ⟨rfl, _⟩
    · exact ⟨h.placed hold, .inl hold⟩
    · exact ⟨⟨row, hrow, hroot⟩, .inr rfl⟩
  · intro key
    have hsum := Table.sum_replace (openAmount key) hstored
    have hbefore : openAmount key reservation =
        if reservation.budgetKey = key then (reservation.amount : Int) else 0 := by
      simp [openAmount, hunsettled]
    have hafter : openAmount key
        { reservation with settled := some (amount, observation) } = 0 := by
      simp [openAmount]
    rw [hbefore, hafter] at hsum
    simp only [unsettledTotal]
    by_cases hsame : reservation.budgetKey = key
    · simp only [hsame, ↓reduceIte] at hsum ⊢
      omega
    · simp only [hsame, ↓reduceIte] at hsum ⊢
      omega
  · intro key
    have hsum := Table.sum_replace (settledAmount key) hstored
    have hbefore : settledAmount key reservation = 0 := by
      simp [settledAmount, hunsettled]
    have hafter : settledAmount key
        { reservation with settled := some (amount, observation) } =
          if reservation.budgetKey = key then (amount : Int) else 0 := rfl
    rw [hbefore, hafter] at hsum
    simp only [settledTotal]
    by_cases hsame : reservation.budgetKey = key
    · simp only [hsame, ↓reduceIte] at hsum ⊢
      omega
    · simp only [hsame, ↓reduceIte] at hsum ⊢
      omega

theorem LedgerWrite.conserved {db next : LedgerDb}
    (hwrite : LedgerWrite db next) (h : db.Conserved) : next.Conserved := by
  cases hwrite with
  | budget hunused hbudgets => exact h.budget hunused hbudgets
  | reserve hrow hroot hunsettled hbudget hreservations =>
    exact h.reserve hrow hroot hunsettled hbudget hreservations
  | settle hreservation hunsettled hrow hbudget =>
    exact h.settle hreservation hunsettled hrow hbudget
  | event hrow hadvance hevents hsignal hexecutor =>
    exact h.of_same (.event hrow hadvance hevents hsignal hexecutor) rfl rfl
  | dispatch hrow hadvance hevents hheld =>
    exact h.of_same (.dispatch hrow hadvance hevents hheld) rfl rfl
  | extend hrow hheld hsame =>
    exact h.of_same (.extend hrow hheld hsame) rfl rfl
  | operation hfresh hoperations =>
    exact h.of_same (.operation hfresh hoperations) rfl rfl
  | root hroots => exact h.of_same (.root hroots) rfl rfl
  | deadline hrow => exact h.of_same (.deadline hrow) rfl rfl
  | cancel hrow => exact h.of_same (.cancel hrow) rfl rfl
  | link hlinks => exact h.of_same (.link hlinks) rfl rfl
  | receipt hreceipts => exact h.of_same (.receipt hreceipts) rfl rfl

theorem reachable_conserved (host : LedgerHost) (actions : List LedgerAction) :
    ((ledgerMachine host).after .init actions).db.Conserved := by
  refine ledger_invariant host LedgerWrite.conserved ?_ ?_ actions
  · exact fun h => ⟨h.placed, h.funded, h.reserved, h.spent⟩
  constructor
  · intro reservation hmem
    simp [LedgerDb.empty, Table.empty] at hmem
  · intro reservation hmem
    simp [LedgerDb.empty, Table.empty] at hmem
  · intro key budget hbudget
    simp [LedgerDb.empty] at hbudget
  · intro key budget hbudget
    simp [LedgerDb.empty] at hbudget

/-- Two databases that differ at most in deadlines of roots, which the task
clock moves whenever a root is locked. -/
structure LedgerDb.Unchanged (db next : LedgerDb) : Prop where
  rows : next = { db with roots := next.roots }
  roots : ∀ rootRunId,
    (next.roots.find? rootRunId).map (fun row => { row with deadlineAt := 0 })
      = (db.roots.find? rootRunId).map fun row => { row with deadlineAt := 0 }

instance : Std.Refl LedgerDb.Unchanged := ⟨fun _ => ⟨rfl, fun _ => rfl⟩⟩

instance : IsTrans LedgerDb LedgerDb.Unchanged := by
  refine ⟨fun a b c hab hbc => ⟨?_, ?_⟩⟩
  · rw [hbc.rows, hab.rows]
  · intro rootRunId
    rw [hbc.roots, hab.roots]

theorem refreshTaskClock_unchanged {env : LedgerEnv} {point : ClockPoint} :
    Keeps LedgerDb.Unchanged (refreshTaskClock env point rootRunId) := by
  have hupdate : ∀ deadlineAt, Keeps LedgerDb.Unchanged
      (updateRoot rootRunId fun root => { root with deadlineAt }) := by
    intro deadlineAt db u next h
    rcases updateRoot_eq_ok h with ⟨_, rfl⟩ | ⟨row, hrow, rfl⟩
    · exact ⟨rfl, fun _ => rfl⟩
    · refine ⟨rfl, fun other => ?_⟩
      obtain rfl := Table.key_of_find? hrow
      show ((db.roots.replace _).find? other).map _ = _
      rw [Table.find?_replace]
      by_cases hsame : row.rootRunId = other
      · subst hsame
        simp [hrow]
      · rw [if_neg hsame]
  unfold refreshTaskClock
  cases env.taskClock point with
  | none => exact .pure
  | some clock =>
    exact .bind (.whenever (hupdate _)) fun _ => .pure

theorem lockRoot_unchanged {env : LedgerEnv} :
    Keeps LedgerDb.Unchanged (lockRoot env scope rootRunId) := by
  refine .bind .get fun _ => ?_
  refine .bind .expect fun _ => ?_
  refine .bind .rejectIf fun _ => ?_
  exact .bind refreshTaskClock_unchanged fun _ => .pure

theorem lockOperation_unchanged {env : LedgerEnv} :
    Keeps LedgerDb.Unchanged (lockOperation env scope operationId) := by
  refine .bind .get fun _ => ?_
  refine .bind .expect fun _ => ?_
  refine .bind .rejectIf fun _ => ?_
  refine .bind lockRoot_unchanged fun _ => ?_
  refine .bind currentOperation_keeps fun _ => ?_
  exact .bind .rejectIf fun _ => .pure

theorem lockRoot_eq_ok {env : LedgerEnv}
    (h : lockRoot env scope rootRunId db = .ok (root, next)) :
    root.rootRunId = rootRunId ∧ root.task.scope = scope := by
  simp only [lockRoot, get_bind_eq_ok, expect_bind_eq_ok, rejectIf_bind_eq_ok,
    not_not] at h
  obtain ⟨stored, hstored, hscope, h⟩ := h
  obtain ⟨clock, middle, _, h⟩ := bind_eq_ok.1 h
  obtain ⟨rfl, _⟩ := Prod.mk.inj (pure_eq_ok.1 h)
  have hkey := Table.key_of_find? hstored
  exact ⟨hkey, hscope⟩

/-- The operation that a request asks for is there already: an operation of
the same workspace with the same idempotency key. -/
def Requested (input : CreateRuntimeOperationInput) (db : LedgerDb) : Prop :=
  ∃ operationId row, db.operations.find? operationId = some row ∧
    row.snapshot.idempotencyKey = input.snapshot.idempotencyKey ∧
    row.snapshot.binding.task.scope.organizationId =
      input.snapshot.binding.task.scope.organizationId ∧
    row.snapshot.binding.task.scope.workspaceId =
      input.snapshot.binding.task.scope.workspaceId

theorem findByKey_isSome
    (hscope : root.task.scope = input.snapshot.binding.task.scope) :
    (findByKey db root input.snapshot.idempotencyKey).isSome ↔
      Requested input db := by
  simp only [findByKey, List.find?_isSome, Bool.and_eq_true,
    decide_eq_true_eq, hscope]
  constructor
  · rintro ⟨row, hmem, ⟨hkey, horganization⟩, hworkspace⟩
    exact ⟨row.id, row, Table.find?_of_mem hmem, hkey, horganization,
      hworkspace⟩
  · rintro ⟨operationId, row, hrow, hkey, horganization, hworkspace⟩
    exact ⟨row, Table.mem_of_find? hrow, ⟨hkey, horganization⟩, hworkspace⟩

/-- A request that was met stays met. -/
theorem Changes.requested (h : Changes db next) (hdb : Requested input db) :
    Requested input next := by
  obtain ⟨operationId, row, hrow, hkey, horganization, hworkspace⟩ := hdb
  obtain ⟨later, hlater, hkept⟩ := h.operation_later hrow
  refine ⟨operationId, later, hlater, ?_, ?_, ?_⟩
  · rw [hkept.idempotencyKey, hkey]
  · rw [hkept.binding, horganization]
  · rw [hkept.binding, hworkspace]

/-- What is reserved of one metric by a list of requests. -/
def requestedAmount (reservations : List RuntimeBudgetReservation)
    (metric : UsageMetric) : Nat :=
  ((reservations.filter (·.metric = metric)).map (·.amount)).sum

/-- Reserving adds the requested amounts to the budgets of the root. -/
theorem reserveAll_budgets (reservations : List RuntimeBudgetReservation)
    {u : Unit}
    (h : reservations.forM (reserve operationId rootRunId) db = .ok (u, next))
    {budget : BudgetRow}
    (hbudget : next.budgets.find? (rootRunId, metric) = some budget) :
    ∃ before, db.budgets.find? (rootRunId, metric) = some before ∧
      budget = { before with
        reserved := before.reserved + requestedAmount reservations metric } := by
  induction reservations generalizing db with
  | nil =>
    rw [(Prod.mk.inj (pure_eq_ok.1 h)).2] at hbudget
    exact ⟨budget, hbudget, by simp [requestedAmount]⟩
  | cons head tail ih =>
    obtain ⟨_, middle, hhead, htail⟩ := bind_eq_ok.1 h
    obtain ⟨stored, reservations, hstored, _, rfl⟩ := reserve_eq_ok hhead
    obtain ⟨before, hbefore, rfl⟩ := ih htail
    have hkey := Table.key_of_find? hstored
    rw [Table.find?_replace] at hbefore
    by_cases hmetric : head.metric = metric
    · subst hmetric
      have hsame : BudgetRow.key { stored with
          reserved := stored.reserved + head.amount } =
            (rootRunId, head.metric) := hkey
      rw [if_pos hsame, hstored] at hbefore
      obtain rfl := Option.some.inj hbefore
      refine ⟨stored, hstored, ?_⟩
      simp [requestedAmount, add_assoc]
    · have hother : BudgetRow.key { stored with
          reserved := stored.reserved + head.amount } ≠
            (rootRunId, metric) := by
        intro heq
        exact hmetric (congrArg Prod.snd (hkey.symm.trans heq))
      rw [if_neg hother] at hbefore
      exact ⟨before, hbefore, by simp [requestedAmount, hmetric]⟩

/-- Among reservations of different metrics, the amount of a metric is the one
of its reservation. -/
theorem requestedAmount_of_find? {reservation : RuntimeBudgetReservation}
    (hdistinct : (reservations.map (·.metric)).Nodup)
    (hfind : reservations.find? (·.metric = metric) = some reservation) :
    requestedAmount reservations metric = reservation.amount := by
  have hmetric : reservation.metric = metric := by
    simpa using List.find?_some hfind
  have hmem := List.mem_of_find?_eq_some hfind
  have hfilter : reservations.filter (·.metric = metric) = [reservation] := by
    have hnodup := List.Nodup.of_map _ hdistinct
    refine List.perm_singleton.1 ?_
    rw [List.perm_ext_iff_of_nodup (hnodup.filter _) (List.nodup_singleton _)]
    intro other
    simp only [List.mem_filter, decide_eq_true_eq, List.mem_singleton]
    constructor
    · rintro ⟨hother, hsame⟩
      exact List.inj_on_of_nodup_map hdistinct hother hmem
        (hsame.trans hmetric.symm)
    · rintro rfl
      exact ⟨hmem, hmetric⟩
  simp [requestedAmount, hfilter]

/-- A budget that refuses nothing has room for its reservation. -/
theorem budgetRefusal_eq_none {budget : BudgetRow}
    (h : budgetRefusal reservations budget = none) :
    ∃ reservation,
      reservations.find? (·.metric = budget.metric) = some reservation ∧
        (isObservedExecutionMetric budget.metric = false →
          budget.reserved + budget.spent + reservation.amount ≤
            budget.capacity) := by
  unfold budgetRefusal at h
  split at h
  · simp at h
  · rename_i reservation hfind
    refine ⟨reservation, hfind, fun hobserved => ?_⟩
    by_contra hexceeds
    rw [if_pos ⟨hobserved, not_le.1 hexceeds⟩] at h
    simp at h

/-- As many requests as budgets with as many metrics: all are different. -/
theorem metrics_nodup {n : Nat} (hlength : reservations.length = n)
    (hdedup : (reservations.map (·.metric)).dedup.length = n) :
    (reservations.map (·.metric)).Nodup := by
  have hsame := (List.dedup_sublist (reservations.map (·.metric))).eq_of_length
    (by rw [hdedup, List.length_map, hlength])
  rw [← hsame]
  exact List.nodup_dedup _

/-- The steps of an admission that write, and the checks that it passed. -/
theorem admitOperation_eq_ok {env : LedgerEnv}
    (h : admitOperation env root input db = .ok (snapshot, next)) :
    (input.reservations.map (·.metric)).Nodup ∧
      (∀ budget ∈ budgetsOf db root.rootRunId,
        budgetRefusal input.reservations budget = none) ∧
      ∃ linked inserted signal,
        linked.budgets = db.budgets ∧
        insertReserved root input linked = .ok (⟨⟩, inserted) ∧
        appendEvent env input.snapshot.binding.attempt.operationId signal inserted =
          .ok (⟨⟩, next) := by
  obtain ⟨_, _, hroot, h⟩ := bind_eq_ok.1 h
  obtain rfl := ensureRootAdmits_keeps (R := Eq) _ _ _ hroot
  obtain ⟨_, _, hrun, h⟩ := bind_eq_ok.1 h
  obtain rfl := assertRun_keeps (R := Eq) _ _ _ hrun
  obtain ⟨_, _, hrun', h⟩ := bind_eq_ok.1 h
  obtain rfl := assertRun_keeps (R := Eq) _ _ _ hrun'
  obtain ⟨decision, _, h⟩ := lift_bind_eq_ok.1 h
  obtain ⟨_, _, htarget, h⟩ := bind_eq_ok.1 h
  obtain rfl := assertTarget_keeps (R := Eq) _ _ _ htarget
  obtain ⟨_, _, hroot', h⟩ := bind_eq_ok.1 h
  obtain rfl := ensureRootAdmits_keeps (R := Eq) _ _ _ hroot'
  obtain ⟨_, linked, hlink, h⟩ := bind_eq_ok.1 h
  have hbudgets : linked.budgets = db.budgets := by
    rcases linkRun_eq_ok hlink with rfl | ⟨_, _, _, rfl⟩
    · rfl
    · rfl
  simp only [get_bind_eq_ok, rejectIf_bind_eq_ok, not_or, not_not] at h
  obtain ⟨⟨hlength, hdedup⟩, h⟩ := h
  have hsame : budgetsOf linked root.rootRunId =
      budgetsOf db root.rootRunId := by
    simp only [budgetsOf, hbudgets]
  rw [hsame] at hlength hdedup h
  refine ⟨metrics_nodup hlength hdedup, ?_⟩
  cases hrefusal : (budgetsOf db root.rootRunId).findSome?
      (budgetRefusal input.reservations) with
  | some code =>
    simp only [hrefusal, throw_eq_ok] at h
  | none =>
    simp only [hrefusal] at h
    refine ⟨List.findSome?_eq_none_iff.1 hrefusal, ?_⟩
    obtain ⟨_, inserted, hinsert, h⟩ := bind_eq_ok.1 h
    obtain ⟨_, appended, happend, h⟩ := bind_eq_ok.1 h
    simp only [lift_bind_eq_ok, rejectIf_bind_eq_ok] at h
    obtain ⟨final, _, _, h⟩ := h
    obtain ⟨_, _, hroot'', h⟩ := bind_eq_ok.1 h
    obtain rfl := ensureRootAdmits_keeps (R := Eq) _ _ _ hroot''
    obtain ⟨row, _, h⟩ := currentOperation_bind_eq_ok.1 h
    obtain ⟨rfl, rfl⟩ := Prod.mk.inj (pure_eq_ok.1 h)
    exact ⟨linked, inserted, _, hbudgets, hinsert, happend⟩

/-- Right after a new operation every gated budget of its root is within its
capacity. -/
theorem admitOperation_bound {env : LedgerEnv}
    (h : admitOperation env root input db = .ok (snapshot, next))
    {budget : BudgetRow}
    (hbudget : next.budgets.find? (root.rootRunId, metric) = some budget)
    (hgated : isObservedExecutionMetric metric = false) :
    budget.reserved + budget.spent ≤ budget.capacity := by
  obtain ⟨hdistinct, hadmitted, linked, inserted, signal, hlinked, hinsert,
    happend⟩ := admitOperation_eq_ok h
  obtain ⟨row, _, _, _, _, _, _, _, _, rfl⟩ := appended_eq_ok happend
  obtain ⟨_, created, hcreate, hreserve⟩ := bind_eq_ok.1 hinsert
  obtain ⟨operations, _, rfl⟩ := insertOperation_eq_ok hcreate
  obtain ⟨before, hbefore, rfl⟩ :=
    reserveAll_budgets input.reservations hreserve hbudget
  replace hbefore : db.budgets.find? (root.rootRunId, metric) =
      some before := hlinked ▸ hbefore
  have hkey := Table.key_of_find? hbefore
  obtain ⟨hroot, rfl⟩ := Prod.mk.inj hkey
  have hmem : before ∈ budgetsOf db root.rootRunId := by
    simp only [budgetsOf, List.mem_filter, decide_eq_true_eq]
    exact ⟨Table.mem_of_find? hbefore, hroot⟩
  obtain ⟨reservation, hfind, hroom⟩ :=
    budgetRefusal_eq_none (hadmitted before hmem)
  have hamount := requestedAmount_of_find? hdistinct hfind
  have hfits := hroom hgated
  simp only [hamount]
  omega

/-- A new operation answers later repetitions of its request. -/
theorem admitOperation_requested {env : LedgerEnv}
    (h : admitOperation env root input db = .ok (snapshot, next)) :
    Requested input next := by
  obtain ⟨_, _, linked, inserted, signal, _, hinsert, happend⟩ :=
    admitOperation_eq_ok h
  obtain ⟨_, created, hcreate, hreserve⟩ := bind_eq_ok.1 hinsert
  obtain ⟨operations, hoperations, rfl⟩ := insertOperation_eq_ok hcreate
  have hfind := Table.find?_insert? hoperations
    input.snapshot.binding.attempt.operationId
  simp only [↓reduceIte] at hfind
  have hreserved : Writes { linked with operations } inserted :=
    reserveAll_writes input.reservations rfl hfind hreserve
  obtain ⟨later, hlater, hkept⟩ := hreserved.operation_later hfind
  obtain ⟨row, snapshot', _, _, hrow, hid, hadvance, _, _, rfl⟩ :=
    appended_eq_ok happend
  rw [hid, hlater] at hrow
  obtain rfl := Option.some.inj hrow
  have hstep := advance_step hadvance
  refine ⟨later.id, { later with
    snapshot := snapshot', nextSequence := later.nextSequence + 1 }, ?_, ?_, ?_,
    ?_⟩
  · exact Table.find?_replace_self (hid ▸ hlater)
  · exact hstep.idempotencyKey.trans hkept.idempotencyKey
  · rw [hstep.binding, hkept.binding]
  · rw [hstep.binding, hkept.binding]

theorem LedgerDb.Unchanged.requested (h : db.Unchanged next) :
    Requested input next ↔ Requested input db := by
  have hsame : next.operations = db.operations := by rw [h.rows]
  simp only [Requested, hsame]

/-- An accepted creation either repeats an earlier one and changes nothing, or
it is new and leaves its root's gated budgets within their capacity. -/
theorem createOperation_accepted {host : LedgerHost} {env : LedgerEnv}
    (h : createOperation host env input db = .ok (snapshot, next)) :
    Requested input next ∧
      ((Requested input db ∧ db.Unchanged next) ∨
        (¬Requested input db ∧ ∀ metric budget,
          next.budgets.find?
              (input.snapshot.binding.task.rootRunId, metric) = some budget →
            isObservedExecutionMetric metric = false →
            budget.reserved + budget.spent ≤ budget.capacity)) := by
  obtain ⟨_, _, root, locked, hlock, h⟩ := createOperation_eq_ok h
  obtain ⟨hroot, hscope⟩ := lockRoot_eq_ok hlock
  have hlocked := lockRoot_unchanged _ _ _ hlock
  rcases h with ⟨prior, hprior, hreplay⟩ | ⟨hnone, hadmitted⟩
  · have hrequested : Requested input locked :=
      (findByKey_isSome hscope).1 (by rw [hprior]; rfl)
    obtain rfl := replayOperation_keeps (R := Eq) _ _ _ hreplay
    exact ⟨hrequested, .inl ⟨hlocked.requested.1 hrequested, hlocked⟩⟩
  · refine ⟨admitOperation_requested hadmitted, .inr ⟨?_, ?_⟩⟩
    · intro hrequested
      have hsome := (findByKey_isSome hscope).2 (hlocked.requested.2 hrequested)
      rw [hnone] at hsome
      simp at hsome
    · intro metric budget hbudget hgated
      rw [← hroot] at hbudget
      exact admitOperation_bound hadmitted hbudget hgated

/-- The reservation of an operation for a metric is settled. -/
def Settled (operationId : Uuid) (metric : UsageMetric) (db : LedgerDb) :
    Prop :=
  ∃ reservation, db.reservations.find? (operationId, metric) =
    some reservation ∧ reservation.settled ≠ none

theorem LedgerWrite.settled (hwrite : LedgerWrite db next)
    (h : Settled operationId metric db) : Settled operationId metric next := by
  obtain ⟨reservation, hreservation, hsettled⟩ := h
  cases hwrite with
  | @reserve row budget added reservations hrow hroot hopen hbudget hinsert =>
    refine ⟨reservation, ?_, hsettled⟩
    have hnew := (Table.insert?_eq_some hinsert).1
    rw [Table.find?_insert? hinsert, if_neg]
    · exact hreservation
    · intro hsame
      rw [hsame, hreservation] at hnew
      simp at hnew
  | @settle row budget released amount observation hstored hopen hrow hbudget =>
    refine ⟨reservation, ?_, hsettled⟩
    show (db.reservations.replace _).find? _ = _
    rw [Table.find?_replace_ne]
    · exact hreservation
    · intro hsame
      -- a reservation that is settled is not settled again
      have hkey : released.key = (operationId, metric) := hsame
      rw [hkey, hreservation] at hstored
      obtain rfl := Option.some.inj hstored
      exact hsettled hopen
  | event | dispatch | extend | operation | root | deadline | cancel | link
  | budget | receipt => exact ⟨reservation, hreservation, hsettled⟩

theorem Changes.settled (h : Changes db next)
    (hdb : Settled operationId metric db) : Settled operationId metric next :=
  h.keep (Settled operationId metric) LedgerWrite.settled (fun h => h) hdb

theorem LedgerDb.Unchanged.settled (h : db.Unchanged next) :
    Settled operationId metric next ↔ Settled operationId metric db := by
  have hsame : next.reservations = db.reservations := by rw [h.rows]
  simp only [Settled, hsame]

/-- An accepted settlement either is the first of its reservation, or repeats
it and changes nothing. -/
theorem settleUsage_accepted {host : LedgerHost} {env : LedgerEnv}
    {input : SettleInput}
    (h : settleUsage host env input db = .ok (answer, next)) :
    Settled input.operationId input.observation.metric next ∧
      ((Settled input.operationId input.observation.metric db ∧
          answer.duplicate = true ∧ db.Unchanged next) ∨
        (¬Settled input.operationId input.observation.metric db ∧
          answer.duplicate = false)) := by
  simp only [settleUsage, rejectIf_bind_eq_ok] at h
  obtain ⟨_, h⟩ := h
  obtain ⟨⟨root, row⟩, locked, hlock, h⟩ := bind_eq_ok.1 h
  have hlocked := lockOperation_unchanged _ _ _ hlock
  have hid := Table.key_of_find? (lockOperation_eq_ok hlock).1
  simp only [verifyLease_bind_eq_ok, get_bind_eq_ok, expect_bind_eq_ok,
    rejectIf_bind_eq_ok] at h
  obtain ⟨_, _, _, reservation, hreservation, budget, _, _, amount, _, h⟩ := h
  rw [hid] at hreservation
  cases hsettled : reservation.settled with
  | some settled =>
    simp only [hsettled, rejectIf_bind_eq_ok, pure_eq_ok,
      Prod.mk.injEq] at h
    obtain ⟨_, rfl, rfl⟩ := h
    have hdone : Settled input.operationId input.observation.metric next :=
      ⟨reservation, hreservation, by simp [hsettled]⟩
    exact ⟨hdone, .inl ⟨hlocked.settled.1 hdone, rfl, hlocked⟩⟩
  | none =>
    simp only [hsettled, settleFirst, rejectIf_bind_eq_ok] at h
    obtain ⟨_, _, h⟩ := h
    obtain ⟨_, settled, hsettle, h⟩ := bind_eq_ok.1 h
    obtain ⟨_, canceled, hcancel, h⟩ := bind_eq_ok.1 h
    obtain ⟨rfl, rfl⟩ := Prod.mk.inj (pure_eq_ok.1 h)
    have hkept : Writes settled next :=
      Keeps.whenever cancelLocked_writes _ _ _ hcancel
    constructor
    · refine hkept.changes.settled ?_
      simp only [settleReservation, get_bind_eq_ok, rejectIf_bind_eq_ok,
        set_bind_eq_ok] at hsettle
      obtain ⟨_, _, rfl⟩ := updateBudget_eq_ok hsettle.2
      have hkey := Table.key_of_find? hreservation
      refine ⟨{ reservation with
        settled := some (amount, input.observation) }, ?_, by simp⟩
      rw [← hkey]
      exact Table.find?_replace_self (hkey ▸ hreservation)
    · refine .inr ⟨?_, rfl⟩
      intro hbefore
      obtain ⟨other, hother, hdone⟩ := hlocked.settled.2 hbefore
      rw [hreservation] at hother
      obtain rfl := Option.some.inj hother
      exact hdone hsettled

/-- The counters of every budget are the totals of its reservations. -/
def Balanced (db : LedgerDb) : Prop :=
  ∀ key budget, db.budgets.find? key = some budget →
    budget.reserved = unsettledTotal db key ∧
      budget.spent = settledTotal db key ∧
      0 ≤ budget.reserved ∧ 0 ≤ budget.spent

/-- The gated budgets of a root are within their capacity. -/
def WithinCapacity (rootRunId : Uuid) (db : LedgerDb) : Prop :=
  ∀ metric budget, db.budgets.find? (rootRunId, metric) = some budget →
    isObservedExecutionMetric metric = false →
    budget.reserved + budget.spent ≤ budget.capacity

/-- A step of the ledger that accepts a call with the answer. -/
def Accepts (host : LedgerHost) (s : LedgerState) (call : LedgerCall)
    (env : LedgerEnv) (answer : LedgerAnswer) (next : LedgerState) : Prop :=
  ledgerStep host s (.call call env) = (next, .ok answer)

theorem Accepts.of_answer {host : LedgerHost} {env : LedgerEnv}
    {answer : LedgerAnswer}
    (h : (ledgerStep host s (.call call env)).2 = .ok answer) :
    Accepts host s call env answer (ledgerStep host s (.call call env)).1 :=
  Prod.ext rfl h

theorem Accepts.run {host : LedgerHost} {next : LedgerState} {env : LedgerEnv}
    {answer : LedgerAnswer} (h : Accepts host s call env answer next) :
    call.run host env s.db = .ok (answer, next.db) := by
  have hrun := ledgerStep_call_eq_ok (congrArg Prod.snd h)
  rw [h] at hrun
  exact hrun

theorem Accepts.created {host : LedgerHost} {next : LedgerState}
    {env : LedgerEnv}
    (h : Accepts host s (.createOperation input) env (.created snapshot) next) :
    Requested input next.db ∧
      ((Requested input s.db ∧ s.db.Unchanged next.db) ∨
        (¬Requested input s.db ∧
          WithinCapacity input.snapshot.binding.task.rootRunId next.db)) := by
  obtain ⟨_, hcreate, _⟩ := map_eq_ok.1 h.run
  exact createOperation_accepted hcreate

theorem Accepts.settled {host : LedgerHost} {next : LedgerState}
    {input : SettleInput} {env : LedgerEnv}
    (h : Accepts host s (.settleUsage input) env (.settled answer) next) :
    Settled input.operationId input.observation.metric next.db ∧
      ((Settled input.operationId input.observation.metric s.db ∧
          answer.duplicate = true ∧ s.db.Unchanged next.db) ∨
        (¬Settled input.operationId input.observation.metric s.db ∧
          answer.duplicate = false)) := by
  obtain ⟨given, hsettle, hgiven⟩ := map_eq_ok.1 h.run
  obtain rfl := LedgerAnswer.settled.inj hgiven
  exact settleUsage_accepted hsettle

theorem ledger_run_changes (host : LedgerHost) (s : LedgerState)
    (actions : List LedgerAction) :
    Changes s.db ((ledgerMachine host).after s actions).db := by
  induction actions generalizing s with
  | nil => exact Relation.ReflTransGen.refl
  | cons action rest ih =>
    exact (ledgerStep_changes host s action).trans
      (ih (ledgerStep host s action).1)

/-- Budget conservation: in every reachable state the counters are the totals
of the reservations; an accepted creation is new and keeps within capacity, or
repeats one that is there and changes nothing; and once a creation or a
settlement was accepted, every later acceptance of it changes nothing. -/
theorem ledger_budget_conserved (host : LedgerHost)
    (actions : List LedgerAction) :
    let s := (ledgerMachine host).after .init actions
    Balanced s.db ∧
    (∀ input env snapshot next,
      Accepts host s (.createOperation input) env (.created snapshot) next →
      (¬Requested input s.db ∧
          WithinCapacity input.snapshot.binding.task.rootRunId next.db) ∨
        (Requested input s.db ∧ s.db.Unchanged next.db)) ∧
    (∀ input env snapshot next more env' snapshot' last,
      Accepts host s (.createOperation input) env (.created snapshot) next →
      Accepts host ((ledgerMachine host).after next more)
        (.createOperation input) env' (.created snapshot') last →
      ((ledgerMachine host).after next more).db.Unchanged last.db) ∧
    ∀ input env answer next more env' answer' last,
      Accepts host s (.settleUsage input) env (.settled answer) next →
      Accepts host ((ledgerMachine host).after next more)
        (.settleUsage input) env' (.settled answer') last →
      answer'.duplicate = true ∧
        ((ledgerMachine host).after next more).db.Unchanged last.db := by
  intro s
  refine ⟨?_, ?_, ?_, ?_⟩
  · intro key budget hbudget
    have hconserved := reachable_conserved host actions
    have hreserved := hconserved.reserved hbudget
    have hspent := hconserved.spent hbudget
    refine ⟨hreserved, hspent, ?_, ?_⟩
    · rw [hreserved]
      exact unsettledTotal_nonneg _ key
    · rw [hspent]
      exact settledTotal_nonneg _ key
  · intro input env snapshot next haccepts
    exact haccepts.created.2.symm
  · intro input env snapshot next more env' snapshot' last hfirst hagain
    have hrequested := (ledger_run_changes host next more).requested
      hfirst.created.1
    rcases hagain.created.2 with ⟨_, hunchanged⟩ | ⟨hnew, _⟩
    · exact hunchanged
    · exact absurd hrequested hnew
  · intro input env answer next more env' answer' last hfirst hagain
    have hsettled := (ledger_run_changes host next more).settled
      hfirst.settled.1
    rcases hagain.settled.2 with ⟨_, hduplicate, hunchanged⟩ | ⟨hnew, _⟩
    · exact ⟨hduplicate, hunchanged⟩
    · exact absurd hsettled hnew

namespace LedgerWitness

/-- The device reports success. -/
def succeeded : LedgerReceipt where
  scope := task.scope
  operationId := 7
  leaseToken := 500
  receiptId := 72
  content :=
    { attempt := planned.binding.attempt
      signal := .outcome ⟨.succeeded, .none, ⟨73, 3, 74⟩⟩
      deviceSequence := none
      evidence := none }

/-- The operation took twice the capacity of its root. -/
def overspent : SettleInput where
  scope := task.scope
  operationId := 7
  leaseToken := 500
  observation :=
    { observationId := 80
      accountingId := 60
      task := task
      source := source
      accountingBoundary := .operation planned.binding.attempt
      aggregation := .selfOnly
      metric := .wallTime
      unit := .milliseconds
      currency := none
      mode := .cumulative
      quality := .measured
      amount := some 20
      state := .settled
      window := ⟨81, 2, 3⟩
      observedAt := 3 }

def settled : List LedgerAction :=
  dispatched ++ [LedgerAction.call (.startOperation (start 70)) (envAt 2),
    .call (.recordReceipt succeeded) (envAt 3),
    .call (.settleUsage overspent) (envAt 4)]

def succeededSnapshot : RuntimeOperationSnapshot :=
  { planned with
    status := .succeeded
    result := some ⟨.succeeded, .none, ⟨73, 3, 74⟩⟩ }

theorem replay_accepted : Accepts host
    ((ledgerMachine host).after .init settled) (.createOperation create)
    (envAt 5) (.created succeededSnapshot)
    ((ledgerMachine host).after .init
      (settled ++ [LedgerAction.call (.createOperation create) (envAt 5)])) := by
  rw [Machine.after_append, Machine.after_cons, Machine.after_nil]
  exact .of_answer (by decide +kernel)

/-- A settlement may spend more than the capacity, and a repeated creation is
still accepted after it. -/
theorem replayed_creation_exceeds_capacity :
    ¬∀ (host : LedgerHost) (actions : List LedgerAction) input env snapshot
      next,
      Accepts host ((ledgerMachine host).after .init actions)
          (.createOperation input) env (.created snapshot) next →
        WithinCapacity input.snapshot.binding.task.rootRunId next.db := by
  intro hclaim
  have hwithin := hclaim host settled create (envAt 5) _ _ replay_accepted
    .wallTime ⟨3, .wallTime, .milliseconds, none, 10, 0, 20, source⟩
    (by decide +kernel) rfl
  simp at hwithin

theorem ledger_budget_conserved_replayed :
    LedgerDb.Unchanged ((ledgerMachine host).after .init settled).db
      ((ledgerMachine host).after .init
        (settled ++ [LedgerAction.call (.createOperation create) (envAt 5)])).db := by
  have hcreate := (ledger_budget_conserved host settled).2.1
  rcases hcreate create (envAt 5) succeededSnapshot _
      replay_accepted with ⟨hnew, _⟩ | ⟨_, hunchanged⟩
  · refine absurd ⟨7, ?_⟩ hnew
    have hsome : (((ledgerMachine host).after .init
        settled).db.operations.find? 7).isSome := by decide
    obtain ⟨row, hrow⟩ := Option.isSome_iff_exists.1 hsome
    have hkey : ∀ row ∈ ((ledgerMachine host).after .init
        settled).db.operations.rows,
        row.snapshot.idempotencyKey = 40 ∧
          row.snapshot.binding.task.scope = task.scope := by
      decide
    obtain ⟨hkey, hscope⟩ := hkey row (Table.mem_of_find? hrow)
    exact ⟨row, hrow, hkey, by rw [hscope]; rfl, by rw [hscope]; rfl⟩
  · exact hunchanged

end LedgerWitness

end Allrice
