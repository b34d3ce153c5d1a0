/-
An approval admits one dispatch of what was approved.  The rows of a reachable
state agree with the controls, the responses and the dispatches; a row that
bars its operation stays and bars it in every later state.
-/
import Allrice.RuntimePolicyRuns

namespace Allrice.RuntimePolicy

open Tx

/-- A row was requested under controls that the workspace had, and only its
respondent has decided it. -/
structure RowSound (db : Db) (row : ApprovalRow) : Prop where
  version : ∃ controls, db.controls row.scope = some controls ∧
    row.controlVersion ≤ controls.version
  decided : ∀ verdict, row.status = .decided verdict →
    row.decidedBy = some row.request.respondentId ∧
      ∃ response, row.response = some response ∧
        response.respondedBy = row.request.respondentId ∧
        response.decision = verdict

structure Sound (db : Db) : Prop where
  rows : ∀ row ∈ db.approvals.rows, RowSound db row
  consumed : ∀ dispatch ∈ db.dispatches, ∀ approvalId,
    dispatch.approval = some approvalId →
      ∃ row, db.approvals.find? approvalId = some row ∧ row.consumedAt ≠ none
  once : (db.dispatches.filterMap Dispatch.approval).Nodup

theorem sound_initial (clock : Timestamp) : Sound (Db.initial clock) where
  rows := by simp [Db.initial, Table.empty]
  consumed := by simp [Db.initial]
  once := by simp [Db.initial]

/-- A row that is kept as it stands stays sound under later controls. -/
theorem RowSound.later {db next : Db} {row : ApprovalRow}
    (h : RowSound db row) (hkept : Kept db next) : RowSound next row where
  version := by
    obtain ⟨old, hold, hle⟩ := h.version
    obtain ⟨new, hnew, hle'⟩ := hkept.controls _ old hold
    exact ⟨new, hnew, hle.trans hle'⟩
  decided := h.decided

theorem rows_sound_of_replace {db next : Db} {row : ApprovalRow}
    (h : Sound db) (hkept : Kept db next)
    (happrovals : next.approvals = db.approvals.replace row)
    (hrow : RowSound db row) :
    ∀ other ∈ next.approvals.rows, RowSound next other := by
  intro other hother
  rw [happrovals, Table.mem_replace] at hother
  rcases hother with ⟨hmem, _⟩ | ⟨rfl, _⟩
  · exact (h.rows other hmem).later hkept
  · exact hrow.later hkept

theorem Written.rows_sound {db next : Db} (h : Written db next)
    (hsound : Sound db) : ∀ row ∈ next.approvals.rows, RowSound next row := by
  have hkept := h.kept
  have hsame : next.approvals = db.approvals →
      ∀ row ∈ next.approvals.rows, RowSound next row := by
    intro happrovals row hrow
    rw [happrovals] at hrow
    exact (hsound.rows row hrow).later hkept
  cases h with
  | quiet | controls | dispatched => exact hsame rfl
  | requested clock row approvals controls hclock hinsert hcontrols hversion
      hpending hnone =>
      intro other hother
      rw [(Table.insert?_eq_some hinsert).2, List.mem_append,
        List.mem_singleton] at hother
      rcases hother with hold | rfl
      · exact (hsound.rows other hold).later hkept
      · exact ⟨⟨controls, hcontrols, hversion.le⟩, by simp [hpending]⟩
  | decided clock row response hclock hrow hpending hnone hactor =>
    have hold := hsound.rows row (Table.mem_of_find? hrow)
    refine rows_sound_of_replace hsound hkept rfl ⟨hold.version, ?_⟩
    intro verdict hverdict
    exact ⟨rfl, response, rfl, hactor, ApprovalStatus.decided.inj hverdict⟩
  | revoked clock now row hclock hrow =>
    have hold := hsound.rows row (Table.mem_of_find? hrow)
    exact rows_sound_of_replace hsound hkept rfl ⟨hold.version, hold.decided⟩
  | consumed clock now ctx binding effect controls row hclock hnow hrows =>
    have hold := hsound.rows row
      (Table.mem_of_find? (find?_of_rowsOf hrows).1)
    exact rows_sound_of_replace hsound hkept rfl ⟨hold.version, hold.decided⟩

theorem kept_consumed {db next : Db} (hkept : Kept db next)
    {approvalId : Uuid} {row : ApprovalRow}
    (hrow : db.approvals.find? approvalId = some row)
    (hconsumed : row.consumedAt ≠ none) :
    ∃ row, next.approvals.find? approvalId = some row ∧
      row.consumedAt ≠ none := by
  obtain ⟨new, hnew, hrowKept⟩ := hkept.rows row (Table.mem_of_find? hrow)
  refine ⟨new, ?_, hrowKept.consumed hconsumed⟩
  rw [Table.find?_eq_some_iff]
  exact ⟨hnew, hrowKept.id.trans (Table.key_of_find? hrow)⟩

/-- An approval that has just been consumed is in no earlier dispatch. -/
theorem Sound.unused {db : Db} (hsound : Sound db) {row : ApprovalRow}
    (hrow : db.approvals.find? row.id = some row)
    (hfirst : row.consumedAt = none) :
    row.id ∉ db.dispatches.filterMap Dispatch.approval := by
  intro hmem
  obtain ⟨dispatch, hdispatch, happroval⟩ := List.mem_filterMap.1 hmem
  obtain ⟨found, hfound, hconsumed⟩ :=
    hsound.consumed dispatch hdispatch _ happroval
  rw [hrow] at hfound
  obtain rfl := Option.some.inj hfound
  exact hconsumed hfirst

theorem Written.sound {db next : Db} (h : Written db next)
    (hsound : Sound db) : Sound next := by
  have hkept := h.kept
  have hrows := h.rows_sound hsound
  have hconsumed : ∀ dispatch ∈ db.dispatches, ∀ approvalId,
      dispatch.approval = some approvalId → ∃ row,
        next.approvals.find? approvalId = some row ∧
          row.consumedAt ≠ none := by
    intro dispatch hdispatch approvalId happroval
    obtain ⟨row, hrow, hrowConsumed⟩ :=
      hsound.consumed dispatch hdispatch approvalId happroval
    exact kept_consumed hkept hrow hrowConsumed
  cases h with
  | quiet | controls | requested | decided | revoked =>
    exact ⟨hrows, hconsumed, hsound.once⟩
  | dispatched =>
    refine ⟨hrows, ?_, by simpa using hsound.once⟩
    intro dispatch hdispatch approvalId happroval
    rcases List.mem_append.1 hdispatch with hold | hnew
    · exact hconsumed dispatch hold approvalId happroval
    · rw [List.mem_singleton] at hnew
      subst hnew
      cases happroval
  | consumed clock now ctx binding effect controls row hclock hnow hrowsOf
      hcontrols hfit hfirst =>
      obtain ⟨hrow, _⟩ := find?_of_rowsOf hrowsOf
      refine ⟨hrows, ?_, ?_⟩
      · intro dispatch hdispatch approvalId happroval
        rcases List.mem_append.1 hdispatch with hold | hnew
        · exact hconsumed dispatch hold approvalId happroval
        · rw [List.mem_singleton] at hnew
          subst hnew
          cases happroval
          exact ⟨_, Table.find?_replace_self hrow, by simp⟩
      · simp only [List.filterMap_append, List.filterMap_cons,
          List.filterMap_nil]
        exact List.nodup_append.2 ⟨hsound.once, by simp, by
          rintro a ha b hb rfl
          rw [List.mem_singleton] at hb
          exact hsound.unused hrow hfirst (hb ▸ ha)⟩

theorem reachable_sound {host : Host} (clock : Timestamp)
    (actions : List Action) :
    Sound ((policies host).after (Db.initial clock) actions) :=
  Machine.after_invariant Sound
    (fun s action hs => (step_written host s action).sound hs)
    (sound_initial clock) actions

/-- The approval was rejected or revoked, has expired, or was requested under
other controls than the current ones. -/
def Barred (db : Db) (row : ApprovalRow) : Prop :=
  row.status = .decided .rejected ∨ row.revokedAt ≠ none ∨
    row.expiresAt ≤ db.clock ∨
    ∃ controls, db.controls row.scope = some controls ∧
      controls.version ≠ row.controlVersion

theorem Barred.later {db next : Db} {row new : ApprovalRow}
    (h : Barred db row) (hsound : RowSound db row) (hkept : Kept db next)
    (hrow : RowKept row new) : Barred next new := by
  rcases h with hrejected | hrevoked | hexpired | ⟨old, hold, hversion⟩
  · exact .inl (hrow.decided _ hrejected).1
  · exact .inr (.inl (hrow.revoked hrevoked))
  · refine .inr (.inr (.inl ?_))
    rw [hrow.expiresAt]
    exact hexpired.trans hkept.clock
  · obtain ⟨controls, hcontrols, hle⟩ := hsound.version
    obtain rfl := Option.some.inj (hold.symm.trans hcontrols)
    obtain ⟨later, hlater, hle'⟩ := hkept.controls _ _ hold
    refine .inr (.inr (.inr ⟨later, hrow.scope ▸ hlater, ?_⟩))
    rw [hrow.controlVersion]
    omega

/-- A barred row is fit for no admission. -/
theorem Barred.unfit {db : Db} {row : ApprovalRow} (h : Barred db row)
    {controls : Controls} (hcontrols : db.controls row.scope = some controls)
    {binding : Binding} {now : Timestamp} (hnow : db.clock ≤ now) :
    Unfit row controls binding now := by
  rcases h with hrejected | hrevoked | hexpired | ⟨old, hold, hversion⟩
  · exact .inr (.inr (.inr (.inl (by simp [hrejected]))))
  · exact .inl hrevoked
  · exact .inr (.inr (.inl (hexpired.trans hnow)))
  · obtain rfl := Option.some.inj (hold.symm.trans hcontrols)
    exact .inr (.inl fun heq => hversion heq.symm)

/-- The dispatches of an operation of a workspace. -/
def dispatchesOf (db : Db) (scope : Uuid × Uuid) (operationId : Uuid) :
    List Dispatch :=
  db.dispatches.filter fun dispatch =>
    (dispatch.organizationId, dispatch.workspaceId) = scope ∧
      dispatch.operationId = operationId

/-- A write dispatches no operation that has a barred row. -/
theorem Written.dispatchesOf_barred {db next : Db} (h : Written db next)
    {row : ApprovalRow} (hrow : row ∈ db.approvals.rows)
    (hbarred : Barred db row) :
    dispatchesOf next row.scope row.resourceId =
      dispatchesOf db row.scope row.resourceId := by
  have hother : ∀ {ctx : Principal} {operationId : Uuid} {dispatch : Dispatch},
      dispatch.organizationId = ctx.organizationId →
      dispatch.workspaceId = ctx.workspaceId →
      dispatch.operationId = operationId →
      row ∉ rowsOf db ctx operationId →
      (db.dispatches ++ [dispatch]).filter (fun dispatch =>
        (dispatch.organizationId, dispatch.workspaceId) = row.scope ∧
          dispatch.operationId = row.resourceId) =
        dispatchesOf db row.scope row.resourceId := by
    intro ctx operationId dispatch horganization hworkspace hoperation hnot
    rw [List.filter_append, List.filter_cons_of_neg, List.filter_nil,
      List.append_nil]
    · rfl
    · simp only [decide_eq_true_eq, not_and]
      intro hscope hresource
      rw [mem_rowsOf] at hnot
      refine hnot ⟨hrow, ?_, hresource.symm.trans hoperation⟩
      rw [← hscope, horganization, hworkspace]
      rfl
  cases h with
  | quiet | controls | requested | decided | revoked => rfl
  | dispatched clock ctx binding effect hclock hrows =>
    exact hother rfl rfl rfl (by simp [hrows])
  | consumed clock now ctx binding effect controls found hclock hnow hrows
      hcontrols hfit =>
      refine hother rfl rfl rfl ?_
      rw [hrows, List.mem_singleton]
      rintro rfl
      have hscope := (find?_of_rowsOf hrows).2.1
      exact hfit (hbarred.unfit (hscope ▸ hcontrols) hclock)

/-- No later transaction dispatches an operation that has a barred row. -/
theorem run_dispatchesOf_barred {host : Host} {db : Db} (hsound : Sound db)
    {row : ApprovalRow} (hrow : row ∈ db.approvals.rows)
    (hbarred : Barred db row) (actions : List Action) :
    dispatchesOf ((policies host).after db actions) row.scope row.resourceId =
      dispatchesOf db row.scope row.resourceId := by
  induction actions generalizing db row with
  | nil => rfl
  | cons action rest ih =>
    have hwritten := step_written host db action
    obtain ⟨new, hnew, hkept⟩ := hwritten.kept.rows row hrow
    have hlater :=
      hbarred.later (hsound.rows row hrow) hwritten.kept hkept
    have hrest := ih (hwritten.sound hsound) hnew hlater
    rw [hkept.scope, hkept.resourceId] at hrest
    rw [Machine.after_cons, hrest]
    exact hwritten.dispatchesOf_barred hrow hbarred

/-- An admission of a binding consumes the one approval of its operation. -/
structure Consumes (db next : Db) (ctx : Principal) (around : Surroundings)
    (binding : Binding) (controls : Controls) (row : ApprovalRow) :
    Prop where
  only : rowsOf db ctx binding.operationId = [row]
  approved : row.status = .decided .approved
  decidedBy : row.decidedBy = some row.request.respondentId
  answered : ∃ response, row.response = some response ∧
    response.decision = .approved ∧
    response.respondedBy = row.request.respondentId
  bound : row.request.binding = binding
  current : around.current = some binding
  unrevoked : row.revokedAt = none
  unexpired : next.clock < row.expiresAt
  version : row.controlVersion = controls.version
  first : row.consumedAt = none
  consumed : ∃ new, next.approvals.find? row.id = some new ∧
    new.consumedAt ≠ none

/-- A dispatch that is admitted is recorded once, without an approval only
where the policy allows the action. -/
theorem dispatch_admitted {host : Host} {ctx : Principal}
    {around : Surroundings} {binding : Binding} {db next : Db}
    {admission : Admission} (hsound : Sound db)
    (h : createRuntimePolicyAdmission host ctx around .dispatch binding db =
      .ok (admission, next)) :
    ∃ controls approval, db.controls ctx.scope = some controls ∧
      next.dispatches = db.dispatches ++
        [⟨ctx.organizationId, ctx.workspaceId, binding.operationId,
          (decisionFor host db controls binding).effect, approval⟩] ∧
      ((decisionFor host db controls binding).effect = .ask →
        ∃ row, approval = some row.id ∧
          Consumes db next ctx around binding controls row) := by
  obtain ⟨controls, hcontrols, hcurrent, ⟨hphase, _⟩ |
    ⟨_, _, ⟨_, hallow, clock, _, rfl⟩ | ⟨row, hrows, hfirst, clock, now,
      hclock, _, hexpires, hfit, _, rfl⟩⟩⟩ :=
    createRuntimePolicyAdmission_ok h
  · exact (hphase rfl).elim
  · refine ⟨controls, none, hcontrols, rfl, ?_⟩
    intro hask
    rw [hallow] at hask
    cases hask
  · refine ⟨controls, some row.id, hcontrols, rfl, fun _ => ⟨row, rfl, ?_⟩⟩
    obtain ⟨hrow, _⟩ := find?_of_rowsOf hrows
    simp only [Unfit, not_or, not_not] at hfit
    obtain ⟨hrevoked, hversion, _, hstatus, hbinding⟩ := hfit
    obtain ⟨hdecidedBy, response, hresponse, hrespondent, hdecision⟩ :=
      (hsound.rows row (Table.mem_of_find? hrow)).decided _ hstatus
    exact
      { only := hrows
        approved := hstatus
        decidedBy := hdecidedBy
        answered := ⟨response, hresponse, hdecision, hrespondent⟩
        bound := hbinding
        current := hcurrent
        unrevoked := hrevoked
        unexpired := hexpires
        version := hversion
        first := hfirst
        consumed := ⟨_, Table.find?_replace_self hrow, by simp⟩ }

/-- Repeating a recorded response moves the clock and nothing else. -/
theorem decide_repeated {ctx : Principal} {around : Surroundings} {db next : Db}
    {row : ApprovalRow} {response submitted answer : ApprovalResponse}
    (hrow : row ∈ db.approvals.rows) (hresponse : row.response = some response)
    (h : decideRuntimeActionApproval ctx around row.id submitted db =
      .ok (answer, next)) :
    answer = response ∧ next = { db with clock := next.clock } := by
  obtain ⟨found, clock, hfound, _, _, ⟨hsame, rfl⟩ | ⟨hnone, _⟩⟩ :=
    decideRuntimeActionApproval_ok h
  · rw [Table.find?_of_mem hrow] at hfound
    obtain rfl := Option.some.inj hfound
    rw [hresponse] at hsame
    exact ⟨(Option.some.inj hsame).symm, rfl⟩
  · rw [Table.find?_of_mem hrow] at hfound
    obtain rfl := Option.some.inj hfound
    rw [hresponse] at hnone
    cases hnone

/-- After any run, a dispatch that is admitted while the policy asks consumes
the one approval of the operation; no approval is consumed twice; a recorded
response stays; and a barred approval ends the dispatches of its operation. -/
theorem approval_admits_one_dispatch (host : Host) (clock : Timestamp)
    (actions : List Action) (db : Db)
    (hdb : db = (policies host).after (Db.initial clock) actions) :
    (∀ ctx around binding admission next,
      createRuntimePolicyAdmission host ctx around .dispatch binding db =
        .ok (admission, next) →
      ∃ controls approval, db.controls ctx.scope = some controls ∧
        next.dispatches = db.dispatches ++
          [⟨ctx.organizationId, ctx.workspaceId, binding.operationId,
            (decisionFor host db controls binding).effect, approval⟩] ∧
        ((decisionFor host db controls binding).effect = .ask →
          ∃ row, approval = some row.id ∧
            Consumes db next ctx around binding controls row)) ∧
    (db.dispatches.filterMap Dispatch.approval).Nodup ∧
    (∀ row ∈ db.approvals.rows, ∀ response, row.response = some response →
      (∀ later, ∃ new ∈ ((policies host).after db later).approvals.rows,
        new.id = row.id ∧ new.response = some response ∧
          ∀ verdict, row.status = .decided verdict →
            new.status = .decided verdict ∧ new.decidedBy = row.decidedBy) ∧
      ∀ ctx around submitted answer next,
        decideRuntimeActionApproval ctx around row.id submitted db =
          .ok (answer, next) →
        answer = response ∧ next = { db with clock := next.clock }) ∧
    ∀ row ∈ db.approvals.rows, Barred db row → ∀ later,
      dispatchesOf ((policies host).after db later) row.scope row.resourceId =
        dispatchesOf db row.scope row.resourceId := by
  have hsound : Sound db := hdb ▸ reachable_sound clock actions
  refine ⟨?_, hsound.once, ?_, ?_⟩
  · intro ctx around binding admission next h
    exact dispatch_admitted hsound h
  · intro row hrow response hresponse
    refine ⟨fun later => ?_, fun ctx around submitted answer next h =>
      decide_repeated hrow hresponse h⟩
    obtain ⟨new, hnew, hkept⟩ := (run_kept host db later).rows row hrow
    exact ⟨new, hnew, hkept.id, hkept.response _ hresponse, hkept.decided⟩
  · intro row hrow hbarred later
    exact run_dispatchesOf_barred hsound hrow hbarred later

namespace RuntimePolicyWitness

def host : Host := ⟨fun binding => binding.inputDigest, []⟩

def ctx : Principal := ⟨9, 1, 2⟩

def binding : Binding :=
  { task := ⟨⟨1, 2, none⟩, none, 5, 5, none, ⟨none, 11⟩⟩
    attempt := ⟨7, 71, 1, 0, 1⟩
    requestedBy := ⟨.user, 9⟩
    execution := ⟨31, .cloudSandbox, none, 32, 1, 33, ⟨34, .cloudCopy⟩⟩
    action := "cloud.process.execute"
    inputDigest := 41
    command := none
    policySnapshotId := 51
    policyDigest := 52
    dataScope := []
    baseline := [] }

def around : Surroundings :=
  { identityHolds := true
    authority := some 1000000
    current := some binding
    locks := true
    finalHolds := true
    localMcpHolds := true
    memberAutomation := none
    operationInserted := true
    elapsed := fun _ => 10
    commits := true }

def controls : Controls :=
  ⟨1, true, .execute, [⟨"cloud.process.execute", .ask⟩]⟩

def response : ApprovalResponse :=
  ⟨61, 1, 41, binding.task, 63, 9, 0, 62, .approved⟩

/-- The controls are set, an approval is requested, and its respondent approves
it. -/
def actions : List Action :=
  [.setControls (1, 2) controls none true,
    .request ctx around ⟨61, 62⟩ binding 60000,
    .decide ctx around 62 response]

def approved : Db := (policies host).after (Db.initial 1000) actions

def dispatched : Db :=
  ((policies host).step approved (.admission ctx around .dispatch binding)).1

theorem approval_admits_one_dispatch_asked :
    dispatched.dispatches = [⟨1, 2, 7, .ask, some 62⟩] ∧
      ∃ controls approval, approved.controls ctx.scope = some controls ∧
        dispatched.dispatches = approved.dispatches ++
          [⟨1, 2, 7, (decisionFor host approved controls binding).effect,
            approval⟩] ∧
        ((decisionFor host approved controls binding).effect = .ask →
          ∃ row, approval = some row.id ∧
            Consumes approved dispatched ctx around binding controls row) :=
  ⟨by decide, (approval_admits_one_dispatch host 1000 actions approved
    rfl).1 ctx around binding .admitted dispatched rfl⟩

end RuntimePolicyWitness

end Allrice.RuntimePolicy
