/-
What the transactions on approvals may write.  Each of them, when it succeeds,
is one of seven writes; what a write keeps, every run of transactions keeps.
-/
import Allrice.RuntimePolicy

namespace Allrice.RuntimePolicy

open Tx

def Principal.scope (ctx : Principal) : Uuid × Uuid :=
  (ctx.organizationId, ctx.workspaceId)

def ApprovalRow.scope (row : ApprovalRow) : Uuid × Uuid :=
  (row.organizationId, row.workspaceId)

variable {db next : Db} {ctx : Principal} {around : Surroundings}
  {row : ApprovalRow} {binding : Binding} {u : PUnit}
  {operationId approvalId : Uuid} {α : Type} {phase : Phase}
  {controls : Controls} {host : Host}

theorem mem_rowsOf :
    row ∈ rowsOf db ctx operationId ↔ row ∈ db.approvals.rows ∧
      row.scope = ctx.scope ∧ row.resourceId = operationId := by
  simp [rowsOf, ApprovalRow.scope, Principal.scope, and_assoc]

/-- The write of a transaction that succeeds. -/
inductive Written (db : Db) : Db → Prop
  | quiet (clock : Timestamp) (automation : Uuid → Option WorkAutomation)
      (hclock : db.clock ≤ clock) :
      Written db { db with clock := clock, automation := automation }
  | controls (scope : Uuid × Uuid) (controls : Controls)
      (hversion : ∀ old, db.controls scope = some old →
        controls.version = old.version + 1) :
      Written db { db with
        controls := Function.update db.controls scope (some controls) }
  | requested (clock : Timestamp) (row : ApprovalRow)
      (approvals : Table Uuid ApprovalRow ApprovalRow.id)
      (controls : Controls) (hclock : db.clock ≤ clock)
      (hinsert : db.approvals.insert? row = some approvals)
      (hcontrols : db.controls row.scope = some controls)
      (hversion : row.controlVersion = controls.version)
      (hpending : row.status = .pending) (hresponse : row.response = none) :
      Written db { db with clock := clock, approvals := approvals }
  | decided (clock : Timestamp) (row : ApprovalRow)
      (response : ApprovalResponse) (hclock : db.clock ≤ clock)
      (hrow : db.approvals.find? row.id = some row)
      (hpending : row.status = .pending) (hresponse : row.response = none)
      (hactor : response.respondedBy = row.request.respondentId) :
      Written db { db with
        clock := clock
        approvals := db.approvals.replace
          { row with
            status := .decided response.decision
            decidedBy := some row.request.respondentId
            response := some response } }
  | revoked (clock now : Timestamp) (row : ApprovalRow)
      (hclock : db.clock ≤ clock)
      (hrow : db.approvals.find? row.id = some row) :
      Written db { db with
        clock := clock
        approvals := db.approvals.replace { row with revokedAt := some now } }
  | dispatched (clock : Timestamp) (ctx : Principal) (binding : Binding)
      (effect : PolicyEffect) (hclock : db.clock ≤ clock)
      (hrows : rowsOf db ctx binding.operationId = [])
      (heffect : effect = .allow) :
      Written db { db with
        clock := clock
        dispatches := db.dispatches ++
          [⟨ctx.organizationId, ctx.workspaceId, binding.operationId, effect,
            none⟩] }
  | consumed (clock now : Timestamp) (ctx : Principal) (binding : Binding)
      (effect : PolicyEffect) (controls : Controls) (row : ApprovalRow)
      (hclock : db.clock ≤ now) (hnow : now ≤ clock)
      (hrows : rowsOf db ctx binding.operationId = [row])
      (hcontrols : db.controls ctx.scope = some controls)
      (hfit : ¬Unfit row controls binding now)
      (hfirst : row.consumedAt = none) (hexpires : clock < row.expiresAt) :
      Written db { db with
        clock := clock
        approvals := db.approvals.replace { row with consumedAt := some now }
        dispatches := db.dispatches ++
          [⟨ctx.organizationId, ctx.workspaceId, binding.operationId, effect,
            some row.id⟩] }

variable {now policyExpiresAt : Timestamp} {elapsed : Nat} {r : α × Db}
  {admission : Admission} {request : ApprovalRequest}
  {response : ApprovalResponse}

theorem le_elapsed {before : Timestamp} (h : before ≤ now) (elapsed : Nat) :
    before ≤ now + elapsed :=
  h.trans (Int.le_add_of_nonneg_right (Int.natCast_nonneg elapsed))

theorem clockNow_eq_ok {r : Timestamp × Db} :
    clockNow elapsed db = .ok r ↔
      r = (db.clock + elapsed, { db with clock := db.clock + elapsed }) := by
  simp only [clockNow, get_bind_eq_ok, set_bind_eq_ok, pure_eq_ok]

theorem clockNow_bind_eq_ok {rest : Timestamp → PolicyTx α} :
    (clockNow elapsed >>= rest) db = .ok r ↔
      rest (db.clock + elapsed) { db with clock := db.clock + elapsed } =
        .ok r := by
  simp [bind_eq_ok, clockNow_eq_ok]

theorem controlsFor_bind_eq_ok {rest : Controls → PolicyTx α} :
    (controlsFor ctx >>= rest) db = .ok r ↔
      ∃ controls, db.controls ctx.scope = some controls ∧ controls.Valid ∧
        rest controls db = .ok r := by
  simp only [controlsFor, bind_assoc, get_bind_eq_ok, expect_bind_eq_ok,
    rejectIf_bind_eq_ok, pure_bind, not_not, Principal.scope]

/-- The binding is the current one, and only the clock has moved on. -/
theorem checkBinding_ok
    (h : checkBinding ctx around binding db = .ok (policyExpiresAt, next)) :
    around.current = some binding ∧
      ∃ clock, db.clock ≤ clock ∧ next = { db with clock := clock } := by
  simp only [checkBinding, checkBindingAuthority, bind_assoc,
    rejectIf_bind_eq_ok, expect_bind_eq_ok, clockNow_bind_eq_ok, pure_bind,
    pure_eq_ok, not_not] at h
  obtain ⟨_, _, _, _, current, hcurrent, rfl, _, hr⟩ := h
  rw [Prod.mk.injEq] at hr
  obtain ⟨_, rfl⟩ := hr
  exact ⟨hcurrent, _, le_elapsed (le_elapsed le_rfl _) _, rfl⟩

/-- Only a creation records the member's setting. -/
theorem recordAutomation_ok
    (h : recordAutomation phase around operationId db = .ok (u, next)) :
    ∃ automation, next = { db with automation := automation } ∧
      (phase = .dispatch → automation = db.automation) := by
  have hquiet : Except.ok (PUnit.unit, db) =
        (Except.ok (u, next) : Except PolicyError (PUnit × Db)) →
      ∃ automation, next = { db with automation := automation } ∧
        (phase = .dispatch → automation = db.automation) := by
    intro hr
    exact ⟨db.automation, (Prod.mk.inj (Except.ok.inj hr)).2.symm,
      fun _ => rfl⟩
  cases phase with
  | dispatch | heartbeat => exact hquiet h
  | create =>
    unfold recordAutomation at h
    cases hsettings : around.memberAutomation with
    | none =>
      rw [hsettings] at h
      exact hquiet h
    | some settings =>
      rw [hsettings] at h
      simp only [whenever_eq_ok, modify_eq_ok] at h
      rcases h with ⟨_, hr⟩ | ⟨_, hr⟩
      · exact ⟨_, (Prod.mk.inj hr).2, by simp⟩
      · exact ⟨db.automation, (Prod.mk.inj hr).2, fun _ => rfl⟩

theorem head?_of_length_le_one {rows : List α} (h : ¬1 < rows.length) :
    rows = rows.head?.toList := by
  match rows, h with
  | [], _ | [_], _ => rfl
  | _ :: _ :: _, h => simp at h

/-- What a successful admission under a row comes to: it consumes the row at a
dispatch and leaves the tables as they are otherwise. -/
theorem admitApproved_ok {effect : PolicyEffect}
    (h : admitApproved ctx around phase binding controls effect
      policyExpiresAt now row db = .ok (admission, next)) :
    (phase ≠ .dispatch ∧ next = db) ∨
      (phase = .dispatch ∧ admission = .admitted ∧
        ¬Unfit row controls binding now ∧
        matchesRuntimeActionApproval row.request row.response
          ⟨binding.task.scope, binding.task, ctx.actorId, now⟩ binding =
            true ∧
        row.consumedAt = none ∧ ∃ clock, db.clock ≤ clock ∧
          clock < row.expiresAt ∧
          next = { db with
            clock := clock
            approvals := db.approvals.replace
              { row with consumedAt := some now }
            dispatches := db.dispatches ++
              [⟨ctx.organizationId, ctx.workspaceId, binding.operationId,
                effect, some row.id⟩] }) := by
  simp only [admitApproved, ite_eq_ok, throw_eq_ok, pure_eq_ok,
    rejectIf_bind_eq_ok, and_false, or_false] at h
  rcases h with ⟨_, hawaited, hr⟩ | ⟨hfit, hmatches, h⟩
  · left
    rw [Prod.mk.injEq] at hr
    exact ⟨by simp [hawaited.1], hr.2⟩
  · cases phase with
    | create | heartbeat =>
      left
      simp only [rejectIf_bind_eq_ok, pure_eq_ok, Prod.mk.injEq] at h
      exact ⟨by simp, h.2.2⟩
    | dispatch =>
      right
      simp only [recordDispatch, rejectIf_bind_eq_ok, modify_bind_eq_ok,
        clockNow_bind_eq_ok, pure_eq_ok, Prod.mk.injEq, not_not,
        not_le] at h
      obtain ⟨hfirst, _, hexpires, hadmitted, rfl⟩ := h
      exact ⟨rfl, hadmitted, hfit, by simpa using hmatches, hfirst, _,
        le_elapsed le_rfl _, hexpires, rfl⟩

/-- The rows of an operation that a dispatch needs for its effect. -/
def decisionFor (host : Host) (db : Db) (controls : Controls)
    (binding : Binding) : Decision :=
  evaluateRuntimePolicy controls binding host.platformDeniedActions
    (db.automation binding.operationId)

/-- A successful admission dispatches without an approval where the policy
allows the action, or consumes the one approval of the operation; otherwise it
writes no more than the clock and the member's setting. -/
theorem createRuntimePolicyAdmission_ok
    (h : createRuntimePolicyAdmission host ctx around phase binding db =
      .ok (admission, next)) :
    ∃ controls, db.controls ctx.scope = some controls ∧
      around.current = some binding ∧
      ((phase ≠ .dispatch ∧ ∃ clock automation, db.clock ≤ clock ∧
          next = { db with clock := clock, automation := automation }) ∨
        (phase = .dispatch ∧ admission = .admitted ∧
          ((rowsOf db ctx binding.operationId = [] ∧
            (decisionFor host db controls binding).effect = .allow ∧
            ∃ clock, db.clock ≤ clock ∧ next = { db with
              clock := clock
              dispatches := db.dispatches ++
                [⟨ctx.organizationId, ctx.workspaceId, binding.operationId,
                  (decisionFor host db controls binding).effect, none⟩] }) ∨
          ∃ row, rowsOf db ctx binding.operationId = [row] ∧
            row.consumedAt = none ∧ ∃ clock now, db.clock ≤ now ∧
              now ≤ clock ∧ clock < row.expiresAt ∧
              ¬Unfit row controls binding now ∧
              matchesRuntimeActionApproval row.request row.response
                ⟨binding.task.scope, binding.task, ctx.actorId, now⟩ binding =
                  true ∧
              next = { db with
                clock := clock
                approvals := db.approvals.replace
                  { row with consumedAt := some now }
                dispatches := db.dispatches ++
                  [⟨ctx.organizationId, ctx.workspaceId, binding.operationId,
                    (decisionFor host db controls binding).effect,
                    some row.id⟩] }))) := by
  simp only [createRuntimePolicyAdmission, rejectIf_bind_eq_ok] at h
  obtain ⟨_, h⟩ := h
  obtain ⟨_, settled, hadmit, h⟩ := bind_eq_ok.1 h
  simp only [rejectIf_bind_eq_ok, pure_eq_ok, Prod.mk.injEq] at h
  obtain ⟨_, _, rfl, rfl⟩ := h
  simp only [admitUnder, controlsFor_bind_eq_ok, rejectIf_bind_eq_ok] at hadmit
  obtain ⟨controls, hcontrols, _, _, hadmit⟩ := hadmit
  obtain ⟨policyExpiresAt, checked, hcheck, h⟩ := bind_eq_ok.1 hadmit
  obtain ⟨hcurrent, clock, hclock, rfl⟩ := checkBinding_ok hcheck
  simp only [get_bind_eq_ok, rejectIf_bind_eq_ok] at h
  obtain ⟨_, h⟩ := h
  obtain ⟨_, recorded, hrecord, h⟩ := bind_eq_ok.1 h
  obtain ⟨automation, rfl, hsame⟩ := recordAutomation_ok hrecord
  simp only [get_bind_eq_ok, rejectIf_bind_eq_ok, clockNow_bind_eq_ok,
    not_or] at h
  obtain ⟨⟨hlength, _⟩, _, h⟩ := h
  have hrows := head?_of_length_le_one hlength
  refine ⟨controls, hcontrols, hcurrent, ?_⟩
  generalize heffect : Decision.effect (evaluateRuntimePolicy controls binding
    host.platformDeniedActions _) = effect at h
  have hdecision : phase = .dispatch →
      effect = (decisionFor host db controls binding).effect := by
    rintro rfl
    exact heffect.symm
  have hlater : db.clock ≤ clock + around.elapsed 2 := le_elapsed hclock _
  cases hhead : (rowsOf { db with clock := clock, automation := automation }
      ctx binding.operationId).head? with
  | none =>
    rw [hhead] at h hrows
    simp only [ite_eq_ok, bind_eq_ok,
      whenever_eq_ok, recordDispatch, modify_eq_ok, pure_eq_ok,
      throw_eq_ok, Prod.mk.injEq] at h
    rcases h with ⟨hallow, _, _, ⟨hphase, _, rfl⟩ | ⟨hphase, _, rfl⟩, rfl,
      rfl⟩ | ⟨_, ⟨hphase, rfl, rfl⟩ | ⟨_, hfalse⟩⟩
    · right
      rw [← hdecision hphase]
      rw [hsame hphase] at hrows
      exact ⟨hphase, rfl, .inl ⟨hrows, hallow, _, hlater, by
        rw [hsame hphase]⟩⟩
    · left
      exact ⟨hphase, _, _, hlater, rfl⟩
    · left
      exact ⟨by simp [hphase], _, _, hlater, rfl⟩
    · exact hfalse.elim
  | some row =>
    rw [hhead] at h hrows
    rcases admitApproved_ok h with ⟨hphase, rfl⟩ | ⟨hphase, rfl, hfit,
      hmatches, hfirst, completedAt, hcompleted, hexpires, rfl⟩
    · left
      exact ⟨hphase, _, _, hlater, rfl⟩
    · right
      rw [← hdecision hphase]
      rw [hsame hphase] at hrows
      exact ⟨hphase, rfl, .inr ⟨row, hrows, hfirst, _, _, hlater,
        hcompleted, hexpires, hfit, hmatches, by rw [hsame hphase]⟩⟩

theorem requestRuntimeActionApproval_written {ids : NewIds} {lifetimeMs : Nat}
    (h : requestRuntimeActionApproval host ctx around ids binding lifetimeMs
      db = .ok (request, next)) : Written db next := by
  simp only [requestRuntimeActionApproval, rejectIf_bind_eq_ok,
    controlsFor_bind_eq_ok] at h
  obtain ⟨_, _, controls, hcontrols, _, _, h⟩ := h
  obtain ⟨policyExpiresAt, _, hcheck, h⟩ := bind_eq_ok.1 h
  obtain ⟨_, clock, hclock, rfl⟩ := checkBinding_ok hcheck
  simp only [get_bind_eq_ok, rejectIf_bind_eq_ok, not_or] at h
  obtain ⟨_, ⟨hlength, _⟩, h⟩ := h
  have hrows := head?_of_length_le_one hlength
  cases hhead : (rowsOf { db with clock := clock } ctx
      binding.operationId).head? with
  | some existing =>
    rw [hhead] at h
    simp only [rejectIf_bind_eq_ok, pure_eq_ok, Prod.mk.injEq] at h
    obtain ⟨_, _, rfl⟩ := h
    exact .quiet clock db.automation hclock
  | none =>
    rw [hhead] at h
    simp only [clockNow_bind_eq_ok, rejectIf_bind_eq_ok, get_bind_eq_ok,
      expect_bind_eq_ok, set_bind_eq_ok, pure_eq_ok, Prod.mk.injEq] at h
    obtain ⟨_, approvals, hinsert, _, _, _, _, rfl⟩ := h
    exact .requested _ _ approvals controls
      (le_elapsed (le_elapsed hclock _) _) hinsert hcontrols rfl rfl rfl

theorem readApproval_ok (h : readApproval ctx approvalId db = .ok (row, next)) :
    db.approvals.find? approvalId = some row ∧ row.scope = ctx.scope ∧
      row.request.respondentId = ctx.actorId ∧ next = db := by
  simp only [readApproval, get_bind_eq_ok, expect_bind_eq_ok,
    rejectIf_bind_eq_ok, pure_eq_ok, Prod.mk.injEq, not_not] at h
  obtain ⟨_, hrow, hscope, hactor, rfl, rfl⟩ := h
  exact ⟨hrow, Prod.ext hscope.1 hscope.2, hactor, rfl⟩

theorem checkVerdict_ok {verdict : Verdict} {expiry : Option Timestamp}
    (h : checkVerdict ctx around controls row verdict db = .ok (expiry, next)) :
    ∃ clock, db.clock ≤ clock ∧ next = { db with clock := clock } := by
  cases verdict with
  | rejected =>
    simp only [checkVerdict, pure_eq_ok, Prod.mk.injEq] at h
    exact ⟨db.clock, le_rfl, h.2⟩
  | approved =>
    simp only [checkVerdict, checkBindingAuthority, bind_assoc,
      rejectIf_bind_eq_ok, expect_bind_eq_ok, clockNow_bind_eq_ok,
      pure_bind, pure_eq_ok, Prod.mk.injEq] at h
    obtain ⟨_, _, _, _, _, _, _, _, rfl⟩ := h
    exact ⟨_, le_elapsed (le_elapsed le_rfl _) _, rfl⟩

theorem respondedBy_of_matches {context : MatchContext}
    (h : matchesRuntimeInteractionResponse request response context = true) :
    response.respondedBy = request.respondentId := by
  simp only [matchesRuntimeInteractionResponse, Bool.and_eq_true,
    beq_iff_eq] at h
  obtain ⟨⟨⟨⟨⟨⟨⟨_, hrequest⟩, hresponse⟩, _⟩, _⟩, _⟩, _⟩, _⟩ := h
  rw [hrequest, hresponse]

/-- A decision that succeeds either records the first response to the
respondent's own request, or finds the response that it repeats. -/
theorem decideRuntimeActionApproval_ok {submitted : ApprovalResponse}
    (h : decideRuntimeActionApproval ctx around approvalId submitted db =
      .ok (response, next)) :
    ∃ row clock, db.approvals.find? approvalId = some row ∧
      db.clock ≤ clock ∧ response.respondedBy = row.request.respondentId ∧
      ((row.response = some response ∧
          next = { db with clock := clock }) ∨
        (row.response = none ∧ row.status = .pending ∧ next = { db with
          clock := clock
          approvals := db.approvals.replace
            { row with
              status := .decided response.decision
              decidedBy := some row.request.respondentId
              response := some response } })) := by
  simp only [decideRuntimeActionApproval, controlsFor_bind_eq_ok,
    rejectIf_bind_eq_ok] at h
  obtain ⟨controls, _, _, _, h⟩ := h
  obtain ⟨row, read, hread, hrest⟩ := bind_eq_ok.1 h
  obtain ⟨hrow, _, hactor, rfl⟩ := readApproval_ok hread
  simp only [clockNow_bind_eq_ok, rejectIf_bind_eq_ok] at hrest
  obtain ⟨hmatches, _, hrest⟩ := hrest
  refine ⟨row, ?_⟩
  cases hresponse : row.response with
  | some recorded =>
    rw [hresponse] at hrest hmatches
    simp only [rejectIf_bind_eq_ok, pure_eq_ok, Prod.mk.injEq, not_not]
      at hrest
    obtain ⟨hsame, rfl, rfl⟩ := hrest
    exact ⟨_, hrow, le_elapsed le_rfl _,
      respondedBy_of_matches (Bool.eq_true_of_not_eq_false hmatches),
      Or.inl ⟨by rw [hsame], rfl⟩⟩
  | none =>
    rw [hresponse] at hrest hmatches
    simp only [rejectIf_bind_eq_ok, not_not] at hrest
    obtain ⟨hpending, hrest⟩ := hrest
    obtain ⟨expiry, checked, hcheck, hwrite⟩ := bind_eq_ok.1 hrest
    obtain ⟨clock, hclock, rfl⟩ := checkVerdict_ok hcheck
    simp only [modify_bind_eq_ok, clockNow_bind_eq_ok, rejectIf_bind_eq_ok,
      pure_eq_ok, Prod.mk.injEq] at hwrite
    obtain ⟨_, rfl, rfl⟩ := hwrite
    exact ⟨_, hrow, le_elapsed (le_trans (le_elapsed le_rfl _) hclock) _,
      respondedBy_of_matches (Bool.eq_true_of_not_eq_false hmatches),
      Or.inr ⟨rfl, hpending, by rw [hactor]⟩⟩

theorem revokeRuntimeActionApproval_written
    (h : revokeRuntimeActionApproval ctx around approvalId db = .ok (u, next)) :
    Written db next := by
  simp only [revokeRuntimeActionApproval, controlsFor_bind_eq_ok,
    rejectIf_bind_eq_ok] at h
  obtain ⟨_, _, _, _, h⟩ := h
  obtain ⟨row, read, hread, hrest⟩ := bind_eq_ok.1 h
  obtain ⟨hrow, _, _, rfl⟩ := readApproval_ok hread
  simp only [whenever_eq_ok, clockNow_bind_eq_ok, modify_eq_ok,
    Prod.mk.injEq] at hrest
  rcases hrest with ⟨_, _, rfl⟩ | ⟨_, _, rfl⟩
  · exact .revoked _ _ row (le_elapsed le_rfl _)
      (Table.key_of_find? hrow ▸ hrow)
  · exact .quiet _ _ le_rfl

theorem persistPolicy_written {scope : Uuid × Uuid}
    {expectedVersion : Option Nat} {authorized : Bool}
    (hversion : nextVersion expectedVersion = controls.version)
    (h : persistPolicy scope controls expectedVersion authorized db =
      .ok (u, next)) : Written db next := by
  simp only [persistPolicy, get_bind_eq_ok, rejectIf_bind_eq_ok, set_eq_ok,
    Prod.mk.injEq, not_not] at h
  obtain ⟨_, hexpected, _, rfl⟩ := h
  refine .controls scope controls fun old hold => ?_
  rw [hold] at hexpected
  rw [← hversion, ← hexpected]
  rfl

/-- Every transaction that succeeds is one of the writes. -/
theorem transaction_written {action : Action}
    (h : action.transaction host db = .ok (u, next)) : Written db next := by
  cases action with
  | request ctx around ids binding lifetimeMs =>
    obtain ⟨_, _, hrequest, hr⟩ := bind_eq_ok.1 h
    rw [pure_eq_ok, Prod.mk.injEq] at hr
    rw [hr.2]
    exact requestRuntimeActionApproval_written hrequest
  | decide ctx around approvalId submitted =>
    obtain ⟨response, _, hdecide, hr⟩ := bind_eq_ok.1 h
    rw [pure_eq_ok, Prod.mk.injEq] at hr
    rw [hr.2]
    obtain ⟨row, clock, hrow, hclock, hactor, ⟨_, rfl⟩ |
      ⟨hnone, hpending, rfl⟩⟩ := decideRuntimeActionApproval_ok hdecide
    · exact .quiet clock _ hclock
    · exact .decided clock row response hclock
        (Table.key_of_find? hrow ▸ hrow) hpending hnone hactor
  | revoke ctx around approvalId =>
    exact revokeRuntimeActionApproval_written h
  | setControls scope controls expectedVersion authorized =>
    simp only [Action.transaction, setRuntimePolicyControls,
      rejectIf_bind_eq_ok, not_not] at h
    exact persistPolicy_written h.2.1 h.2.2
  | setPlatformControls scope controls expectedVersion reasonGiven authorized =>
    simp only [Action.transaction, setPlatformRuntimePolicyControls,
      rejectIf_bind_eq_ok, not_not] at h
    exact persistPolicy_written h.2.2.1 h.2.2.2.2
  | admission ctx around phase binding =>
    obtain ⟨_, _, hadmission, hr⟩ := bind_eq_ok.1 h
    rw [pure_eq_ok, Prod.mk.injEq] at hr
    rw [hr.2]
    obtain ⟨controls, hcontrols, _, ⟨_, clock, automation, hclock, rfl⟩ |
      ⟨_, _, ⟨hrows, hallow, clock, hclock, rfl⟩ |
        ⟨row, hrows, hfirst, clock, now, hclock, hnow, hexpires, hfit, _,
          rfl⟩⟩⟩ := createRuntimePolicyAdmission_ok hadmission
    · exact .quiet clock automation hclock
    · exact .dispatched clock ctx binding _ hclock hrows hallow
    · exact .consumed clock now ctx binding _ controls row hclock hnow hrows
        hcontrols hfit hfirst hexpires

theorem step_written (host : Host) (db : Db) (action : Action) :
    Written db ((policies host).step db action).1 := by
  simp only [policies]
  cases h : action.transaction host db with
  | error failure => exact .quiet db.clock db.automation le_rfl
  | ok result => exact transaction_written (u := result.1) h

/-- A row keeps what it was requested for; its response, decision, consumption
and revocation stay once they are there. -/
structure RowKept (row next : ApprovalRow) : Prop where
  id : next.id = row.id
  scope : next.scope = row.scope
  resourceId : next.resourceId = row.resourceId
  request : next.request = row.request
  controlVersion : next.controlVersion = row.controlVersion
  expiresAt : next.expiresAt = row.expiresAt
  response : ∀ response, row.response = some response →
    next.response = some response
  decided : ∀ verdict, row.status = .decided verdict →
    next.status = .decided verdict ∧ next.decidedBy = row.decidedBy
  consumed : row.consumedAt ≠ none → next.consumedAt ≠ none
  revoked : row.revokedAt ≠ none → next.revokedAt ≠ none

theorem RowKept.refl (row : ApprovalRow) : RowKept row row := by
  constructor <;> simp

theorem RowKept.trans {first second third : ApprovalRow}
    (h : RowKept first second) (h' : RowKept second third) :
    RowKept first third where
  id := h'.id.trans h.id
  scope := h'.scope.trans h.scope
  resourceId := h'.resourceId.trans h.resourceId
  request := h'.request.trans h.request
  controlVersion := h'.controlVersion.trans h.controlVersion
  expiresAt := h'.expiresAt.trans h.expiresAt
  response response hresponse := h'.response _ (h.response _ hresponse)
  decided verdict hdecided := by
    obtain ⟨hstatus, hby⟩ := h.decided verdict hdecided
    obtain ⟨hstatus', hby'⟩ := h'.decided verdict hstatus
    exact ⟨hstatus', hby'.trans hby⟩
  consumed hconsumed := h'.consumed (h.consumed hconsumed)
  revoked hrevoked := h'.revoked (h.revoked hrevoked)

/-- The clock and the versions of the controls do not go back, and no approval
is lost. -/
structure Kept (db next : Db) : Prop where
  clock : db.clock ≤ next.clock
  controls : ∀ scope old, db.controls scope = some old →
    ∃ new, next.controls scope = some new ∧ old.version ≤ new.version
  rows : ∀ row ∈ db.approvals.rows,
    ∃ new ∈ next.approvals.rows, RowKept row new

theorem Kept.refl (db : Db) : Kept db db where
  clock := le_rfl
  controls _ old h := ⟨old, h, le_rfl⟩
  rows row h := ⟨row, h, .refl row⟩

theorem Kept.trans {first second third : Db} (h : Kept first second)
    (h' : Kept second third) : Kept first third where
  clock := h.clock.trans h'.clock
  controls scope old hold := by
    obtain ⟨middle, hmiddle, hle⟩ := h.controls scope old hold
    obtain ⟨new, hnew, hle'⟩ := h'.controls scope middle hmiddle
    exact ⟨new, hnew, hle.trans hle'⟩
  rows row hrow := by
    obtain ⟨middle, hmiddle, hkept⟩ := h.rows row hrow
    obtain ⟨new, hnew, hkept'⟩ := h'.rows middle hmiddle
    exact ⟨new, hnew, hkept.trans hkept'⟩

/-- An update keeps every row when it keeps the row that it replaces. -/
theorem rows_kept_of_replace {approvals : Table Uuid ApprovalRow ApprovalRow.id}
    {old new : ApprovalRow} (hold : approvals.find? old.id = some old)
    (hkept : RowKept old new) :
    ∀ row ∈ approvals.rows,
      ∃ after ∈ (approvals.replace new).rows, RowKept row after := by
  intro row hrow
  by_cases hid : row.id = new.id
  · refine ⟨new, ?_, ?_⟩
    · rw [Table.mem_replace]
      exact .inr ⟨rfl, by rw [hkept.id, hold]; rfl⟩
    · have hfound := Table.find?_of_mem hrow
      rw [hid, hkept.id, hold] at hfound
      rw [← Option.some.inj hfound]
      exact hkept
  · refine ⟨row, ?_, .refl row⟩
    rw [Table.mem_replace]
    exact .inl ⟨hrow, hid⟩

theorem find?_of_rowsOf (h : rowsOf db ctx operationId = [row]) :
    db.approvals.find? row.id = some row ∧ row.scope = ctx.scope ∧
      row.resourceId = operationId := by
  have hmem : row ∈ rowsOf db ctx operationId := by simp [h]
  rw [mem_rowsOf] at hmem
  exact ⟨Table.find?_of_mem hmem.1, hmem.2⟩

/-- Only the controls take a version, and it is the next one. -/
theorem Written.controls_kept (h : Written db next) :
    ∀ scope old, db.controls scope = some old →
      ∃ new, next.controls scope = some new ∧ old.version ≤ new.version := by
  intro scope old hold
  cases h with
  | controls scope' controls hversion =>
    by_cases hscope : scope = scope'
    · subst hscope
      refine ⟨controls, by simp, ?_⟩
      rw [hversion old hold]
      omega
    · exact ⟨old, by simp [Function.update_of_ne hscope, hold], le_rfl⟩
  | quiet | requested | decided | revoked | dispatched | consumed =>
    exact ⟨old, hold, le_rfl⟩

theorem Written.kept (h : Written db next) : Kept db next where
  controls := h.controls_kept
  clock := by
    cases h with
    | quiet _ _ hclock => exact hclock
    | controls => exact le_rfl
    | requested _ _ _ _ hclock | decided _ _ _ hclock | revoked _ _ _ hclock
    | dispatched _ _ _ _ hclock => exact hclock
    | consumed _ _ _ _ _ _ _ hclock hnow => exact hclock.trans hnow
  rows := by
    cases h with
    | quiet | controls | dispatched =>
      exact fun row hrow => ⟨row, hrow, .refl row⟩
    | requested _ row approvals _ _ hinsert =>
      intro old hold
      refine ⟨old, ?_, .refl old⟩
      rw [(Table.insert?_eq_some hinsert).2]
      exact List.mem_append_left _ hold
    | decided _ row response _ hrow hpending hnone =>
      refine rows_kept_of_replace hrow ?_
      constructor <;> simp [ApprovalRow.scope, hpending, hnone]
    | revoked _ now row _ hrow =>
      refine rows_kept_of_replace hrow ?_
      constructor <;> simp [ApprovalRow.scope]
    | consumed _ now ctx binding effect controls row _ _ hrows =>
      refine rows_kept_of_replace (find?_of_rowsOf hrows).1 ?_
      constructor <;> simp [ApprovalRow.scope]

theorem run_kept (host : Host) (db : Db) (actions : List Action) :
    Kept db ((policies host).after db actions) :=
  Machine.after_rel (fun _ => True) Kept Kept.refl Kept.trans
    (fun _ _ _ => trivial) (fun s action _ => (step_written host s action).kept)
    trivial actions

end Allrice.RuntimePolicy
