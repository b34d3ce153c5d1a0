/-
Who may do what with a resource: one decision for a person who is asking, and
one for work that goes on under a frozen policy.  Both are given values that
their schemas accept.
-/
import Allrice.RuntimeIdentity

namespace Allrice.Authorization

inductive Role
  | admin
  | member
  | viewer
deriving DecidableEq

inductive ResourceAction
  | read
  | write
  | share
  | delete
  | executeJob
  | decideApproval
  | manageSettings
  | useSecret
deriving DecidableEq

inductive Actor
  | user (id : Uuid)
  | service (id : Uuid)
  | worker (id : Uuid)
  | system

inductive Visibility
  | private_
  | workspace
  | organization
deriving DecidableEq

structure ResourceRef where
  type : JsString
  id : Uuid
  organizationId : Uuid
  workspaceId : Option Uuid
  ownerId : Option Uuid
  visibility : Visibility
  archivedAt : Option Int

structure Membership where
  id : Uuid
  userId : Uuid
  organizationId : Uuid
  workspaceId : Option Uuid
  role : Role
  active : Bool

structure RequestContext where
  actor : Actor
  organizationId : Uuid
  workspaceId : Option Uuid
  memberships : List Membership

structure PolicyGrant where
  resourceType : JsString
  action : ResourceAction
  workspaceId : Option Uuid

structure PolicySnapshot where
  organizationId : Uuid
  subjectId : Uuid
  expiresAt : Int
  memberships : List Membership
  grants : List PolicyGrant

structure ExecutionContext where
  organizationId : Uuid
  workspaceId : Option Uuid
  policySnapshot : PolicySnapshot

inductive AuthorizationReason
  | allowedOwner
  | allowedMembership
  | allowedExplicitGrant
  | deniedUnauthenticatedActor
  | deniedTenantMismatch
  | deniedWorkspaceMismatch
  | deniedPrivateResource
  | deniedArchivedResource
  | deniedRole

structure AuthorizationDecision where
  allowed : Bool
  reason : AuthorizationReason

def allow (reason : AuthorizationReason) : AuthorizationDecision :=
  ⟨true, reason⟩

def deny (reason : AuthorizationReason) : AuthorizationDecision :=
  ⟨false, reason⟩

/-- An active membership of this person in this organization. -/
def Membership.isOf (membership : Membership) (actor organizationId : Uuid) :
    Bool :=
  membership.active && membership.userId == actor &&
    membership.organizationId == organizationId

/-- A membership or a grant for all workspaces, or for this one. -/
def covers (workspaceId target : Option Uuid) : Bool :=
  workspaceId.isNone || workspaceId == target

def workspaceMemberships (memberships : List Membership)
    (actor organizationId : Uuid) (workspaceId : Option Uuid) :
    List Membership :=
  (memberships.filter (·.isOf actor organizationId)).filter
    (covers ·.workspaceId workspaceId)

def hasRole (memberships : List Membership) (roles : List Role) : Bool :=
  memberships.any fun membership => roles.contains membership.role

def authorizeResource (resource : ResourceRef) (action : ResourceAction)
    (context : RequestContext) : AuthorizationDecision :=
  match context.actor with
  | .user actor =>
    if resource.organizationId ≠ context.organizationId then
      deny .deniedTenantMismatch
    else if resource.archivedAt.isSome ∧ action ≠ .read then
      deny .deniedArchivedResource
    else if resource.ownerId = some actor then allow .allowedOwner
    else if resource.visibility = .private_ then
      deny .deniedPrivateResource
    else
      let memberships := workspaceMemberships context.memberships actor
        context.organizationId resource.workspaceId
      if resource.workspaceId.isSome ∧ memberships = [] then
        deny .deniedWorkspaceMismatch
      else if action = .read ∧
          hasRole memberships [.admin, .member, .viewer] then
        allow .allowedMembership
      else deny .deniedRole
  | _ => deny .deniedUnauthenticatedActor

/-- The same decision for a person with a session. -/
def authorize (resource : ResourceRef) (action : ResourceAction)
    (context : RequestContext) : AuthorizationDecision :=
  authorizeResource resource action context

def PolicyGrant.permits (grant : PolicyGrant) (resource : ResourceRef)
    (action : ResourceAction) : Bool :=
  grant.action == action && grant.resourceType == resource.type &&
    covers grant.workspaceId resource.workspaceId

def authorizeExecution (resource : ResourceRef) (action : ResourceAction)
    (context : ExecutionContext) (now : Int) : AuthorizationDecision :=
  let policy := context.policySnapshot
  if context.organizationId ≠ policy.organizationId ∨
      policy.organizationId ≠ resource.organizationId then
    deny .deniedTenantMismatch
  else if context.workspaceId.isSome ∧
      resource.workspaceId ≠ context.workspaceId then
    deny .deniedWorkspaceMismatch
  else if policy.expiresAt ≤ now then deny .deniedRole
  else if resource.visibility = .private_ ∧
      resource.ownerId ≠ some policy.subjectId then
    deny .deniedPrivateResource
  else if policy.grants.any (·.permits resource action) then
    allow .allowedExplicitGrant
  else deny .deniedRole

variable {membership : Membership} {action : ResourceAction}

theorem mem_workspaceMemberships {memberships : List Membership}
    {actor organizationId : Uuid} {workspaceId : Option Uuid} :
    membership ∈ workspaceMemberships memberships actor organizationId
        workspaceId ↔
      membership ∈ memberships ∧ membership.isOf actor organizationId = true ∧
        covers membership.workspaceId workspaceId = true := by
  rw [workspaceMemberships, List.mem_filter, List.mem_filter, and_assoc]

/-- Every role may read. -/
theorem hasRole_readers (memberships : List Membership) :
    hasRole memberships [.admin, .member, .viewer] = true ↔
      memberships ≠ [] := by
  rw [hasRole, List.any_eq_true]
  constructor
  · intro h
    obtain ⟨membership, hmem, -⟩ := h
    exact List.ne_nil_of_mem hmem
  · intro h
    obtain ⟨membership, hmem⟩ := List.exists_mem_of_ne_nil _ h
    refine ⟨membership, hmem, ?_⟩
    cases membership.role with
    | admin | member | viewer => rfl

/-- Reading by a membership. -/
structure MayRead (resource : ResourceRef) (action : ResourceAction)
    (context : RequestContext) (actor : Uuid) : Prop where
  read : action = .read
  shared : resource.visibility ≠ .private_
  member : ∃ membership ∈ context.memberships,
    membership.isOf actor context.organizationId = true ∧
      covers membership.workspaceId resource.workspaceId = true

theorem authorizeResource_allowed {resource : ResourceRef}
    {context : RequestContext} :
    (authorizeResource resource action context).allowed = true ↔
      ∃ actor, context.actor = .user actor ∧
        resource.organizationId = context.organizationId ∧
        (resource.archivedAt.isSome → action = .read) ∧
        (resource.ownerId = some actor ∨
          MayRead resource action context actor) := by
  rw [authorizeResource]
  cases hactor : context.actor with
  | user actor =>
    simp only [Actor.user.injEq, exists_eq_left']
    by_cases htenant : resource.organizationId = context.organizationId
    · rw [if_neg (not_not_intro htenant)]
      by_cases harchived : resource.archivedAt.isSome ∧ action ≠ .read
      · rw [if_pos harchived]
        refine iff_of_false (by decide) fun h => ?_
        exact harchived.2 (h.2.1 harchived.1)
      · rw [if_neg harchived]
        have hread : resource.archivedAt.isSome → action = .read :=
          fun hsome => Classical.byContradiction fun hnot =>
            harchived ⟨hsome, hnot⟩
        by_cases howner : resource.ownerId = some actor
        · rw [if_pos howner]
          exact iff_of_true rfl ⟨htenant, hread, .inl howner⟩
        · rw [if_neg howner]
          by_cases hprivate : resource.visibility = .private_
          · rw [if_pos hprivate]
            refine iff_of_false (by decide) fun h => ?_
            exact (h.2.2.resolve_left howner).shared hprivate
          · rw [if_neg hprivate]
            split
            · rename_i hnone
              refine iff_of_false (by decide) fun h => ?_
              obtain ⟨membership, hmem, hof, hcovers⟩ :=
                (h.2.2.resolve_left howner).member
              have hcovering := mem_workspaceMemberships.2
                ⟨hmem, hof, hcovers⟩
              rw [hnone.2] at hcovering
              exact List.not_mem_nil hcovering
            split
            · rename_i hmay
              obtain ⟨membership, hmem⟩ := List.exists_mem_of_ne_nil _
                ((hasRole_readers _).1 hmay.2)
              obtain ⟨hmem, hof, hcovers⟩ := mem_workspaceMemberships.1 hmem
              exact iff_of_true rfl ⟨htenant, hread, .inr
                ⟨hmay.1, hprivate, membership, hmem, hof, hcovers⟩⟩
            · rename_i hmay
              refine iff_of_false (by decide) fun h => ?_
              obtain ⟨hreading, -, membership, hmem, hof, hcovers⟩ :=
                h.2.2.resolve_left howner
              refine hmay ⟨hreading, (hasRole_readers _).2 ?_⟩
              exact List.ne_nil_of_mem
                (mem_workspaceMemberships.2 ⟨hmem, hof, hcovers⟩)
    · rw [if_pos htenant]
      exact iff_of_false (by decide) fun h => htenant h.1
  | service id | worker id | system => simp [deny]

theorem authorizeExecution_allowed {resource : ResourceRef}
    {context : ExecutionContext} {now : Int} :
    (authorizeExecution resource action context now).allowed = true ↔
      (context.organizationId = context.policySnapshot.organizationId ∧
        context.policySnapshot.organizationId = resource.organizationId) ∧
      (context.workspaceId.isSome →
        resource.workspaceId = context.workspaceId) ∧
      now < context.policySnapshot.expiresAt ∧
      (resource.visibility = .private_ →
        resource.ownerId = some context.policySnapshot.subjectId) ∧
      ∃ grant ∈ context.policySnapshot.grants,
        grant.permits resource action = true := by
  simp only [authorizeExecution]
  split
  · rename_i htenant
    refine iff_of_false (by decide) fun h => ?_
    rcases htenant with hcontext | hpolicy
    · exact hcontext h.1.1
    · exact hpolicy h.1.2
  rename_i htenant
  rw [not_or, not_not, not_not] at htenant
  split
  · rename_i hworkspace
    refine iff_of_false (by decide) fun h => ?_
    exact hworkspace.2 (h.2.1 hworkspace.1)
  rename_i hworkspace
  rw [Classical.not_and_iff_not_or_not, Classical.not_not] at hworkspace
  split
  · rename_i hexpired
    refine iff_of_false (by decide) fun h => ?_
    exact Int.not_lt.2 hexpired h.2.2.1
  rename_i hcurrent
  split
  · rename_i hprivate
    refine iff_of_false (by decide) fun h => ?_
    exact hprivate.2 (h.2.2.2.1 hprivate.1)
  rename_i hprivate
  rw [Classical.not_and_iff_not_or_not, Classical.not_not] at hprivate
  split
  · rename_i hgrant
    refine iff_of_true rfl ⟨htenant, ?_, Int.not_le.1 hcurrent, ?_, ?_⟩
    · exact fun hsome => hworkspace.resolve_left (not_not_intro hsome)
    · exact fun hvisible => hprivate.resolve_left (not_not_intro hvisible)
    · exact List.any_eq_true.1 hgrant
  · rename_i hgrant
    refine iff_of_false (by decide) fun h => ?_
    exact hgrant (List.any_eq_true.2 h.2.2.2.2)

/-- Memberships some of which have been removed or deactivated. -/
inductive Reduced : List Membership → List Membership → Prop
  | nil : Reduced [] []
  | removed (membership : Membership) {rest fewer : List Membership}
      (h : Reduced rest fewer) : Reduced (membership :: rest) fewer
  | kept (membership : Membership) {rest fewer : List Membership}
      (h : Reduced rest fewer) :
      Reduced (membership :: rest) (membership :: fewer)
  | deactivated (membership : Membership) {rest fewer : List Membership}
      (h : Reduced rest fewer) :
      Reduced (membership :: rest) ({ membership with active := false } :: fewer)

/-- An active membership that is left was there before. -/
theorem Reduced.mem_active {all fewer : List Membership} (h : Reduced all fewer)
    (hmem : membership ∈ fewer) (hactive : membership.active = true) :
    membership ∈ all := by
  induction h with
  | nil => exact hmem
  | removed _ _ ih => exact List.mem_cons_of_mem _ (ih hmem)
  | kept _ _ ih =>
    rcases List.mem_cons.1 hmem with rfl | hmem
    · exact List.mem_cons_self
    · exact List.mem_cons_of_mem _ (ih hmem)
  | deactivated _ _ ih =>
    rcases List.mem_cons.1 hmem with rfl | hmem
    · cases hactive
    · exact List.mem_cons_of_mem _ (ih hmem)

/-- What both decisions owe to a resource, an action and those who ask. -/
structure Lawful (resource : ResourceRef) (action : ResourceAction)
    (request : RequestContext) (execution : ExecutionContext) (now : Int) :
    Prop where
  tenant : resource.organizationId ≠ request.organizationId →
    (authorize resource action request).allowed = false
  executionTenant : resource.organizationId ≠ execution.organizationId →
    (authorizeExecution resource action execution now).allowed = false
  privately : resource.visibility = .private_ →
    (∀ actor, request.actor = .user actor → resource.ownerId ≠ some actor) →
    (authorize resource action request).allowed = false
  executionPrivately : resource.visibility = .private_ →
    resource.ownerId ≠ some execution.policySnapshot.subjectId →
    (authorizeExecution resource action execution now).allowed = false
  archived : resource.archivedAt.isSome → action ≠ .read →
    (authorize resource action request).allowed = false
  executionArchived : resource.archivedAt.isSome → action ≠ .read →
    (authorizeExecution resource action execution now).allowed = false
  expired : execution.policySnapshot.expiresAt ≤ now →
    (authorizeExecution resource action execution now).allowed = false
  workspace : execution.workspaceId.isSome →
    resource.workspaceId ≠ execution.workspaceId →
    (authorizeExecution resource action execution now).allowed = false
  reader : ∀ actor, request.actor = .user actor →
    resource.ownerId ≠ some actor →
    (authorize resource action request).allowed = true →
    action = .read ∧ ∃ membership ∈ request.memberships,
      membership.active = true ∧ membership.userId = actor ∧
        membership.organizationId = resource.organizationId ∧
        covers membership.workspaceId resource.workspaceId = true
  fewer : ∀ memberships, Reduced request.memberships memberships →
    (authorize resource action request).allowed = false →
    (authorize resource action { request with memberships }).allowed = false
  executionFewer : ∀ memberships grants,
    Reduced execution.policySnapshot.memberships memberships →
    grants.Sublist execution.policySnapshot.grants →
    (authorizeExecution resource action execution now).allowed = false →
    (authorizeExecution resource action
      { execution with
        policySnapshot :=
          { execution.policySnapshot with
            memberships := memberships
            grants := grants } } now).allowed = false

/-- A grant that is in force for more than reading a resource that has been
archived. -/
structure GrantOnArchived (resource : ResourceRef) (action : ResourceAction)
    (execution : ExecutionContext) (now : Int) : Prop where
  archived : resource.archivedAt.isSome
  beyond : action ≠ .read
  tenant : execution.organizationId =
    execution.policySnapshot.organizationId ∧
      execution.policySnapshot.organizationId = resource.organizationId
  workspace : execution.workspaceId.isSome →
    resource.workspaceId = execution.workspaceId
  current : now < execution.policySnapshot.expiresAt
  owner : resource.visibility = .private_ →
    resource.ownerId = some execution.policySnapshot.subjectId
  grant : ∃ grant ∈ execution.policySnapshot.grants,
    grant.permits resource action = true

section

variable {resource : ResourceRef} {action : ResourceAction}
  {request : RequestContext} {execution : ExecutionContext} {now : Int}

theorem MayRead.of_reduced {memberships : List Membership} {actor : Uuid}
    (hreduced : Reduced request.memberships memberships)
    (h : MayRead resource action { request with memberships } actor) :
    MayRead resource action request actor := by
  obtain ⟨hread, hshared, membership, hmem, hof, hcovers⟩ := h
  have hactive : membership.active = true := by
    rw [Membership.isOf, Bool.and_eq_true, Bool.and_eq_true] at hof
    exact hof.1.1
  exact ⟨hread, hshared, membership, hreduced.mem_active hmem hactive, hof,
    hcovers⟩

/-- Background work may go beyond reading a resource that has been archived;
every other law holds always. -/
theorem authorization_laws (resource : ResourceRef) (action : ResourceAction)
    (request : RequestContext) (execution : ExecutionContext) (now : Int) :
    Lawful resource action request execution now ↔
      ¬GrantOnArchived resource action execution now := by
  constructor
  · intro h hgrant
    have hdenied := h.executionArchived hgrant.archived hgrant.beyond
    have hallowed := authorizeExecution_allowed.2 ⟨hgrant.tenant,
      hgrant.workspace, hgrant.current, hgrant.owner, hgrant.grant⟩
    rw [hdenied] at hallowed
    cases hallowed
  · intro hnot
    exact
      { tenant := fun hother => by
          rw [← Bool.not_eq_true, authorize, authorizeResource_allowed]
          intro h
          obtain ⟨actor, -, htenant, -⟩ := h
          exact hother htenant
        executionTenant := fun hother => by
          rw [← Bool.not_eq_true, authorizeExecution_allowed]
          intro h
          exact hother (h.1.1.trans h.1.2).symm
        privately := fun hprivate hother => by
          rw [← Bool.not_eq_true, authorize, authorizeResource_allowed]
          intro h
          obtain ⟨actor, hactor, -, -, howner | hmay⟩ := h
          · exact hother actor hactor howner
          · exact hmay.shared hprivate
        executionPrivately := fun hprivate hother => by
          rw [← Bool.not_eq_true, authorizeExecution_allowed]
          intro h
          exact hother (h.2.2.2.1 hprivate)
        archived := fun hsome haction => by
          rw [← Bool.not_eq_true, authorize, authorizeResource_allowed]
          intro h
          obtain ⟨actor, -, -, hread, -⟩ := h
          exact haction (hread hsome)
        executionArchived := fun hsome haction => by
          rw [← Bool.not_eq_true, authorizeExecution_allowed]
          intro h
          obtain ⟨htenant, hworkspace, hcurrent, howner, hgrant⟩ := h
          exact hnot ⟨hsome, haction, htenant, hworkspace, hcurrent, howner,
            hgrant⟩
        expired := fun hexpired => by
          rw [← Bool.not_eq_true, authorizeExecution_allowed]
          intro h
          exact Int.not_lt.2 hexpired h.2.2.1
        workspace := fun hsome hother => by
          rw [← Bool.not_eq_true, authorizeExecution_allowed]
          intro h
          exact hother (h.2.1 hsome)
        reader := fun actor hactor hother hallowed => by
          rw [authorize, authorizeResource_allowed] at hallowed
          obtain ⟨other, hother', htenant, -, hway⟩ := hallowed
          obtain rfl := Actor.user.inj (hother'.symm.trans hactor)
          obtain ⟨hread, -, membership, hmem, hof, hcovers⟩ :=
            hway.resolve_left hother
          rw [Membership.isOf, Bool.and_eq_true, Bool.and_eq_true,
            beq_iff_eq, beq_iff_eq] at hof
          exact ⟨hread, membership, hmem, hof.1.1, hof.1.2,
            hof.2.trans htenant.symm, hcovers⟩
        fewer := fun memberships hreduced hdenied => by
          rw [← Bool.not_eq_true, authorize, authorizeResource_allowed]
            at hdenied ⊢
          intro h
          obtain ⟨actor, hactor, htenant, hread, hway⟩ := h
          exact hdenied ⟨actor, hactor, htenant, hread,
            hway.imp_right (MayRead.of_reduced hreduced)⟩
        executionFewer := fun memberships grants _ hsublist hdenied => by
          rw [← Bool.not_eq_true, authorizeExecution_allowed] at hdenied ⊢
          intro h
          obtain ⟨htenant, hworkspace, hcurrent, howner, grant, hmem,
            hpermits⟩ := h
          exact hdenied ⟨htenant, hworkspace, hcurrent, howner, grant,
            hsublist.subset hmem, hpermits⟩ }

end

namespace Archived

def notes : JsString := JsString.ofString "memory"

def resource : ResourceRef :=
  ⟨notes, 1, 10, some 20, some 30, .workspace, some 5⟩

def person : RequestContext := ⟨.user 30, 10, some 20, []⟩

def job : ExecutionContext :=
  ⟨10, some 20, ⟨10, 30, 100, [], [⟨notes, .write, some 20⟩]⟩⟩

/-- The owner is refused what the job may do for them. -/
theorem archived_write_not_lawful :
    (authorize resource .write person).allowed = false ∧
      ¬Lawful resource .write person job 50 := by
  refine ⟨by decide, fun h => ?_⟩
  have hdenied := h.executionArchived (by decide) (by decide)
  revert hdenied
  decide

end Archived

end Allrice.Authorization
