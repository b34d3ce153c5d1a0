/-
Runs of the root session: what a shutdown, a close and a failed close leave for
all that comes after them.
-/
import Allrice.SdkRootSafety

namespace Allrice.SdkRoot

/-- The recovery `op` was there before the last close. -/
structure Overtaken (op : Nat) (s : State) : Prop where
  known : op < s.next
  recovering : ∀ recovering, s.recovering = some recovering →
    recovering.op = op → recovering.epoch < s.epoch
  opening : ∀ opening, s.opening = some opening → opening.owner = some op →
    opening.epoch < s.epoch

variable {s : State} {op : Nat} {action : Action}

theorem Overtaken.ensureRoot (h : Overtaken op s) (sessionId : JsString)
    (resumeOnly : Bool) (owner : Option Nat) (published : Bool)
    (howner : owner ≠ some op) :
    Overtaken op (ensureRoot s sessionId resumeOnly owner published).1 := by
  obtain ⟨h1, h2, h3⟩ := h
  unfold SdkRoot.ensureRoot
  constructor <;> grind -linarith -ring

theorem Overtaken.closeRoot (h : Overtaken op s) (sessionId : Option JsString) :
    Overtaken op (closeRoot s sessionId).1 := by
  obtain ⟨h1, h2, h3⟩ := h
  unfold SdkRoot.closeRoot
  constructor <;> grind -linarith -ring

theorem Overtaken.recoverRoot (h : Overtaken op s) (sessionId : JsString) :
    Overtaken op (recoverRoot s sessionId).1 := by
  have hrecovering : ∀ {t : State}, Overtaken op t → ∀ preceding,
      Overtaken op
        { t with
          recovering := some
            ⟨t.next, t.epoch, sessionId, .preceding preceding⟩
          next := t.next + 1 } := by
    rintro t ⟨h1, h2, h3⟩ preceding
    constructor <;> grind -linarith -ring
  have hroot : Overtaken op { s with rootId := some sessionId } := by
    obtain ⟨h1, h2, h3⟩ := h
    constructor <;> assumption
  unfold SdkRoot.recoverRoot
  split
  · exact h
  · split
    · exact h
    · split
      · exact h
      · split
        · exact h
        · dsimp only
          split
          · exact hrecovering hroot none
          · exact hrecovering (hroot.closeRoot (some sessionId)) _

theorem Overtaken.recoverInitialized (h : Overtaken op s)
    (succeeded published : Bool) :
    Overtaken op (recoverInitialized s succeeded published).1 := by
  unfold SdkRoot.recoverInitialized
  split
  · rename_i recovering hrecovering
    have hsettled : ∀ {t : State} {stage}, Overtaken op t →
        (recovering.op = op → recovering.epoch < t.epoch) →
        Overtaken op (t.settleRecovery recovering stage) := by
      rintro t stage ⟨h1, h2, h3⟩ hself
      unfold State.settleRecovery
      constructor <;> grind -linarith -ring
    split
    · split
      · exact hsettled h (h.recovering recovering hrecovering)
      · rename_i hcurrent
        have hother : some recovering.op ≠ some op := by
          intro hself
          have hepoch := h.recovering recovering hrecovering
            (Option.some.inj hself)
          apply hcurrent
          omega
        have hidle : Overtaken op { s with phase := .idle } := by
          obtain ⟨h1, h2, h3⟩ := h
          constructor <;> assumption
        have hensure := hidle.ensureRoot recovering.sessionId true
          (some recovering.op) published hother
        have hnotSelf : recovering.op = op → False :=
          fun hself => hother (congrArg some hself)
        split <;> rename_i heq <;> rw [heq] at hensure <;>
          exact hsettled hensure fun hself => (hnotSelf hself).elim
    · exact h
  · exact h

theorem Overtaken.step (h : Overtaken op s) (action : Action) :
    Overtaken op (step s action).1 := by
  cases action with
  | ensureRoot sessionId resumeOnly published =>
    exact h.ensureRoot sessionId resumeOnly none published (by simp)
  | closeRoot sessionId => exact h.closeRoot (some sessionId)
  | recoverRoot sessionId => exact h.recoverRoot sessionId
  | recoverInitialized succeeded published =>
    exact h.recoverInitialized succeeded published
  | shutdown =>
    have hterminated : Overtaken op { s with terminated := true } := by
      obtain ⟨h1, h2, h3⟩ := h
      constructor <;> assumption
    exact hterminated.closeRoot s.rootId
  | opened =>
    obtain ⟨h1, h2, h3⟩ := h
    rw [SdkRoot.step]
    unfold SdkRoot.opened
    split
    · rename_i opening hopening
      split
      · rename_i record hstage
        cases hrecovering : s.recovering with
        | none => constructor <;> grind -linarith -ring
        | some recovering =>
          obtain ⟨hop, hepoch, _⟩ :=
            informed_fields recovering opening.op record.isSome
          constructor <;> grind -linarith -ring
      · constructor <;> assumption
    · constructor <;> assumption
  | world world =>
    obtain ⟨h1, h2, h3⟩ := h
    constructor <;> assumption
  | requireRoot sessionId =>
    rw [SdkRoot.step]
    split <;> exact h
  | initializeSdk =>
    obtain ⟨h1, h2, h3⟩ := h
    constructor <;>
      grind -linarith -ring [SdkRoot.step, SdkRoot.initializeSdk]
  | resolvedPath call succeeded =>
    obtain ⟨h1, h2, h3⟩ := h
    constructor <;> grind -linarith -ring [SdkRoot.step, SdkRoot.resolvedPath]
  | initialized succeeded =>
    obtain ⟨h1, h2, h3⟩ := h
    constructor <;> grind -linarith -ring [SdkRoot.step, SdkRoot.initialized]
  | read stored =>
    obtain ⟨h1, h2, h3⟩ := h
    constructor <;>
      grind -linarith -ring [SdkRoot.step, SdkRoot.read, State.settleOpening]
  | resumed succeeded published =>
    obtain ⟨h1, h2, h3⟩ := h
    constructor <;>
      grind -linarith -ring [SdkRoot.step, SdkRoot.resumed,
        State.settleOpening]
  | closeOn =>
    obtain ⟨h1, h2, h3⟩ := h
    constructor <;> grind -linarith -ring [SdkRoot.step, SdkRoot.closeOn]
  | worked succeeded =>
    obtain ⟨h1, h2, h3⟩ := h
    constructor <;> grind -linarith -ring [SdkRoot.step, SdkRoot.worked]
  | closed =>
    obtain ⟨h1, h2, h3⟩ := h
    constructor <;> grind -linarith -ring [SdkRoot.step, SdkRoot.closed]
  | recoverOn =>
    obtain ⟨h1, h2, h3⟩ := h
    constructor <;>
      grind -linarith -ring [SdkRoot.step, SdkRoot.recoverOn,
        State.settleRecovery]
  | recoverEnsured =>
    obtain ⟨h1, h2, h3⟩ := h
    constructor <;>
      grind -linarith -ring [SdkRoot.step, SdkRoot.recoverEnsured,
        State.settleRecovery]
  | recoverShut succeeded =>
    obtain ⟨h1, h2, h3⟩ := h
    constructor <;>
      grind -linarith -ring [SdkRoot.step, SdkRoot.recoverShut,
        State.settleRecovery]
  | recovered =>
    obtain ⟨h1, h2, h3⟩ := h
    constructor <;> grind -linarith -ring [SdkRoot.step, SdkRoot.recovered]

theorem resumed_ready {succeeded published : Bool} {recovery : Option Nat}
    (h : (resumed s succeeded published).2 = .ready recovery) :
    ∃ opening, s.opening = some opening ∧ opening.owner = recovery ∧
      opening.epoch = s.epoch := by
  unfold resumed at h
  grind -linarith -ring [Opening.current]

/-- The steps that give the answers on which the lifecycle turns. -/
def Answer.GivenBy (answer : Answer) (action : Action) : Prop :=
  match answer with
  | .ready _ => ∃ succeeded published, action = .resumed succeeded published
  | .rejected _ => action = .closed
  | .created _ _ => action = .recoverOn
  | _ => True

theorem step_given (s : State) (action : Action) :
    (step s action).2.GivenBy action := by
  cases action with
  | resumed succeeded published =>
    grind -linarith -ring [step, resumed, Answer.GivenBy]
  | closed => grind -linarith -ring [step, closed, Answer.GivenBy]
  | recoverOn => grind -linarith -ring [step, recoverOn, Answer.GivenBy]
  | world world => trivial
  | initializeSdk =>
    grind -linarith -ring [step, initializeSdk, Answer.GivenBy]
  | resolvedPath call succeeded =>
    grind -linarith -ring [step, resolvedPath, Answer.GivenBy]
  | initialized succeeded =>
    grind -linarith -ring [step, initialized, Answer.GivenBy]
  | ensureRoot sessionId resumeOnly published =>
    grind -linarith -ring [step, ensureRoot, Answer.GivenBy]
  | read stored => grind -linarith -ring [step, read, Answer.GivenBy]
  | opened => grind -linarith -ring [step, opened, Answer.GivenBy]
  | closeRoot sessionId =>
    grind -linarith -ring [step, closeRoot, Answer.GivenBy]
  | closeOn => grind -linarith -ring [step, closeOn, Answer.GivenBy]
  | worked succeeded => grind -linarith -ring [step, worked, Answer.GivenBy]
  | recoverRoot sessionId =>
    grind -linarith -ring [step, recoverRoot, Answer.GivenBy]
  | recoverInitialized succeeded published =>
    grind -linarith -ring [step, recoverInitialized, Answer.GivenBy]
  | recoverEnsured =>
    grind -linarith -ring [step, recoverEnsured, Answer.GivenBy]
  | recoverShut succeeded =>
    grind -linarith -ring [step, recoverShut, Answer.GivenBy]
  | recovered => grind -linarith -ring [step, recovered, Answer.GivenBy]
  | shutdown => grind -linarith -ring [step, closeRoot, Answer.GivenBy]
  | requireRoot sessionId => grind -linarith -ring [step, Answer.GivenBy]

/-- Only an opening that resumes makes a root ready. -/
theorem step_ready {recovery : Option Nat}
    (h : (step s action).2 = .ready recovery) :
    ∃ opening, s.opening = some opening ∧ opening.owner = recovery ∧
      opening.epoch = s.epoch := by
  have hgiven := step_given s action
  rw [h] at hgiven
  obtain ⟨succeeded, published, rfl⟩ := hgiven
  exact resumed_ready h

theorem Overtaken.not_ready (h : Overtaken op s) (actions : List Action) :
    ∀ e ∈ sdkRoot.events s actions, e.2 ≠ .ready (some op) := by
  refine @Machine.events_avoid _ _ _ sdkRoot _ (fun _ => True) (Overtaken op)
    (fun e => e.2 = .ready (some op)) (fun _ _ _ => trivial)
    (fun t action _ ht => ht.step action) ?_ trivial h actions
  intro t action _ ht hready
  obtain ⟨opening, hopening, howner, hepoch⟩ := step_ready hready
  have hless := ht.opening opening hopening howner
  omega

/-- A close that is taken up overtakes the recovery that is pending. -/
theorem closeRoot_overtakes (h : Kept s) {sessionId : Option JsString}
    {recovering : Recovering} (hrecovering : s.recovering = some recovering)
    (htaken : (closeRoot s sessionId).2 ≠ .refused) :
    Overtaken recovering.op (closeRoot s sessionId).1 := by
  obtain ⟨hepoch, hop, _⟩ := h.recoveringEpoch recovering hrecovering
  have hopening := h.openingEpoch
  unfold closeRoot at htaken ⊢
  split at htaken
  · exact absurd rfl htaken
  · rename_i hid
    rw [if_neg hid, if_neg (by simp [hrecovering])]
    constructor <;> grind -linarith -ring

/-- The close `op` failed, and the root stays failed. -/
structure CloseFailed (op : Nat) (s : State) : Prop where
  phase : s.phase = .failed
  closing : ∃ closing, s.closing = some closing ∧ closing.op = op ∧
    closing.stage = .finished false

theorem CloseFailed.step (h : CloseFailed op s) (action : Action) :
    CloseFailed op (step s action).1 := by
  obtain ⟨hphase, closing, hclosing, hop, hstage⟩ := h
  have hkeep : ∀ {t : State}, t.phase = .failed → t.closing = some closing →
      CloseFailed op t :=
    fun hphase hclosing => ⟨hphase, closing, hclosing, hop, hstage⟩
  cases action with
  | world world => exact hkeep hphase hclosing
  | initializeSdk =>
    apply hkeep <;> grind -linarith -ring [SdkRoot.step, initializeSdk]
  | resolvedPath call succeeded =>
    apply hkeep <;> grind -linarith -ring [SdkRoot.step, resolvedPath]
  | initialized succeeded =>
    apply hkeep <;> grind -linarith -ring [SdkRoot.step, initialized]
  | ensureRoot sessionId resumeOnly published =>
    apply hkeep <;> grind -linarith -ring [SdkRoot.step, ensureRoot]
  | read stored =>
    apply hkeep <;>
      grind -linarith -ring [SdkRoot.step, read, State.settleOpening]
  | resumed succeeded published =>
    apply hkeep <;>
      grind -linarith -ring [SdkRoot.step, resumed, State.settleOpening,
        Opening.current]
  | opened => apply hkeep <;> grind -linarith -ring [SdkRoot.step, opened]
  | closeRoot sessionId =>
    apply hkeep <;> grind -linarith -ring [SdkRoot.step, closeRoot]
  | closeOn => apply hkeep <;> grind -linarith -ring [SdkRoot.step, closeOn]
  | worked succeeded =>
    apply hkeep <;> grind -linarith -ring [SdkRoot.step, worked]
  | closed => apply hkeep <;> grind -linarith -ring [SdkRoot.step, closed]
  | recoverRoot sessionId =>
    apply hkeep <;> grind -linarith -ring [SdkRoot.step, recoverRoot]
  | recoverOn =>
    apply hkeep <;>
      grind -linarith -ring [SdkRoot.step, recoverOn, State.settleRecovery]
  | recoverInitialized succeeded published =>
    apply hkeep <;>
      grind -linarith -ring [SdkRoot.step, recoverInitialized,
        State.settleRecovery]
  | recoverEnsured =>
    apply hkeep <;>
      grind -linarith -ring [SdkRoot.step, recoverEnsured,
        State.settleRecovery]
  | recoverShut succeeded =>
    apply hkeep <;>
      grind -linarith -ring [SdkRoot.step, recoverShut, State.settleRecovery]
  | recovered => apply hkeep <;> grind -linarith -ring [SdkRoot.step, recovered]
  | shutdown => apply hkeep <;> grind -linarith -ring [SdkRoot.step, closeRoot]
  | requireRoot sessionId =>
    apply hkeep <;> grind -linarith -ring [SdkRoot.step]

theorem step_rejected (h : (step s action).2 = .rejected op) :
    CloseFailed op (step s action).1 := by
  have hgiven := step_given s action
  rw [h] at hgiven
  cases hgiven
  rw [step] at h ⊢
  unfold closed at h ⊢
  grind -linarith -ring [CloseFailed]

/-- What every later call learns of a close that failed. -/
structure StaysFailed (op : Nat) (s : State) : Prop where
  ensureRoot : ∀ sessionId resumeOnly published,
    (step s (.ensureRoot sessionId resumeOnly published)).2 = .refused
  recoverRoot : ∀ sessionId,
    (step s (.recoverRoot sessionId)).2 = .refused
  closeRoot : ∀ sessionId, s.rootId.all (· = sessionId) →
    (step s (.closeRoot sessionId)).2 = .joined op
  shutdown : (step s .shutdown).2 = .joined op

theorem CloseFailed.stays (h : CloseFailed op s) : StaysFailed op s := by
  obtain ⟨hphase, closing, hclosing, hop, hstage⟩ := h
  constructor
  · intro sessionId resumeOnly published
    grind -linarith -ring [SdkRoot.step, SdkRoot.ensureRoot]
  · intro sessionId
    grind -linarith -ring [SdkRoot.step, SdkRoot.recoverRoot]
  · intro sessionId hid
    rw [SdkRoot.step, SdkRoot.closeRoot, if_neg, if_neg (by simp [hphase])]
    · simp [hclosing, hop]
    · cases hroot : s.rootId with
      | none => simp
      | some rootId =>
        rw [hroot] at hid
        simpa using hid
  · rw [SdkRoot.step, SdkRoot.closeRoot, if_neg, if_neg (by simp [hphase])]
    · simp [hclosing, hop]
    · cases s.rootId <;> simp

inductive Promise where
  | initializing (op : Nat)
  | opening (op : Nat)
  | closing (op : Nat)
  | recovering (op : Nat)

/-- One promise goes on only after the other. -/
inductive WaitsOn (s : State) : Promise → Promise → Prop
  | closeInitializing {closing : Closing} {op : Nat}
      (closes : s.closing = some closing)
      (stage : closing.stage = .initializing (some op)) :
      WaitsOn s (.closing closing.op) (.initializing op)
  | closeOpening {closing : Closing} {op : Nat}
      (closes : s.closing = some closing)
      (stage : closing.stage = .opening (some op)) :
      WaitsOn s (.closing closing.op) (.opening op)
  | closeRecovering {closing : Closing} {op : Nat}
      (closes : s.closing = some closing)
      (recovery : closing.recovery = some op) :
      WaitsOn s (.closing closing.op) (.recovering op)
  | recoverClosing {recovering : Recovering} {op : Nat}
      (recovers : s.recovering = some recovering)
      (stage : recovering.stage = .preceding (some op)) :
      WaitsOn s (.recovering recovering.op) (.closing op)
  | recoverOpening {recovering : Recovering} {sdk op : Nat}
      (recovers : s.recovering = some recovering)
      (stage : recovering.stage = .ensuring sdk op) :
      WaitsOn s (.recovering recovering.op) (.opening op)

/-- Closes and recoveries wait for older ones. -/
def Promise.age : Promise → Nat
  | .closing op => op
  | .recovering op => op
  | _ => 0

theorem WaitsOn.older (h : Kept s) {first second : Promise}
    (hwaits : WaitsOn s first second) : second.age < first.age := by
  cases hwaits with
  | closeInitializing closes _ | closeOpening closes _ =>
    exact (h.closingOp _ closes).2
  | closeRecovering closes recovery => exact h.closesLater _ closes _ recovery
  | recoverClosing recovers stage => exact h.recoversLater _ recovers _ stage
  | recoverOpening recovers _ => exact (h.recoveringEpoch _ recovers).2.2

theorem no_circle (h : Kept s) (promise : Promise) :
    ¬Relation.TransGen (WaitsOn s) promise promise := by
  have holder : ∀ {first second : Promise},
      Relation.TransGen (WaitsOn s) first second →
        second.age < first.age := by
    intro first second hwaits
    induction hwaits with
    | single hwait => exact hwait.older h
    | tail _ hwait ih => exact Nat.lt_trans (hwait.older h) ih
  intro hcircle
  exact Nat.lt_irrefl _ (holder hcircle)

theorem step_terminated (h : s.terminated = true) (action : Action) :
    (step s action).1.terminated = true := by
  cases action with
  | world world => exact h
  | initializeSdk => grind -linarith -ring [step, initializeSdk]
  | resolvedPath call succeeded => grind -linarith -ring [step, resolvedPath]
  | initialized succeeded => grind -linarith -ring [step, initialized]
  | ensureRoot sessionId resumeOnly published =>
    grind -linarith -ring [step, ensureRoot]
  | read stored => grind -linarith -ring [step, read, State.settleOpening]
  | resumed succeeded published =>
    grind -linarith -ring [step, resumed, State.settleOpening]
  | opened => grind -linarith -ring [step, opened]
  | closeRoot sessionId => grind -linarith -ring [step, closeRoot]
  | closeOn => grind -linarith -ring [step, closeOn]
  | worked succeeded => grind -linarith -ring [step, worked]
  | closed => grind -linarith -ring [step, closed]
  | recoverRoot sessionId =>
    grind -linarith -ring [step, recoverRoot, closeRoot]
  | recoverOn => grind -linarith -ring [step, recoverOn, State.settleRecovery]
  | recoverInitialized succeeded published =>
    grind -linarith -ring [step, recoverInitialized, State.settleRecovery,
      ensureRoot]
  | recoverEnsured =>
    grind -linarith -ring [step, recoverEnsured, State.settleRecovery]
  | recoverShut succeeded =>
    grind -linarith -ring [step, recoverShut, State.settleRecovery]
  | recovered => grind -linarith -ring [step, recovered]
  | shutdown => grind -linarith -ring [step, closeRoot]
  | requireRoot sessionId => grind -linarith -ring [step]

theorem shutdown_terminates (s : State) :
    (step s .shutdown).1.terminated = true := by
  grind -linarith -ring [step, closeRoot]

theorem not_current (h : s.terminated = true) (record : RootRecord)
    (sessionId : JsString) : s.isRootCurrent record sessionId = false := by
  simp [State.isRootCurrent, h]

/-- A new SDK takes the place of one that was shut down. -/
theorem step_created (h : Kept s) {sdk before : Nat}
    (hcreated : (step s action).2 = .created sdk before) :
    before = s.sdk ∧ (step s action).1.sdk = sdk ∧ before ∈ s.shut := by
  have hshut := h.closedShut
  have hgiven := step_given s action
  rw [hcreated] at hgiven
  cases hgiven
  grind -linarith -ring [step, recoverOn, State.settleRecovery]

/-- The root that is asked for is live, and of this epoch. -/
theorem requireRoot_spec {sessionId : JsString} {record : RootRecord}
    (h : s.requireRoot sessionId = some record) :
    s.isRootCurrent record sessionId = true ∧ record.epoch = s.epoch ∧
      s.world.agents sessionId = some record.agent ∧
        s.world.sessions sessionId = some record.agent.session := by
  unfold State.requireRoot at h
  split at h
  · cases h
  · obtain ⟨_, hcurrent⟩ := Option.filter_eq_some_iff.mp h
    have hfields := hcurrent
    simp only [State.isRootCurrent, Bool.and_eq_true, beq_iff_eq] at hfields
    obtain ⟨⟨⟨_, hepoch⟩, hagent⟩, hsession⟩ := hfields
    exact ⟨hcurrent, hepoch, hagent, hsession⟩

/-- A close is asked for. -/
def Action.Closes : Action → Prop
  | .closeRoot _ => True
  | .shutdown => True
  | _ => False

/-- What a step from a reachable state keeps to, and what comes later with
it. -/
structure Lifecycle (s : State) (action : Action) (later : List Action) :
    Prop where
  staysDown : action = .shutdown → ∀ record sessionId,
    (sdkRoot.after (step s action).1 later).isRootCurrent record sessionId =
      false
  replaces : ∀ sdk before, (step s action).2 = .created sdk before →
    before = s.sdk ∧ (step s action).1.sdk = sdk ∧ before ∈ s.shut
  overtakes : ∀ recovering, s.recovering = some recovering →
    action.Closes → (step s action).2 ≠ .refused →
      ∀ e ∈ sdkRoot.events (step s action).1 later,
        e.2 ≠ .ready (some recovering.op)
  fails : ∀ op, (step s action).2 = .rejected op →
    StaysFailed op (sdkRoot.after (step s action).1 later)
  requires : ∀ sessionId record, s.requireRoot sessionId = some record →
    s.isRootCurrent record sessionId = true ∧ record.epoch = s.epoch ∧
      s.world.agents sessionId = some record.agent ∧
        s.world.sessions sessionId = some record.agent.session
  waits : ∀ promise, ¬Relation.TransGen (WaitsOn s) promise promise

theorem sdk_root_lifecycle (world : World) (before : List Action)
    (action : Action) (later : List Action) :
    Lifecycle (sdkRoot.after (State.initial world) before) action later := by
  have hkept := kept_after world before
  constructor
  · rintro rfl record sessionId
    apply not_current
    exact Machine.after_invariant (fun s : State => s.terminated = true)
      (fun s action h => step_terminated h action)
      (shutdown_terminates _) later
  · intro sdk before hcreated
    exact step_created hkept hcreated
  · intro recovering hrecovering hcloses htaken
    cases action with
    | closeRoot sessionId =>
      exact (closeRoot_overtakes hkept hrecovering htaken).not_ready later
    | shutdown =>
      have hterminated : Kept { sdkRoot.after (State.initial world) before
          with terminated := true } := by
        obtain ⟨h1, h2, h3, h4, h5, h6, h7, h8, h9⟩ := hkept
        constructor <;> assumption
      exact (closeRoot_overtakes hterminated hrecovering
        htaken).not_ready later
    | _ => exact hcloses.elim
  · intro op hrejected
    exact (Machine.after_invariant (CloseFailed op)
      (fun s action h => h.step action) (step_rejected hrejected) later).stays
  · intro sessionId record hroot
    exact requireRoot_spec hroot
  · exact no_circle hkept

namespace SdkRootWitness

def agent : Agent := ⟨0, 0⟩

/-- The registries know the agent of one session. -/
def world : World where
  detaching := false
  agents := fun id => if id = [0x72] then some agent else none
  sessions := fun id => if id = [0x72] then some 0 else none

/-- The root is opened, and a close of another session is asked for. -/
def foreignClose : List Action :=
  [.initializeSdk, .resolvedPath 1 true, .initialized true,
    .ensureRoot [0x72] false true, .read .found, .resumed true true, .opened,
    .closeRoot [0x78]]

/-- That close is rejected, and the root is as ready as before. -/
theorem foreign_close_rejects :
    let s := sdkRoot.after (State.initial world) (foreignClose.take 7)
    (step s (.closeRoot [0x78])).2 = .refused ∧
      (step (sdkRoot.after (State.initial world) foreignClose)
        (.ensureRoot [0x72] false true)).2 = .root ⟨agent, 0⟩ :=
  ⟨by decide, by decide⟩

end SdkRootWitness

end Allrice.SdkRoot
