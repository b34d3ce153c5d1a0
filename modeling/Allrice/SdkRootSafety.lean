/-
What holds of the root session in every interleaving: it stays down once it was
shut down, a recovery replaces an SDK only after that was shut down, no pending
recovery outlives a close, and the promises never wait in a circle.
-/
import Allrice.SdkRoot

namespace Allrice.SdkRoot

/-- A close that still has something to wait for or to do. -/
def CloseStage.Runs : CloseStage → Prop
  | .settled _ => False
  | .finished _ => False
  | _ => True

/-- The shutdowns that a list of work holds. -/
def shutdowns (steps : List Work) : List Nat := steps.flatMap Work.shuts

/-- What holds between two steps. -/
structure Kept (s : State) : Prop where
  positive : 0 < s.next
  openingEpoch : ∀ opening, s.opening = some opening →
    opening.epoch ≤ s.epoch ∧ ∀ op, opening.owner = some op → op < s.next
  recoveringEpoch : ∀ recovering, s.recovering = some recovering →
    recovering.epoch ≤ s.epoch ∧ recovering.op < s.next ∧ 0 < recovering.op
  closingOp : ∀ closing, s.closing = some closing →
    closing.op < s.next ∧ 0 < closing.op
  closesLater : ∀ closing, s.closing = some closing →
    ∀ op, closing.recovery = some op → op < closing.op
  recoversLater : ∀ recovering, s.recovering = some recovering →
    ∀ op, recovering.stage = .preceding (some op) → op < recovering.op
  runsClosing : ∀ closing, s.closing = some closing → closing.stage.Runs →
    s.phase = .closing
  works : ∀ closing steps failed live, s.closing = some closing →
    closing.stage = .working steps failed live →
      (∀ sdk ∈ shutdowns steps, sdk = s.sdk) ∧
        (failed = false → s.sdk ∈ s.shut ∨ s.sdk ∈ shutdowns steps)
  closedShut : s.phase = .closed → s.sdk ∈ s.shut

theorem Kept.initial (world : World) : Kept (State.initial world) := by
  constructor <;> simp [State.initial]

variable {s : State}

theorem Kept.read (h : Kept s) (stored : Stored) : Kept (read s stored).1 := by
  obtain ⟨h1, h2, h3, h4, h5, h6, h7, h8, h9⟩ := h
  unfold SdkRoot.read State.settleOpening
  split
  · split
    · constructor <;> assumption
    · split
      · constructor <;> first | assumption | grind -linarith -ring
      · split
        · constructor <;> first | assumption | grind -linarith -ring
        · constructor <;> first | assumption | grind -linarith -ring
  · constructor <;> assumption

theorem Kept.resumed (h : Kept s) (succeeded published : Bool) :
    Kept (resumed s succeeded published).1 := by
  obtain ⟨h1, h2, h3, h4, h5, h6, h7, h8, h9⟩ := h
  unfold SdkRoot.resumed State.settleOpening
  split
  · split
    · constructor <;> assumption
    · split
      · constructor <;> first | assumption | grind -linarith -ring
      · split
        · constructor <;> first | assumption | grind -linarith -ring
        · constructor <;>
            first | assumption | grind -linarith -ring [Opening.current]
  · constructor <;> assumption

theorem informed_fields (recovering : Recovering) (opening : Nat)
    (succeeded : Bool) :
    (recovering.informed opening succeeded).op = recovering.op ∧
      (recovering.informed opening succeeded).epoch = recovering.epoch ∧
      ∀ op, (recovering.informed opening succeeded).stage = .preceding op →
        recovering.stage = .preceding op := by
  unfold Recovering.informed
  split
  · split
    · refine ⟨rfl, rfl, ?_⟩
      intro op hstage
      cases hstage
    · exact ⟨rfl, rfl, fun op hstage => hstage⟩
  · exact ⟨rfl, rfl, fun op hstage => hstage⟩

theorem Kept.opened (h : Kept s) : Kept (opened s).1 := by
  obtain ⟨h1, h2, h3, h4, h5, h6, h7, h8, h9⟩ := h
  unfold SdkRoot.opened
  split
  · rename_i opening hopening
    split
    · rename_i record hstage
      cases hrecovering : s.recovering with
      | none => constructor <;> first | assumption | grind -linarith -ring
      | some recovering =>
        obtain ⟨hop, hepoch, hpreceding⟩ :=
          informed_fields recovering opening.op record.isSome
        constructor <;> first | assumption | grind -linarith -ring
    · constructor <;> assumption
  · constructor <;> assumption

theorem shutdowns_closeWork (s : State) (live : Bool) :
    shutdowns (s.closeWork live) = [s.sdk] := by
  cases live <;> rfl

theorem Kept.closeOn (h : Kept s) : Kept (closeOn s).1 := by
  obtain ⟨h1, h2, h3, h4, h5, h6, h7, h8, h9⟩ := h
  unfold SdkRoot.closeOn
  split
  · split
    · split
      · constructor <;> assumption
      · constructor <;>
          first | assumption | grind -linarith -ring [CloseStage.Runs]
    · split
      · constructor <;> assumption
      · constructor <;>
          first | assumption | grind -linarith -ring [CloseStage.Runs]
    · split
      · constructor <;> assumption
      · constructor <;>
          grind -linarith -ring [CloseStage.Runs, shutdowns_closeWork]
    · constructor <;> assumption
  · constructor <;> assumption

theorem shutdowns_cons (work : Work) (rest : List Work) :
    shutdowns (work :: rest) = work.shuts ++ shutdowns rest := rfl

theorem Kept.worked (h : Kept s) (succeeded : Bool) :
    Kept (worked s succeeded).1 := by
  obtain ⟨h1, h2, h3, h4, h5, h6, h7, h8, h9⟩ := h
  unfold SdkRoot.worked
  split
  · rename_i closing hclosing
    split
    · rename_i work rest failed live hstage
      have hphase := h7 closing hclosing (by rw [hstage]; trivial)
      obtain ⟨hsdk, hshut⟩ := h8 closing _ _ _ hclosing hstage
      rw [shutdowns_cons] at hsdk hshut
      have hrest : ∀ sdk ∈ shutdowns rest, sdk = s.sdk :=
        fun sdk hmem => hsdk sdk (List.mem_append_right _ hmem)
      dsimp only
      split
      · constructor <;>
          first | assumption | grind -linarith -ring [CloseStage.Runs]
      · rename_i hrest
        have hnone : shutdowns rest = [] := by
          rw [not_not.mp hrest]
          rfl
        split
        · constructor <;>
            first | assumption | grind -linarith -ring [CloseStage.Runs]
        · constructor <;>
            first | assumption | grind -linarith -ring [CloseStage.Runs]
    · constructor <;> assumption
  · constructor <;> assumption

theorem Kept.closed (h : Kept s) : Kept (closed s).1 := by
  obtain ⟨h1, h2, h3, h4, h5, h6, h7, h8, h9⟩ := h
  unfold SdkRoot.closed
  split
  · split
    · constructor <;>
        first | assumption | grind -linarith -ring [CloseStage.Runs]
    · constructor <;>
        first | assumption | grind -linarith -ring [CloseStage.Runs]
    · constructor <;> assumption
  · constructor <;> assumption

theorem Kept.ensureRoot (h : Kept s) (sessionId : JsString) (resumeOnly : Bool)
    (owner : Option Nat) (published : Bool)
    (howner : ∀ op, owner = some op → op < s.next) :
    Kept (ensureRoot s sessionId resumeOnly owner published).1 := by
  obtain ⟨h1, h2, h3, h4, h5, h6, h7, h8, h9⟩ := h
  unfold SdkRoot.ensureRoot
  split
  · constructor <;> assumption
  · split
    · constructor <;> assumption
    · split
      · split
        · constructor <;> assumption
        · split <;> constructor <;> assumption
      · split
        · constructor <;> assumption
        · split
          · constructor <;> assumption
          · constructor <;> first | assumption | grind -linarith -ring

theorem Kept.closeRoot (h : Kept s) (sessionId : Option JsString) :
    Kept (closeRoot s sessionId).1 := by
  obtain ⟨h1, h2, h3, h4, h5, h6, h7, h8, h9⟩ := h
  unfold SdkRoot.closeRoot
  split
  · constructor <;> assumption
  · split
    · constructor <;> assumption
    · split
      · constructor <;> first | assumption | grind -linarith -ring
      · cases hrecovering : s.recovering with
        | none | some recovering =>
          constructor <;>
            first | assumption | grind -linarith -ring [CloseStage.Runs]

/-- A close gives out promises that exist. -/
theorem closeRoot_preceding (h : Kept s) {sessionId : Option JsString}
    {op : Nat} (hop : (closeRoot s sessionId).2.preceding = some op) :
    op < (closeRoot s sessionId).1.next := by
  obtain ⟨h1, h2, h3, h4, h5, h6, h7, h8, h9⟩ := h
  unfold SdkRoot.closeRoot at hop ⊢
  split at hop
  · cases hop
  · rename_i hid
    rw [if_neg hid]
    split at hop
    · cases hop
    · rename_i hnothing
      rw [if_neg hnothing]
      split at hop
      · cases hop
        grind -linarith -ring
      · cases hop
        grind -linarith -ring

/-- A recovery begins, after the close it waits for. -/
theorem Kept.recovering (h : Kept s) (sessionId : JsString)
    (preceding : Option Nat)
    (hpreceding : ∀ op, preceding = some op → op < s.next) :
    Kept
      { s with
        recovering := some
          ⟨s.next, s.epoch, sessionId, .preceding preceding⟩
        next := s.next + 1 } := by
  obtain ⟨h1, h2, h3, h4, h5, h6, h7, h8, h9⟩ := h
  constructor <;> first | assumption | grind -linarith -ring

theorem Kept.rootId (h : Kept s) (rootId : Option JsString) :
    Kept { s with rootId } := by
  obtain ⟨h1, h2, h3, h4, h5, h6, h7, h8, h9⟩ := h
  constructor <;> assumption

theorem Kept.recoverRoot (h : Kept s) (sessionId : JsString) :
    Kept (recoverRoot s sessionId).1 := by
  unfold SdkRoot.recoverRoot
  split
  · exact h
  · split
    · exact h
    · split
      · exact h
      · split
        · exact h
        · have hroot := h.rootId (some sessionId)
          dsimp only
          split
          · exact hroot.recovering sessionId none (by simp)
          · exact (hroot.closeRoot (some sessionId)).recovering sessionId _
              fun op hop => closeRoot_preceding hroot hop

theorem Kept.recoverOn (h : Kept s) : Kept (recoverOn s).1 := by
  obtain ⟨h1, h2, h3, h4, h5, h6, h7, h8, h9⟩ := h
  unfold SdkRoot.recoverOn State.settleRecovery
  split
  · split
    · split
      · constructor <;> assumption
      · constructor <;> first | assumption | grind -linarith -ring
      · split
        · constructor <;> first | assumption | grind -linarith -ring
        · constructor <;>
            first | assumption | grind -linarith -ring [CloseStage.Runs]
    · constructor <;> assumption
  · constructor <;> assumption

/-- The stage of a recovery that waits for no close any more. -/
theorem Kept.settleRecovery (h : Kept s) {recovering : Recovering}
    (hop : recovering.op < s.next) (hpositive : 0 < recovering.op)
    (hepoch : recovering.epoch ≤ s.epoch) {stage : RecoverStage}
    (hstage : ∀ op, stage ≠ .preceding op) :
    Kept (s.settleRecovery recovering stage) := by
  obtain ⟨h1, h2, h3, h4, h5, h6, h7, h8, h9⟩ := h
  unfold State.settleRecovery
  constructor <;> first | assumption | grind -linarith -ring

theorem ensureRoot_frame (s : State) (sessionId : JsString)
    (resumeOnly : Bool) (owner : Option Nat) (published : Bool) :
    s.next ≤ (ensureRoot s sessionId resumeOnly owner published).1.next ∧
      (ensureRoot s sessionId resumeOnly owner published).1.epoch =
        s.epoch := by
  unfold ensureRoot
  grind -linarith -ring

theorem Kept.recoverInitialized (h : Kept s) (succeeded published : Bool) :
    Kept (recoverInitialized s succeeded published).1 := by
  unfold SdkRoot.recoverInitialized
  split
  · rename_i recovering hrecovering
    obtain ⟨hepoch, hop, hpositive⟩ := h.recoveringEpoch recovering hrecovering
    split
    · split
      · exact h.settleRecovery hop hpositive hepoch (by simp)
      · rename_i hcurrent
        have hidle : Kept { s with phase := .idle } := by
          obtain ⟨h1, h2, h3, h4, h5, h6, h7, h8, h9⟩ := h
          constructor <;> first | assumption | grind -linarith -ring
        have hensure := hidle.ensureRoot recovering.sessionId true
          (some recovering.op) published (by
            rintro _ ⟨⟩
            exact hop)
        obtain ⟨hnext, hsame⟩ := ensureRoot_frame { s with phase := .idle }
          recovering.sessionId true (some recovering.op) published
        have hsettled : ∀ stage : RecoverStage, (∀ op, stage ≠ .preceding op) →
            Kept ((SdkRoot.ensureRoot { s with phase := .idle }
              recovering.sessionId true (some recovering.op)
                published).1.settleRecovery recovering stage) :=
          fun stage => hensure.settleRecovery (Nat.lt_of_lt_of_le hop hnext)
            hpositive (Nat.le_trans hepoch (Nat.le_of_eq hsame.symm))
        split <;> rename_i heq <;> rw [heq] at hsettled <;>
          exact hsettled _ (by simp)
    · exact h
  · exact h

theorem Kept.recoverEnsured (h : Kept s) : Kept (recoverEnsured s).1 := by
  unfold SdkRoot.recoverEnsured
  split
  · rename_i recovering hrecovering
    obtain ⟨hepoch, hop, hpositive⟩ := h.recoveringEpoch recovering hrecovering
    split
    · refine h.settleRecovery hop hpositive hepoch ?_
      intro op
      split <;> simp
    · exact h
  · exact h

theorem Kept.recoverShut (h : Kept s) (succeeded : Bool) :
    Kept (recoverShut s succeeded).1 := by
  obtain ⟨h1, h2, h3, h4, h5, h6, h7, h8, h9⟩ := h
  unfold SdkRoot.recoverShut State.settleRecovery
  split
  · split
    · split
      · constructor <;> first | assumption | grind -linarith -ring
      · constructor <;> first | assumption | grind -linarith -ring
    · constructor <;> assumption
  · constructor <;> assumption

theorem Kept.recovered (h : Kept s) : Kept (recovered s).1 := by
  obtain ⟨h1, h2, h3, h4, h5, h6, h7, h8, h9⟩ := h
  unfold SdkRoot.recovered
  split
  · split
    · constructor <;> first | assumption | grind -linarith -ring
    · constructor <;> assumption
  · constructor <;> assumption

theorem Kept.initializeSdk (h : Kept s) : Kept (initializeSdk s).1 := by
  obtain ⟨h1, h2, h3, h4, h5, h6, h7, h8, h9⟩ := h
  unfold SdkRoot.initializeSdk
  split
  · constructor <;> assumption
  · constructor <;> first | assumption | grind -linarith -ring

theorem Kept.resolvedPath (h : Kept s) (call : Nat) (succeeded : Bool) :
    Kept (resolvedPath s call succeeded).1 := by
  obtain ⟨h1, h2, h3, h4, h5, h6, h7, h8, h9⟩ := h
  unfold SdkRoot.resolvedPath
  split
  · dsimp only
    split
    · constructor <;> assumption
    · constructor <;> first | assumption | grind -linarith -ring
  · constructor <;> assumption

theorem Kept.initialized (h : Kept s) (succeeded : Bool) :
    Kept (initialized s succeeded).1 := by
  obtain ⟨h1, h2, h3, h4, h5, h6, h7, h8, h9⟩ := h
  unfold SdkRoot.initialized
  split
  · dsimp only
    split
    · constructor <;> assumption
    · constructor <;> first | assumption | grind -linarith -ring
  · constructor <;> assumption

theorem Kept.step (h : Kept s) (action : Action) : Kept (step s action).1 := by
  cases action with
  | world world =>
    obtain ⟨h1, h2, h3, h4, h5, h6, h7, h8, h9⟩ := h
    constructor <;> assumption
  | initializeSdk => exact h.initializeSdk
  | resolvedPath call succeeded => exact h.resolvedPath call succeeded
  | initialized succeeded => exact h.initialized succeeded
  | ensureRoot sessionId resumeOnly published =>
    exact h.ensureRoot sessionId resumeOnly none published (by simp)
  | read stored => exact h.read stored
  | resumed succeeded published => exact h.resumed succeeded published
  | opened => exact h.opened
  | closeRoot sessionId => exact h.closeRoot (some sessionId)
  | closeOn => exact h.closeOn
  | worked succeeded => exact h.worked succeeded
  | closed => exact h.closed
  | recoverRoot sessionId => exact h.recoverRoot sessionId
  | recoverOn => exact h.recoverOn
  | recoverInitialized succeeded published =>
    exact h.recoverInitialized succeeded published
  | recoverEnsured => exact h.recoverEnsured
  | recoverShut succeeded => exact h.recoverShut succeeded
  | recovered => exact h.recovered
  | shutdown =>
    have hterminated : Kept { s with terminated := true } := by
      obtain ⟨h1, h2, h3, h4, h5, h6, h7, h8, h9⟩ := h
      constructor <;> assumption
    exact hterminated.closeRoot s.rootId
  | requireRoot sessionId =>
    rw [SdkRoot.step]
    split <;> exact h

theorem kept_after (world : World) (actions : List Action) :
    Kept (sdkRoot.after (State.initial world) actions) :=
  Machine.after_invariant Kept (fun _ action h => h.step action)
    (Kept.initial world) actions

end Allrice.SdkRoot
