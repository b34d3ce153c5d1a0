/-
A durable store and the processes that open it one after the other.  An
opening first works off a recovery plan, one durable write after the other; a
call passes a gate and runs its transaction later, so other calls may commit in
between; and a crash may fall between any two durable writes.  What a store
keeps through all this follows from what one transaction and one recovery write
keep.
-/
import Allrice.Runs

universe u

/-- What the gate before a call finds. -/
inductive GateCheck where
  | pass
  | refuse
  | poison

/-- What one opening recovers and what a call does.  A `τ` is the durable
state, a `γ` what a process is opened with, a `κ` a call, an `ω` one piece of
recovery work. -/
structure StoreShell (τ γ κ ω ρ ε : Type) where
  plan : τ → List ω
  recover : ω → τ → Option τ
  checks : γ → κ → Except ε κ
  run : γ → κ → τ → Except ε (ρ × τ)
  writes : κ → Bool
  poisons : ε → Bool

/-- An open store: its flags and the calls that passed the gate and have not
run yet. -/
structure LiveStore (γ κ : Type) where
  config : γ
  closed : Bool
  poisoned : Bool
  calls : List κ

inductive StoreProcess (γ κ ω : Type) where
  | down
  | recovering (config : γ) (todo : List ω)
  | live (store : LiveStore γ κ)

/-- No process holds the store. -/
def StoreProcess.isFree {γ κ ω : Type} : StoreProcess γ κ ω → Bool
  | .down => true
  | .recovering _ _ => false
  | .live store => store.closed

/-- A process has the store open for calls. -/
def StoreProcess.isOpen {γ κ ω : Type} : StoreProcess γ κ ω → Bool
  | .live store => !store.closed
  | _ => false

structure StoreState (τ γ κ ω : Type) where
  table : τ
  process : StoreProcess γ κ ω

/-- How the store itself behaves in one durable write: as it should, failing
with nothing of the write staying, or failing after the write took effect. -/
inductive StoreFault where
  | none
  | failed
  | lost
deriving DecidableEq

inductive StoreAction (γ κ : Type) where
  | openStore (config : γ)
  | recover (fault : StoreFault)
  | enter (call : κ) (gate : GateCheck)
  | perform (index : Nat) (fault : StoreFault)
  | close
  | crash

/-- An action that no caller's transaction is part of. -/
def StoreAction.reopens {γ κ : Type} : StoreAction γ κ → Bool
  | .openStore _ | .recover _ | .close | .crash => true
  | .enter _ _ | .perform _ _ => false

inductive StoreAnswer (κ ρ ε : Type) where
  | opened
  | alreadyOpen
  | recovered
  | ready
  | entered
  | blocked
  | done (call : κ) (result : ρ)
  | refused (error : ε)
  | failed
  | ended
  | ignored
deriving DecidableEq

namespace StoreShell

variable {τ γ κ ω ρ ε : Type} (shell : StoreShell τ γ κ ω ρ ε)

/-- The next piece of recovery work; a failure gives the store up again. -/
def recoverNext (table : τ) (config : γ) (todo : List ω) (fault : StoreFault) :
    StoreState τ γ κ ω × StoreAnswer κ ρ ε :=
  if fault = .failed then (⟨table, .down⟩, .failed)
  else
    match todo with
    | [] =>
      if fault = .lost then (⟨table, .down⟩, .failed)
      else (⟨table, .live ⟨config, false, false, []⟩⟩, .ready)
    | item :: rest =>
      match shell.recover item table with
      | none => (⟨table, .down⟩, .failed)
      | some next =>
        if fault = .lost then (⟨next, .down⟩, .failed)
        else (⟨next, .recovering config rest⟩, .recovered)

/-- Admit a call. -/
def enterCall (table : τ) (store : LiveStore γ κ) (call : κ)
    (gate : GateCheck) : StoreState τ γ κ ω × StoreAnswer κ ρ ε :=
  if store.closed || store.poisoned then (⟨table, .live store⟩, .blocked)
  else
    match gate with
    | .pass =>
      (⟨table, .live { store with calls := store.calls ++ [call] }⟩,
        .entered)
    | .refuse => (⟨table, .live store⟩, .blocked)
    | .poison => (⟨table, .live { store with poisoned := true }⟩, .blocked)

/-- What an admitted call comes to: its checks, then its transaction. -/
def runCall (table : τ) (store : LiveStore γ κ) (call : κ)
    (fault : StoreFault) : StoreState τ γ κ ω × StoreAnswer κ ρ ε :=
  match shell.checks store.config call with
  | .error error => (⟨table, .live store⟩, .refused error)
  | .ok checked =>
    let broken :=
      { store with poisoned := store.poisoned || shell.writes checked }
    if store.closed || fault = .failed then (⟨table, .live broken⟩, .failed)
    else
      match shell.run store.config checked table with
      | .ok (result, next) =>
        if fault = .lost then (⟨next, .live broken⟩, .failed)
        else (⟨next, .live store⟩, .done checked result)
      | .error error =>
        (⟨table, .live { store with
            poisoned := store.poisoned || shell.poisons error }⟩,
          .refused error)

/-- Run an admitted call. -/
def performCall (table : τ) (store : LiveStore γ κ) (index : Nat)
    (fault : StoreFault) : StoreState τ γ κ ω × StoreAnswer κ ρ ε :=
  match store.calls[index]? with
  | none => (⟨table, .live store⟩, .ignored)
  | some call =>
    shell.runCall table { store with calls := store.calls.eraseIdx index }
      call fault

def step (s : StoreState τ γ κ ω) :
    StoreAction γ κ → StoreState τ γ κ ω × StoreAnswer κ ρ ε
  | .openStore config =>
    if s.process.isFree then
      (⟨s.table, .recovering config (shell.plan s.table)⟩, .opened)
    else (s, .alreadyOpen)
  | .recover fault =>
    match s.process with
    | .recovering config todo => shell.recoverNext s.table config todo fault
    | _ => (s, .ignored)
  | .enter call gate =>
    match s.process with
    | .live store => enterCall s.table store call gate
    | _ => (s, .ignored)
  | .perform index fault =>
    match s.process with
    | .live store => shell.performCall s.table store index fault
    | _ => (s, .ignored)
  | .close =>
    match s.process with
    | .live store => (⟨s.table, .live { store with closed := true }⟩, .ended)
    | _ => (s, .ignored)
  | .crash => (⟨s.table, .down⟩, .ended)

/-- The store over any number of processes. -/
def machine : Machine (StoreState τ γ κ ω) (StoreAction γ κ)
    (StoreAnswer κ ρ ε) :=
  ⟨shell.step⟩

/-- Recovery works off its plan from the front. -/
structure Lawful : Prop where
  plan_next : ∀ {table next item rest}, shell.plan table = item :: rest →
    shell.recover item table = some next → shell.plan next = rest

/-- The work that an opening still has to do is the plan of what is durable. -/
def OnPlan (s : StoreState τ γ κ ω) : Prop :=
  ∀ config todo, s.process = .recovering config todo →
    todo = shell.plan s.table

/-- The durable state once its whole plan is worked off. -/
def recoverAll (table : τ) : Option τ :=
  (shell.plan table).foldlM (fun next item => shell.recover item next) table

/-- A state on the way back to an open store: what its recovery comes to is
settled, and once the store is open nothing is left to recover. -/
structure Reopened (result : Option τ) (s : StoreState τ γ κ ω) : Prop where
  plan : shell.OnPlan s
  result : shell.recoverAll s.table = result
  settled : s.process.isOpen = true → shell.plan s.table = []

/-- What one step does to the durable state. -/
inductive Durable (s : StoreState τ γ κ ω) (action : StoreAction γ κ) : Prop
  | same (table : (shell.step s action).1.table = s.table)
      (silent : ∀ call result, (shell.step s action).2 ≠ .done call result)
  | recovered (config : γ) (item : ω) (rest : List ω)
      (process : s.process = .recovering config (item :: rest))
      (table : shell.recover item s.table =
        some (shell.step s action).1.table)
      (silent : ∀ call result, (shell.step s action).2 ≠ .done call result)
  | called (store : LiveStore γ κ) (call : κ) (result : ρ)
      (process : s.process = .live store)
      (calls : action.reopens = false)
      (checked : ∃ entered, shell.checks store.config entered = .ok call)
      (answer : (shell.step s action).2 = .done call result ∨
        ((shell.step s action).2 = .failed ∧
          (∃ index, action = .perform index .lost) ∧
          ∃ left, (shell.step s action).1.process = .live left ∧
            left.poisoned = (store.poisoned || shell.writes call)))
      (table : shell.run store.config call s.table =
        .ok (result, (shell.step s action).1.table))

variable {shell} {s : StoreState τ γ κ ω} {table : τ} {config : γ}
  {todo : List ω} {action : StoreAction γ κ}

theorem recoverNext_durable (hprocess : s.process = .recovering config todo)
    (fault : StoreFault) : shell.Durable s (.recover fault) := by
  have hstep : shell.step s (.recover fault) =
      shell.recoverNext s.table config todo fault := by
    simp only [step, hprocess]
  cases todo with
  | nil =>
    cases fault <;>
      exact .same (by simp [hstep, recoverNext])
        (by simp [hstep, recoverNext])
  | cons item rest =>
    cases hitem : shell.recover item s.table with
    | none =>
      cases fault <;>
        exact .same (by simp [hstep, recoverNext, hitem])
          (by simp [hstep, recoverNext, hitem])
    | some next =>
      cases fault with
      | failed =>
        exact .same (by simp [hstep, recoverNext])
          (by simp [hstep, recoverNext])
      | none | lost =>
        exact .recovered config item rest hprocess
          (by simp [hstep, recoverNext, hitem])
          (by simp [hstep, recoverNext, hitem])

/-- A call leaves its process alive. -/
theorem performCall_live (table : τ) (store : LiveStore γ κ) (index : Nat)
    (fault : StoreFault) : ∃ left,
      (shell.performCall table store index fault).1.process = .live left := by
  unfold performCall
  split
  · exact ⟨store, rfl⟩
  · unfold runCall
    split
    · exact ⟨_, rfl⟩
    · dsimp only
      split
      · exact ⟨_, rfl⟩
      · split
        · split <;> exact ⟨_, rfl⟩
        · exact ⟨_, rfl⟩

theorem performCall_durable {store : LiveStore γ κ}
    (hprocess : s.process = .live store) (index : Nat) (fault : StoreFault) :
    shell.Durable s (.perform index fault) := by
  have hstep : shell.step s (.perform index fault) =
      shell.performCall s.table store index fault := by
    simp only [step, hprocess]
  cases hcall : store.calls[index]? with
  | none =>
    exact .same (by simp [hstep, performCall, hcall])
      (by simp [hstep, performCall, hcall])
  | some call =>
    have hperform : shell.step s (.perform index fault) =
        shell.runCall s.table
          { store with calls := store.calls.eraseIdx index } call fault := by
      simp only [hstep, performCall, hcall]
    cases hchecks : shell.checks store.config call with
    | error error =>
      exact .same (by simp [hperform, runCall, hchecks])
        (by simp [hperform, runCall, hchecks])
    | ok checked =>
      by_cases hfault : store.closed = true ∨ fault = .failed
      · exact .same (by simp [hperform, runCall, hchecks, hfault])
          (by simp [hperform, runCall, hchecks, hfault])
      · have hopen : store.closed = false := by
          simpa using (not_or.mp hfault).1
        cases hrun : shell.run store.config checked s.table with
        | error error =>
          exact .same (by simp [hperform, runCall, hchecks, hfault, hrun])
            (by simp [hperform, runCall, hchecks, hfault, hrun])
        | ok outcome =>
          refine .called store checked outcome.1 hprocess rfl
            ⟨call, hchecks⟩ ?_ ?_
          · by_cases hlost : fault = .lost
            · refine .inr ⟨?_, ⟨index, by rw [hlost]⟩, ?_⟩
              · rw [hperform]
                simp [runCall, hchecks, hopen, hrun, hlost]
              · rw [hperform]
                simp [runCall, hchecks, hopen, hrun, hlost]
            · refine .inl ?_
              rw [hperform]
              simp [runCall, hchecks, hfault, hrun, hlost]
          · rw [hperform]
            by_cases hlost : fault = .lost
            · simp [runCall, hchecks, hopen, hrun, hlost]
            · simp [runCall, hchecks, hfault, hrun, hlost]

/-- A step changes the durable state by one recovery write or by one
transaction, or not at all. -/
theorem step_durable (s : StoreState τ γ κ ω) (action : StoreAction γ κ) :
    shell.Durable s action := by
  cases action with
  | openStore config =>
    by_cases hfree : s.process.isFree = true
    · exact .same (by simp [step, hfree]) (by simp [step, hfree])
    · exact .same (by simp [step, hfree]) (by simp [step, hfree])
  | recover fault =>
    cases hprocess : s.process with
    | recovering config todo => exact recoverNext_durable hprocess fault
    | down | live store =>
      exact .same (by simp [step, hprocess]) (by simp [step, hprocess])
  | enter call gate =>
    cases hprocess : s.process with
    | live store =>
      by_cases hshut : store.closed = true ∨ store.poisoned = true
      · exact .same (by simp [step, hprocess, enterCall, hshut])
          (by simp [step, hprocess, enterCall, hshut])
      · cases gate <;>
          exact .same (by simp [step, hprocess, enterCall, hshut])
            (by simp [step, hprocess, enterCall, hshut])
    | down | recovering config todo =>
      exact .same (by simp [step, hprocess]) (by simp [step, hprocess])
  | perform index fault =>
    cases hprocess : s.process with
    | live store => exact performCall_durable hprocess index fault
    | down | recovering config todo =>
      exact .same (by simp [step, hprocess]) (by simp [step, hprocess])
  | close =>
    cases hprocess : s.process <;>
      exact .same (by simp [step, hprocess]) (by simp [step, hprocess])
  | crash => exact .same rfl (by simp [step])

/-- A call that was answered ran as one transaction. -/
theorem run_of_done {call : κ} {result : ρ}
    (h : (shell.step s action).2 = .done call result) :
    ∃ store, s.process = .live store ∧
      shell.run store.config call s.table =
        .ok (result, (shell.step s action).1.table) := by
  cases shell.step_durable s action with
  | same htable hsilent | recovered config item rest hprocess htable hsilent =>
    exact absurd h (hsilent call result)
  | called store ran answer hprocess hcalls hchecked hanswer htable =>
    rcases hanswer with hdone | hfailed
    · rw [hdone] at h
      cases h
      exact ⟨store, hprocess, htable⟩
    · rw [hfailed.1] at h
      cases h

/-- An opening ends once nothing is left to recover. -/
theorem recoverNext_open {fault : StoreFault}
    (h : (shell.recoverNext table config todo fault).1.process.isOpen = true) :
    todo = [] ∧ (shell.recoverNext table config todo fault).1.table = table := by
  cases todo with
  | nil => cases fault <;> exact ⟨rfl, rfl⟩
  | cons item rest =>
    cases hitem : shell.recover item table with
    | none | some next =>
      cases fault <;> simp [recoverNext, hitem, StoreProcess.isOpen] at h

/-- Whatever the actions, what remains of an opening's work is its plan. -/
theorem onPlan_step (lawful : shell.Lawful) (h : OnPlan shell s)
    (action : StoreAction γ κ) : OnPlan shell (shell.step s action).1 := by
  cases action with
  | openStore config =>
    simp only [step]
    split
    · intro opened todo hnext
      cases hnext
      rfl
    · exact h
  | recover fault =>
    cases hprocess : s.process with
    | down | live store => simpa [step, hprocess] using h
    | recovering config todo =>
      have htodo := h config todo hprocess
      simp only [step, hprocess]
      cases todo with
      | nil =>
        cases fault <;>
          (intro opened left hnext; simp [recoverNext] at hnext)
      | cons item rest =>
        cases hitem : shell.recover item s.table with
        | none =>
          cases fault <;>
            (intro opened left hnext
             simp [recoverNext, hitem] at hnext)
        | some next =>
          cases fault with
          | failed =>
            intro opened left hnext
            simp [recoverNext] at hnext
          | lost =>
            intro opened left hnext
            simp [recoverNext, hitem] at hnext
          | none =>
            intro opened left hnext
            simp only [recoverNext, hitem] at hnext ⊢
            cases hnext
            exact (lawful.plan_next htodo.symm hitem).symm
  | enter call gate =>
    simp only [step]
    split
    · intro opened left hnext
      simp only [enterCall] at hnext
      split at hnext
      · cases hnext
      · cases gate <;> cases hnext
    · exact h
  | perform index fault =>
    simp only [step]
    split
    · rename_i store hprocess
      obtain ⟨left, hlive⟩ : ∃ left,
          (shell.performCall s.table store index fault).1.process =
            .live left :=
        performCall_live s.table store index fault
      intro opened todo hnext
      rw [hlive] at hnext
      cases hnext
    · exact h
  | close =>
    simp only [step]
    split
    · intro opened left hnext
      cases hnext
    · exact h
  | crash => intro opened left hnext; cases hnext

theorem recoverAll_settled (h : shell.plan table = []) :
    shell.recoverAll table = some table := by
  simp [recoverAll, h]

theorem recoverAll_next (lawful : shell.Lawful) {next : τ} {item : ω}
    {rest : List ω} (hplan : shell.plan table = item :: rest)
    (hitem : shell.recover item table = some next) :
    shell.recoverAll next = shell.recoverAll table := by
  simp [recoverAll, hplan, lawful.plan_next hplan hitem, hitem]

theorem reopened_step (lawful : shell.Lawful) {result : Option τ}
    (h : shell.Reopened result s) (hreopens : action.reopens = true) :
    shell.Reopened result (shell.step s action).1 := by
  refine ⟨onPlan_step lawful h.plan action, ?_, ?_⟩
  · cases (step_durable s action : shell.Durable s action) with
    | same htable => rw [htable, h.result]
    | recovered config item rest hprocess htable =>
      have hplan := h.plan config _ hprocess
      rw [recoverAll_next lawful hplan.symm htable, h.result]
    | called store call result hprocess hcalls => simp [hreopens] at hcalls
  · cases action with
    | enter call gate | perform index fault => cases hreopens
    | crash => intro hopen; cases hopen
    | close =>
      simp only [step]
      split
      · intro hopen
        simp [StoreProcess.isOpen] at hopen
      · exact h.settled
    | openStore config =>
      simp only [step]
      split
      · nofun
      · exact h.settled
    | recover fault =>
      cases hprocess : s.process with
      | down | live store => simpa [step, hprocess] using h.settled
      | recovering config todo =>
        intro hopen
        simp only [step, hprocess] at hopen ⊢
        have hdone := recoverNext_open hopen
        have hplan := h.plan config todo hprocess
        rw [hdone.2, ← hplan, hdone.1]

/-- However often an opening is cut short and begun again, the store that is
open at the end holds what one undisturbed recovery gives. -/
theorem reopen_table (lawful : shell.Lawful) (hfree : s.process.isFree = true)
    {actions : List (StoreAction γ κ)}
    (hreopens : ∀ action ∈ actions, action.reopens = true)
    (hopen : (shell.machine.after s actions).process.isOpen = true) :
    shell.recoverAll s.table = some (shell.machine.after s actions).table := by
  have hstart : shell.Reopened (shell.recoverAll s.table) s := by
    refine ⟨?_, rfl, ?_⟩
    · intro config todo hprocess
      simp [hprocess, StoreProcess.isFree] at hfree
    · intro h
      cases hprocess : s.process with
      | down | recovering config todo =>
        simp [hprocess, StoreProcess.isOpen] at h
      | live store =>
        simp only [hprocess, StoreProcess.isOpen] at h
        simp only [hprocess, StoreProcess.isFree] at hfree
        simp [hfree] at h
  have hend : shell.Reopened (shell.recoverAll s.table)
      (shell.machine.after s actions) := by
    clear hopen hfree
    generalize shell.recoverAll s.table = result at hstart
    induction actions generalizing s with
    | nil => exact hstart
    | cons action rest ih =>
      have hnext := reopened_step lawful hstart
        (hreopens action List.mem_cons_self)
      exact ih (fun a ha => hreopens a (List.mem_cons_of_mem _ ha)) hnext
  rw [← hend.result, recoverAll_settled (hend.settled hopen)]

end StoreShell
