/-
The counters of the gateway are sums over its unfinished frames.  They are in
every run in which no terminal frame is refused by its limits, and in no other:
the bytes of a refused frame stay in the total of all connections.
-/
import Allrice.BridgeGatewayBytes

namespace Allrice.BridgeGateway

open Gateway

variable {share : Share} {shares : List Share} {α : Type}
  {before after : Accounts} {t : Nat}

theorem sum_map_set {items : List α} {n : Nat} {item next : α}
    (h : items[n]? = some item) (f : α → Int) :
    ((items.set n next).map f).sum =
      (items.map f).sum - f item + f next := by
  induction items generalizing n with
  | nil => simp at h
  | cons head rest ih =>
    cases n with
    | zero =>
      obtain rfl := Option.some.inj h
      simp only [List.set_cons_zero, List.map_cons, List.sum_cons]
      omega
    | succ m =>
      have hrest := ih h
      simp only [List.set_cons_succ, List.map_cons, List.sum_cons, hrest]
      omega

theorem sum_map_append_one (items : List α) (item : α) (f : α → Int) :
    ((items ++ [item]).map f).sum = (items.map f).sum + f item := by
  simp

/-- What the total holds beyond the frames under way. -/
def Accounts.excess (a : Accounts) : Int := a.pendingBytes - heldBytes a.shares

/-- The counters of a client are those of its unfinished requests. -/
structure Accounts.Balanced (a : Accounts) : Prop where
  loads : ∀ c (load : Load), a.loads[c]? = some load →
    load = ⟨requestCount a.shares c, requestBytes a.shares c⟩
  clients : ∀ share ∈ a.shares, share.purpose.isRequest = true →
    share.client < a.loads.length

theorem Share.under_finish (share : Share) (c : Nat) :
    share.finish.under c = false := by
  simp [Share.under, Share.finish]

theorem Share.held_finish (share : Share) : share.finish.held = 0 := by
  simp [Share.held, Share.finish]

theorem counted_of_isRequest {purpose : Purpose}
    (h : purpose.isRequest = true) : purpose.counted = true := by
  cases purpose with
  | request id => rfl
  | frame e frame | heartbeat | wakeup | recheck | opening e | push e =>
    simp [Purpose.isRequest] at h

theorem Share.held_of_counted (hcounted : share.purpose.counted = true)
    (hopen : share.finished = false) : share.held = share.size := by
  simp [Share.held, hcounted, hopen]

theorem Share.held_of_not_counted (hcounted : share.purpose.counted = false) :
    share.held = 0 := by
  simp [Share.held, hcounted]

theorem Share.under_of_not_request (hrequest : share.purpose.isRequest = false)
    (c : Nat) : share.under c = false := by
  simp [Share.under, hrequest]

/-- Every posting takes from the total what the frames under way lose and adds
what they gain. -/
theorem Posted.excess_eq (h : Posted before after) :
    after.excess = before.excess := by
  simp only [Accounts.excess, heldBytes]
  cases h with
  | quiet | client => rfl
  | task share hcounted =>
    simp only [sum_map_append_one, Share.held_of_not_counted hcounted]
    omega
  | frame share hcounted hrequest hopen =>
    simp only [sum_map_append_one, Share.held_of_counted hcounted hopen]
    omega
  | request share hrequest hopen hclient =>
    simp only [sum_map_append_one,
      Share.held_of_counted (counted_of_isRequest hrequest) hopen]
    omega
  | finished t share hshare hopen hrequest =>
    simp only [sum_map_set hshare, Share.held_finish]
    omega
  | answered t share hshare hopen hrequest =>
    simp only [sum_map_set hshare, Share.held_finish,
      Share.held_of_counted (counted_of_isRequest hrequest) hopen]
    omega

theorem requestCount_append (shares : List Share) (share : Share) (c : Nat) :
    requestCount (shares ++ [share]) c =
      requestCount shares c + if share.under c then 1 else 0 :=
  sum_map_append_one shares share _

theorem requestBytes_append (shares : List Share) (share : Share) (c : Nat) :
    requestBytes (shares ++ [share]) c =
      requestBytes shares c + if share.under c then (share.size : Int) else 0 :=
  sum_map_append_one shares share _

theorem requestCount_finish (h : shares[t]? = some share) (c : Nat) :
    requestCount (shares.set t share.finish) c =
      requestCount shares c - if share.under c then 1 else 0 := by
  simp only [requestCount, sum_map_set h, Share.under_finish]
  simp

theorem requestBytes_finish (h : shares[t]? = some share) (c : Nat) :
    requestBytes (shares.set t share.finish) c =
      requestBytes shares c - if share.under c then (share.size : Int) else 0 := by
  simp only [requestBytes, sum_map_set h, Share.under_finish]
  simp

/-- A connection without requests has none under way. -/
theorem requests_none {c : Nat} (h : ∀ share ∈ shares, share.under c = false) :
    requestCount shares c = 0 ∧ requestBytes shares c = 0 := by
  induction shares with
  | nil => exact ⟨rfl, rfl⟩
  | cons share rest ih =>
    have hrest := ih fun other hother => h other (List.mem_cons_of_mem _ hother)
    have hhead := h share List.mem_cons_self
    simp only [requestCount, requestBytes] at hrest
    simp [requestCount, requestBytes, hhead, hrest.1, hrest.2]

theorem Posted.balanced {before after : Accounts} (h : Posted before after)
    (hbalanced : before.Balanced) : after.Balanced := by
  obtain ⟨hloads, hclients⟩ := hbalanced
  cases h with
  | quiet => exact ⟨hloads, hclients⟩
  | client =>
    refine ⟨fun c load hload => ?_, fun share hshare hrequest => ?_⟩
    · dsimp only at hload
      rw [List.getElem?_append] at hload
      split at hload
      · exact hloads c load hload
      · rename_i hc
        have hzero : load = ⟨0, 0⟩ := by
          cases hindex : c - before.loads.length with
          | zero => simpa [hindex] using hload.symm
          | succ n => simp [hindex] at hload
        have hnone := requests_none fun share hshare => by
          cases hrequest : share.purpose.isRequest with
          | false => exact Share.under_of_not_request hrequest c
          | true =>
            have hlt := hclients share hshare hrequest
            have hne : share.client ≠ c := by omega
            simp [Share.under, hne]
        rw [hzero, hnone.1, hnone.2]
    · have hlt := hclients share hshare hrequest
      simp only [List.length_append, List.length_singleton]
      omega
  | task share hcounted =>
    have hrequest : share.purpose.isRequest = false := by
      cases hrequest : share.purpose.isRequest with
      | false => rfl
      | true =>
        rw [counted_of_isRequest hrequest] at hcounted
        cases hcounted
    refine ⟨fun c load hload => ?_, fun other hother hother' => ?_⟩
    · simpa [requestCount_append, requestBytes_append,
        Share.under_of_not_request hrequest] using hloads c load hload
    · rcases List.mem_append.1 hother with hmem | hmem
      · exact hclients other hmem hother'
      · obtain rfl := List.mem_singleton.1 hmem
        rw [hrequest] at hother'
        cases hother'
  | frame share hcounted hrequest hopen =>
    refine ⟨fun c load hload => ?_, fun other hother hother' => ?_⟩
    · simpa [requestCount_append, requestBytes_append,
        Share.under_of_not_request hrequest] using hloads c load hload
    · rcases List.mem_append.1 hother with hmem | hmem
      · exact hclients other hmem hother'
      · obtain rfl := List.mem_singleton.1 hmem
        rw [hrequest] at hother'
        cases hother'
  | request share hrequest hopen hclient =>
    refine ⟨fun c load hload => ?_, fun other hother hother' => ?_⟩
    · dsimp only at hload
      rw [List.getElem?_modify] at hload
      simp only [requestCount_append, requestBytes_append]
      by_cases hc : share.client = c
      · have hunder : share.under c = true := by
          simp [Share.under, hrequest, hopen, hc]
        simp only [hc, if_true, Option.map_eq_map, Option.map_eq_some_iff]
          at hload
        obtain ⟨found, hfound, rfl⟩ := hload
        rw [hloads c found hfound]
        simp [Load.add, hunder]
      · have hunder : share.under c = false := by simp [Share.under, hc]
        simp only [hc, if_false, Option.map_eq_map, Option.map_id']
          at hload
        simpa [hunder] using hloads c load hload
    · rw [List.length_modify]
      rcases List.mem_append.1 hother with hmem | hmem
      · exact hclients other hmem hother'
      · obtain rfl := List.mem_singleton.1 hmem
        exact hclient
  | finished t share hshare hopen hrequest =>
    refine ⟨fun c load hload => ?_, fun other hother hother' => ?_⟩
    · simpa [requestCount_finish hshare, requestBytes_finish hshare,
        Share.under_of_not_request hrequest] using hloads c load hload
    · rcases List.mem_or_eq_of_mem_set hother with hmem | rfl
      · exact hclients other hmem hother'
      · exact absurd hother' (by simp [Share.finish, hrequest])
  | answered t share hshare hopen hrequest =>
    refine ⟨fun c load hload => ?_, fun other hother hother' => ?_⟩
    · dsimp only at hload
      rw [List.getElem?_modify] at hload
      simp only [requestCount_finish hshare, requestBytes_finish hshare]
      by_cases hc : share.client = c
      · have hunder : share.under c = true := by
          simp [Share.under, hrequest, hopen, hc]
        simp only [hc, if_true, Option.map_eq_map, Option.map_eq_some_iff]
          at hload
        obtain ⟨found, hfound, rfl⟩ := hload
        rw [hloads c found hfound]
        simp [Load.drop, hunder]
      · have hunder : share.under c = false := by simp [Share.under, hc]
        simp only [hc, if_false, Option.map_eq_map, Option.map_id']
          at hload
        simpa [hunder] using hloads c load hload
    · rw [List.length_modify]
      rcases List.mem_or_eq_of_mem_set hother with hmem | rfl
      · exact hclients other hmem hother'
      · exact hclients share (List.mem_of_getElem? hshare) hrequest

/-- An admitted frame whose processing has not finished and that is counted for
the whole gateway. -/
def Task.admitted (task : Task) : Bool :=
  task.purpose.counted && !(task.stage == .finished)

/-- An unfinished request of a connection. -/
def Task.requests (c : Nat) (task : Task) : Bool :=
  task.purpose.isRequest && !(task.stage == .finished) && task.client == c

def admitted (g : Gateway) : List Task := g.tasks.filter Task.admitted

def requestsOf (g : Gateway) (c : Nat) : List Task :=
  g.tasks.filter (Task.requests c)

def totalSize (tasks : List Task) : Nat := (tasks.map Task.size).sum

/-- The counters count the frames under way.  Without any they are zero, and no
frame within the limits of its connection or channel is refused. -/
structure Conserved (g : Gateway) : Prop where
  total : g.pendingBytes = totalSize (admitted g)
  clients : ∀ (c : Nat) (client : Client), g.clients[c]? = some client →
    client.pending = (requestsOf g c).length ∧
      client.pendingBytes = totalSize (requestsOf g c)
  idle : admitted g = [] →
    g.pendingBytes = 0 ∧
      ∀ client ∈ g.clients, client.pending = 0 ∧ client.pendingBytes = 0 ∧
        ∀ size ≤ bridgeSocketMaximumBufferedBytes,
          ¬inputBackpressure g client size
  idleTerminal : admitted g = [] → ∀ (size : Nat) (channel : Channel),
    size ≤ bridgeSocketMaximumFrameBytes →
      channel.bytes + size ≤ terminalBytes →
        ¬(terminalBytes < channel.bytes + size ∨
          gatewayTerminalBytes < g.pendingBytes + size)

theorem totalSize_filter (tasks : List Task) (p : Task → Bool) :
    (totalSize (tasks.filter p) : Int) =
      (tasks.map fun task => if p task then (task.size : Int) else 0).sum := by
  induction tasks with
  | nil => rfl
  | cons task rest ih =>
    rw [List.filter_cons, List.map_cons, List.sum_cons, ← ih]
    split
    · simp [totalSize]
    · simp

theorem length_filter (tasks : List Task) (p : Task → Bool) :
    ((tasks.filter p).length : Int) =
      (tasks.map fun task => if p task then (1 : Int) else 0).sum := by
  induction tasks with
  | nil => rfl
  | cons task rest ih =>
    rw [List.filter_cons, List.map_cons, List.sum_cons, ← ih]
    split
    · simp only [List.length_cons, Nat.cast_add, Nat.cast_one]
      omega
    · simp

theorem heldBytes_eq (g : Gateway) :
    heldBytes (g.tasks.map Task.share) = totalSize (admitted g) := by
  rw [admitted, totalSize_filter, heldBytes, List.map_map]
  rfl

theorem requestCount_eq (g : Gateway) (c : Nat) :
    requestCount (g.tasks.map Task.share) c = (requestsOf g c).length := by
  rw [requestsOf, length_filter, requestCount, List.map_map]
  rfl

theorem requestBytes_eq (g : Gateway) (c : Nat) :
    requestBytes (g.tasks.map Task.share) c = totalSize (requestsOf g c) := by
  rw [requestsOf, totalSize_filter, requestBytes, List.map_map]
  rfl

/-- A frame that ends with the gateway's counters right and none under way meets
only the limits of its own connection or channel. -/
theorem conserved_of {g : Gateway} (hbalanced : (accounts g).Balanced)
    (htotal : g.pendingBytes = totalSize (admitted g)) : Conserved g := by
  have hclients : ∀ (c : Nat) (client : Client), g.clients[c]? = some client →
      client.pending = (requestsOf g c).length ∧
        client.pendingBytes = totalSize (requestsOf g c) := by
    intro c client hclient
    have hload := hbalanced.loads c client.load (by
      simp [accounts, hclient])
    simp only [accounts, requestCount_eq, requestBytes_eq, Client.load,
      Load.mk.injEq] at hload
    exact hload
  have hnone : admitted g = [] → ∀ c, requestsOf g c = [] := by
    intro hidle c
    rw [requestsOf, List.filter_eq_nil_iff]
    intro task htask hunder
    have hfree := List.filter_eq_nil_iff.1 hidle task htask
    simp only [Task.requests, Bool.and_eq_true] at hunder
    exact hfree (by
      simp only [Task.admitted, counted_of_isRequest hunder.1.1, hunder.1.2,
        Bool.and_self])
  have hzero : admitted g = [] → g.pendingBytes = 0 := by
    intro hidle
    rw [htotal, hidle]
    rfl
  refine ⟨htotal, hclients, fun hidle => ⟨hzero hidle, ?_⟩, ?_⟩
  · intro client hmem
    obtain ⟨c, hc⟩ := List.mem_iff_getElem?.1 hmem
    have hload := hclients c client hc
    rw [hnone hidle c] at hload
    refine ⟨hload.1, hload.2, fun size hsize => ?_⟩
    simp only [inputBackpressure, hload.1, hload.2, hzero hidle, totalSize]
    simp only [bridgeSocketMaximumBufferedBytes, gatewayRequestBytes] at *
    simp
    omega
  · intro hidle size channel hsize hchannel
    rw [hzero hidle]
    simp only [bridgeSocketMaximumFrameBytes, gatewayTerminalBytes] at *
    omega

section Runs

variable (maximumConnections : Nat)

/-- What holds in every run, refusals or not. -/
structure Booked (g : Gateway) : Prop where
  balanced : (accounts g).Balanced
  excess : 0 ≤ (accounts g).excess

theorem initial_booked : Booked Gateway.initial :=
  ⟨⟨fun _ _ h => by simp [accounts, Gateway.initial] at h,
    fun _ h => by simp [accounts, Gateway.initial] at h⟩, by decide⟩

theorem step_excess (g : Gateway) (action : Action) :
    (accounts ((gateway maximumConnections).step g action).1).excess =
      (accounts g).excess + refusedBytes g action := by
  obtain ⟨middle, hposted, hstep⟩ := step_posted maximumConnections g action
  rw [hstep, ← hposted.excess_eq]
  simp only [Accounts.excess, Accounts.keep]
  omega

theorem step_booked (g : Gateway) (action : Action) (h : Booked g) :
    Booked ((gateway maximumConnections).step g action).1 := by
  obtain ⟨middle, hposted, hstep⟩ := step_posted maximumConnections g action
  constructor
  · have hbalanced := hposted.balanced h.balanced
    rw [hstep]
    exact ⟨hbalanced.loads, hbalanced.clients⟩
  · rw [step_excess]
    have hexcess := h.excess
    omega

theorem run_booked (actions : List Action) :
    Booked ((gateway maximumConnections).after Gateway.initial actions) :=
  Machine.after_invariant Booked
    (fun g action => step_booked maximumConnections g action) initial_booked
    actions

theorem conserved_iff {g : Gateway} (h : Booked g) :
    Conserved g ↔ (accounts g).excess = 0 := by
  have hexcess : (accounts g).excess =
      g.pendingBytes - totalSize (admitted g) := by
    simp only [Accounts.excess, accounts, heldBytes_eq]
  constructor
  · intro hconserved
    rw [hexcess, hconserved.total]
    omega
  · intro hzero
    exact conserved_of h.balanced (by omega)

/-- At every moment of a run the counters are those of the frames under way, if
and only if no terminal frame of the run is refused by its limits. -/
theorem bytes_conserved_iff (actions : List Action) :
    (∀ moment, Conserved ((gateway maximumConnections).after Gateway.initial
        (actions.take moment))) ↔
      (gateway maximumConnections).AllSteps
        (fun g action => refusedBytes g action = 0) Gateway.initial actions := by
  have hiff : ∀ actions,
      Conserved ((gateway maximumConnections).after Gateway.initial actions) ↔
        (gateway maximumConnections).AllSteps
          (fun g action => refusedBytes g action = 0) Gateway.initial
            actions := by
    intro actions
    rw [conserved_iff (run_booked maximumConnections actions),
      Machine.AllSteps.iff_after Booked (fun g => (accounts g).excess = 0)
        (fun g action => step_booked maximumConnections g action)
        (fun g action hbooked => ?_) initial_booked actions]
    · exact and_iff_right (by decide)
    · have hexcess := hbooked.excess
      rw [step_excess]
      omega
  constructor
  · intro hconserved
    have hend := hconserved actions.length
    rw [List.take_length] at hend
    exact (hiff actions).1 hend
  · intro hsteps moment
    rw [hiff]
    rw [← List.take_append_drop moment actions] at hsteps
    exact hsteps.append.1

end Runs

namespace BridgeGatewayTotalsWitness

def wire : Wire := ⟨true, true, true⟩

def target : Target := ⟨1, 2, 3⟩

/-- A connection comes and opens a terminal. -/
def connect : List Action :=
  [Action.upgrade true wire, Action.registerAnswers 0 (some target) false wire,
    Action.settleCall 0 true, Action.handOff 0 false true wire,
    Action.openChannel .terminal target 0 7 wire]

/-- Four terminal frames, the last of which is refused; the first three end. -/
def refuse : List Action :=
  List.replicate 4 (Action.message 0 750000 (.terminal (some (7, false)))) ++
    [1, 2, 3].flatMap fun t =>
      [Action.advance t true wire, Action.advance t true wire]

/-- Nothing is under way, and a frame stands in the total. -/
theorem refused_frame_counted :
    ¬∀ moment, Conserved ((gateway 4).after Gateway.initial
      ((connect ++ refuse).take moment)) := by
  intro hconserved
  have htotal := (hconserved (connect ++ refuse).length).total
  exact absurd htotal (by decide)

end BridgeGatewayTotalsWitness

end Allrice.BridgeGateway
