/-
Nothing that may not be repeated is handed over twice, however the events of the
sockets fall; and once the timers and continuations of a request have come, it
has been settled.
-/
import Allrice.BridgeTransportRuns

namespace Machine

universe u v w

variable {σ : Type u} {α : Type v} {β : Type w} {m : Machine σ α β}

/-- The expected actions come in their order, with any others in between: each
of them reaches one level more, and no action loses a level. -/
theorem after_sublist (Reached : ℕ → σ → Prop)
    (hkeep : ∀ n s action, Reached n s → Reached n (m.step s action).1)
    {expected actions : List α} (hsub : expected.Sublist actions)
    {n : ℕ} (hraise : ∀ i action, expected[i]? = some action →
      ∀ s, Reached (n + i) s → Reached (n + i + 1) (m.step s action).1)
    {s : σ} (hs : Reached n s) :
    Reached (n + expected.length) (m.after s actions) := by
  induction hsub generalizing n s with
  | slnil => exact hs
  | cons action _ ih => exact ih hraise (hkeep n s action hs)
  | cons_cons action _ ih =>
    rename_i expected rest _
    have hnext : Reached (n + 1) (m.step s action).1 :=
      hraise 0 action rfl s hs
    have hlater := ih (fun i other hother t ht => by
      have hstep := hraise (i + 1) other hother t
      rw [show n + (i + 1) = n + 1 + i by omega] at hstep
      exact hstep ht) hnext
    rw [show n + 1 + expected.length = n + (action :: expected).length by
      rw [List.length_cons]
      omega] at hlater
    exact hlater

end Machine

namespace Allrice.BridgeTransport

open Transport

/-- What holds of every state of a run. -/
structure Kept (s : Transport) : Prop where
  linked : Linked s
  accounted : ∀ id, Accounted (s.input id).repeatable (s.stage id)
    (transmissions s.log id) (settlements s.log id)

theorem Kept.initial (enabled : Bool) : Kept (.initial enabled) where
  linked :=
    { fresh := fun id => iff_of_true rfl (Nat.zero_le id)
      pending := fun id => by
        refine iff_of_false List.not_mem_nil fun hsent => ?_
        obtain ⟨socket, hsent⟩ := hsent
        cases hsent
      quiet := fun _ => rfl }
  accounted _ := ⟨rfl, rfl⟩

variable {s : Transport} {id socket : Nat} {first second third : Bool}

theorem Kept.advances {t : Transport} (h : Kept s) (hadvances : Advances s t) :
    Kept t where
  linked := hadvances.linked
  accounted id := by
    obtain ⟨hinput, sent, settled, hmoves, hsent, hsettled⟩ :=
      hadvances.moved id
    rw [hsent, hsettled]
    apply hmoves.accounted
    by_cases hstage : s.stage id = .unissued
    · have hold := h.accounted id
      rw [hstage] at hold ⊢
      exact hold
    · rw [hinput hstage]
      exact h.accounted id

theorem Kept.step (h : Kept s) (action : Action) :
    Kept (bridgeDualTransport.step s action).1 :=
  h.advances (h.linked.step action)

theorem run_kept (enabled : Bool) (actions : List Action) :
    Kept (bridgeDualTransport.after (.initial enabled) actions) :=
  Machine.after_invariant Kept (fun _ action h => h.step action)
    (.initial enabled) actions

def phase (s : Transport) (id : Nat) : Nat :=
  match s.stage id with
  | .unissued => 0
  | .connecting socket _ =>
    if (s.outcome socket).isSome then
      if s.finished socket then 2 else 1
    else 0
  | .connected _ => 3
  | .sent _ => 4
  | .answered | .unavailable _ => 5
  | .http => 6
  | .settled => 7

/-- An issued request, which waits for no connection but one, has come to a
phase. -/
structure Reached (id socket n : Nat) (s : Transport) : Prop where
  linked : Linked s
  issued : s.stage id ≠ .unissued
  connecting : ∀ other creator,
    s.stage id = .connecting other creator → other = socket
  come : n ≤ phase s id

section

variable {s t : Transport} {id socket n : Nat} {creator : Bool}

theorem phase_connecting (hstage : s.stage id = .connecting socket creator) :
    phase s id = if (s.outcome socket).isSome then
      if s.finished socket then 2 else 1 else 0 := by
  rw [phase, hstage]

theorem phase_connecting_le (hstage : s.stage id = .connecting socket creator) :
    phase s id ≤ 2 := by
  rw [phase_connecting hstage]
  split
  · split <;> omega
  · omega

theorem Remembers.phase (h : Remembers s t)
    (hold : s.stage id = .connecting socket creator)
    (hnew : t.stage id = .connecting socket creator) :
    phase s id ≤ phase t id := by
  rw [phase_connecting hold, phase_connecting hnew]
  by_cases houtcome : (s.outcome socket).isSome
  · rw [if_pos houtcome, if_pos (h.outcome socket houtcome)]
    by_cases hfinished : s.finished socket = true
    · rw [if_pos hfinished, if_pos (h.finished socket hfinished)]
    · rw [if_neg hfinished]
      split <;> omega
  · rw [if_neg houtcome]
    exact Nat.zero_le _

/-- No step takes a request back. -/
theorem Advances.phase (h : Advances s t) (id : Nat) :
    phase s id ≤ phase t id := by
  obtain ⟨-, sent, settled, hmoves, -, -⟩ := h.moved id
  generalize hold : s.stage id = old at hmoves
  generalize hnew : t.stage id = new at hmoves
  cases hmoves with
  | stay =>
    cases old with
    | connecting socket creator => exact h.remembers.phase hold hnew
    | _ =>
      rw [BridgeTransport.phase, BridgeTransport.phase, hold, hnew]
  | waits | begins | denied | direct =>
    rw [BridgeTransport.phase, hold]
    exact Nat.zero_le _
  | connects | refused =>
    refine (phase_connecting_le hold).trans ?_
    rw [BridgeTransport.phase, hnew]
    simp only
    omega
  | _ =>
    rw [BridgeTransport.phase, BridgeTransport.phase, hold, hnew]
    simp only
    omega

theorem Reached.advances (h : Reached id socket n s)
    (hadvances : Advances s t) : Reached id socket n t := by
  obtain ⟨-, sent, settled, hmoves, -, -⟩ := hadvances.moved id
  refine ⟨hadvances.linked, hmoves.issued h.issued,
    fun other creator hnew => ?_, h.come.trans (hadvances.phase id)⟩
  rw [hnew] at hmoves
  generalize hold : s.stage id = old at hmoves
  cases hmoves with
  | stay => exact h.connecting other creator hold
  | waits => exact absurd hold h.issued

theorem Reached.step (h : Reached id socket n s) (action : Action) :
    Reached id socket n (transportStep s action) :=
  h.advances (h.linked.step action)

theorem Reached.raise (h : Reached id socket n s) (action : Action)
    (hraise : phase s id = n → n + 1 ≤ phase (transportStep s action) id) :
    Reached id socket (n + 1) (transportStep s action) := by
  have hstep := h.step action
  refine ⟨hstep.linked, hstep.issued, hstep.connecting, ?_⟩
  rcases Nat.eq_or_lt_of_le h.come with hn | hn
  · exact hraise hn.symm
  · exact Nat.lt_of_lt_of_le hn ((h.linked.step action).phase id)

theorem Reached.waiting (h : Reached id socket n s) (hphase : phase s id ≤ 2) :
    ∃ creator, s.stage id = .connecting socket creator := by
  cases hstage : s.stage id with
  | connecting other creator =>
    obtain rfl := h.connecting other creator hstage
    exact ⟨creator, rfl⟩
  | unissued => exact absurd hstage h.issued
  | _ =>
    rw [phase, hstage] at hphase
    simp only at hphase
    omega

theorem phase_connectTimeout {creator : Bool}
    (hstage : s.stage id = .connecting socket creator) :
    1 ≤ phase (s.connectTimeout socket) id := by
  have hnow : (s.connectTimeout socket).stage id =
      .connecting socket creator := by
    rw [connectTimeout]
    split
    · exact hstage
    · show (s.settle socket false).stage id = _
      rw [settle_stage]
      exact hstage
  have houtcome : ((s.connectTimeout socket).outcome socket).isSome := by
    rw [connectTimeout]
    split
    · rename_i hsome
      rw [hsome]
      rfl
    · rename_i hnone
      show ((s.settle socket false).outcome socket).isSome
      rw [settle, hnone]
      show (Function.update s.outcome socket (some false) socket).isSome
      rw [Function.update_self]
      rfl
  rw [phase_connecting hnow, if_pos houtcome]
  split <;> omega

theorem phase_finish (hstage : s.stage id = .connecting socket creator)
    (houtcome : (s.outcome socket).isSome) :
    2 ≤ phase (s.finish socket) id := by
  have hnow : (s.finish socket).stage id = .connecting socket creator := by
    rw [finish]
    split
    · exact hstage
    · exact hstage
  have hkept : ((s.finish socket).outcome socket).isSome := by
    rw [finish]
    split
    · exact houtcome
    · exact houtcome
  have hfinished : (s.finish socket).finished socket = true := by
    rw [finish]
    split
    · exact Function.update_self ..
    · rename_i hnot
      cases hold : s.finished socket with
      | true => rfl
      | false => exact absurd ⟨houtcome, hold⟩ hnot
  rw [phase_connecting hnow, if_pos hkept, if_pos hfinished]

theorem phase_setStage (stage : Stage) (h : ∀ other creator,
    stage ≠ .connecting other creator) :
    phase (s.setStage id stage) id =
      match stage with
      | .unissued | .connecting _ _ => 0
      | .connected _ => 3
      | .sent _ => 4
      | .answered | .unavailable _ => 5
      | .http => 6
      | .settled => 7 := by
  have hstage : (s.setStage id stage).stage id = stage :=
    Function.update_self ..
  rw [phase, hstage]
  cases stage with
  | connecting other creator => exact absurd rfl (h other creator)
  | _ => rfl

theorem phase_settleRequest : phase (s.settleRequest id) id = 7 :=
  phase_setStage .settled fun _ _ h => by cases h

theorem phase_bridgeRequest : phase (s.bridgeRequest id) id = 6 :=
  phase_setStage .http fun _ _ h => by cases h

theorem phase_unavailable (sent : Bool) :
    phase (s.setStage id (.unavailable sent)) id = 5 :=
  phase_setStage (.unavailable sent) fun _ _ h => by cases h

theorem phase_proceed_connecting {creator : Bool} (crowded : Bool)
    (hstage : s.stage id = .connecting socket creator)
    (hphase : phase s id = 2) : 3 ≤ phase (s.proceed id crowded) id := by
  rw [phase_connecting hstage] at hphase
  split at hphase
  · rename_i houtcome
    obtain ⟨value, hvalue⟩ := Option.isSome_iff_exists.1 houtcome
    split at hphase
    · rename_i hfinished
      rw [proceed, hstage]
      simp only [hvalue]
      have hnot : s.finished socket ≠ false := by
        rw [hfinished]
        decide
      rw [if_neg hnot]
      split
      · rw [phase_settleRequest]
        omega
      · rw [phase_setStage (.connected value) fun _ _ h => by cases h]
    · omega
  · omega

theorem phase_proceed_connected {value : Bool} (crowded : Bool)
    (hstage : s.stage id = .connected value) :
    4 ≤ phase (s.proceed id crowded) id := by
  rw [proceed, hstage]
  simp only [rpc]
  split
  · rw [phase_unavailable]
    omega
  split
  · rw [phase_unavailable]
    omega
  split
  · rw [phase_settleRequest]
    omega
  split
  · rw [phase_unavailable]
    omega
  split
  · exact (@phase_unavailable s id true).ge.trans' (by omega)
  · rename_i sender _ _ _ _ _
    exact (@phase_setStage s id (.sent sender)
      fun _ _ h => by cases h).ge

theorem phase_sendTimeout (hstage : s.stage id = .sent socket) :
    5 ≤ phase (s.sendTimeout id) id := by
  rw [sendTimeout, hstage]
  exact (phase_unavailable true).ge

theorem phase_proceed_unavailable (crowded : Bool) (hphase : phase s id = 5) :
    6 ≤ phase (s.proceed id crowded) id := by
  cases hstage : s.stage id with
  | answered =>
    rw [proceed, hstage]
    simp only
    rw [phase_settleRequest]
    omega
  | unavailable sent =>
    rw [proceed, hstage]
    simp only
    split
    · rw [phase_settleRequest]
      omega
    split
    · rw [phase_settleRequest]
      omega
    · rw [phase_bridgeRequest]
  | connecting other creator =>
    have hle := phase_connecting_le hstage
    omega
  | _ =>
    rw [phase, hstage] at hphase
    simp only at hphase
    omega

end

/-- The timers and continuations that a request waits for, which connects over
`socket` if it has yet to be connected. -/
def deadlines (socket id : Nat) (first second third : Bool) : List Action :=
  [.connectTimeout socket, .finish socket, .proceed id first,
    .proceed id second, .sendTimeout id, .proceed id third, .httpDone id]

theorem Reached.deadline {n : Nat} {action : Action} (h : Reached id socket n s)
    (hdue : (deadlines socket id first second third)[n]? = some action) :
    Reached id socket (n + 1) (transportStep s action) := by
  apply h.raise
  intro hphase
  match n, hdue with
  | 0, hdue =>
    obtain rfl := Option.some.inj hdue
    obtain ⟨creator, hstage⟩ := h.waiting (by omega)
    exact phase_connectTimeout hstage
  | 1, hdue =>
    obtain rfl := Option.some.inj hdue
    obtain ⟨creator, hstage⟩ := h.waiting (by omega)
    apply phase_finish hstage
    rw [phase_connecting hstage] at hphase
    split at hphase
    · assumption
    · omega
  | 2, hdue =>
    obtain rfl := Option.some.inj hdue
    obtain ⟨creator, hstage⟩ := h.waiting (by omega)
    exact phase_proceed_connecting first hstage hphase
  | 3, hdue =>
    obtain rfl := Option.some.inj hdue
    cases hstage : s.stage id with
    | connected value => exact phase_proceed_connected second hstage
    | connecting other creator =>
      have hle := phase_connecting_le hstage
      omega
    | _ =>
      rw [phase, hstage] at hphase
      simp only at hphase
      omega
  | 4, hdue =>
    obtain rfl := Option.some.inj hdue
    cases hstage : s.stage id with
    | sent sender => exact phase_sendTimeout hstage
    | connecting other creator =>
      have hle := phase_connecting_le hstage
      omega
    | _ =>
      rw [phase, hstage] at hphase
      simp only at hphase
      omega
  | 5, hdue =>
    obtain rfl := Option.some.inj hdue
    exact phase_proceed_unavailable third hphase
  | 6, hdue =>
    obtain rfl := Option.some.inj hdue
    cases hstage : s.stage id with
    | http =>
      simp only [transportStep, hstage]
      rw [phase_settleRequest]
    | connecting other creator =>
      have hle := phase_connecting_le hstage
      omega
    | _ =>
      rw [phase, hstage] at hphase
      simp only at hphase
      omega
  | n + 7, hdue => cases hdue

/-- Once they have come, whatever else has happened, the request is settled. -/
theorem Kept.settles (h : Kept s) (hissued : s.stage id ≠ .unissued)
    (hconnecting : ∀ other creator,
      s.stage id = .connecting other creator → other = socket)
    {later : List Action}
    (hlater : (deadlines socket id first second third).Sublist later) :
    (bridgeDualTransport.after s later).stage id = .settled := by
  have hreached : Reached id socket (0 + 7)
      (bridgeDualTransport.after s later) := by
    refine Machine.after_sublist (Reached id socket)
      (fun _ _ action hs => hs.step action) hlater
      (fun i action hdue t ht => ?_) ⟨h.linked, hissued, hconnecting, Nat.zero_le _⟩
    rw [Nat.zero_add] at ht ⊢
    exact ht.deadline hdue
  have hcome := hreached.come
  cases hstage : (bridgeDualTransport.after s later).stage id with
  | settled => rfl
  | connecting other creator =>
    have hle := phase_connecting_le hstage
    omega
  | _ =>
    rw [phase, hstage] at hcome
    simp only at hcome
    omega

theorem Kept.settled (h : Kept s) (id : Nat) :
    settlements s.log id = if s.stage id = .settled then 1 else 0 := by
  have haccounted := h.accounted id
  generalize s.stage id = stage at haccounted ⊢
  cases stage with
  | unavailable sent =>
    cases sent with
    | false | true => exact haccounted.2
  | _ => exact haccounted.2

theorem Kept.once {s : Transport} (h : Kept s) {id : Nat}
    (hunrepeatable : (s.input id).repeatable = false) :
    (transmissions s.log id).length ≤ 1 := by
  have haccounted := h.accounted id
  generalize s.stage id = stage at haccounted
  cases stage with
  | unissued | connecting | connected =>
    rw [haccounted.1]
    exact Nat.zero_le _
  | sent socket =>
    rw [haccounted.1]
    exact Nat.le_refl _
  | answered => exact haccounted.1
  | unavailable sent =>
    cases sent with
    | false =>
      rw [haccounted.1]
      exact Nat.zero_le _
    | true => exact haccounted.1
  | http | settled => exact haccounted.1 hunrepeatable

/-- What a response frame may do to the requests. -/
structure Response (s t : Transport) (socket id : Nat) : Prop where
  log : t.log = s.log
  others : ∀ other, other ≠ id → t.stage other = s.stage other
  own : t.stage id ≠ s.stage id →
    s.socket = some socket ∧ (∃ sender, s.stage id = .sent sender) ∧
      t.stage id = .answered

theorem Kept.response (h : Kept s) (socket id : Nat) :
    Response s (s.response socket id) socket id := by
  by_cases hsocket : s.socket = some socket
  · by_cases hready : s.ready = false
    · -- Nothing is pending yet, so the frame costs only the socket.
      have hstage : (s.response socket id).stage = s.stage := by
        rw [Transport.response, if_neg (not_not_intro hsocket), if_pos hready,
          protocolFailed, failed, if_neg (not_not_intro hsocket)]
        show (settle _ _ _).stage = _
        rw [settle_stage]
        funext other
        show (if other ∈ s.pending.map Prod.fst then Stage.unavailable true
          else s.stage other) = _
        rw [h.linked.quiet hready]
        rfl
      refine ⟨?_, fun other _ => by rw [hstage], fun hchanged => ?_⟩
      · rw [Transport.response, if_neg (not_not_intro hsocket), if_pos hready,
          protocolFailed, failed, if_neg (not_not_intro hsocket)]
        show (settle _ _ _).log = _
        rw [settle_log]
        rfl
      · rw [hstage] at hchanged
        exact absurd rfl hchanged
    · by_cases hmem : id ∈ s.pending.map Prod.fst
      · have hresponse : s.response socket id =
            { s.setStage id .answered with
              pending := s.pending.filter (·.1 ≠ id) } := by
          rw [Transport.response, if_neg (not_not_intro hsocket),
            if_neg hready, if_pos hmem]
        rw [hresponse]
        exact
          { log := rfl
            others := fun other hother => Function.update_of_ne hother ..
            own := fun _ =>
              ⟨hsocket, (h.linked.pending id).1 hmem,
                Function.update_self ..⟩ }
      · have hresponse : s.response socket id = s := by
          rw [Transport.response, if_neg (not_not_intro hsocket),
            if_neg hready, if_neg hmem]
        rw [hresponse]
        exact ⟨rfl, fun _ _ => rfl, fun hchanged => absurd rfl hchanged⟩
  · have hresponse : s.response socket id = s := by
      rw [Transport.response, if_pos hsocket]
    rw [hresponse]
    exact ⟨rfl, fun _ _ => rfl, fun hchanged => absurd rfl hchanged⟩

/-- The promises of the transport in a state. -/
structure NeverReplays (s : Transport) : Prop where
  started : ∀ id, (s.input id).action = some .start →
    (transmissions s.log id).length ≤ 1
  claimed : ∀ id, (s.input id).action = some .next →
    (s.input id).claimRecovery = false → (transmissions s.log id).length ≤ 1
  settled : ∀ id,
    settlements s.log id = if s.stage id = .settled then 1 else 0
  settles : ∀ id socket first second third later,
    s.stage id ≠ .unissued →
    (∀ other creator, s.stage id = .connecting other creator →
      other = socket) →
    (deadlines socket id first second third).Sublist later →
    settlements (bridgeDualTransport.after s later).log id = 1
  response : ∀ socket id, Response s
    (bridgeDualTransport.step s (.response socket id)).1 socket id

/-- The transport never hands over again what may have been started, and settles
every request once. -/
theorem bridge_transport_never_replays (enabled : Bool)
    (actions : List Action) :
    NeverReplays (bridgeDualTransport.after (.initial enabled) actions) := by
  have hkept := run_kept enabled actions
  generalize bridgeDualTransport.after (.initial enabled) actions = s at hkept
  exact
    { started := fun id hstart => hkept.once (by
        rw [Input.repeatable, hstart])
      claimed := fun id hnext hrecovery => hkept.once (by
        rw [Input.repeatable, hnext]
        exact hrecovery)
      settled := hkept.settled
      settles := fun id socket first second third later hissued hconnecting
          hlater => by
        have hafter : Kept (bridgeDualTransport.after s later) :=
          Machine.after_invariant Kept (fun _ action h => h.step action) hkept
            later
        rw [hafter.settled id,
          if_pos (hkept.settles hissued hconnecting hlater)]
      response := hkept.response }

namespace Reconnected

def heartbeat : Input := ⟨true, some .heartbeat, true, false, 100⟩

/-- A request is sent, its socket is given up before it closes, and another
request opens the next socket. -/
def actions : List Action :=
  [.request heartbeat false, .opened 0, .welcome 0 true, .finish 0,
    .proceed 0 false, .proceed 0 false, .sendFailed 0,
    .request heartbeat false, .opened 1]

/-- The next socket answers for the one before. -/
theorem other_socket_answers :
    (bridgeDualTransport.after (.initial true) actions).stage 0 = .sent 0 ∧
      (bridgeDualTransport.after (.initial true) actions).socket = some 1 ∧
      (bridgeDualTransport.after (.initial true)
        (actions ++ [Action.response 1 0])).stage 0 = .answered ∧
      settlements (bridgeDualTransport.after (.initial true)
        (actions ++ [Action.response 1 0, .proceed 0 false])).log 0 = 1 := by
  decide

end Reconnected

end Allrice.BridgeTransport
