/-
What a run of the transport does with one request: it moves along its stages,
and what it transmits and settles on the way is told by the move.  A request
that may not be repeated is handed over once, and every request is settled once.
-/
import Allrice.BridgeTransport

namespace Allrice.BridgeTransport

def Happening.request : Happening → Nat
  | .transmitted id _ => id
  | .settled id => id

/-- Where a request was handed over: a socket, or none for HTTP. -/
def transmissions (log : List Happening) (id : Nat) : List (Option Nat) :=
  log.filterMap fun
    | .transmitted other socket => if other = id then some socket else none
    | .settled _ => none

def settlements (log : List Happening) (id : Nat) : Nat :=
  log.count (.settled id)

/-- One move of a request: what it transmits, how often it is settled. -/
inductive Moves (repeatable : Bool) :
    Stage → Stage → List (Option Nat) → Nat → Prop
  | stay (stage : Stage) : Moves repeatable stage stage [] 0
  | waits (socket : Nat) (creator : Bool) :
      Moves repeatable .unissued (.connecting socket creator) [] 0
  | begins (value : Bool) : Moves repeatable .unissued (.connected value) [] 0
  | denied : Moves repeatable .unissued .settled [] 1
  | direct : Moves repeatable .unissued .http [none] 0
  | connects (socket : Nat) (creator value : Bool) :
      Moves repeatable (.connecting socket creator) (.connected value) [] 0
  | refused (socket : Nat) (creator : Bool) :
      Moves repeatable (.connecting socket creator) .settled [] 1
  | unsent (value : Bool) :
      Moves repeatable (.connected value) (.unavailable false) [] 0
  | tooLarge (value : Bool) : Moves repeatable (.connected value) .settled [] 1
  | thrown (value : Bool) :
      Moves repeatable (.connected value) (.unavailable true) [] 0
  | sends (value : Bool) (socket : Nat) :
      Moves repeatable (.connected value) (.sent socket) [some socket] 0
  | lost (socket : Nat) :
      Moves repeatable (.sent socket) (.unavailable true) [] 0
  | answers (socket : Nat) : Moves repeatable (.sent socket) .answered [] 0
  | resolves : Moves repeatable .answered .settled [] 1
  | rejects (sent : Bool) : Moves repeatable (.unavailable sent) .settled [] 1
  | falls (sent : Bool) (h : sent = true → repeatable = true) :
      Moves repeatable (.unavailable sent) .http [none] 0
  | fetched : Moves repeatable .http .settled [] 1

/-- What a stage says about the log. -/
def Accounted (repeatable : Bool) :
    Stage → List (Option Nat) → Nat → Prop
  | .unissued, sent, settled
  | .connecting _ _, sent, settled
  | .connected _, sent, settled
  | .unavailable false, sent, settled => sent = [] ∧ settled = 0
  | .sent socket, sent, settled => sent = [some socket] ∧ settled = 0
  | .answered, sent, settled
  | .unavailable true, sent, settled => sent.length ≤ 1 ∧ settled = 0
  | .http, sent, settled =>
    (repeatable = false → sent.length ≤ 1) ∧ settled = 0
  | .settled, sent, settled =>
    (repeatable = false → sent.length ≤ 1) ∧ settled = 1

variable {repeatable : Bool} {stage next : Stage} {more : List (Option Nat)}
  {times : Nat}

theorem Moves.accounted {sent : List (Option Nat)} {settled : Nat}
    (hmoves : Moves repeatable stage next more times)
    (h : Accounted repeatable stage sent settled) :
    Accounted repeatable next (sent ++ more) (settled + times) := by
  cases hmoves with
  | stay => simpa using h
  | waits | begins | connects | unsent =>
    obtain ⟨rfl, rfl⟩ := h
    exact ⟨rfl, rfl⟩
  | denied | refused | tooLarge | direct =>
    obtain ⟨rfl, rfl⟩ := h
    exact ⟨fun _ => by simp, rfl⟩
  | thrown =>
    obtain ⟨rfl, rfl⟩ := h
    exact ⟨Nat.zero_le _, rfl⟩
  | sends =>
    obtain ⟨rfl, rfl⟩ := h
    exact ⟨rfl, rfl⟩
  | lost | answers =>
    obtain ⟨rfl, rfl⟩ := h
    exact ⟨Nat.le_refl _, rfl⟩
  | resolves =>
    obtain ⟨hsent, rfl⟩ := h
    exact ⟨fun _ => by simpa using hsent, rfl⟩
  | rejects wasSent =>
    cases wasSent with
    | false =>
      obtain ⟨rfl, rfl⟩ := h
      exact ⟨fun _ => Nat.zero_le _, rfl⟩
    | true =>
      obtain ⟨hsent, rfl⟩ := h
      exact ⟨fun _ => by simpa using hsent, rfl⟩
  | falls wasSent hrepeatable =>
    cases wasSent with
    | false =>
      obtain ⟨rfl, rfl⟩ := h
      exact ⟨fun _ => Nat.le_refl _, rfl⟩
    | true =>
      obtain ⟨-, rfl⟩ := h
      refine ⟨fun hnot => ?_, rfl⟩
      rw [hrepeatable rfl] at hnot
      cases hnot
  | fetched =>
    obtain ⟨hsent, rfl⟩ := h
    exact ⟨fun hnot => by simpa using hsent hnot, rfl⟩

theorem Moves.issued (h : Moves repeatable stage next more times)
    (hstage : stage ≠ .unissued) : next ≠ .unissued := by
  cases h with
  | stay => exact hstage
  | _ => nofun

/-- The pending requests are those that have been sent. -/
structure Linked (s : Transport) : Prop where
  fresh : ∀ id, s.stage id = .unissued ↔ s.issued ≤ id
  pending : ∀ id, id ∈ s.pending.map Prod.fst ↔
    ∃ socket, s.stage id = .sent socket
  quiet : s.ready = false → s.pending = []

/-- What has come of a connection stays. -/
structure Remembers (s t : Transport) : Prop where
  outcome : ∀ socket, (s.outcome socket).isSome → (t.outcome socket).isSome
  finished : ∀ socket, s.finished socket = true → t.finished socket = true

theorem Remembers.of_eq {s t : Transport} (houtcome : t.outcome = s.outcome)
    (hfinished : t.finished = s.finished) : Remembers s t where
  outcome socket h := by
    rw [houtcome]
    exact h
  finished socket h := by
    rw [hfinished]
    exact h

/-- A request has made a move from one state to the next. -/
structure Moved (s t : Transport) (id : Nat) : Prop where
  input : s.stage id ≠ .unissued → t.input id = s.input id
  move : ∃ sent settled,
    Moves (t.input id).repeatable (s.stage id) (t.stage id) sent settled ∧
      transmissions t.log id = transmissions s.log id ++ sent ∧
      settlements t.log id = settlements s.log id + settled

structure Advances (s t : Transport) : Prop where
  linked : Linked t
  moved : ∀ id, Moved s t id
  remembers : Remembers s t

theorem transmissions_append (first second : List Happening) (id : Nat) :
    transmissions (first ++ second) id =
      transmissions first id ++ transmissions second id :=
  List.filterMap_append

theorem settlements_append (first second : List Happening) (id : Nat) :
    settlements (first ++ second) id =
      settlements first id + settlements second id :=
  List.count_append

/-- What happens to other requests. -/
theorem nothing_for {happenings : List Happening} {id other : Nat}
    (hown : ∀ happening ∈ happenings, happening.request = id)
    (hother : other ≠ id) :
    transmissions happenings other = [] ∧ settlements happenings other = 0 := by
  constructor
  · rw [transmissions, List.filterMap_eq_nil_iff]
    intro happening hmem
    have hid := hown happening hmem
    cases happening with
    | transmitted transmittedId socket =>
      obtain rfl : transmittedId = id := hid
      exact if_neg (Ne.symm hother)
    | settled settledId => rfl
  · rw [settlements, List.count_eq_zero]
    intro hmem
    exact hother (hown _ hmem)

section

variable {s t : Transport}

theorem Moved.same {id : Nat} (hinput : t.input id = s.input id)
    (hstage : t.stage id = s.stage id) {happenings : List Happening}
    (hlog : t.log = s.log ++ happenings)
    (hnothing : transmissions happenings id = [] ∧
      settlements happenings id = 0) : Moved s t id where
  input _ := hinput
  move := ⟨[], 0, by
    rw [hstage]
    exact .stay _, by rw [hlog, transmissions_append, hnothing.1], by
    rw [hlog, settlements_append, hnothing.2]⟩

/-- Nothing of a request has changed. -/
theorem Linked.still (h : Linked s) (hissued : t.issued = s.issued)
    (hinput : t.input = s.input) (hstage : t.stage = s.stage)
    (hlog : t.log = s.log) (hpending : t.pending = s.pending)
    (hready : t.ready = false → s.ready = false) (hremembers : Remembers s t) :
    Advances s t where
  linked :=
    { fresh := by
        rw [hissued, hstage]
        exact h.fresh
      pending := by
        rw [hpending, hstage]
        exact h.pending
      quiet := fun hnot => by
        rw [hpending]
        exact h.quiet (hready hnot) }
  moved id := .same (by rw [hinput]) (by rw [hstage])
    (hlog.trans (List.append_nil _).symm) ⟨rfl, rfl⟩
  remembers := hremembers

/-- One issued request makes a move. -/
theorem Linked.one (h : Linked s) (id : Nat) (stage : Stage)
    (happenings : List Happening) (hold : s.stage id ≠ .unissued)
    (hmoves : Moves (s.input id).repeatable (s.stage id) stage
      (transmissions happenings id) (settlements happenings id))
    (hown : ∀ happening ∈ happenings, happening.request = id)
    (hissued : t.issued = s.issued) (hinput : t.input = s.input)
    (hstage : t.stage = Function.update s.stage id stage)
    (hlog : t.log = s.log ++ happenings)
    (hpending : ∀ other, other ∈ t.pending.map Prod.fst ↔
      if other = id then ∃ socket, stage = .sent socket
      else other ∈ s.pending.map Prod.fst)
    (hquiet : t.ready = false → t.pending = [])
    (hremembers : Remembers s t) : Advances s t where
  linked :=
    { fresh := fun other => by
        rw [hissued, hstage]
        by_cases hother : other = id
        · subst hother
          rw [Function.update_self, ← h.fresh other]
          exact iff_of_false (hmoves.issued hold) hold
        · rw [Function.update_of_ne hother]
          exact h.fresh other
      pending := fun other => by
        rw [hpending, hstage]
        split
        · rename_i hother
          rw [hother, Function.update_self]
        · rename_i hother
          rw [Function.update_of_ne hother]
          exact h.pending other
      quiet := hquiet }
  moved other := by
    by_cases hother : other = id
    · subst hother
      refine ⟨fun _ => by rw [hinput], transmissions happenings other,
        settlements happenings other, ?_, ?_, ?_⟩
      · rw [hinput, hstage, Function.update_self]
        exact hmoves
      · rw [hlog, transmissions_append]
      · rw [hlog, settlements_append]
    · exact .same (by rw [hinput])
        (by rw [hstage, Function.update_of_ne hother]) hlog
        (nothing_for hown hother)
  remembers := hremembers

/-- A new request. -/
theorem Linked.issue (h : Linked s) (input : Input) (stage : Stage)
    (happenings : List Happening)
    (hmoves : Moves input.repeatable .unissued stage
      (transmissions happenings s.issued) (settlements happenings s.issued))
    (hunsent : ∀ socket, stage ≠ .sent socket) (hnew : stage ≠ .unissued)
    (hown : ∀ happening ∈ happenings, happening.request = s.issued)
    (hissued : t.issued = s.issued + 1)
    (hinput : t.input = Function.update s.input s.issued input)
    (hstage : t.stage = Function.update s.stage s.issued stage)
    (hlog : t.log = s.log ++ happenings) (hpending : t.pending = s.pending)
    (hready : t.ready = s.ready) (hremembers : Remembers s t) :
    Advances s t where
  linked :=
    { fresh := fun other => by
        rw [hissued, hstage]
        by_cases hother : other = s.issued
        · subst hother
          rw [Function.update_self]
          exact iff_of_false hnew (by omega)
        · rw [Function.update_of_ne hother, h.fresh other]
          omega
      pending := fun other => by
        rw [hpending, hstage, h.pending other]
        by_cases hother : other = s.issued
        · subst hother
          have hunissued := (h.fresh s.issued).2 (Nat.le_refl _)
          rw [Function.update_self, hunissued]
          refine iff_of_false (fun hold => ?_) fun hsent => ?_
          · obtain ⟨socket, hold⟩ := hold
            cases hold
          · obtain ⟨socket, hsent⟩ := hsent
            exact hunsent socket hsent
        · rw [Function.update_of_ne hother]
      quiet := fun hnot => by
        rw [hpending]
        exact h.quiet (hready ▸ hnot) }
  moved other := by
    by_cases hother : other = s.issued
    · subst hother
      have hunissued := (h.fresh s.issued).2 (Nat.le_refl _)
      refine ⟨fun hissued => absurd hunissued hissued,
        transmissions happenings s.issued, settlements happenings s.issued,
        ?_, ?_, ?_⟩
      · rw [hinput, hstage, Function.update_self, Function.update_self,
          hunissued]
        exact hmoves
      · rw [hlog, transmissions_append]
      · rw [hlog, settlements_append]
    · exact .same (by rw [hinput, Function.update_of_ne hother])
        (by rw [hstage, Function.update_of_ne hother]) hlog
        (nothing_for hown hother)
  remembers := hremembers

/-- What a step may do behind the moves: ready states and outcomes. -/
theorem Advances.readyState (h : Advances s t) (states : Nat → ReadyState) :
    Advances s { t with readyState := states } where
  linked := ⟨h.linked.fresh, h.linked.pending, h.linked.quiet⟩
  moved id := ⟨(h.moved id).input, (h.moved id).move⟩
  remembers := ⟨h.remembers.outcome, h.remembers.finished⟩

theorem Remembers.settle (s : Transport) (socket : Nat) (value : Bool) :
    Remembers s (s.settle socket value) := by
  rw [Transport.settle]
  split
  · exact .of_eq rfl rfl
  · refine ⟨fun other hother => ?_, fun _ h => h⟩
    show (Function.update s.outcome socket (some value) other).isSome
    by_cases hsame : other = socket
    · subst hsame
      rw [Function.update_self]
      rfl
    · rw [Function.update_of_ne hsame]
      exact hother

theorem Remembers.trans {u : Transport} (first : Remembers s t)
    (second : Remembers t u) : Remembers s u where
  outcome socket h := second.outcome socket (first.outcome socket h)
  finished socket h := second.finished socket (first.finished socket h)

@[simp] theorem Transport.settle_stage (s : Transport) (socket : Nat)
    (value : Bool) : (s.settle socket value).stage = s.stage := by
  rw [Transport.settle]
  split <;> rfl

@[simp] theorem Transport.settle_pending (s : Transport) (socket : Nat)
    (value : Bool) : (s.settle socket value).pending = s.pending := by
  rw [Transport.settle]
  split <;> rfl

@[simp] theorem Transport.settle_log (s : Transport) (socket : Nat)
    (value : Bool) : (s.settle socket value).log = s.log := by
  rw [Transport.settle]
  split <;> rfl

@[simp] theorem Transport.settle_input (s : Transport) (socket : Nat)
    (value : Bool) : (s.settle socket value).input = s.input := by
  rw [Transport.settle]
  split <;> rfl

@[simp] theorem Transport.settle_issued (s : Transport) (socket : Nat)
    (value : Bool) : (s.settle socket value).issued = s.issued := by
  rw [Transport.settle]
  split <;> rfl

@[simp] theorem Transport.settle_ready (s : Transport) (socket : Nat)
    (value : Bool) : (s.settle socket value).ready = s.ready := by
  rw [Transport.settle]
  split <;> rfl

theorem Advances.settle (h : Advances s t) (socket : Nat) (value : Bool) :
    Advances s (t.settle socket value) where
  linked :=
    { fresh := by simpa using h.linked.fresh
      pending := by simpa using h.linked.pending
      quiet := by simpa using h.linked.quiet }
  moved id :=
    { input := by simpa using (h.moved id).input
      move := by simpa using (h.moved id).move }
  remembers := h.remembers.trans (.settle t socket value)

theorem Linked.goes (h : Linked s) {id : Nat} (stage : Stage)
    (happenings : List Happening) (hold : s.stage id ≠ .unissued)
    (hwaits : ∀ socket, s.stage id ≠ .sent socket)
    (hunsent : ∀ socket, stage ≠ .sent socket)
    (hmoves : Moves (s.input id).repeatable (s.stage id) stage
      (transmissions happenings id) (settlements happenings id))
    (hown : ∀ happening ∈ happenings, happening.request = id) :
    Advances s { s.setStage id stage with log := s.log ++ happenings } := by
  refine h.one id stage happenings hold hmoves hown rfl rfl rfl rfl
    (fun other => ?_) h.quiet (.of_eq rfl rfl)
  show other ∈ s.pending.map Prod.fst ↔ _
  split
  · rename_i hother
    subst hother
    rw [h.pending other]
    refine iff_of_false (fun hsent => ?_) fun hsent => ?_
    · obtain ⟨socket, hsent⟩ := hsent
      exact hwaits socket hsent
    · obtain ⟨socket, hsent⟩ := hsent
      exact hunsent socket hsent
  · exact Iff.rfl

variable {id socket : Nat} {value : Bool} {stage : Stage}

theorem Linked.setStage (h : Linked s) (stage : Stage)
    (hold : s.stage id ≠ .unissued)
    (hwaits : ∀ socket, s.stage id ≠ .sent socket)
    (hunsent : ∀ socket, stage ≠ .sent socket)
    (hmoves : Moves (s.input id).repeatable (s.stage id) stage [] 0) :
    Advances s (s.setStage id stage) := by
  have hgoes := h.goes stage [] hold hwaits hunsent hmoves
    (fun _ hmem => absurd hmem List.not_mem_nil)
  rw [List.append_nil] at hgoes
  exact hgoes

theorem transmissions_settled (id : Nat) :
    transmissions [.settled id] id = [] := rfl

theorem settlements_settled (id : Nat) :
    settlements [.settled id] id = 1 := List.count_singleton_self

theorem transmissions_transmitted (id : Nat) (socket : Option Nat) :
    transmissions [.transmitted id socket] id = [socket] := by
  simp [transmissions]

theorem settlements_transmitted (id other : Nat) (socket : Option Nat) :
    settlements [.transmitted id socket] other = 0 :=
  List.count_eq_zero.2 (by simp)

theorem Linked.settleRequest (h : Linked s) (hold : s.stage id ≠ .unissued)
    (hwaits : ∀ socket, s.stage id ≠ .sent socket)
    (hmoves : Moves (s.input id).repeatable (s.stage id) .settled [] 1) :
    Advances s (s.settleRequest id) := by
  apply h.goes .settled [.settled id] hold hwaits
  · intro socket hsent
    cases hsent
  · rw [transmissions_settled, settlements_settled]
    exact hmoves
  · intro happening hmem
    rw [List.mem_singleton.1 hmem]
    rfl

theorem Linked.bridgeRequest (h : Linked s) (hold : s.stage id ≠ .unissued)
    (hwaits : ∀ socket, s.stage id ≠ .sent socket)
    (hmoves : Moves (s.input id).repeatable (s.stage id) .http [none] 0) :
    Advances s (s.bridgeRequest id) := by
  apply h.goes .http [.transmitted id none] hold hwaits
  · intro socket hsent
    cases hsent
  · rw [transmissions_transmitted, settlements_transmitted]
    exact hmoves
  · intro happening hmem
    rw [List.mem_singleton.1 hmem]
    rfl

theorem Linked.issueAs (h : Linked s) {input : Input}
    (hunsent : ∀ socket, stage ≠ .sent socket) (hnew : stage ≠ .unissued)
    (hmoves : Moves input.repeatable .unissued stage [] 0)
    (hissued : t.issued = s.issued + 1)
    (hinput : t.input = Function.update s.input s.issued input)
    (hstage : t.stage = Function.update s.stage s.issued stage)
    (hlog : t.log = s.log) (hpending : t.pending = s.pending)
    (hready : t.ready = s.ready) (hremembers : Remembers s t) : Advances s t :=
  h.issue input stage [] hmoves hunsent hnew
    (fun _ hmem => absurd hmem List.not_mem_nil) hissued hinput hstage
    (hlog.trans (List.append_nil _).symm) hpending hready hremembers

theorem Linked.issueSettled (h : Linked s) (input : Input) :
    Advances s ((s.issue input).settleRequest s.issued) := by
  apply h.issue input .settled [.settled s.issued]
  · rw [transmissions_settled, settlements_settled]
    exact .denied
  · intro socket hsent
    cases hsent
  · nofun
  · intro happening hmem
    rw [List.mem_singleton.1 hmem]
    rfl
  · rfl
  · rfl
  · rfl
  · rfl
  · rfl
  · rfl
  · exact .of_eq rfl rfl

theorem Linked.issueDirect (h : Linked s) (input : Input) :
    Advances s ((s.issue input).bridgeRequest s.issued) := by
  apply h.issue input .http [.transmitted s.issued none]
  · rw [transmissions_transmitted, settlements_transmitted]
    exact .direct
  · intro socket hsent
    cases hsent
  · nofun
  · intro happening hmem
    rw [List.mem_singleton.1 hmem]
    rfl
  · rfl
  · rfl
  · rfl
  · rfl
  · rfl
  · rfl
  · exact .of_eq rfl rfl

theorem Linked.issueConnected (h : Linked s) (input : Input) (value : Bool) :
    Advances s ((s.issue input).setStage s.issued (.connected value)) := by
  refine h.issueAs ?_ ?_ (.begins value) rfl rfl rfl rfl rfl rfl
    (.of_eq rfl rfl)
  · intro socket hsent
    cases hsent
  · nofun

theorem Linked.connectFor (h : Linked s) (input : Input) (early : Bool) :
    Advances s ((s.issue input).connectFor s.issued early) := by
  rw [Transport.connectFor]
  split
  · exact h.issueSettled input
  split
  · exact h.issueConnected input false
  split
  · exact h.issueConnected input true
  split
  · rename_i socket _
    refine h.issueAs ?_ ?_ (.waits socket false) rfl rfl rfl rfl rfl rfl
      (.of_eq rfl rfl)
    · intro other hsent
      cases hsent
    · nofun
  split
  · exact h.issueConnected input false
  · refine h.issueAs ?_ ?_ (.waits s.created true) rfl rfl rfl rfl rfl rfl
      (.of_eq rfl rfl)
    · intro other hsent
      cases hsent
    · nofun

theorem Linked.request (h : Linked s) (input : Input) (early : Bool) :
    Advances s (s.request input early) := by
  simp only [Transport.request]
  split
  · exact h.issueSettled input
  split
  · exact h.issueSettled input
  split
  · exact h.issueDirect input
  split
  · exact h.issueSettled input
  · exact h.connectFor input early

theorem Linked.unavailable (h : Linked s) (sent : Bool)
    (hstage : s.stage id = .connected value) :
    Advances s (s.setStage id (.unavailable sent)) := by
  apply h.setStage (.unavailable sent)
  · rw [hstage]
    nofun
  · rw [hstage]
    intro socket hold
    cases hold
  · intro socket hsent
    cases hsent
  · rw [hstage]
    cases sent with
    | false => exact .unsent value
    | true => exact .thrown value

theorem Linked.send (h : Linked s) (hstage : s.stage id = .connected value)
    (hready : s.ready = true) :
    Advances s
      { s.setStage id (.sent socket) with
        pending := s.pending ++ [(id, socket)]
        log := s.log ++ [.transmitted id (some socket)] } := by
  apply h.one id (.sent socket) [.transmitted id (some socket)]
  · rw [hstage]
    nofun
  · rw [hstage, transmissions_transmitted, settlements_transmitted]
    exact .sends value socket
  · intro happening hmem
    rw [List.mem_singleton.1 hmem]
    rfl
  · rfl
  · rfl
  · rfl
  · rfl
  · intro other
    show other ∈ (s.pending ++ [(id, socket)]).map Prod.fst ↔ _
    rw [List.map_append, List.mem_append, List.map_singleton,
      List.mem_singleton]
    split
    · rename_i hother
      exact iff_of_true (.inr hother) ⟨socket, rfl⟩
    · rename_i hother
      exact or_iff_left hother
  · intro hnot
    rw [show s.ready = false from hnot] at hready
    cases hready
  · exact .of_eq rfl rfl

theorem Linked.rpc (h : Linked s) (crowded : Bool)
    (hstage : s.stage id = .connected value) :
    Advances s (s.rpc id value crowded) := by
  rw [Transport.rpc]
  split
  · exact h.unavailable false hstage
  split
  · exact h.unavailable false hstage
  rename_i hopen
  split
  · apply h.settleRequest
    · rw [hstage]
      nofun
    · rw [hstage]
      intro socket hold
      cases hold
    · rw [hstage]
      exact .tooLarge value
  split
  · exact h.unavailable false hstage
  split
  · exact (h.unavailable true hstage).readyState _
  · apply h.send hstage
    cases hready : s.ready with
    | true => rfl
    | false => exact absurd (.inr (.inr hready)) hopen

theorem Linked.proceed (h : Linked s) (id : Nat) (crowded : Bool) :
    Advances s (s.proceed id crowded) := by
  have hstays : Advances s s :=
    h.still rfl rfl rfl rfl rfl (fun hnot => hnot) (.of_eq rfl rfl)
  cases hstage : s.stage id with
  | unissued | sent | http | settled =>
    rw [Transport.proceed, hstage]
    exact hstays
  | connecting socket creator =>
    rw [Transport.proceed, hstage]
    simp only
    split
    · rename_i value _
      split
      · exact hstays
      split
      · apply h.settleRequest
        · rw [hstage]
          nofun
        · rw [hstage]
          intro other hold
          cases hold
        · rw [hstage]
          exact .refused socket creator
      · apply h.setStage (.connected value)
        · rw [hstage]
          nofun
        · rw [hstage]
          intro other hold
          cases hold
        · intro other hsent
          cases hsent
        · rw [hstage]
          exact .connects socket creator value
    · exact hstays
  | connected value =>
    rw [Transport.proceed, hstage]
    exact h.rpc crowded hstage
  | answered =>
    rw [Transport.proceed, hstage]
    apply h.settleRequest
    · rw [hstage]
      nofun
    · rw [hstage]
      intro other hold
      cases hold
    · rw [hstage]
      exact .resolves
  | unavailable sent =>
    have hissued : s.stage id ≠ .unissued := by
      rw [hstage]
      nofun
    have hwaits : ∀ socket, s.stage id ≠ .sent socket := by
      rw [hstage]
      intro other hold
      cases hold
    have hrejects : Advances s (s.settleRequest id) := by
      apply h.settleRequest hissued hwaits
      rw [hstage]
      exact .rejects sent
    rw [Transport.proceed, hstage]
    simp only
    split
    · exact hrejects
    split
    · exact hrejects
    · rename_i hagain
      apply h.bridgeRequest hissued hwaits
      rw [hstage]
      apply Moves.falls
      intro hsent
      rw [hsent, Bool.true_and, Bool.not_eq_true', Bool.not_eq_false]
        at hagain
      exact hagain

theorem mem_others {pending : List (Nat × Nat)} {other : Nat} :
    other ∈ (pending.filter (·.1 ≠ id)).map Prod.fst ↔
      other ≠ id ∧ other ∈ pending.map Prod.fst := by
  simp only [List.mem_map, List.mem_filter, decide_eq_true_eq]
  constructor
  · intro h
    obtain ⟨entry, ⟨hmem, hother⟩, rfl⟩ := h
    exact ⟨hother, entry, hmem, rfl⟩
  · intro h
    obtain ⟨hother, entry, hmem, rfl⟩ := h
    exact ⟨entry, ⟨hmem, hother⟩, rfl⟩

/-- A request that has been sent is not pending any more. -/
theorem Linked.leaves (h : Linked s) (hstage : s.stage id = .sent socket)
    (hunsent : ∀ socket, stage ≠ .sent socket)
    (hmoves : Moves (s.input id).repeatable (.sent socket) stage [] 0) :
    Advances s
      { s.setStage id stage with pending := s.pending.filter (·.1 ≠ id) } := by
  apply h.one id stage []
  · rw [hstage]
    nofun
  · rw [hstage]
    exact hmoves
  · intro happening hmem
    exact absurd hmem List.not_mem_nil
  · rfl
  · rfl
  · rfl
  · exact (List.append_nil _).symm
  · intro other
    show other ∈ (s.pending.filter (·.1 ≠ id)).map Prod.fst ↔ _
    rw [mem_others]
    split
    · rename_i hother
      refine iff_of_false (fun hmem => hmem.1 hother) fun hsent => ?_
      obtain ⟨other, hsent⟩ := hsent
      exact hunsent other hsent
    · rename_i hother
      exact and_iff_right hother
  · intro hnot
    show s.pending.filter (·.1 ≠ id) = []
    rw [h.quiet hnot]
    rfl
  · exact .of_eq rfl rfl

theorem Linked.stays (h : Linked s) : Advances s s :=
  h.still rfl rfl rfl rfl rfl (fun hnot => hnot) (.of_eq rfl rfl)

theorem Linked.sendTimeout (h : Linked s) (id : Nat) :
    Advances s (s.sendTimeout id) := by
  rw [Transport.sendTimeout]
  split
  · rename_i socket hstage
    have hleaves : Advances s
        { s.setStage id (.unavailable true) with
          pending := s.pending.filter (·.1 ≠ id) } := by
      apply h.leaves hstage
      · intro other hsent
        cases hsent
      · exact .lost socket
    exact hleaves.readyState _
  · exact h.stays

theorem Linked.connectTimeout (h : Linked s) (socket : Nat) :
    Advances s (s.connectTimeout socket) := by
  rw [Transport.connectTimeout]
  split
  · exact h.stays
  · exact (h.stays.settle socket false).readyState _

theorem Linked.finish (h : Linked s) (socket : Nat) :
    Advances s (s.finish socket) := by
  rw [Transport.finish]
  split
  · refine h.still rfl rfl rfl rfl rfl (fun hnot => hnot)
      ⟨fun _ houtcome => houtcome, fun other hother => ?_⟩
    show Function.update s.finished socket true other = true
    by_cases hsame : other = socket
    · rw [hsame, Function.update_self]
    · rw [Function.update_of_ne hsame]
      exact hother
  · exact h.stays

/-- Every pending request is lost. -/
theorem Linked.rejects (h : Linked s) :
    Advances s
      (({ s with ready := false, socket := none } : Transport).rejectPending)
    where
  linked :=
    { fresh := fun id => by
        show (if id ∈ s.pending.map Prod.fst then Stage.unavailable true
          else s.stage id) = .unissued ↔ s.issued ≤ id
        rw [← h.fresh id]
        split
        · rename_i hmem
          obtain ⟨socket, hsent⟩ := (h.pending id).1 hmem
          rw [hsent]
          refine iff_of_false (fun hold => ?_) fun hold => ?_
          · cases hold
          · cases hold
        · exact Iff.rfl
      pending := fun id => by
        show id ∈ [] ↔ ∃ socket, (if id ∈ s.pending.map Prod.fst then
          Stage.unavailable true else s.stage id) = .sent socket
        refine iff_of_false List.not_mem_nil fun hsent => ?_
        obtain ⟨socket, hsent⟩ := hsent
        split at hsent
        · cases hsent
        · rename_i hmem
          exact hmem ((h.pending id).2 ⟨socket, hsent⟩)
      quiet := fun _ => rfl }
  moved id :=
    { input := fun _ => rfl
      move := by
        refine ⟨[], 0, ?_, (List.append_nil _).symm, rfl⟩
        show Moves (s.input id).repeatable (s.stage id)
          (if id ∈ s.pending.map Prod.fst then .unavailable true
            else s.stage id) [] 0
        split
        · rename_i hmem
          obtain ⟨socket, hsent⟩ := (h.pending id).1 hmem
          rw [hsent]
          exact .lost socket
        · exact .stay _ }
  remembers := .of_eq rfl rfl

theorem Linked.failed (h : Linked s) (socket : Nat) :
    Advances s (s.failed socket) := by
  rw [Transport.failed]
  split
  · exact h.stays
  · exact h.rejects.settle socket false

theorem Linked.protocolFailed (h : Linked s) (socket : Nat) :
    Advances s (s.protocolFailed socket) :=
  (h.failed socket).readyState _

theorem Linked.welcome (h : Linked s) (socket : Nat) (agrees : Bool) :
    Advances s (s.welcome socket agrees) := by
  rw [Transport.welcome]
  split
  · exact h.stays
  split
  · exact h.protocolFailed socket
  · rename_i hready
    have hwelcomed : Advances s
        { s with ready := true, welcomed := true } := by
      refine h.still rfl rfl rfl rfl rfl (fun hnot => ?_) (.of_eq rfl rfl)
      cases hnot
    exact hwelcomed.settle socket true

theorem Linked.response (h : Linked s) (socket id : Nat) :
    Advances s (s.response socket id) := by
  rw [Transport.response]
  split
  · exact h.stays
  split
  · exact h.protocolFailed socket
  split
  · rename_i hmem
    obtain ⟨sender, hstage⟩ := (h.pending id).1 hmem
    apply h.leaves hstage
    · intro other hsent
      cases hsent
    · exact .answers sender
  · exact h.stays

theorem Linked.event (h : Linked s) (socket : Nat) (accepted : Bool) :
    Advances s (s.event socket accepted) := by
  rw [Transport.event]
  split
  · exact h.stays
  split
  · exact h.protocolFailed socket
  · exact h.stays

theorem Linked.reconnect (h : Linked s) (early : Bool) :
    Advances s (s.reconnect early) := by
  rw [Transport.reconnect]
  split
  · exact h.stays
  split
  · exact h.stays
  split
  · exact h.stays
  · exact h.still rfl rfl rfl rfl rfl (fun hnot => hnot) (.of_eq rfl rfl)

theorem Linked.close (h : Linked s) : Advances s s.close := by
  have hclosed : Advances s { s with closed := true } :=
    h.still rfl rfl rfl rfl rfl (fun hnot => hnot) (.of_eq rfl rfl)
  rw [Transport.close]
  split
  · exact hclosed.readyState _
  · exact hclosed

theorem Linked.httpDone (h : Linked s) (hstage : s.stage id = .http) :
    Advances s (s.settleRequest id) := by
  apply h.settleRequest
  · rw [hstage]
    nofun
  · rw [hstage]
    intro other hold
    cases hold
  · rw [hstage]
    exact .fetched

/-- What a step does with every request. -/
theorem Linked.step (h : Linked s) (action : Action) :
    Advances s (transportStep s action) := by
  cases action with
  | request input early => exact h.request input early
  | proceed id crowded => exact h.proceed id crowded
  | finish socket => exact h.finish socket
  | sendTimeout id => exact h.sendTimeout id
  | connectTimeout socket => exact h.connectTimeout socket
  | opened socket =>
    simp only [transportStep]
    split
    · exact h.stays.readyState _
    · exact h.stays
  | welcome socket agrees => exact h.welcome socket agrees
  | response socket id => exact h.response socket id
  | event socket accepted => exact h.event socket accepted
  | malformed socket | error socket => exact h.protocolFailed socket
  | sendFailed socket => exact h.stays.readyState _
  | closeEvent socket => exact (h.failed socket).readyState _
  | unexpectedResponse socket denied =>
    have hdenied : Linked
        { s with credentialRejected := s.credentialRejected || denied } :=
      ⟨h.fresh, h.pending, h.quiet⟩
    have hfailed := hdenied.protocolFailed socket
    exact ⟨hfailed.linked,
      fun id => ⟨(hfailed.moved id).input, (hfailed.moved id).move⟩,
      ⟨hfailed.remembers.outcome, hfailed.remembers.finished⟩⟩
  | reconnect early => exact h.reconnect early
  | httpDone id =>
    simp only [transportStep]
    split
    · rename_i hstage
      exact h.httpDone hstage
    · exact h.stays
  | close => exact h.close

end

end Allrice.BridgeTransport
