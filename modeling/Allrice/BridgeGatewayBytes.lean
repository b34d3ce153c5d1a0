/-
What the gateway counts of the frames under way.  Requests are measured before
they are counted and give back what they took; a terminal frame is counted
before it is measured, and one that is refused gives nothing back.
-/
import Allrice.BridgeGateway

namespace Allrice.BridgeGateway

open Gateway

/-- The tasks whose size stands in the gateway's total. -/
def Purpose.counted : Purpose → Bool
  | .request _ => true
  | .frame _ (.terminal _) => true
  | _ => false

def Purpose.isRequest : Purpose → Bool
  | .request _ => true
  | _ => false

/-- A task as the counters see it. -/
structure Share where
  client : Nat
  purpose : Purpose
  size : Nat
  finished : Bool

def Task.share (task : Task) : Share :=
  ⟨task.client, task.purpose, task.size, task.stage == .finished⟩

def Share.held (share : Share) : Int :=
  if share.purpose.counted && !share.finished then share.size else 0

/-- The unfinished requests of a client. -/
def Share.under (c : Nat) (share : Share) : Bool :=
  share.purpose.isRequest && !share.finished && share.client == c

/-- The counters of a client. -/
structure Load where
  pending : Int
  pendingBytes : Int

def Client.load (client : Client) : Load :=
  ⟨client.pending, client.pendingBytes⟩

/-- The counters, and what they should count. -/
structure Accounts where
  pendingBytes : Int
  shares : List Share
  loads : List Load

def accounts (g : Gateway) : Accounts :=
  ⟨g.pendingBytes, g.tasks.map Task.share, g.clients.map Client.load⟩

def heldBytes (shares : List Share) : Int :=
  (shares.map Share.held).sum

def requestCount (shares : List Share) (c : Nat) : Int :=
  ((shares.map fun share => if share.under c then (1 : Int) else 0)).sum

def requestBytes (shares : List Share) (c : Nat) : Int :=
  ((shares.map fun share => if share.under c then (share.size : Int) else 0)).sum

variable {g next : Gateway} {α β : Type} {t : Nat} {task : Task}
  {items : List α} {n c : Nat} {f : α → α} {key : α → β}

theorem map_modify_same
    (h : ∀ item, items[n]? = some item → key (f item) = key item) :
    (items.modify n f).map key = items.map key := by
  apply List.ext_getElem?
  intro m
  rw [List.getElem?_map, List.getElem?_map, List.getElem?_modify]
  by_cases hm : n = m
  · subst hm
    cases hitem : items[n]? with
    | none => simp
    | some item => simp [h item hitem]
  · simp [hm]

/-- The tasks stand as they stood, and so do the counters. -/
structure Calm (g next : Gateway) : Prop where
  tasks : next.tasks = g.tasks
  pendingBytes : next.pendingBytes = g.pendingBytes
  loads : next.clients.map Client.load = g.clients.map Client.load

theorem Calm.refl (g : Gateway) : Calm g g := ⟨rfl, rfl, rfl⟩

theorem Calm.trans {first second third : Gateway} (h : Calm first second)
    (h' : Calm second third) : Calm first third :=
  ⟨h'.tasks.trans h.tasks, h'.pendingBytes.trans h.pendingBytes,
    h'.loads.trans h.loads⟩

theorem Calm.accounts_eq (h : Calm g next) : accounts next = accounts g := by
  simp only [accounts, h.tasks, h.pendingBytes, h.loads]

theorem setClient_calm (g : Gateway) (c : Nat) {f : Client → Client}
    (h : ∀ client, (f client).load = client.load) : Calm g (g.setClient c f) :=
  ⟨rfl, rfl, map_modify_same fun client _ => h client⟩

theorem terminate_calm (g : Gateway) (c : Nat) : Calm g (terminate g c) := by
  unfold terminate
  split
  · exact .refl g
  · exact ⟨rfl, rfl, map_modify_same fun _ _ => rfl⟩

theorem sendAsync_calm (g : Gateway) (c : Nat) (wire : Wire)
    (notice : Option Nat) : Calm g (sendAsync g c wire notice).1 := by
  unfold sendAsync
  split
  · exact .refl g
  · split
    · exact terminate_calm g c
    · exact ⟨rfl, rfl, rfl⟩

theorem current_calm (g : Gateway) (c : Nat) (renew : Bool) (wire : Wire) :
    Calm g (current g c renew wire).1 := by
  unfold current
  split
  · exact .refl g
  · exact ⟨rfl, rfl, rfl⟩

theorem requestClose_calm (g : Gateway) (e : Nat) (wire : Wire) :
    Calm g (requestClose g e wire) := by
  unfold requestClose
  split
  · exact .refl g
  · split
    · exact .refl g
    · have hset : Calm g (g.setChannel e fun channel =>
          { channel with closed := true }) := ⟨rfl, rfl, rfl⟩
      dsimp only
      split
      · exact (hset.trans (sendAsync_calm _ _ _ _)).trans ⟨rfl, rfl, rfl⟩
      · exact hset.trans ⟨rfl, rfl, rfl⟩

theorem Calm.setTask (h : Calm g next) (htask : g.tasks[t]? = some task)
    {f : Task → Task} (hf : (f task).share = task.share) :
    accounts (next.setTask t f) = accounts g := by
  have hshares : (next.setTask t f).tasks.map Task.share =
      g.tasks.map Task.share := by
    simp only [Gateway.setTask, h.tasks]
    refine map_modify_same fun found hfound => ?_
    rw [htask] at hfound
    obtain rfl := Option.some.inj hfound
    exact hf
  simp only [accounts, hshares]
  simp only [Gateway.setTask, h.pendingBytes, h.loads]

/-- A task that goes on is still unfinished. -/
theorem Calm.goTo (h : Calm g next) (htask : g.tasks[t]? = some task)
    (hstage : task.stage ≠ .finished) {stage : Stage}
    (hnext : stage ≠ .finished) :
    accounts (next.goTo t stage) = accounts g := by
  exact h.setTask htask (by simp [Task.share, hstage, hnext])

section Task

variable {g : Gateway} {t : Nat} {task : Task}
  (htask : g.tasks[t]? = some task) (hstage : task.stage ≠ .finished)

include htask hstage

theorem ask_accounts (c : Nat) (again renew : Bool) (wire : Wire) :
    accounts (ask g t c again renew wire) = accounts g := by
  have hcalm := current_calm g c renew wire
  unfold ask
  split
  · rename_i next hcurrent
    rw [hcurrent] at hcalm
    exact hcalm.goTo htask hstage (by simp)
  · rename_i next k hcurrent
    rw [hcurrent] at hcalm
    exact hcalm.goTo htask hstage (by simp)

variable {next : Gateway}

theorem hand_accounts (h : Calm g next) : accounts (hand next t) = accounts g :=
  h.setTask htask (by simp [Task.share, hstage])

theorem begin_accounts (wire : Wire) :
    accounts (begin g t task wire) = accounts g := by
  unfold begin
  dsimp only
  split
  · exact ask_accounts htask hstage _ _ _ _
  · exact ask_accounts htask hstage _ _ _ _
  · exact ask_accounts htask hstage _ _ _ _
  · exact ask_accounts htask hstage _ _ _ _
  · split
    · exact ask_accounts htask hstage _ _ _ _
    · exact (terminate_calm g _).goTo htask hstage (by simp)
  · split
    · exact (Calm.refl g).goTo htask hstage (by simp)
    · exact ask_accounts htask hstage _ _ _ _
  · split
    · exact (Calm.refl g).goTo htask hstage (by simp)
    · exact ask_accounts htask hstage _ _ _ _

/-- A send that a task awaits, or what it does without one. -/
theorem sendAsync_accounts (h : Calm g next) (c : Nat) (wire : Wire)
    (otherwise : Gateway → Gateway)
    (hother : ∀ {last}, Calm g last → accounts (otherwise last) = accounts g) :
    accounts (match sendAsync next c wire none with
      | (g, some s) => g.goTo t (.sending s)
      | (g, none) => otherwise g) = accounts g := by
  have hcalm := h.trans (sendAsync_calm next c wire none)
  split
  · rename_i last s hsend
    rw [hsend] at hcalm
    exact hcalm.goTo htask hstage (by simp)
  · rename_i last hsend
    rw [hsend] at hcalm
    exact hother hcalm

theorem closing_accounts (h : Calm g next) (e : Nat) (wire : Wire) :
    accounts ((requestClose next e wire).goTo t .finishing) = accounts g :=
  (h.trans (requestClose_calm next e wire)).goTo htask hstage (by simp)

theorem finishing_accounts (h : Calm g next) :
    accounts (next.goTo t .finishing) = accounts g :=
  h.goTo htask hstage (by simp)

theorem terminated_accounts (c : Nat) :
    accounts ((terminate g c).goTo t .finishing) = accounts g :=
  finishing_accounts htask hstage (terminate_calm g c)

theorem decided_accounts (again ok : Bool) (wire : Wire) :
    accounts (decided g t task again ok wire) = accounts g := by
  have hquiet := finishing_accounts htask hstage (Calm.refl g)
  have hend := terminated_accounts htask hstage task.client
  have hsend := finishing_accounts htask hstage
    (sendAsync_calm g task.client wire none)
  unfold decided
  dsimp only
  split
  · split_ifs
    · exact hend
    · exact hquiet
    · exact hsend
    · exact hand_accounts htask hstage (.refl g)
  · split_ifs
    · exact hend
    · exact hquiet
    · exact hand_accounts htask hstage ⟨rfl, rfl, rfl⟩
  · split_ifs
    · exact hend
    · exact hquiet
    · exact finishing_accounts htask hstage (setClient_calm g _ fun _ => rfl)
  · split_ifs
    · exact hsend
    · exact hend
  · split_ifs
    · exact hquiet
    · exact hend
  · split_ifs
    · exact closing_accounts htask hstage (.refl g) _ wire
    · exact sendAsync_accounts htask hstage (.refl g) _ wire _ fun h =>
        closing_accounts htask hstage h _ wire
  · split_ifs
    · exact hend
    · exact hquiet
    · exact sendAsync_accounts htask hstage (.refl g) _ wire _ fun h =>
        finishing_accounts htask hstage h

theorem handled_accounts (ok : Bool) (wire : Wire) :
    accounts (handled g t task ok wire) = accounts g := by
  have hquiet := finishing_accounts htask hstage (Calm.refl g)
  unfold handled
  split
  · split_ifs
    · exact ask_accounts htask hstage _ _ _ _
    · exact terminated_accounts htask hstage _
  · rename_i e frame _
    have hclose := closing_accounts htask hstage (.refl g) e wire
    have hset : Calm g (g.setChannel e fun channel =>
        { channel with consuming := false }) := ⟨rfl, rfl, rfl⟩
    split
    · exact hclose
    · split
      · split_ifs
        · exact hquiet
        · exact sendAsync_accounts htask hstage hset _ wire _
            fun h => closing_accounts htask hstage h _ wire
      · exact hclose
      · exact hclose
      · exact hquiet
      · exact hquiet
  · rfl

theorem sent_accounts (ok : Bool) (wire : Wire) :
    accounts (sent g t task ok wire) = accounts g := by
  have hquiet := finishing_accounts htask hstage (Calm.refl g)
  unfold sent
  split
  · split_ifs
    · exact hquiet
    · exact closing_accounts htask hstage (.refl g) _ wire
  · split_ifs
    · exact closing_accounts htask hstage (.refl g) _ wire
    · exact finishing_accounts htask hstage ⟨rfl, rfl, rfl⟩
  · exact hquiet

end Task

def Load.add (size : Nat) (load : Load) : Load :=
  ⟨load.pending + 1, load.pendingBytes + size⟩

def Load.drop (size : Nat) (load : Load) : Load :=
  ⟨load.pending - 1, load.pendingBytes - size⟩

def Share.finish (share : Share) : Share := { share with finished := true }

/-- A client comes, a task begins or ends, a frame is counted or gives back what
it took. -/
inductive Posted (before : Accounts) : Accounts → Prop
  | quiet : Posted before before
  | client : Posted before { before with loads := before.loads ++ [⟨0, 0⟩] }
  | task (share : Share) (hcounted : share.purpose.counted = false) :
      Posted before { before with shares := before.shares ++ [share] }
  | frame (share : Share) (hcounted : share.purpose.counted = true)
      (hrequest : share.purpose.isRequest = false)
      (hopen : share.finished = false) :
      Posted before { before with
        pendingBytes := before.pendingBytes + share.size
        shares := before.shares ++ [share] }
  | request (share : Share) (hrequest : share.purpose.isRequest = true)
      (hopen : share.finished = false)
      (hclient : share.client < before.loads.length) :
      Posted before
        { pendingBytes := before.pendingBytes + share.size
          shares := before.shares ++ [share]
          loads := before.loads.modify share.client (Load.add share.size) }
  | finished (t : Nat) (share : Share) (hshare : before.shares[t]? = some share)
      (hopen : share.finished = false)
      (hrequest : share.purpose.isRequest = false) :
      Posted before { before with
        pendingBytes := before.pendingBytes - share.held
        shares := before.shares.set t share.finish }
  | answered (t : Nat) (share : Share) (hshare : before.shares[t]? = some share)
      (hopen : share.finished = false)
      (hrequest : share.purpose.isRequest = true) :
      Posted before
        { pendingBytes := before.pendingBytes - share.size
          shares := before.shares.set t share.finish
          loads := before.loads.modify share.client (Load.drop share.size) }

theorem map_modify_set {item : α} (h : items[n]? = some item) (f : α → α)
    (key : α → β) :
    (items.modify n f).map key = (items.map key).set n (key (f item)) := by
  apply List.ext_getElem?
  intro m
  rw [List.getElem?_map, List.getElem?_modify, List.getElem?_set,
    List.getElem?_map]
  by_cases hm : n = m
  · subst hm
    obtain ⟨hlt, rfl⟩ := List.getElem?_eq_some_iff.1 h
    simp [hlt]
  · simp [hm]

theorem map_modify_modify (items : List α) (n : Nat) {f' : β → β}
    (h : ∀ item, key (f item) = f' (key item)) :
    (items.modify n f).map key = (items.map key).modify n f' := by
  apply List.ext_getElem?
  intro m
  rw [List.getElem?_map, List.getElem?_modify, List.getElem?_modify,
    List.getElem?_map]
  by_cases hm : n = m
  · subst hm
    cases items[n]? with
    | none => rfl
    | some item => simp [h]
  · simp [hm]

theorem spawn_accounts (g : Gateway) (c : Nat) (purpose : Purpose)
    (size : Nat) :
    accounts (g.spawn c purpose size) = { accounts g with
      shares := (accounts g).shares ++ [⟨c, purpose, size, false⟩] } := by
  simp [accounts, Gateway.spawn, Task.share]

theorem spawn_posted (h : Calm g next) (c : Nat) {purpose : Purpose}
    (size : Nat) (hcounted : purpose.counted = false) :
    Posted (accounts g) (accounts (next.spawn c purpose size)) := by
  rw [spawn_accounts, h.accounts_eq]
  exact .task _ hcounted

theorem Calm.posted (h : Calm g next) :
    Posted (accounts g) (accounts next) := by
  rw [h.accounts_eq]
  exact .quiet

theorem finish_posted (htask : g.tasks[t]? = some task)
    (hstage : task.stage ≠ .finished) :
    Posted (accounts g) (accounts (finish g t task)) := by
  have hshare : (accounts g).shares[t]? = some task.share := by
    simp [accounts, htask]
  have hopen : task.share.finished = false := by simp [Task.share, hstage]
  have hset : (g.goTo t .finished).tasks.map Task.share =
      (accounts g).shares.set t task.share.finish :=
    map_modify_set htask _ _
  have hgone : accounts (g.goTo t .finished) = { accounts g with
      shares := (accounts g).shares.set t task.share.finish } := by
    rw [← hset]
    rfl
  -- A task that is not counted gives nothing back.
  have hfree : task.purpose.counted = false → ∀ {next},
      Calm (g.goTo t .finished) next →
        Posted (accounts g) (accounts next) := by
    intro hcounted next hcalm
    have hheld : task.share.held = 0 := by
      simp [Share.held, Task.share, hcounted]
    have hrequest : task.share.purpose.isRequest = false := by
      cases hpurpose : task.purpose <;>
        simp_all [Task.share, Purpose.counted, Purpose.isRequest]
    have hposted := Posted.finished t task.share hshare hopen hrequest
    rw [hheld, Int.sub_zero] at hposted
    rw [hcalm.accounts_eq, hgone]
    exact hposted
  unfold finish
  cases hpurpose : task.purpose with
  | request id =>
    have hloads : (g.clients.modify task.client fun client =>
        { client with
          pending := client.pending - 1
          pendingBytes := client.pendingBytes - task.size
          requestIds := client.requestIds.erase id }).map Client.load =
        (g.clients.map Client.load).modify task.client
          (Load.drop task.size) :=
      map_modify_modify _ _ fun _ => rfl
    have hposted := Posted.answered t task.share hshare hopen (by
      simp [Task.share, hpurpose, Purpose.isRequest])
    rw [← hset] at hposted
    simp only [Task.share, accounts] at hposted
    rw [← hloads] at hposted
    exact hposted
  | frame e frame =>
    cases frame with
    | terminal ended =>
      have hheld : task.share.held = task.size := by
        simp [Share.held, Task.share, hpurpose, Purpose.counted, hstage]
      have hposted := Posted.finished t task.share hshare hopen (by
        simp [Task.share, hpurpose, Purpose.isRequest])
      rw [← hset, hheld] at hposted
      exact hposted
    | preview frame =>
      exact hfree (by simp [hpurpose, Purpose.counted]) ⟨rfl, rfl, rfl⟩
  | heartbeat | wakeup =>
    exact hfree (by simp [hpurpose, Purpose.counted])
      (setClient_calm _ _ fun _ => rfl)
  | recheck | opening e | push e =>
    exact hfree (by simp [hpurpose, Purpose.counted]) (.refl _)

theorem advance_posted (g : Gateway) (t : Nat) (outcome : Bool)
    (wire : Wire) :
    Posted (accounts g) (accounts (advance g t outcome wire)) := by
  have hsame : ∀ {next}, accounts next = accounts g →
      Posted (accounts g) (accounts next) := by
    intro next h
    rw [h]
    exact .quiet
  unfold advance
  split
  · exact .quiet
  · rename_i task htask
    cases hstage : task.stage with
    | queued =>
      dsimp only
      split
      · exact .quiet
      · exact hsame (begin_accounts htask (by simp [hstage]) wire)
    | asking again k =>
      have hanswered : ∀ answer, accounts (g.goTo t (.answered again answer)) =
          accounts g := fun _ =>
        (Calm.refl g).goTo htask (by simp [hstage]) (by simp)
      dsimp only
      split
      · exact hsame (hanswered false)
      · split
        · exact .quiet
        · exact hsame (hanswered _)
    | answered again ok =>
      exact hsame (decided_accounts htask (by simp [hstage]) again ok wire)
    | handling =>
      exact hsame (handled_accounts htask (by simp [hstage]) outcome wire)
    | sending s =>
      dsimp only
      split
      · exact hsame (sent_accounts htask (by simp [hstage]) _ wire)
      · exact .quiet
    | finishing => exact finish_posted htask (by simp [hstage])
    | finished => exact .quiet

/-- The size of a terminal frame that is counted and then refused. -/
def refusedAt (g : Gateway) (c size : Nat) (id : Uuid) : Nat :=
  match (registered g .terminal id).bind fun e => g.channels[e]? with
  | none => 0
  | some channel =>
    if channel.client = c ∧ (terminalBytes < channel.bytes + size ∨
        gatewayTerminalBytes < g.pendingBytes + size) then size
    else 0

/-- What a step leaves in the gateway's total for good. -/
def refusedBytes (g : Gateway) : Action → Nat
  | .message c size (.terminal (some (id, _))) =>
    if g.clients[c]?.any isConnected = true ∧ g.stopping = false ∧
        size ≤ bridgeSocketMaximumFrameBytes then refusedAt g c size id
    else 0
  | _ => 0

/-- The accounts with a refused frame. -/
def Accounts.keep (a : Accounts) (size : Nat) : Accounts :=
  { a with pendingBytes := a.pendingBytes + size }

@[simp] theorem Accounts.keep_zero (a : Accounts) : a.keep 0 = a := by
  simp [Accounts.keep]

theorem terminalFrame_posted (g : Gateway) (c size : Nat) (id : Uuid)
    (ended : Bool) :
    ∃ middle, Posted (accounts g) middle ∧
      accounts (terminalFrame g c size id ended) =
        middle.keep (refusedAt g c size id) := by
  have hquiet : ∀ {next}, Calm g next → refusedAt g c size id = 0 →
      ∃ middle, Posted (accounts g) middle ∧
        accounts next = middle.keep (refusedAt g c size id) := by
    intro next hcalm hzero
    refine ⟨accounts g, .quiet, ?_⟩
    rw [hzero, Accounts.keep_zero, hcalm.accounts_eq]
  unfold terminalFrame
  cases hfound : registered g .terminal id with
  | none => exact hquiet (.refl g) (by simp [refusedAt, hfound])
  | some e =>
    dsimp only
    cases hchannel : g.channels[e]? with
    | none => exact hquiet (.refl g) (by simp [refusedAt, hfound, hchannel])
    | some channel =>
      have hrefused : refusedAt g c size id =
          if channel.client = c ∧ (terminalBytes < channel.bytes + size ∨
            gatewayTerminalBytes < g.pendingBytes + size) then size
          else 0 := by
        simp [refusedAt, hfound, hchannel]
      dsimp only
      split
      · rename_i hclient
        exact hquiet (terminate_calm g c) (by
          rw [hrefused, if_neg (fun h => hclient h.1)])
      · rename_i hclient
        split
        · rename_i hlimit
          refine ⟨accounts g, .quiet, ?_⟩
          rw [hrefused, if_pos ⟨not_not.1 hclient, hlimit⟩,
            (terminate_calm _ c).accounts_eq]
          rfl
        · rename_i hlimit
          refine ⟨_, .frame ⟨c, .frame e (.terminal ended), size, false⟩ rfl
            rfl rfl, ?_⟩
          rw [hrefused, if_neg (fun h => hlimit h.2), Accounts.keep_zero,
            spawn_accounts]
          rfl

theorem previewFrame_posted (g : Gateway) (c size : Nat) (id : Uuid)
    (frame : PreviewFrame) :
    Posted (accounts g) (accounts (previewFrame g c size id frame)) := by
  unfold previewFrame
  split
  · exact .quiet
  · split
    · exact .quiet
    · split
      · exact (terminate_calm g c).posted
      · split
        · exact (terminate_calm g c).posted
        · dsimp only
          split
          · rw [(terminate_calm _ c).accounts_eq]
            exact .quiet
          · exact spawn_posted ⟨rfl, rfl, rfl⟩ c size rfl

theorem requestFrame_posted {g : Gateway} {c : Nat} {client : Client}
    (hclient : g.clients[c]? = some client) (size : Nat)
    (request : Option Uuid) :
    Posted (accounts g) (accounts (requestFrame g c size client request)) := by
  unfold requestFrame
  split
  · exact (terminate_calm g c).posted
  · split
    · exact (terminate_calm g c).posted
    · split
      · exact (terminate_calm g c).posted
      · rename_i id _
        have hloads : (g.clients.modify c fun other =>
            { other with
              pending := other.pending + 1
              pendingBytes := other.pendingBytes + size
              requestIds := id :: other.requestIds }).map Client.load =
            (g.clients.map Client.load).modify c (Load.add size) :=
          map_modify_modify _ _ fun _ => rfl
        have hposted : Posted (accounts g) _ :=
          .request ⟨c, .request id, size, false⟩ rfl rfl (by
            simpa [accounts] using (List.getElem?_eq_some_iff.1 hclient).1)
        rw [spawn_accounts]
        simp only [accounts] at hposted
        rw [← hloads] at hposted
        exact hposted

theorem refusedBytes_of_not {size : Nat} {frame : Message}
    (h : ¬(g.clients[c]?.any isConnected = true ∧ g.stopping = false ∧
      size ≤ bridgeSocketMaximumFrameBytes)) :
    refusedBytes g (.message c size frame) = 0 := by
  cases frame with
  | terminal found =>
    cases found with
    | none => rfl
    | some pair =>
      obtain ⟨id, ended⟩ := pair
      simp only [refusedBytes, if_neg h]
  | preview found | request id | binary => rfl

theorem message_posted (g : Gateway) (c size : Nat) (frame : Message) :
    ∃ middle, Posted (accounts g) middle ∧
      accounts (message g c size frame) =
        middle.keep (refusedBytes g (.message c size frame)) := by
  have hposted : ∀ {next}, Posted (accounts g) (accounts next) →
      refusedBytes g (.message c size frame) = 0 →
      ∃ middle, Posted (accounts g) middle ∧ accounts next =
        middle.keep (refusedBytes g (.message c size frame)) := by
    intro next h hzero
    exact ⟨_, h, by rw [hzero, Accounts.keep_zero]⟩
  unfold message
  cases hclient : g.clients[c]? with
  | none =>
    exact hposted .quiet (refusedBytes_of_not (by simp [hclient]))
  | some client =>
    dsimp only
    split
    · rename_i hoff
      refine hposted .quiet (refusedBytes_of_not ?_)
      rintro ⟨hconnected, hrunning, _⟩
      simp only [hclient, Option.any_some, isConnected, Bool.and_eq_true,
        beq_iff_eq, Bool.not_eq_true'] at hconnected
      rcases hoff with hphase | hstopping | hclosing
      · exact hphase hconnected.1
      · simp [hstopping] at hrunning
      · simp [hclosing] at hconnected
    · rename_i hon
      cases frame with
      | binary => exact hposted (terminate_calm g c).posted rfl
      | request request =>
        exact hposted (requestFrame_posted hclient size request) rfl
      | preview frame =>
        dsimp only
        split
        · exact hposted (requestFrame_posted hclient size none) rfl
        · split
          · exact hposted (terminate_calm g c).posted rfl
          · exact hposted (previewFrame_posted g c size _ _) rfl
      | terminal frame =>
        dsimp only
        split
        · rename_i hlong
          exact hposted (requestFrame_posted hclient size none)
            (refusedBytes_of_not fun h => absurd h.2.2 (by omega))
        · rename_i hshort
          cases frame with
          | none => exact hposted (terminate_calm g c).posted rfl
          | some frame =>
            obtain ⟨id, ended⟩ := frame
            have hlive : g.clients[c]?.any isConnected = true ∧
                g.stopping = false ∧
                  size ≤ bridgeSocketMaximumFrameBytes := by
              simp only [not_or, not_not, Bool.not_eq_true] at hon
              simp [hclient, isConnected, hon, Nat.le_of_not_lt hshort]
            have hrefused : refusedBytes g
                (.message c size (.terminal (some (id, ended)))) =
                  refusedAt g c size id := by
              simp only [refusedBytes, if_pos hlive]
            rw [hrefused]
            exact terminalFrame_posted g c size id ended

theorem leave_calm (g : Gateway) (c : Nat) : Calm g (leave g c) :=
  setClient_calm g c fun _ => rfl

theorem registerAnswers_calm (g : Gateway) (c : Nat) (target : Option Target)
    (destroyed : Bool) (wire : Wire) :
    Calm g (registerAnswers g c target destroyed wire) := by
  have hset : ∀ target, Calm g (g.setClient c fun client =>
      { client with target := target }) :=
    fun _ => setClient_calm g c fun _ => rfl
  have hphase : ∀ target phase, Calm g ((g.setClient c fun client =>
      { client with target := target }).setClient c fun client =>
        { client with phase := phase }) :=
    fun target _ => (hset target).trans (setClient_calm _ c fun _ => rfl)
  unfold registerAnswers
  split
  · exact .refl g
  · split
    · exact .refl g
    · split
      · exact leave_calm g c
      · rename_i target
        dsimp only
        split
        · exact (hset (some target)).trans (leave_calm _ c)
        · exact ⟨rfl, rfl, (hphase (some target) _).loads⟩

theorem handOff_calm (g : Gateway) (c : Nat) (destroyed upgraded : Bool)
    (wire : Wire) : Calm g (handOff g c destroyed upgraded wire) := by
  unfold handOff
  split
  · exact .refl g
  · split
    · split
      · exact .refl g
      · split
        · exact leave_calm g c
        · have hset : Calm g (g.setClient c fun client =>
              { client with phase := .live, owned := true }) :=
            setClient_calm g c fun _ => rfl
          exact hset.trans (sendAsync_calm _ c wire none)
    · exact .refl g

theorem flush_calm (g : Gateway) (s : Nat) (wire : Wire) :
    Calm g (flush g s wire) := by
  unfold flush
  split
  · exact .refl g
  · split
    · exact .refl g
    · split <;> exact ⟨rfl, rfl, rfl⟩

theorem settleSend_calm (g : Gateway) (s : Nat) (ok : Bool) :
    Calm g (settleSend g s ok) := by
  unfold settleSend
  split
  · exact .refl g
  · split
    · exact .refl g
    · split
      · exact ⟨rfl, rfl, rfl⟩
      · exact (terminate_calm g _).trans ⟨rfl, rfl, rfl⟩

theorem socketCloses_calm (g : Gateway) (c : Nat) :
    Calm g (socketCloses g c) :=
  setClient_calm g c fun _ => rfl

theorem drop_calm (g : Gateway) (c : Nat) : Calm g (drop g c) := by
  unfold drop
  split
  · exact .refl g
  · split
    · exact terminate_calm g c
    · exact .refl g

theorem advanceDone_calm (g : Gateway) (c : Nat) (ok : Bool) :
    Calm g (advanceDone g c ok) := by
  unfold advanceDone
  split
  · exact .refl g
  · split
    · exact .refl g
    · split
      · exact setClient_calm g c fun _ => rfl
      · exact .refl g
    · split
      · exact setClient_calm g c fun _ => rfl
      · exact .refl g
    · split
      · exact setClient_calm g c fun _ => rfl
      · exact .refl g
    · exact setClient_calm g c fun _ => rfl
    · exact .refl g

theorem advanceLeaving_calm (g : Gateway) (c : Nat) (ok : Bool) :
    Calm g (advanceLeaving g c ok) := by
  unfold advanceLeaving
  split
  · exact .refl g
  · split
    · split
      · exact .refl g
      · split
        · exact setClient_calm g c fun _ => rfl
        · exact setClient_calm g c fun _ => rfl
    · exact ⟨rfl, rfl, map_modify_same fun _ _ => rfl⟩
    · exact .refl g

theorem advanceChannel_calm (g : Gateway) (e : Nat) (ok : Bool) :
    Calm g (advanceChannel g e ok) := by
  unfold advanceChannel
  split
  · exact .refl g
  · split
    · split
      · exact ⟨rfl, rfl, rfl⟩
      · exact .refl g
    · exact ⟨rfl, rfl, rfl⟩
    · exact .refl g

theorem observeClient_calm (g : Gateway) (c : Nat) :
    Calm g (observeClient g c) := by
  unfold observeClient
  split
  · exact .refl g
  · split
    · exact ⟨rfl, rfl, map_modify_same fun _ _ => rfl⟩
    · exact .refl g

theorem observeChannel_calm (g : Gateway) (e : Nat) :
    Calm g (observeChannel g e) := by
  unfold observeChannel
  split
  · exact .refl g
  · split
    · exact ⟨rfl, rfl, rfl⟩
    · exact .refl g

theorem foldl_calm {step : Gateway → α → Gateway}
    (h : ∀ g item, Calm g (step g item)) (items : List α) (g : Gateway) :
    Calm g (items.foldl step g) := by
  induction items generalizing g with
  | nil => exact .refl g
  | cons item rest ih => exact (h g item).trans (ih (step g item))

theorem close_calm (g : Gateway) (wire : Wire) : Calm g (close g wire) := by
  unfold close
  split
  · exact .refl g
  · dsimp only
    refine Calm.trans ?_ (foldl_calm terminate_calm _ _)
    refine Calm.trans ?_
      (foldl_calm (fun g e => requestClose_calm g e wire) _ _)
    exact ⟨rfl, rfl, rfl⟩

theorem advanceClosing_calm (g : Gateway) (step : ClosingStep) :
    Calm g (advanceClosing g step) := by
  cases step with
  | drained =>
    simp only [advanceClosing]
    split
    · exact ⟨rfl, rfl, rfl⟩
    · exact .refl g
  | unsubscribed ok | serverClosed | settled => exact ⟨rfl, rfl, rfl⟩

theorem upgrade_posted (g : Gateway) (maximumConnections : Nat)
    (acceptable : Bool) (wire : Wire) :
    Posted (accounts g)
      (accounts (upgrade g maximumConnections acceptable wire)) := by
  unfold upgrade
  split
  · exact .quiet
  · split
    · exact .quiet
    · have h : accounts { g with clients := g.clients ++ [Client.upgrading] } =
          { accounts g with loads := (accounts g).loads ++ [⟨0, 0⟩] } := by
        simp [accounts, Client.upgrading, Client.load]
      rw [h]
      exact .client

theorem beat_posted (g : Gateway) (c : Nat) :
    Posted (accounts g) (accounts (beat g c)) := by
  unfold beat
  split
  · exact .quiet
  · split
    · exact .quiet
    · have hset : Calm g (g.setClient c fun client =>
          { client with checking := true }) := setClient_calm g c fun _ => rfl
      exact spawn_posted hset c 0 rfl

theorem notify_posted (g : Gateway) (c : Nat) (work : Bool) :
    Posted (accounts g) (accounts (notify g c work)) := by
  unfold notify
  split
  · exact .quiet
  · split
    · exact .quiet
    · split
      · exact spawn_posted (.refl g) c 0 rfl
      · split
        · exact .quiet
        · have hset : Calm g (g.setClient c fun client =>
              { client with wakeupPending := true }) :=
            setClient_calm g c fun _ => rfl
          exact spawn_posted hset c 0 rfl

theorem openChannel_posted (g : Gateway) (kind : Kind) (target : Target)
    (c : Nat) (id : Uuid) (wire : Wire) :
    Posted (accounts g) (accounts (openChannel g kind target c id wire)) := by
  unfold openChannel
  split
  · exact .quiet
  · split
    · exact .quiet
    · split
      · exact .quiet
      · exact spawn_posted ⟨rfl, rfl, rfl⟩ c 0 rfl

theorem push_posted (g : Gateway) (e : Nat) :
    Posted (accounts g) (accounts (push g e)) := by
  unfold push
  split
  · exact .quiet
  · split
    · exact .quiet
    · split
      · exact .quiet
      · exact spawn_posted (.refl g) _ 0 rfl

/-- A step posts to the accounts, and leaves in the total what it refuses after
it was counted. -/
theorem step_posted (maximumConnections : Nat) (g : Gateway)
    (action : Action) :
    ∃ middle, Posted (accounts g) middle ∧
      accounts ((gateway maximumConnections).step g action).1 =
        middle.keep (refusedBytes g action) := by
  have hposted : ∀ {next}, Posted (accounts g) (accounts next) →
      ∃ middle, Posted (accounts g) middle ∧
        accounts next = middle.keep 0 := fun h =>
    ⟨_, h, (Accounts.keep_zero _).symm⟩
  cases action with
  | message c size frame => exact message_posted g c size frame
  | upgrade acceptable wire => exact hposted (upgrade_posted g _ _ wire)
  | registerAnswers c target destroyed wire =>
    exact hposted (registerAnswers_calm g c target destroyed wire).posted
  | handOff c destroyed upgraded wire =>
    exact hposted (handOff_calm g c destroyed upgraded wire).posted
  | socketCloses c => exact hposted (socketCloses_calm g c).posted
  | drop c => exact hposted (drop_calm g c).posted
  | advance t outcome wire => exact hposted (advance_posted g t outcome wire)
  | startCall k | settleCall k answer =>
    exact hposted (Calm.posted ⟨rfl, rfl, rfl⟩)
  | flush s wire => exact hposted (flush_calm g s wire).posted
  | settleSend s ok => exact hposted (settleSend_calm g s ok).posted
  | beat c => exact hposted (beat_posted g c)
  | notify c work => exact hposted (notify_posted g c work)
  | openChannel kind target c id wire =>
    exact hposted (openChannel_posted g kind target c id wire)
  | push e => exact hposted (push_posted g e)
  | closeChannel e wire => exact hposted (requestClose_calm g e wire).posted
  | advanceDone c ok => exact hposted (advanceDone_calm g c ok).posted
  | advanceLeaving c ok => exact hposted (advanceLeaving_calm g c ok).posted
  | advanceChannel e ok => exact hposted (advanceChannel_calm g e ok).posted
  | observeClient c => exact hposted (observeClient_calm g c).posted
  | observeChannel e => exact hposted (observeChannel_calm g e).posted
  | close wire => exact hposted (close_calm g wire).posted
  | advanceClosing step => exact hposted (advanceClosing_calm g step).posted

end Allrice.BridgeGateway
