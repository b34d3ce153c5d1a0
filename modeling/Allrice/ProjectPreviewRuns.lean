/-
The data of a preview channel: numbered without gaps, one frame at a time, in
the order of the service, and none behind the end.  This holds of every run in
which no message is taken while the target is not alive, and in which no end
falls between the registration of a frame and the microtask that sends it.
-/
import Allrice.ProjectPreviewRelay

namespace Allrice.ProjectPreview

def dataOf (log : List Happening) : List (Nat × List UInt8) :=
  log.filterMap fun
    | .sent (.data sequence bytes) => some (sequence, bytes)
    | _ => none

def bytesOf (log : List Happening) : List UInt8 :=
  (dataOf log).flatMap Prod.snd

/-- Every data frame of a log has been acknowledged in it. -/
def AllAcknowledged (log : List Happening) : Prop :=
  ∀ frame ∈ dataOf log, Happening.acknowledged frame.1 ∈ log

/-- The frames that still wait for an acknowledgement. -/
def unacknowledged (log : List Happening) : List (Nat × List UInt8) :=
  (dataOf log).filter fun frame => Happening.acknowledged frame.1 ∉ log

def IsEnd (happening : Happening) : Prop :=
  happening = .closed ∨ ∃ error, happening = .sent (.ended error)

structure ExactlyOnce (e : Entry) : Prop where
  one : (unacknowledged e.log).length ≤ 1
  numbered : (dataOf e.log).map Prod.fst =
    List.range' 1 (dataOf e.log).length
  ordered : bytesOf e.log <+: e.produced
  acknowledged : ∀ before after,
    e.log = before ++ Happening.sent (.ended false) :: after →
      AllAcknowledged before
  silent : ∀ before happening after, e.log = before ++ happening :: after →
    IsEnd happening → dataOf after = [] ∧
      ∀ sequence, Happening.acknowledged sequence ∉ after
  closed : Happening.closed ∈ e.log → e.closed = true

/-- What goes wrong otherwise: a message of the socket is passed over while the
channel is open, and a registered frame is sent behind the end. -/
def Careful (e : Entry) : Action → Prop
  | .take alive _ =>
    e.closed = true ∨ alive = true ∨
      ∀ bytes items, e.items ≠ .message bytes :: items
  | .transmit =>
    e.closed = false ∨ ∀ call, e.call = some call → call.transmitted = true
  | _ => True

theorem dataOf_append (first second : List Happening) :
    dataOf (first ++ second) = dataOf first ++ dataOf second :=
  List.filterMap_append

variable {log : List Happening} {last : Happening} {e : Entry}

/-- A split of a log with one more happening is one of the log, or the last. -/
theorem split_append {before after : List Happening} {happening : Happening}
    (h : log ++ [last] = before ++ happening :: after) :
    (∃ middle, log = before ++ happening :: middle ∧
        after = middle ++ [last]) ∨
      (log = before ∧ last = happening ∧ after = []) := by
  rcases List.eq_nil_or_concat after with rfl | ⟨middle, other, rfl⟩
  · obtain ⟨hlog, hlast⟩ := List.append_inj' h rfl
    exact .inr ⟨hlog, (List.cons.inj hlast).1, rfl⟩
  · rw [List.concat_eq_append, ← List.cons_append, ← List.append_assoc] at h
    obtain ⟨hlog, hlast⟩ := List.append_inj' h rfl
    exact .inl ⟨middle, hlog, by
      rw [List.concat_eq_append, (List.cons.inj hlast).1]⟩

def Item.bytes : Item → List UInt8
  | .message bytes => bytes
  | .close => []

namespace Pump

/-- Before its next round. -/
def Ready : Pump → Prop
  | .unstarted | .requesting | .responding | .idle => True
  | _ => False

def Flowing : Pump → Prop
  | .unstarted | .requesting | .responding | .idle | .sending _ => True
  | _ => False

end Pump

namespace Entry

/-- What is registered, and not sent yet. -/
def unsent (e : Entry) : List UInt8 :=
  match e.call with
  | some call => if call.transmitted then [] else call.bytes
  | none => []

def unsentCount (e : Entry) : Nat :=
  match e.call with
  | some call => if call.transmitted then 0 else 1
  | none => 0

/-- What waits for the loop. -/
def backlog (e : Entry) : List UInt8 :=
  if e.websocket then e.items.flatMap Item.bytes else e.pieces.flatten

/-- A socket's channel is open; a response is read to its end in any case. -/
def Reading (e : Entry) : Prop := e.websocket = true → e.closed = false

end Entry

structure Kept (e : Entry) : Prop where
  present : e.present = !e.closed
  numbered : (dataOf e.log).map Prod.fst =
    List.range' 1 (dataOf e.log).length
  counted : e.sequence = (dataOf e.log).length + e.unsentCount
  call : ∀ call, e.call = some call → call.sequence = e.sequence ∧
    (call.ack = .resolved → Happening.acknowledged call.sequence ∈ e.log) ∧
      ∃ size, e.pump = .sending size
  pending : e.pending.isSome → e.call.isSome ∧ e.pending = some e.sequence
  older : ∀ frame ∈ dataOf e.log, frame.1 < e.sequence →
    Happening.acknowledged frame.1 ∈ e.log
  quiet : e.pump.Ready → e.Reading → AllAcknowledged e.log
  fresh : e.websocket = false → e.closed = false → e.task ≠ .fetching →
    e.task ≠ .fetched → e.task ≠ .failed → e.pump = .unstarted
  order : bytesOf e.log ++ e.unsent <+: e.produced
  whole : e.pump.Flowing → e.Reading →
    bytesOf e.log ++ e.unsent ++ e.backlog = e.produced
  ended : ∀ happening ∈ e.log, IsEnd happening →
    e.closed = true ∨ e.pump = .ending ∨ e.pump = .done
  silent : ∀ before happening after, e.log = before ++ happening :: after →
    IsEnd happening → dataOf after = [] ∧
      ∀ sequence, Happening.acknowledged sequence ∉ after
  acknowledged : ∀ before after,
    e.log = before ++ Happening.sent (.ended false) :: after →
      AllAcknowledged before
  closed : Happening.closed ∈ e.log → e.closed = true

theorem Kept.opened (websocket : Bool) : Kept (.opened websocket) where
  present := rfl
  numbered := rfl
  counted := rfl
  call := nofun
  pending := nofun
  older := nofun
  quiet _ _ _ hframe := nomatch hframe
  fresh hsocket _ _ _ _ := by
    obtain rfl : websocket = false := hsocket
    rfl
  order := List.nil_prefix
  whole _ _ := by cases websocket <;> rfl
  ended := nofun
  silent before happening after hlog :=
    absurd (congrArg List.length hlog) (by simp [Entry.opened])
  acknowledged before after hlog :=
    absurd (congrArg List.length hlog) (by simp [Entry.opened])
  closed := nofun

theorem Kept.le_sequence (h : Kept e) {frame : Nat × List UInt8}
    (hframe : frame ∈ dataOf e.log) : frame.1 ≤ (dataOf e.log).length := by
  have hmem : frame.1 ∈ (dataOf e.log).map Prod.fst :=
    List.mem_map_of_mem hframe
  rw [h.numbered, List.mem_range'_1] at hmem
  omega

/-- The invariant is enough. -/
theorem Kept.exactlyOnce (h : Kept e) : ExactlyOnce e where
  one := by
    have hsequence : ∀ frame ∈ unacknowledged e.log,
        frame.1 = (dataOf e.log).length := by
      intro frame hframe
      obtain ⟨hmem, hnot⟩ := List.mem_filter.1 hframe
      have hle := h.le_sequence hmem
      have hcounted := h.counted
      have hlast : ¬frame.1 < e.sequence := fun hlt =>
        (of_decide_eq_true hnot) (h.older frame hmem hlt)
      omega
    have hnodup : ((unacknowledged e.log).map Prod.fst).Nodup := by
      have hsub : List.Sublist ((unacknowledged e.log).map Prod.fst)
          ((dataOf e.log).map Prod.fst) := List.filter_sublist.map _
      rw [h.numbered] at hsub
      exact hsub.nodup List.nodup_range'
    have hsame : (unacknowledged e.log).map Prod.fst =
        List.replicate (unacknowledged e.log).length (dataOf e.log).length := by
      rw [List.eq_replicate_iff, List.length_map]
      refine ⟨rfl, fun sequence hmem => ?_⟩
      obtain ⟨frame, hframe, rfl⟩ := List.mem_map.1 hmem
      exact hsequence frame hframe
    rw [hsame, List.nodup_replicate] at hnodup
    exact hnodup
  numbered := h.numbered
  ordered := (List.prefix_append _ _).trans h.order
  acknowledged := h.acknowledged
  silent := h.silent
  closed := h.closed

theorem AllAcknowledged.append (h : AllAcknowledged log)
    (hlast : dataOf [last] = []) : AllAcknowledged (log ++ [last]) := by
  intro frame hframe
  rw [dataOf_append, hlast, List.append_nil] at hframe
  exact List.mem_append_left _ (h frame hframe)

theorem silent_append
    (h : ∀ before happening after, log = before ++ happening :: after →
      IsEnd happening → dataOf after = [] ∧
        ∀ sequence, Happening.acknowledged sequence ∉ after)
    (hlast : (dataOf [last] = [] ∧
        ∀ sequence, Happening.acknowledged sequence ≠ last) ∨
      ∀ happening ∈ log, ¬IsEnd happening) :
    ∀ before happening after, log ++ [last] = before ++ happening :: after →
      IsEnd happening → dataOf after = [] ∧
        ∀ sequence, Happening.acknowledged sequence ∉ after := by
  intro before happening after hsplit hend
  rcases split_append hsplit with ⟨middle, rfl, rfl⟩ | ⟨rfl, rfl, rfl⟩
  · obtain ⟨hdata, hack⟩ := h before happening middle rfl hend
    rcases hlast with ⟨hnone, hno⟩ | hopen
    · refine ⟨by rw [dataOf_append, hdata, hnone]; rfl, fun sequence hmem => ?_⟩
      rcases List.mem_append.1 hmem with hmem | hmem
      · exact hack sequence hmem
      · exact hno sequence (List.mem_singleton.1 hmem)
    · exact absurd hend (hopen happening (by simp))
  · exact ⟨rfl, nofun⟩

theorem acknowledged_append
    (h : ∀ before after,
      log = before ++ Happening.sent (.ended false) :: after →
        AllAcknowledged before)
    (hlast : last = .sent (.ended false) → AllAcknowledged log) :
    ∀ before after,
      log ++ [last] = before ++ Happening.sent (.ended false) :: after →
        AllAcknowledged before := by
  intro before after hsplit
  rcases split_append hsplit with ⟨middle, hlog, -⟩ | ⟨rfl, hsame, -⟩
  · exact h before middle hlog
  · exact hlast hsame

namespace Kept

variable {e : Entry}

/-- No end yet. -/
theorem no_end (h : Kept e) (hopen : e.closed = false) {size : Nat}
    (hpump : e.pump = .sending size ∨ e.pump.Ready) :
    ∀ happening ∈ e.log, ¬IsEnd happening := by
  intro happening hmem hend
  rcases h.ended happening hmem hend with hclosed | hpumped | hpumped
  · rw [hopen] at hclosed
    cases hclosed
  · rw [hpumped] at hpump
    rcases hpump with hsame | hready
    · cases hsame
    · exact hready
  · rw [hpumped] at hpump
    rcases hpump with hsame | hready
    · cases hsame
    · exact hready

/-- A loop that has begun is in the hands of the task that began it. -/
theorem begun (h : Kept e) (hpump : e.pump ≠ .unstarted) {p : Prop}
    (hsocket : e.websocket = false) (hopen : e.closed = false)
    (hfetching : e.task ≠ .fetching) (hfetched : e.task ≠ .fetched)
    (hfailed : e.task ≠ .failed) : p :=
  absurd (h.fresh hsocket hopen hfetching hfetched hfailed) hpump

/-- What the loop and the frames do not look at. -/
theorem task (h : Kept e) (task : Task)
    (hfresh : e.websocket = false → e.closed = false → task ≠ .fetching →
      task ≠ .fetched → task ≠ .failed → e.pump = .unstarted) :
    Kept { e with task } :=
  { h with fresh := hfresh }

/-- A happening that is not data, and an acknowledgement only before the end. -/
theorem logged (h : Kept e) {last : Happening} (hdata : dataOf [last] = [])
    (hack : (∀ sequence, Happening.acknowledged sequence ≠ last) ∨
      ∀ happening ∈ e.log, ¬IsEnd happening)
    (hend : IsEnd last → e.closed = true ∨ e.pump = .ending ∨ e.pump = .done)
    (hnormal : last = .sent (.ended false) → AllAcknowledged e.log)
    (hclosed : last = .closed → e.closed = true) :
    Kept { e with log := e.log ++ [last] } := by
  have hsame : dataOf (e.log ++ [last]) = dataOf e.log := by
    rw [dataOf_append, hdata, List.append_nil]
  have hbytes : bytesOf (e.log ++ [last]) = bytesOf e.log := by
    rw [bytesOf, hsame, bytesOf]
  exact
    { present := h.present
      numbered := by
        simp only [hsame]
        exact h.numbered
      counted := by
        simp only [hsame]
        exact h.counted
      call := fun call hcall => by
        obtain ⟨hsequence, hresolved, hpump⟩ := h.call call hcall
        exact ⟨hsequence, fun hkept =>
          List.mem_append_left _ (hresolved hkept), hpump⟩
      pending := h.pending
      older := fun frame hframe hlt => by
        simp only [hsame] at hframe
        exact List.mem_append_left _ (h.older frame hframe hlt)
      quiet := fun hready hreading => (h.quiet hready hreading).append hdata
      fresh := h.fresh
      order := by
        simp only [hbytes]
        exact h.order
      whole := fun hflowing hreading => by
        simp only [hbytes]
        exact h.whole hflowing hreading
      ended := fun happening hmem hends => by
        rcases List.mem_append.1 hmem with hmem | hmem
        · exact h.ended happening hmem hends
        · rw [List.mem_singleton.1 hmem] at hends
          exact hend hends
      silent := silent_append h.silent (hack.imp_left fun hack => ⟨hdata, hack⟩)
      acknowledged := acknowledged_append h.acknowledged hnormal
      closed := fun hmem => by
        rcases List.mem_append.1 hmem with hmem | hmem
        · exact h.closed hmem
        · exact hclosed (List.mem_singleton.1 hmem).symm }

theorem shut (h : Kept e) :
    Kept { e with closed := true, present := false, pending := none } :=
  { h with
    present := rfl
    pending := nofun
    quiet := fun hready hreading =>
      h.quiet hready fun hsocket => nomatch hreading hsocket
    fresh := nofun
    whole := fun hflowing hreading =>
      h.whole hflowing fun hsocket => nomatch hreading hsocket
    ended := fun _ _ _ => .inl rfl
    closed := fun _ => rfl }

/-- The promises of a frame change; what is kept has been acknowledged. -/
theorem changeCall (h : Kept e) {change : SendCall → SendCall}
    (hchange : ∀ call, e.call = some call →
      (change call).sequence = call.sequence ∧
      (change call).bytes = call.bytes ∧
        (change call).transmitted = call.transmitted ∧
          ((change call).ack = .resolved → call.ack = .resolved ∨
            Happening.acknowledged call.sequence ∈ e.log)) :
    Kept { e with call := e.call.map change } := by
  have hunsent : Entry.unsent { e with call := e.call.map change } =
      e.unsent := by
    cases hcall : e.call with
    | none => simp [Entry.unsent, hcall]
    | some call =>
      obtain ⟨-, hbytes, htransmitted, -⟩ := hchange call hcall
      simp [Entry.unsent, hcall, hbytes, htransmitted]
  have hcount : Entry.unsentCount { e with call := e.call.map change } =
      e.unsentCount := by
    cases hcall : e.call with
    | none => simp [Entry.unsentCount, hcall]
    | some call =>
      simp [Entry.unsentCount, hcall, (hchange call hcall).2.2.1]
  exact
    { h with
      counted := by
        rw [hcount]
        exact h.counted
      call := fun call hcall => by
        obtain ⟨old, hold, rfl⟩ := Option.map_eq_some_iff.1 hcall
        obtain ⟨hsequence, hresolved, hpump⟩ := h.call old hold
        obtain ⟨hsame, -, -, hack⟩ := hchange old hold
        rw [hsame]
        exact ⟨hsequence, fun hkept => (hack hkept).elim hresolved id, hpump⟩
      pending := fun hpending => by
        rw [Option.isSome_map]
        exact h.pending hpending
      order := by
        rw [hunsent]
        exact h.order
      whole := fun hflowing hreading => by
        rw [hunsent]
        exact h.whole hflowing hreading }

theorem rejectAck_keeps (log : List Happening) (call : SendCall) :
    (Entry.rejectAck call).sequence = call.sequence ∧
      (Entry.rejectAck call).bytes = call.bytes ∧
        (Entry.rejectAck call).transmitted = call.transmitted ∧
          ((Entry.rejectAck call).ack = .resolved → call.ack = .resolved ∨
            Happening.acknowledged call.sequence ∈ log) := by
  refine ⟨rfl, rfl, rfl, fun hresolved => ?_⟩
  simp only [Entry.rejectAck] at hresolved
  split at hresolved
  · cases hresolved
  · exact .inl hresolved

theorem closing (h : Kept e) :
    Kept { e with call := if e.pending.isSome then e.call.map Entry.rejectAck
      else e.call } := by
  split
  · exact h.changeCall fun call _ => rejectAck_keeps _ call
  · exact h

theorem endChannel (h : Kept e) : Kept e.endChannel := by
  by_cases hclosed : e.closed = true
  · rw [Entry.endChannel, if_pos hclosed]
    exact h
  · rw [Entry.endChannel, if_neg hclosed]
    exact h.closing.shut.logged rfl (.inl nofun) (fun _ => .inl rfl) nofun
      fun _ => rfl

theorem abort (h : Kept e) : Kept e.abort := by
  rw [Entry.abort]
  by_cases hclosed : e.closed = true
  · have hsent : Kept (e.send (.ended true)) :=
      h.logged rfl (.inl nofun) (fun _ => .inl hclosed) nofun nofun
    exact hsent.endChannel
  · have hopen : ¬(e.send (.ended true)).closed = true := hclosed
    rw [Entry.endChannel, if_neg hopen]
    have hsent := h.closing.shut.logged
      (show dataOf [Happening.sent (.ended true)] = [] from rfl)
      (.inl nofun) (fun _ => .inl rfl) nofun nofun
    exact hsent.logged rfl (.inl nofun) (fun _ => .inl rfl) nofun fun _ => rfl

theorem no_call (h : Kept e) (hpump : ∀ size, e.pump ≠ .sending size) :
    e.call = none := by
  cases hcall : e.call with
  | none => rfl
  | some call =>
    obtain ⟨-, -, size, hsending⟩ := h.call call hcall
    exact absurd hsending (hpump size)

theorem unsent_none (hcall : e.call = none) : e.unsent = [] := by
  rw [Entry.unsent, hcall]

theorem unsentCount_none (hcall : e.call = none) : e.unsentCount = 0 := by
  rw [Entry.unsentCount, hcall]

theorem closed_of_end (h : Kept e) (hpump : e.pump ≠ .ending ∧ e.pump ≠ .done) :
    ∀ happening ∈ e.log, IsEnd happening → e.closed = true := by
  intro happening hmem hend
  exact (h.ended happening hmem hend).resolve_right fun hpumped =>
    hpumped.elim hpump.1 hpump.2

/-- The loop takes the next bytes, and sends them or fails. -/
theorem pumpData (h : Kept e) (hidle : e.pump = .idle) {items : List Item}
    {pieces : List (List UInt8)} {bytes : List UInt8}
    (hbacklog : e.backlog =
      bytes ++ Entry.backlog { e with items, pieces }) (alive : Bool) :
    Kept (Entry.pumpData { e with items, pieces } alive bytes) := by
  have hcall : e.call = none := h.no_call fun size => by
    rw [hidle]
    nofun
  have hready : e.pump.Ready := by
    rw [hidle]
    trivial
  have hflowing : e.pump.Flowing := by
    rw [hidle]
    trivial
  have hover := h.closed_of_end (by
    rw [hidle]
    exact ⟨nofun, nofun⟩)
  have hbegun : e.pump ≠ .unstarted := by
    rw [hidle]
    nofun
  unfold Entry.pumpData Entry.sendData
  split
  · rename_i t ht
    split at ht
    · cases ht
    · rename_i hguard
      obtain rfl := Option.some.inj ht
      simp only [not_or, Bool.not_eq_true, Bool.not_eq_false] at hguard
      obtain ⟨hopen, -, -⟩ := hguard
      have hreading : e.Reading := fun _ => hopen
      have hcounted := h.counted
      rw [unsentCount_none hcall] at hcounted
      have hwhole := h.whole hflowing hreading
      rw [unsent_none hcall, List.append_nil, hbacklog] at hwhole
      exact
        { h with
          counted := congrArg (· + 1) hcounted
          call := fun call hsome => by
            obtain rfl := Option.some.inj hsome
            exact ⟨rfl, nofun, _, rfl⟩
          pending := fun _ => ⟨rfl, rfl⟩
          older := fun frame hframe _ => h.quiet hready hreading frame hframe
          quiet := nofun
          fresh := h.begun hbegun
          order := by
            refine ⟨Entry.backlog { e with items, pieces }, ?_⟩
            rw [← hwhole, List.append_assoc]
            rfl
          whole := fun _ _ => by
            rw [← hwhole, List.append_assoc]
            rfl
          ended := fun happening hmem hend => .inl (hover happening hmem hend) }
  · exact
      { h with
        call := fun call hsome => by
          change e.call = some call at hsome
          rw [hcall] at hsome
          cases hsome
        quiet := nofun
        fresh := h.begun hbegun
        whole := nofun
        ended := fun happening hmem hend => .inl (hover happening hmem hend) }

/-- Before a round the loop fails. -/
theorem fail (h : Kept e) (hidle : e.pump = .idle) (size : Nat) :
    Kept { e with pump := .failed size } :=
  { h with
    call := fun call hsome => by
      obtain ⟨-, -, other, hsending⟩ := h.call call hsome
      rw [hidle] at hsending
      cases hsending
    quiet := nofun
    fresh := h.begun (by
      rw [hidle]
      nofun)
    whole := nofun
    ended := fun happening hmem hend => .inl (h.closed_of_end (by
      rw [hidle]
      exact ⟨nofun, nofun⟩) happening hmem hend) }

variable {pump : Pump}

/-- Without a frame on its way the loop may be anywhere that its conditions
allow. -/
theorem repump (h : Kept e) (hcall : e.call = none)
    (hquiet : pump.Ready → e.Reading → AllAcknowledged e.log)
    (hfresh : e.websocket = false → e.closed = false → e.task ≠ .fetching →
      e.task ≠ .fetched → e.task ≠ .failed → pump = .unstarted)
    (hwhole : pump.Flowing → e.Reading →
      bytesOf e.log ++ e.unsent ++ e.backlog = e.produced)
    (hended : ∀ happening ∈ e.log, IsEnd happening →
      e.closed = true ∨ pump = .ending ∨ pump = .done) : Kept { e with pump } :=
  { h with
    call := fun call hsome => by
      change e.call = some call at hsome
      rw [hcall] at hsome
      cases hsome
    quiet := hquiet
    fresh := hfresh
    whole := hwhole
    ended := hended }

/-- The loop comes to its normal end. -/
theorem finishing (h : Kept e) (hidle : e.pump = .idle) (hcall : e.call = none)
    (hreading : e.Reading) :
    Kept { e.send (.ended false) with pump := .ending } := by
  have hready : e.pump.Ready := by
    rw [hidle]
    trivial
  have hover := h.closed_of_end (by
    rw [hidle]
    exact ⟨nofun, nofun⟩)
  have hended := @repump e .ending h hcall nofun
    (h.begun (by
      rw [hidle]
      nofun))
    nofun fun happening hmem hend => .inl (hover happening hmem hend)
  exact hended.logged rfl (.inl nofun) (fun _ => .inr (.inl rfl))
    (fun _ => h.quiet hready hreading) nofun

theorem transmit (h : Kept e)
    (hopen : e.closed = false ∨
      ∀ call, e.call = some call → call.transmitted = true) :
    Kept e.transmit := by
  unfold Entry.transmit
  split
  · rename_i call hcall
    split
    · exact h
    · rename_i huntransmitted
      have hopen : e.closed = false :=
        hopen.resolve_right fun hall => huntransmitted (hall call hcall)
      obtain ⟨hsequence, hresolved, size, hpump⟩ := h.call call hcall
      have hcounted := h.counted
      have horder := h.order
      have hwhole := h.whole
      simp only [Entry.unsentCount, Entry.unsent, hcall, huntransmitted,
        Bool.false_eq_true, if_false] at hcounted horder hwhole
      have hdata : dataOf (e.log ++
          [Happening.sent (.data call.sequence call.bytes)]) =
            dataOf e.log ++ [(call.sequence, call.bytes)] := by
        rw [dataOf_append]
        rfl
      have hnumbered : (dataOf e.log ++
          [(call.sequence, call.bytes)]).map Prod.fst =
            List.range' 1 (dataOf e.log ++
              [(call.sequence, call.bytes)]).length := by
        rw [List.map_append, h.numbered, List.length_append,
          List.length_singleton, List.range'_concat, hsequence, hcounted]
        simp [Nat.add_comm]
      have hbytes : bytesOf (e.log ++
          [Happening.sent (.data call.sequence call.bytes)]) =
            bytesOf e.log ++ call.bytes := by
        rw [bytesOf, hdata, List.flatMap_append, List.flatMap_singleton]
        rfl
      exact
        { h with
          numbered := by
            simp only [hdata]
            exact hnumbered
          counted := by
            simp only [hdata, Entry.unsentCount, List.length_append,
              List.length_singleton, if_true]
            exact hcounted
          call := fun other hother => by
            obtain rfl := Option.some.inj hother
            exact ⟨hsequence, fun hkept =>
              List.mem_append_left _ (hresolved hkept), size, hpump⟩
          pending := fun hpending => ⟨rfl, (h.pending hpending).2⟩
          older := fun frame hframe hlt => by
            simp only [hdata, List.mem_append, List.mem_singleton] at hframe
            rcases hframe with hframe | rfl
            · exact List.mem_append_left _ (h.older frame hframe hlt)
            · exact absurd hlt (by
                simp only [hsequence]
                exact Nat.lt_irrefl _)
          quiet := fun hready => by
            rw [hpump] at hready
            exact hready.elim
          order := by
            simp only [hbytes, Entry.unsent, if_true, List.append_nil]
            exact horder
          whole := fun hflowing hreading => by
            simp only [hbytes, Entry.unsent, if_true, List.append_nil]
            exact hwhole hflowing hreading
          ended := fun happening hmem hend => by
            rcases List.mem_append.1 hmem with hmem | hmem
            · exact h.ended happening hmem hend
            · rw [List.mem_singleton.1 hmem] at hend
              rcases hend with hsame | ⟨error, hsame⟩ <;> cases hsame
          silent := silent_append h.silent
            (.inr (h.no_end hopen (.inl hpump)))
          acknowledged := acknowledged_append h.acknowledged nofun
          closed := fun hmem => by
            rcases List.mem_append.1 hmem with hmem | hmem
            · exact h.closed hmem
            · cases List.mem_singleton.1 hmem }
  · exact h

theorem settle (h : Kept e) : Kept e.settle := by
  unfold Entry.settle
  split
  · rename_i call size hcall hpump
    split
    · rename_i htransmitted
      obtain ⟨hsequence, hresolved, -⟩ := h.call call hcall
      have hpending : (if e.pending = some call.sequence then none
          else e.pending) = none := by
        split
        · rfl
        · rename_i hother
          cases hnone : e.pending with
          | none => rfl
          | some sequence =>
            rw [hsequence, (h.pending (by rw [hnone]; rfl)).2] at hother
            exact absurd rfl hother
      have hcounted := h.counted
      have horder := h.order
      have hwhole := h.whole
      have hended := h.ended
      simp only [Entry.unsentCount, Entry.unsent, hcall, htransmitted, if_true,
        hpump] at hcounted horder hwhole hended
      have hopen : ∀ happening ∈ e.log, IsEnd happening → e.closed = true := by
        intro happening hmem hend
        exact (hended happening hmem hend).resolve_right (by simp)
      have hbegun : e.pump ≠ .unstarted := by
        rw [hpump]
        nofun
      simp only [hpending]
      split
      · exact
          { h with
            counted := hcounted
            call := nofun
            pending := nofun
            quiet := nofun
            fresh := h.begun hbegun
            order := horder
            whole := nofun
            ended := fun happening hmem hend => .inl (hopen happening hmem hend) }
      · split
        · rename_i hboth
          exact
            { h with
              counted := hcounted
              call := nofun
              pending := nofun
              quiet := fun _ _ frame hframe => by
                have hle := h.le_sequence hframe
                by_cases hlt : frame.1 < e.sequence
                · exact h.older frame hframe hlt
                · have hlast : frame.1 = call.sequence := by omega
                  rw [hlast]
                  exact hresolved hboth.2
              fresh := h.begun hbegun
              order := horder
              whole := fun _ hreading => hwhole trivial hreading
              ended := fun happening hmem hend =>
                .inl (hopen happening hmem hend) }
        · exact h
    · exact h
  · exact h

theorem acknowledge (h : Kept e) {sequence : Nat}
    (hopen : ∀ happening ∈ e.log, ¬IsEnd happening) :
    Kept { e with
      pending := none
      log := e.log ++ [.acknowledged sequence] } := by
  have hpending : Kept { e with pending := none } := { h with pending := nofun }
  refine hpending.logged rfl (.inr hopen) ?_ nofun nofun
  rintro (hsame | ⟨error, hsame⟩) <;> cases hsame

theorem ack (h : Kept e) (sequence : Nat) (alive : Bool) :
    Kept (e.ack sequence alive) := by
  unfold Entry.ack
  split
  · exact h
  · rename_i hpresent
    split
    · exact h.abort
    · rename_i hguard
      simp only [ne_eq, not_or, not_not] at hguard
      obtain ⟨hpending, -⟩ := hguard
      obtain ⟨hsome, hlast⟩ := h.pending (by rw [hpending]; rfl)
      rw [hpending] at hlast
      obtain rfl := Option.some.inj hlast
      obtain ⟨call, hcall⟩ := Option.isSome_iff_exists.1 hsome
      obtain ⟨hsequence, -, size, hpump⟩ := h.call call hcall
      have hopen : e.closed = false := by
        have hshown := h.present
        cases hclosed : e.closed with
        | false => rfl
        | true =>
          rw [hclosed] at hshown
          exact absurd hshown hpresent
      have hlogged := @acknowledge e h e.sequence (h.no_end hopen (.inl hpump))
      refine hlogged.changeCall fun other hother =>
        ⟨rfl, rfl, rfl, fun _ => .inr ?_⟩
      rw [(hlogged.call other hother).1]
      exact List.mem_append_right _ (List.mem_singleton.2 rfl)

theorem answered (h : Kept e) (taken : Bool) : Kept (e.answered taken) := by
  unfold Entry.answered
  split
  · rename_i call hcall
    split
    · have hchanged := @changeCall e h (fun call =>
        { call with answer := if taken then .resolved else .rejected })
        fun _ _ => ⟨rfl, rfl, rfl, .inl⟩
      rw [hcall] at hchanged
      exact hchanged
    · exact h
  · exact h

theorem timeout (h : Kept e) : Kept e.timeout := by
  unfold Entry.timeout
  split
  · exact h.changeCall fun call _ => rejectAck_keeps _ call
  · exact h

/-- On a closed channel of a socket the loop may be anywhere. -/
theorem closedSocket (h : Kept e) (hclosed : e.closed = true)
    (hsocket : e.websocket = true) (hcall : e.call = none) (pump : Pump)
    (waiting : Nat) : Kept { e with pump, waiting } :=
  { h with
    call := fun call hsome => by
      change e.call = some call at hsome
      rw [hcall] at hsome
      cases hsome
    quiet := fun _ hreading => by
      have hopen := hreading hsocket
      change e.closed = false at hopen
      rw [hclosed] at hopen
      cases hopen
    fresh := fun hhttp => by
      change e.websocket = false at hhttp
      rw [hsocket] at hhttp
      cases hhttp
    whole := fun _ hreading => by
      have hopen := hreading hsocket
      change e.closed = false at hopen
      rw [hclosed] at hopen
      cases hopen
    ended := fun _ _ _ => .inl hclosed }

theorem endChannel_closed (e : Entry) : e.endChannel.closed = true := by
  unfold Entry.endChannel
  split
  · assumption
  · rfl

theorem endChannel_websocket (e : Entry) :
    e.endChannel.websocket = e.websocket := by
  unfold Entry.endChannel
  split <;> rfl

theorem endChannel_call (e : Entry) (hcall : e.call = none) :
    e.endChannel.call = none := by
  unfold Entry.endChannel
  split
  · exact hcall
  · simp [hcall]

theorem endChannel_pump (e : Entry) (pump : Pump) (waiting : Nat) :
    Entry.endChannel { e with pump, waiting } =
      { e.endChannel with pump, waiting } := by
  unfold Entry.endChannel
  split <;> rfl

/-- More bytes behind those that the loop has; on a closed socket they are
lost. -/
theorem produce (h : Kept e) (bytes : List UInt8) (items : List Item)
    (pieces : List (List UInt8))
    (hmore : e.pump.Flowing → e.Reading →
      Entry.backlog { e with items, pieces } = e.backlog ++ bytes) :
    Kept { e with produced := e.produced ++ bytes, items, pieces } :=
  { h with
    order := h.order.trans (List.prefix_append _ _)
    whole := fun hflowing hreading => by
      change bytesOf e.log ++ e.unsent ++
        Entry.backlog { e with items, pieces } = e.produced ++ bytes
      rw [hmore hflowing hreading, ← h.whole hflowing hreading]
      simp only [List.append_assoc] }

theorem message (h : Kept e) (bytes : List UInt8) : Kept (e.message bytes) := by
  unfold Entry.message
  split
  · exact h
  · rename_i hguard
    simp only [not_or, Bool.not_eq_false] at hguard
    obtain ⟨hsocket, -, -⟩ := hguard
    simp only
    split
    · have hended : Entry.endChannel { e with
          waiting := e.waiting + bytes.length
          produced := e.produced ++ bytes } =
            { e.endChannel with
              waiting := e.waiting + bytes.length
              produced := e.endChannel.produced ++ bytes } := by
        unfold Entry.endChannel
        split <;> rfl
      rw [hended]
      have hmore := h.endChannel.produce bytes e.endChannel.items
        e.endChannel.pieces fun _ hreading => by
          have hopen := hreading (by rw [endChannel_websocket, hsocket])
          rw [endChannel_closed] at hopen
          cases hopen
      exact { hmore with }
    · have hmore := h.produce bytes (e.items ++ [Item.message bytes]) e.pieces
        fun _ _ => by simp [Entry.backlog, hsocket, Item.bytes]
      exact { hmore with }

theorem socketClosed (h : Kept e) (normal : Bool) :
    Kept (e.socketClosed normal) := by
  unfold Entry.socketClosed
  split
  · exact h
  · rename_i hguard
    simp only [not_or, Bool.not_eq_false] at hguard
    split
    · exact h.abort
    · have hmore := h.produce [] (e.items ++ [Item.close]) e.pieces
        fun _ _ => by simp [Entry.backlog, hguard.1, Item.bytes]
      rw [List.append_nil] at hmore
      exact hmore

theorem piecesOf_flatten (bytes : List UInt8) :
    (Entry.piecesOf bytes).flatten = bytes := by
  induction hn : bytes.length using Nat.strong_induction_on
    generalizing bytes with
  | _ n ih =>
  rw [Entry.piecesOf]
  split
  · rename_i hnil
    rw [hnil]
    rfl
  · rename_i hbytes
    have hlength := List.length_pos_iff.2 hbytes
    rw [List.flatten_cons, ih _ (by
      rw [List.length_drop]
      simp only [pieceBytes]
      omega) _ rfl, List.take_append_drop]

theorem chunk (h : Kept e) (bytes : List UInt8) (alive : Bool) :
    Kept (e.chunk bytes alive) := by
  unfold Entry.chunk
  split
  · rename_i hidle hpieces
    split
    · exact h
    · rename_i hsocket
      have hhttp : e.websocket = false := Bool.eq_false_iff.2 hsocket
      simp only
      split
      · have hfailed := (h.fail hidle 0).produce bytes e.items e.pieces nofun
        exact { hfailed with }
      · have hmore := h.produce bytes e.items (Entry.piecesOf bytes)
          fun _ _ => by
            simp [Entry.backlog, hhttp, hpieces, piecesOf_flatten]
        exact { hmore with }
  · exact h

theorem piece (h : Kept e) (alive : Bool) : Kept (e.piece alive) := by
  unfold Entry.piece
  split
  · rename_i bytes pieces hidle hpieces
    split
    · exact h
    · rename_i hsocket
      have hhttp : e.websocket = false := Bool.eq_false_iff.2 hsocket
      exact @pumpData e h hidle e.items pieces bytes (by
        simp [Entry.backlog, hhttp, hpieces]) alive
  · exact h

theorem take (h : Kept e) (alive aliveAgain : Bool)
    (hcareful : e.closed = true ∨ alive = true ∨
      ∀ bytes items, e.items ≠ .message bytes :: items) :
    Kept (e.take alive aliveAgain) := by
  unfold Entry.take
  split
  · rename_i item items hidle hitems
    have hcall := h.no_call fun size => by
      rw [hidle]
      nofun
    split
    · rename_i hguard
      have hsocket := hguard.1
      cases item with
      | message bytes =>
        simp only
        split
        · exact @pumpData e h hidle items e.pieces bytes (by
            simp [Entry.backlog, hsocket, hitems, Item.bytes]) aliveAgain
        · rename_i hskip
          have hclosed : e.closed = true := by
            rcases hcareful with hclosed | halive | hother
            · exact hclosed
            · by_contra hopen
              exact hskip ⟨Bool.eq_false_iff.2 hopen, halive⟩
            · exact absurd hitems (hother bytes items)
          have hshorter := h.produce [] items e.pieces fun _ hreading => by
            have hopen := hreading hsocket
            rw [hclosed] at hopen
            cases hopen
          rw [List.append_nil] at hshorter
          exact { hshorter with }
      | close =>
        simp only
        have hshorter := h.produce [] items e.pieces fun _ _ => by
          simp [Entry.backlog, hsocket, hitems, Item.bytes]
        rw [List.append_nil] at hshorter
        split
        · exact hshorter
        · rename_i hopen
          exact (hshorter.finishing hidle hcall fun _ =>
            Bool.eq_false_iff.2 hopen)
    · exact h
  · exact h

/-- Between two rounds. -/
theorem ready (h : Kept e) (hready : e.pump.Ready)
    (hfresh : e.websocket = false → e.closed = false → e.task ≠ .fetching →
      e.task ≠ .fetched → e.task ≠ .failed → pump = .unstarted) :
    Kept { e with pump } := by
  have hcall := h.no_call fun size hsending => by
    rw [hsending] at hready
    exact hready
  have hflowing : e.pump.Flowing := by
    revert hready
    cases e.pump with
    | sending => exact False.elim
    | _ => exact id
  have hover := h.closed_of_end (by
    constructor
    · intro hending
      rw [hending] at hready
      exact hready
    · intro hdone
      rw [hdone] at hready
      exact hready)
  exact h.repump hcall (fun _ => h.quiet hready) hfresh
    (fun _ => h.whole hflowing)
    fun happening hmem hend => .inl (hover happening hmem hend)

theorem response (h : Kept e) : Kept (e.send .response) :=
  h.logged rfl (.inl nofun) (fun hend => by
    rcases hend with hsame | ⟨error, hsame⟩ <;> cases hsame) nofun nofun

theorem responded (h : Kept e) : Kept e.responded := by
  unfold Entry.responded
  split
  · rename_i hpump
    have hnext : Kept { e with pump := .responding } :=
      h.ready (by rw [hpump]; trivial) (h.begun (by rw [hpump]; nofun))
    exact hnext.response
  · exact h

theorem responseTaken (h : Kept e) (taken : Bool) :
    Kept (e.responseTaken taken) := by
  unfold Entry.responseTaken
  split
  · rename_i hpump
    have hidle : Kept { e with pump := .idle } :=
      h.ready (by rw [hpump]; trivial) (h.begun (by rw [hpump]; nofun))
    split
    · exact hidle
    · exact hidle.fail rfl 0
  · exact h

theorem responseFailed (h : Kept e) : Kept e.responseFailed := by
  unfold Entry.responseFailed
  split
  · rename_i hidle
    split
    · exact h
    · exact h.fail hidle 0
  · exact h

theorem finish (h : Kept e) : Kept e.finish := by
  unfold Entry.finish
  split
  · rename_i hidle _
    split
    · exact h
    · rename_i hsocket
      exact h.finishing hidle (h.no_call fun size => by
        rw [hidle]
        nofun) fun hwebsocket => absurd hwebsocket hsocket
  · exact h

/-- Behind its end, or its failure, the loop of a response is done. -/
theorem stopped (h : Kept e) (hstopped : ¬e.pump.Flowing) :
    Kept { e with pump := .done } := by
  have hcall := h.no_call fun size hsending => by
    rw [hsending] at hstopped
    exact hstopped trivial
  exact h.repump hcall nofun
    (h.begun fun hunstarted => by
      rw [hunstarted] at hstopped
      exact hstopped trivial)
    nofun fun happening hmem hend =>
      (h.ended happening hmem hend).imp_right fun _ => .inr rfl

/-- On a socket the channel is closed then. -/
theorem stoppedSocket (h : Kept e) (hstopped : ¬e.pump.Flowing)
    (hsocket : e.websocket = true) (pump : Pump) (waiting : Nat) :
    Kept (Entry.endChannel { e with pump, waiting }) := by
  have hcall := h.no_call fun size hsending => by
    rw [hsending] at hstopped
    exact hstopped trivial
  rw [endChannel_pump]
  exact h.endChannel.closedSocket (endChannel_closed e)
    (by rw [endChannel_websocket, hsocket]) (endChannel_call e hcall) pump
    waiting

theorem endSent (h : Kept e) (threw : Bool) : Kept (e.endSent threw) := by
  unfold Entry.endSent
  split
  · rename_i hpump
    have hstopped : ¬e.pump.Flowing := by
      rw [hpump]
      exact id
    split
    · rename_i hsocket
      exact h.stoppedSocket hstopped hsocket .done e.waiting
    · split
      · exact (h.stopped hstopped).task _ (by cases threw <;> simp)
      · exact h.stopped hstopped
  · exact h

theorem caught (h : Kept e) : Kept e.caught := by
  unfold Entry.caught
  split
  · rename_i size hpump
    have hstopped : ¬e.pump.Flowing := by
      rw [hpump]
      exact id
    split
    · rename_i hsocket
      exact h.stoppedSocket hstopped hsocket .idle (e.waiting - size)
    · split
      · exact (h.stopped hstopped).task _ (by simp)
      · exact h.stopped hstopped
  · exact h

theorem runTask (h : Kept e) (alive : Bool) : Kept (e.runTask alive) := by
  unfold Entry.runTask
  split
  · rename_i queued queue hidle hqueue
    simp only
    have hnext : Kept { e with queue } := { h with }
    split
    · exact hnext
    · rename_i hopen
      split
      · exact hnext.task _ (by simp)
      · cases queued with
        | data bytes =>
          simp only
          split
          · rename_i hsocket
            split
            · exact hnext.task _ (by simp)
            · exact hnext.task _ fun hhttp => by
                change e.websocket = false at hhttp
                rw [hsocket] at hhttp
                cases hhttp
          · exact { hnext with }
        | ended =>
          simp only
          split
          · exact hnext.endChannel
          · rename_i hsocket
            have hunstarted := h.fresh (Bool.eq_false_iff.2 hsocket)
              (Bool.eq_false_iff.2 hopen) (by rw [hidle]; nofun)
              (by rw [hidle]; nofun) (by rw [hidle]; nofun)
            have hfetching := h.task .fetching
              fun _ _ hnot => absurd rfl hnot
            have hrequesting : Kept
                { e with task := .fetching, pump := .requesting } :=
              hfetching.ready (by
                change e.pump.Ready
                rw [hunstarted]
                trivial) fun _ _ hnot => absurd rfl hnot
            exact { hrequesting with }
  · exact h

theorem endChannel_task (h : Kept e) (task : Task) :
    Kept (Entry.endChannel { e with task }) := by
  have hsame : Entry.endChannel { e with task } = { e.endChannel with task } := by
    unfold Entry.endChannel
    split <;> rfl
  rw [hsame]
  exact h.endChannel.task task fun _ hopen => by
    rw [endChannel_closed] at hopen
    cases hopen

theorem taskGoesOn (h : Kept e) (succeeded alive : Bool) :
    Kept (e.taskGoesOn succeeded alive) := by
  have hfailed : Kept { e with task := .failed } :=
    h.task .failed fun _ _ _ _ hnot => absurd rfl hnot
  have hnext : ∀ task, e.task ≠ .fetching → e.task ≠ .fetched →
      e.task ≠ .failed → Kept { e with task } :=
    fun task hfetching hfetched hfailed => h.task task fun hsocket hopen _ _ _ =>
      h.fresh hsocket hopen hfetching hfetched hfailed
  unfold Entry.taskGoesOn
  split
  · rename_i htask
    split
    · exact hnext .connecting (by rw [htask]; nofun) (by rw [htask]; nofun)
        (by rw [htask]; nofun)
    · exact hfailed
  · rename_i htask
    split
    · exact hfailed
    · split
      · exact { hnext .handshaking (by rw [htask]; nofun) (by rw [htask]; nofun)
          (by rw [htask]; nofun) with }
      · exact hnext .idle (by rw [htask]; nofun) (by rw [htask]; nofun)
          (by rw [htask]; nofun)
  · rename_i htask
    split
    · have hready : Kept { e with task := .responding, ready := true } :=
        { hnext .responding (by rw [htask]; nofun) (by rw [htask]; nofun)
          (by rw [htask]; nofun) with }
      exact hready.response
    · exact hfailed
  · rename_i htask
    split
    · exact { hnext .idle (by rw [htask]; nofun) (by rw [htask]; nofun)
        (by rw [htask]; nofun) with }
    · exact hfailed
  · rename_i htask
    split
    · exact hnext .idle (by rw [htask]; nofun) (by rw [htask]; nofun)
        (by rw [htask]; nofun)
    · exact hfailed
  · split
    · exact h
    · exact hfailed
  · exact h.endChannel_task .idle
  · have hsame : Entry.abort { e with task := .idle } =
        { e.abort with task := .idle } := by
      unfold Entry.abort Entry.endChannel Entry.send
      split <;> rfl
    rw [hsame]
    exact h.abort.task .idle fun _ hopen => by
      change e.abort.closed = false at hopen
      rw [Entry.abort, endChannel_closed] at hopen
      cases hopen
  · exact h

theorem clientData (h : Kept e) (bytes : List UInt8) :
    Kept (e.clientData bytes) := by
  unfold Entry.clientData
  split
  · exact h
  · have hsize : Kept { e with size := e.size + bytes.length } := { h with }
    simp only
    split
    · exact hsize.endChannel
    · exact { h with }

theorem clientEnded (h : Kept e) (error : Bool) : Kept (e.clientEnded error) := by
  unfold Entry.clientEnded
  split
  · exact h
  · split
    · exact h.endChannel
    · exact { h with }

/-- One step. -/
theorem step (h : Kept e) (action : Action) (hcareful : Careful e action) :
    Kept (relayStep e action) := by
  cases action with
  | ack sequence alive => exact h.ack sequence alive
  | clientData bytes => exact h.clientData bytes
  | clientEnded error => exact h.clientEnded error
  | timeout => exact h.timeout
  | transmit => exact h.transmit hcareful
  | answered taken => exact h.answered taken
  | settle => exact h.settle
  | runTask alive => exact h.runTask alive
  | taskGoesOn succeeded alive => exact h.taskGoesOn succeeded alive
  | message bytes => exact h.message bytes
  | socketFailed =>
    simp only [relayStep]
    split
    · exact h.endChannel
    · exact h
  | socketClosed normal => exact h.socketClosed normal
  | take alive aliveAgain => exact h.take alive aliveAgain hcareful
  | responded => exact h.responded
  | responseTaken taken => exact h.responseTaken taken
  | chunk bytes alive => exact h.chunk bytes alive
  | piece alive => exact h.piece alive
  | responseFailed => exact h.responseFailed
  | finish => exact h.finish
  | endSent threw => exact h.endSent threw
  | caught => exact h.caught
  | close =>
    simp only [relayStep]
    split
    · exact h.endChannel
    · exact h

end Kept

/-- The data of a channel arrives once and in order in every careful run. -/
theorem preview_data_exactly_once (websocket : Bool) (actions : List Action)
    (h : projectPreviewRelay.AllSteps Careful (.opened websocket) actions) :
    ExactlyOnce (projectPreviewRelay.after (.opened websocket) actions) :=
  (h.after_invariant (fun _ action hkept hcareful => hkept.step action hcareful)
    (Kept.opened websocket)).exactlyOnce

namespace ProjectPreviewWitness

/-- A socket is accepted; its first message comes before the response has been
taken. -/
def accepted : List Action :=
  [.taskGoesOn true true, .taskGoesOn true true, .taskGoesOn true true,
   .message [1, 2], .taskGoesOn true true]

/-- Both messages are sent and acknowledged, and the socket closes. -/
def page : List Action :=
  accepted ++
    [Action.take true true, .transmit, .message [3], .answered true, .ack 1 true,
     .settle, .take true true, .transmit, .ack 2 true, .socketClosed true,
     .answered true, .settle, .take true true, .endSent false]

theorem page_exactly_once :
    projectPreviewRelay.AllSteps Careful (.opened true) page ∧
      ExactlyOnce (projectPreviewRelay.after (.opened true) page) := by
  have hcareful : projectPreviewRelay.AllSteps Careful (.opened true) page :=
    ⟨trivial, trivial, trivial, trivial, trivial, .inr (.inl rfl), .inl rfl,
      trivial, trivial, trivial, trivial, .inr (.inl rfl), .inl rfl, trivial,
      trivial, trivial, trivial, .inr (.inl rfl), trivial, trivial⟩
  exact ⟨hcareful, preview_data_exactly_once true page hcareful⟩

/-- The target is not alive when the first message is taken, and is alive when
the second one is. -/
def lapsed : List Action :=
  accepted ++ [Action.take false true, .message [3], .take true true, .transmit]

theorem lapsed_message_is_lost :
    ¬∀ (websocket : Bool) (actions : List Action),
      ExactlyOnce (projectPreviewRelay.after (.opened websocket) actions) := by
  intro h
  have hordered := (h true lapsed).ordered
  have hsent : bytesOf (projectPreviewRelay.after (.opened true) lapsed).log =
      [3] := rfl
  have hproduced :
      (projectPreviewRelay.after (.opened true) lapsed).produced = [1, 2, 3] :=
    rfl
  rw [hsent, hproduced] at hordered
  exact absurd hordered (by decide)

end ProjectPreviewWitness

end Allrice.ProjectPreview
