/-
The batcher between a harness and the database: deltas of one reply wait for
each other, everything else goes through at once.  Its methods suspend while a
write is under way, so that other calls and the timer come in between.
-/
import Allrice.JsString
import Allrice.Runs

namespace Allrice

structure AssistantDelta (ι : Type) where
  replyId : Option JsString
  generation : Nat
  attempt : Nat
  messageId : Option JsString
  turnId : Option JsString
  text : JsString
  /-- `textMode === 'replace'`. -/
  replaces : Bool
  order : Nat
  orderStart : Option Nat
  carried : ι
  deriving DecidableEq

inductive HarnessEvent (ι : Type) where
  | delta (delta : AssistantDelta ι)
  | other (carried : ι)
  deriving DecidableEq

variable {ι : Type}

/-- Whether two deltas may be joined. -/
def AssistantDelta.sameReply (left right : AssistantDelta ι) : Bool :=
  left.replyId = right.replyId && left.generation = right.generation &&
    left.attempt = right.attempt && left.messageId = right.messageId &&
    left.turnId = right.turnId

/-- One event for some deltas: the last of them, with the text of all and the
order of the first. -/
def joinDeltas (first : AssistantDelta ι) (more : List (AssistantDelta ι)) :
    HarnessEvent ι :=
  .delta { more.getLastD first with
    text := (first :: more).flatMap AssistantDelta.text
    orderStart := some first.order }

/-- What a suspended call does next. -/
inductive Continuation (ι : Type) where
  | write (event : HarnessEvent ι)
  | push (delta : AssistantDelta ι)
  | done

/-- A call that waits for the first writes of the chain.  If one of them fails
it may be the one who notes the failure. -/
structure SuspendedCall (ι : Type) where
  awaited : Nat
  notes : Bool
  next : Continuation ι

structure HarnessEventBatcher (ι : Type) where
  pending : List (AssistantDelta ι)
  pendingCharacters : Nat
  timer : Bool
  /-- The events that were put on the chain, in this order. -/
  writeChain : List (HarnessEvent ι)
  /-- How many of them are written. -/
  settled : Nat
  /-- The write after these was rejected. -/
  rejected : Bool
  failure : Bool
  calls : List (SuspendedCall ι)

namespace HarnessEventBatcher

def fresh : HarnessEventBatcher ι := ⟨[], 0, false, [], 0, false, false, []⟩

/-- What was written downstream. -/
def written (batcher : HarnessEventBatcher ι) : List (HarnessEvent ι) :=
  batcher.writeChain.take batcher.settled

/-- `enqueueWrite`, up to its `await`. -/
def enqueueWrite (batcher : HarnessEventBatcher ι) (event : HarnessEvent ι)
    (next : Continuation ι) : HarnessEventBatcher ι :=
  let writeChain := batcher.writeChain ++ [event]
  { batcher with
    writeChain := writeChain
    calls := batcher.calls ++ [⟨writeChain.length, true, next⟩] }

/-- `flush` without failure, up to its `await`. -/
def flushThen (batcher : HarnessEventBatcher ι) (notes : Bool)
    (next : Continuation ι) : HarnessEventBatcher ι :=
  let events := batcher.pending
  let batcher := { batcher with
    timer := false, pending := [], pendingCharacters := 0 }
  match events with
  | first :: more => batcher.enqueueWrite (joinDeltas first more) next
  | [] => { batcher with
      calls := batcher.calls ++ [⟨batcher.writeChain.length, notes, next⟩] }

section Accept

variable (maxCharacters : Nat)

/-- The end of `accept` for a delta. -/
def pushDelta (batcher : HarnessEventBatcher ι) (event : AssistantDelta ι) :
    HarnessEventBatcher ι :=
  let batcher := { batcher with
    pending := batcher.pending ++ [event]
    pendingCharacters := batcher.pendingCharacters + event.text.length }
  if maxCharacters ≤ batcher.pendingCharacters then
    if batcher.failure then batcher else batcher.flushThen false .done
  else { batcher with timer := true }

/-- `accept` without failure, up to its first `await`. -/
def accept (batcher : HarnessEventBatcher ι) :
    HarnessEvent ι → HarnessEventBatcher ι
  | .other carried => batcher.flushThen false (.write (.other carried))
  | .delta event =>
    if event.replaces then
      batcher.flushThen false (.write (.delta event))
    else
      match batcher.pending.getLast? with
      | some previous =>
        if previous.sameReply event then
          batcher.pushDelta maxCharacters event
        else batcher.flushThen false (.push event)
      | none => batcher.pushDelta maxCharacters event

/-- A call goes on after its `await`. -/
def continue_ (batcher : HarnessEventBatcher ι) :
    Continuation ι → HarnessEventBatcher ι
  | .write event => batcher.enqueueWrite event .done
  | .push event => batcher.pushDelta maxCharacters event
  | .done => batcher

/-- One call of those that wait, if what it waits for is settled. -/
def resume (batcher : HarnessEventBatcher ι) (i : Nat) :
    HarnessEventBatcher ι :=
  match batcher.calls[i]? with
  | none => batcher
  | some call =>
    let rest := { batcher with calls := batcher.calls.eraseIdx i }
    if call.awaited ≤ batcher.settled then
      if batcher.failure then rest
      else rest.continue_ maxCharacters call.next
    else if batcher.rejected then
      { rest with failure := batcher.failure || call.notes }
    else batcher

inductive Action (ι : Type) where
  | accept (event : HarnessEvent ι)
  | flush
  | timer
  | written
  | rejected
  | resume (i : Nat)

/-- A step, and whether a call was let in. -/
def step (batcher : HarnessEventBatcher ι) :
    Action ι → HarnessEventBatcher ι × Bool
  | .accept event =>
    if batcher.failure then (batcher, false)
    else (batcher.accept maxCharacters event, true)
  | .flush =>
    if batcher.failure then (batcher, false)
    else (batcher.flushThen false .done, true)
  | .timer =>
    if batcher.timer then
      let batcher := { batcher with timer := false }
      if batcher.failure then (batcher, true)
      else (batcher.flushThen true .done, true)
    else (batcher, false)
  | .written =>
    if batcher.settled < batcher.writeChain.length ∧ !batcher.rejected then
      ({ batcher with settled := batcher.settled + 1 }, true)
    else (batcher, false)
  | .rejected =>
    if batcher.settled < batcher.writeChain.length ∧ !batcher.rejected then
      ({ batcher with rejected := true }, true)
    else (batcher, false)
  | .resume i => (batcher.resume maxCharacters i, true)

def machine : Machine (HarnessEventBatcher ι) (Action ι) Bool :=
  ⟨step maxCharacters⟩

end Accept

/-- The event that a suspended call still has in its hand. -/
def Continuation.event : Continuation ι → List (HarnessEvent ι)
  | .write event => [event]
  | .push event => [.delta event]
  | .done => []

/-- The events of calls that made a flush before their own event. -/
def inHand (batcher : HarnessEventBatcher ι) : List (HarnessEvent ι) :=
  batcher.calls.flatMap fun call => Continuation.event call.next

/-- The events of a run that were let in, in the order of the calls. -/
def acceptedEvents (trace : List (Action ι × Bool)) :
    List (HarnessEvent ι) :=
  trace.flatMap fun (action, answer) =>
    match action with
    | .accept event => if answer then [event] else []
    | _ => []

/-- A delta that adds to its reply. -/
def IsAppend : HarnessEvent ι → Prop
  | .delta event => event.replaces = false
  | .other _ => False

/-- Deltas that may be joined: they all add to one reply. -/
structure OneReply (events : List (AssistantDelta ι)) : Prop where
  appends : ∀ event ∈ events, event.replaces = false
  same : ∀ left ∈ events, ∀ right ∈ events, left.sameReply right = true

/-- The written events are the accepted ones, where adjacent deltas of one
reply may be joined. -/
inductive Coalesces : List (HarnessEvent ι) → List (HarnessEvent ι) → Prop
  | nil : Coalesces [] []
  | single (event : HarnessEvent ι) (hevent : ¬IsAppend event)
      {written accepted : List (HarnessEvent ι)}
      (h : Coalesces written accepted) :
      Coalesces (written ++ [event]) (accepted ++ [event])
  | joined (first : AssistantDelta ι) (more : List (AssistantDelta ι))
      (hreply : OneReply (first :: more))
      {written accepted : List (HarnessEvent ι)}
      (h : Coalesces written accepted) :
      Coalesces (written ++ [joinDeltas first more])
        (accepted ++ (first :: more).map HarnessEvent.delta)

/-- Every prefix of what is written stands for a prefix of what was
accepted. -/
theorem Coalesces.take {written accepted : List (HarnessEvent ι)}
    (h : Coalesces written accepted) (n : Nat) :
    ∃ delivered rest, accepted = delivered ++ rest ∧
      Coalesces (written.take n) delivered := by
  induction h with
  | nil => exact ⟨[], [], rfl, by simpa using Coalesces.nil⟩
  | single event hevent h ih =>
    rename_i written accepted
    by_cases hn : n ≤ written.length
    · obtain ⟨delivered, rest, rfl, hd⟩ := ih
      rw [List.take_append_of_le_length hn]
      exact ⟨delivered, rest ++ [event], by simp, hd⟩
    · rw [List.take_of_length_le (by simp; omega)]
      exact ⟨accepted ++ [event], [], by simp, .single event hevent h⟩
  | joined first more hreply h ih =>
    rename_i written accepted
    by_cases hn : n ≤ written.length
    · obtain ⟨delivered, rest, rfl, hd⟩ := ih
      rw [List.take_append_of_le_length hn]
      exact ⟨delivered, rest ++ (first :: more).map HarnessEvent.delta,
        by simp, hd⟩
    · rw [List.take_of_length_le (by simp; omega)]
      exact ⟨accepted ++ (first :: more).map HarnessEvent.delta, [], by simp,
        .joined first more hreply h⟩

/-- The text that deltas add to the reply of `key`. -/
def appendedText (key : AssistantDelta ι) (events : List (HarnessEvent ι)) :
    JsString :=
  events.flatMap fun event =>
    match event with
    | .delta event =>
      if !event.replaces && key.sameReply event then event.text else []
    | .other _ => []

theorem appendedText_append (key : AssistantDelta ι)
    (left right : List (HarnessEvent ι)) :
    appendedText key (left ++ right) =
      appendedText key left ++ appendedText key right := by
  exact List.flatMap_append

end HarnessEventBatcher

theorem AssistantDelta.sameReply_iff {left right : AssistantDelta ι} :
    left.sameReply right = true ↔
      left.replyId = right.replyId ∧ left.generation = right.generation ∧
        left.attempt = right.attempt ∧ left.messageId = right.messageId ∧
        left.turnId = right.turnId := by
  simp [sameReply, and_assoc]

theorem AssistantDelta.sameReply_refl (delta : AssistantDelta ι) :
    delta.sameReply delta = true := by
  simp [sameReply]

theorem AssistantDelta.sameReply_comm (left right : AssistantDelta ι) :
    left.sameReply right = right.sameReply left := by
  rw [Bool.eq_iff_iff, sameReply_iff, sameReply_iff]
  constructor <;> (rintro ⟨h1, h2, h3, h4, h5⟩; simp [*])

theorem AssistantDelta.sameReply_trans {a b c : AssistantDelta ι}
    (hab : a.sameReply b = true) (hbc : b.sameReply c = true) :
    a.sameReply c = true := by
  rw [sameReply_iff] at *
  obtain ⟨h1, h2, h3, h4, h5⟩ := hab
  rw [h1, h2, h3, h4, h5]
  exact hbc

namespace HarnessEventBatcher

theorem OneReply.nil : OneReply ([] : List (AssistantDelta ι)) :=
  ⟨by simp, by simp⟩

theorem OneReply.single {event : AssistantDelta ι}
    (hevent : event.replaces = false) : OneReply [event] where
  appends := by simpa using hevent
  same := by simp [AssistantDelta.sameReply_refl]

variable {events : List (AssistantDelta ι)}

/-- A delta of the reply of the last one may be added. -/
theorem OneReply.snoc (h : OneReply events) {event previous : AssistantDelta ι}
    (hevent : event.replaces = false) (hmem : previous ∈ events)
    (hsame : previous.sameReply event = true) :
    OneReply (events ++ [event]) where
  appends := by
    intro other hother
    rcases List.mem_append.mp hother with hother | hother
    · exact h.appends other hother
    · rw [List.mem_singleton.mp hother]
      exact hevent
  same := by
    have hnew : ∀ other ∈ events, other.sameReply event = true := by
      intro other hother
      exact AssistantDelta.sameReply_trans
        (h.same other hother previous hmem) hsame
    intro left hleft right hright
    rcases List.mem_append.mp hleft with hleft | hleft <;>
      rcases List.mem_append.mp hright with hright | hright
    · exact h.same left hleft right hright
    · rw [List.mem_singleton.mp hright]
      exact hnew left hleft
    · rw [List.mem_singleton.mp hleft, AssistantDelta.sameReply_comm]
      exact hnew right hright
    · rw [List.mem_singleton.mp hleft, List.mem_singleton.mp hright]
      exact AssistantDelta.sameReply_refl event

theorem appendedText_deltas {key first : AssistantDelta ι}
    (happends : ∀ event ∈ events, event.replaces = false)
    (hsame : ∀ event ∈ events, first.sameReply event = true) :
    appendedText key (events.map .delta) =
      if key.sameReply first then events.flatMap AssistantDelta.text
      else [] := by
  induction events with
  | nil => simp [appendedText]
  | cons event rest ih =>
    have hrest := ih (fun e he => happends e (List.mem_cons_of_mem _ he))
      (fun e he => hsame e (List.mem_cons_of_mem _ he))
    have hfirst := hsame event List.mem_cons_self
    have hkey : key.sameReply event = key.sameReply first := by
      rw [Bool.eq_iff_iff]
      constructor
      · intro h
        rw [AssistantDelta.sameReply_comm] at hfirst
        exact AssistantDelta.sameReply_trans h hfirst
      · intro h
        exact AssistantDelta.sameReply_trans h hfirst
    change (if !event.replaces && key.sameReply event then event.text
      else []) ++ appendedText key (rest.map .delta) = _
    rw [hrest, happends event List.mem_cons_self, hkey]
    cases key.sameReply first <;> simp

/-- Joined deltas keep the text of their reply. -/
theorem appendedText_joinDeltas (key first : AssistantDelta ι)
    {more : List (AssistantDelta ι)} (h : OneReply (first :: more)) :
    appendedText key [joinDeltas first more] =
      appendedText key ((first :: more).map .delta) := by
  have hlast : more.getLastD first ∈ first :: more := by
    rw [List.getLastD_eq_getLast?]
    cases hmore : more.getLast? with
    | none => exact List.mem_cons_self
    | some last =>
      exact List.mem_cons_of_mem _ (List.mem_of_getLast? hmore)
  have hjoined : ∀ joined : AssistantDelta ι,
      joined = { more.getLastD first with
        text := (first :: more).flatMap AssistantDelta.text
        orderStart := some first.order } →
      appendedText key ([joined].map .delta) =
        if key.sameReply first then [joined].flatMap AssistantDelta.text
        else [] := by
    intro joined hjoined
    refine appendedText_deltas ?_ ?_
    · intro event hevent
      rw [List.mem_singleton.mp hevent, hjoined]
      exact h.appends (more.getLastD first) hlast
    · intro event hevent
      rw [List.mem_singleton.mp hevent, hjoined]
      exact h.same first List.mem_cons_self (more.getLastD first) hlast
  rw [appendedText_deltas h.appends
    (h.same first List.mem_cons_self)]
  simpa [joinDeltas] using hjoined _ rfl

theorem Coalesces.appendedText {written accepted : List (HarnessEvent ι)}
    (h : Coalesces written accepted) (key : AssistantDelta ι) :
    appendedText key written = appendedText key accepted := by
  induction h with
  | nil => rfl
  | single event hevent h ih => rw [appendedText_append, ih,
      appendedText_append]
  | joined first more hreply h ih =>
    rw [appendedText_append, ih, appendedText_joinDeltas key first hreply,
      appendedText_append]

end HarnessEventBatcher

end Allrice
