/-
The events of a run as a browser has them: merged from live delivery, replay
after a reconnect and page loads, and folded into the text of the assistant's
replies.
-/
import Allrice.JsValue
import Allrice.Table

namespace Allrice

namespace ChatStream

/-- What the stream reads of an event's envelope. -/
structure Event where
  eventId : JsString
  sequence : Nat
  occurredAt : JsString
  type : JsString
  payload : List (JsString × JsValue)

/-- `event.payload[key]`. -/
def Event.field (event : Event) (key : String) : JsValue :=
  match event.payload.find? (·.1 = JsString.ofString key) with
  | some member => member.2
  | none => .undefined

/-- `Map` from an event's id to the event. -/
abbrev EventMap := Table JsString Event Event.eventId

section Merge

variable (localeCompare : JsString → JsString → Int)

/-- The comparison of `mergeChatFlowEvents`. -/
def compareEvents (left right : Event) : Int :=
  if left.sequence ≠ right.sequence then
    (left.sequence : Int) - right.sequence
  else if localeCompare left.occurredAt right.occurredAt ≠ 0 then
    localeCompare left.occurredAt right.occurredAt
  else localeCompare left.eventId right.eventId

def Before (left right : Event) : Prop :=
  compareEvents localeCompare left right ≤ 0

instance Before.decidableRel : DecidableRel (Before localeCompare) :=
  fun left right =>
    inferInstanceAs (Decidable (compareEvents localeCompare left right ≤ 0))

def mergeChatFlowEvents (current incoming : List Event) : List Event :=
  let events : EventMap := Table.empty.putAll current
  let events := events.putAll incoming
  events.rows.insertionSort (Before localeCompare)

/-- The events of a view, after the batches that were delivered to it. -/
def received (batches : List (List Event)) : List Event :=
  batches.foldl (mergeChatFlowEvents localeCompare) []

end Merge

/-- `Number.isInteger(value) ? value : fallback`. -/
def integer (value : JsValue) (fallback : Int) : Int :=
  match value with
  | .number value => value.toInt?.getD fallback
  | _ => fallback

def generationOf (event : Event) : Int := integer (event.field "generation") 0

def attemptOf (event : Event) : Int := integer (event.field "attempt") 1

/-- Ignore replay duplicates and superseded execution attempts. -/
def currentAssistantEvents (events : List Event) : List Event :=
  let map : EventMap := Table.empty.putAll events
  let unique := map.rows.insertionSort fun a b => a.sequence ≤ b.sequence
  let generation := (unique.map generationOf).foldl max 0
  let current := unique.filter (generationOf · = generation)
  let attempt := (current.map attemptOf).foldl max 1
  current.filter (attemptOf · = attempt)

structure Reply where
  id : JsString
  sequence : Nat
  text : JsString

abbrev ReplyMap := Table JsString Reply Reply.id

def textOf (value : JsValue) : JsString :=
  match value with
  | .string text => text
  | _ => []

def replyIdOf (event : Event) : JsString :=
  match event.field "replyId" with
  | .string id => id
  | _ => JsString.ofString "legacy"

def replaces (event : Event) : Bool :=
  match event.field "textMode" with
  | .string mode => mode = JsString.ofString "replace"
  | _ => false

/-- One delta, put behind the text so far or in its place. -/
def addDelta (replies : ReplyMap) (event : Event) : ReplyMap :=
  if event.type ≠ JsString.ofString "assistant.text.delta" then replies
  else
    let id := replyIdOf event
    let previous := replies.find? id
    let text := textOf (event.field "text")
    replies.put {
      id := id
      sequence := (previous.map Reply.sequence).getD event.sequence
      text :=
        if replaces event then text
        else (previous.map Reply.text).getD [] ++ text }

def assistantReplies (events : List Event) : List Reply :=
  let replies := (currentAssistantEvents events).foldl addDelta Table.empty
  replies.rows.filter fun reply => JsString.trim reply.text ≠ []

/-- `texts.join('\n\n')`. -/
def joinReplies : List JsString → JsString
  | [] => []
  | [text] => text
  | text :: next :: texts => text ++ 0x0A :: 0x0A :: joinReplies (next :: texts)

def assistantStreamText (events : List Event) (fallback : JsString) :
    JsString :=
  let current := currentAssistantEvents events
  let completed := (current.filter fun event =>
    event.type = JsString.ofString "assistant.text.completed").getLast?
  match completed.map fun event : Event => event.field "text" with
  | some (.string text) => text
  | _ =>
    let text := joinReplies ((assistantReplies current).map Reply.text)
    if text = [] then fallback else text

/-- Events of one run: an id stands for one event, and a sequence number for
one id. -/
structure Consistent (events : List Event) : Prop where
  id : ∀ a ∈ events, ∀ b ∈ events, a.eventId = b.eventId → a = b
  sequence : ∀ a ∈ events, ∀ b ∈ events, a.sequence = b.sequence →
    a.eventId = b.eventId

theorem Consistent.of_subset {events more : List Event}
    (h : Consistent more) (hsub : ∀ event ∈ events, event ∈ more) :
    Consistent events where
  id a ha b hb := h.id a (hsub a ha) b (hsub b hb)
  sequence a ha b hb := h.sequence a (hsub a ha) b (hsub b hb)

/-- The state of a view: what it holds, in the order of the sequence. -/
def Sorted (events : List Event) : Prop :=
  events.Pairwise fun a b => a.sequence < b.sequence

/-- A sorted list is its set of events. -/
theorem Sorted.eq {left right : List Event} (hleft : Sorted left)
    (hright : Sorted right) (h : ∀ event, event ∈ left ↔ event ∈ right) :
    left = right := by
  have hnodup : ∀ {events : List Event}, Sorted events → events.Nodup := by
    intro events hsorted
    apply hsorted.imp
    rintro a b hlt rfl
    exact Nat.lt_irrefl _ hlt
  have hperm : left.Perm right :=
    (List.perm_ext_iff_of_nodup (hnodup hleft) (hnodup hright)).mpr h
  apply hperm.eq_of_pairwise _ hleft hright
  intro a b _ _ hab hba
  omega

theorem putAll_mem {events : List Event} (t : EventMap)
    (h : Consistent (t.rows ++ events)) {event : Event} :
    event ∈ (t.putAll events).rows ↔ event ∈ t.rows ∨ event ∈ events := by
  induction events generalizing t with
  | nil => simp [Table.putAll]
  | cons first rest ih =>
    have hfirst : ∀ other ∈ t.rows, other.eventId = first.eventId →
        other = first := by
      intro other hother hid
      exact h.id other (by simp [hother]) first (by simp) hid
    have hput : ∀ other, other ∈ (t.put first).rows ↔
        other ∈ t.rows ∨ other = first := by
      intro other
      rw [Table.mem_put]
      constructor
      · rintro (⟨hmem, _⟩ | hsame)
        · exact .inl hmem
        · exact .inr hsame
      · rintro (hmem | hsame)
        · by_cases hid : other.eventId = first.eventId
          · exact .inr (hfirst other hmem hid)
          · exact .inl ⟨hmem, hid⟩
        · exact .inr hsame
    have hrest : Consistent ((t.put first).rows ++ rest) := by
      apply h.of_subset
      intro other hother
      rcases List.mem_append.mp hother with hmem | hmem
      · rcases (hput other).mp hmem with hmem | rfl
        · simp [hmem]
        · simp
      · simp [hmem]
    have hlater := ih (t.put first) hrest
    change event ∈ ((t.put first).putAll rest).rows ↔ _
    rw [hlater, hput]
    simp only [List.mem_cons, or_assoc]

section Sorting

variable {α : Type} (r s : α → α → Prop) [DecidableRel r] [DecidableRel s]

theorem orderedInsert_congr {a : α} {l : List α}
    (h : ∀ b ∈ l, r a b ↔ s a b) :
    l.orderedInsert r a = l.orderedInsert s a := by
  induction l with
  | nil => rfl
  | cons b l ih =>
    have hhead := h b (by simp)
    have hrest := ih fun c hc => h c (by simp [hc])
    by_cases hr : r a b
    · have hs := hhead.mp hr
      simp [hr, hs]
    · have hs : ¬s a b := fun hs => hr (hhead.mpr hs)
      simp [hr, hs, hrest]

/-- Sorting compares different elements only. -/
theorem insertionSort_congr {l : List α} (hnodup : l.Nodup)
    (h : ∀ a ∈ l, ∀ b ∈ l, a ≠ b → (r a b ↔ s a b)) :
    l.insertionSort r = l.insertionSort s := by
  induction l with
  | nil => rfl
  | cons a l ih =>
    rw [List.nodup_cons] at hnodup
    have hrest := ih hnodup.2
      fun b hb c hc => h b (by simp [hb]) c (by simp [hc])
    simp only [List.insertionSort_cons]
    rw [hrest]
    apply orderedInsert_congr
    intro b hb
    have hmem : b ∈ l := (List.mem_insertionSort s).mp hb
    apply h a (by simp) b (by simp [hmem])
    rintro rfl
    exact hnodup.1 hmem

end Sorting

section Convergence

variable (localeCompare : JsString → JsString → Int)

theorem before_iff {a b : Event} (h : a.sequence ≠ b.sequence) :
    Before localeCompare a b ↔ a.sequence ≤ b.sequence := by
  unfold Before compareEvents
  rw [if_pos h]
  omega

/-- What a merge holds, in the order of the sequence. -/
theorem merge_spec {current incoming : List Event}
    (h : Consistent (current ++ incoming)) :
    Sorted (mergeChatFlowEvents localeCompare current incoming) ∧
      ∀ event, event ∈ mergeChatFlowEvents localeCompare current incoming ↔
        event ∈ current ∨ event ∈ incoming := by
  have hcurrent : ∀ event, event ∈ ((Table.empty : EventMap).putAll
      current).rows ↔ event ∈ current := by
    intro event
    rw [putAll_mem]
    · simp [Table.empty]
    · exact h.of_subset fun event hevent => by
        simp only [Table.empty, List.nil_append] at hevent
        simp [hevent]
  have hall : ∀ event, event ∈ (((Table.empty : EventMap).putAll
      current).putAll incoming).rows ↔
        event ∈ current ∨ event ∈ incoming := by
    intro event
    rw [putAll_mem, hcurrent]
    apply h.of_subset
    intro event hevent
    rw [List.mem_append, hcurrent] at hevent
    exact List.mem_append.mpr hevent
  have hunique := (((Table.empty : EventMap).putAll current).putAll
    incoming).unique
  have hmerge : mergeChatFlowEvents localeCompare current incoming =
      (((Table.empty : EventMap).putAll current).putAll
        incoming).rows.insertionSort (Before localeCompare) := rfl
  generalize (((Table.empty : EventMap).putAll current).putAll
    incoming).rows = rows at hall hunique hmerge
  have hnodup : rows.Nodup := hunique.of_map Event.eventId
  have hconsistent : Consistent rows := by
    apply h.of_subset
    intro event hevent
    exact List.mem_append.mpr ((hall event).mp hevent)
  have hsequence : ∀ a ∈ rows, ∀ b ∈ rows, a ≠ b →
      a.sequence ≠ b.sequence := by
    intro a ha b hb hne hsame
    exact hne (hconsistent.id a ha b hb
      (hconsistent.sequence a ha b hb hsame))
  have hsort : rows.insertionSort (Before localeCompare) =
      rows.insertionSort fun a b => a.sequence ≤ b.sequence := by
    apply insertionSort_congr _ _ hnodup
    intro a ha b hb hne
    exact before_iff localeCompare (hsequence a ha b hb hne)
  rw [hmerge, hsort]
  constructor
  · have hle := List.pairwise_insertionSort
      (fun a b : Event => a.sequence ≤ b.sequence) rows
    have hsorted : (rows.insertionSort
        fun a b => a.sequence ≤ b.sequence).Nodup :=
      (List.perm_insertionSort _ rows).nodup_iff.mpr hnodup
    apply (hle.and hsorted).imp_of_mem
    intro a b ha hb hab
    have hne := hsequence a ((List.mem_insertionSort _).mp ha) b
      ((List.mem_insertionSort _).mp hb) hab.2
    omega
  · intro event
    rw [List.mem_insertionSort, hall]

theorem merge_comm {a b : List Event} (h : Consistent (a ++ b)) :
    mergeChatFlowEvents localeCompare a b =
      mergeChatFlowEvents localeCompare b a := by
  have hswap : Consistent (b ++ a) := by
    apply h.of_subset
    intro event hevent
    exact List.mem_append.mpr (List.mem_append.mp hevent).symm
  obtain ⟨hleft, hmemLeft⟩ := merge_spec localeCompare h
  obtain ⟨hright, hmemRight⟩ := merge_spec localeCompare hswap
  apply hleft.eq hright
  intro event
  rw [hmemLeft, hmemRight, or_comm]

theorem merge_assoc {a b c : List Event} (h : Consistent (a ++ (b ++ c))) :
    mergeChatFlowEvents localeCompare
        (mergeChatFlowEvents localeCompare a b) c =
      mergeChatFlowEvents localeCompare a
        (mergeChatFlowEvents localeCompare b c) := by
  have hab : Consistent (a ++ b) := by
    apply h.of_subset
    intro event hevent
    rw [← List.append_assoc]
    exact List.mem_append_left c hevent
  have hbc : Consistent (b ++ c) :=
    h.of_subset fun event hevent => List.mem_append_right a hevent
  have hmemAb := (merge_spec localeCompare hab).2
  have hmemBc := (merge_spec localeCompare hbc).2
  have hleft : Consistent (mergeChatFlowEvents localeCompare a b ++ c) := by
    apply h.of_subset
    intro event hevent
    rw [List.mem_append, hmemAb, or_assoc] at hevent
    simpa using hevent
  have hright : Consistent (a ++ mergeChatFlowEvents localeCompare b c) := by
    apply h.of_subset
    intro event hevent
    rw [List.mem_append, hmemBc] at hevent
    simpa using hevent
  obtain ⟨hsortedLeft, hmemLeft⟩ := merge_spec localeCompare hleft
  obtain ⟨hsortedRight, hmemRight⟩ := merge_spec localeCompare hright
  apply hsortedLeft.eq hsortedRight
  intro event
  rw [hmemLeft, hmemRight, hmemAb, hmemBc, or_assoc]

/-- Merging into a state what it holds already changes nothing. -/
theorem merge_self {a : List Event} (h : Consistent a) (hsorted : Sorted a) :
    mergeChatFlowEvents localeCompare a a = a := by
  have htwice : Consistent (a ++ a) :=
    h.of_subset fun event hevent => (List.mem_append.mp hevent).elim id id
  obtain ⟨hmerged, hmem⟩ := merge_spec localeCompare htwice
  apply hmerged.eq hsorted
  intro event
  rw [hmem, or_self]

/-- After any batches a view holds what they held. -/
theorem received_spec {batches : List (List Event)} (state : List Event)
    (hsorted : Sorted state) (h : Consistent (state ++ batches.flatten)) :
    Sorted (batches.foldl (mergeChatFlowEvents localeCompare) state) ∧
      ∀ event,
        event ∈ batches.foldl (mergeChatFlowEvents localeCompare) state ↔
          event ∈ state ∨ event ∈ batches.flatten := by
  induction batches generalizing state with
  | nil => exact ⟨hsorted, by simp⟩
  | cons batch rest ih =>
    have hfirst : Consistent (state ++ batch) := by
      apply h.of_subset
      intro event hevent
      rw [List.flatten_cons, ← List.append_assoc]
      exact List.mem_append_left _ hevent
    obtain ⟨hmerged, hmem⟩ := merge_spec localeCompare hfirst
    have hrest : Consistent
        (mergeChatFlowEvents localeCompare state batch ++ rest.flatten) := by
      apply h.of_subset
      intro event hevent
      rw [List.mem_append, hmem, or_assoc] at hevent
      simpa using hevent
    obtain ⟨hlast, hall⟩ := ih _ hmerged hrest
    refine ⟨hlast, ?_⟩
    intro event
    rw [List.foldl_cons, hall, hmem, List.flatten_cons, List.mem_append,
      or_assoc]

/-- Views that were delivered the same events agree, whatever the order, the
duplicates and the batches were; and merging is a join of views. -/
theorem chat_stream_converges :
    (∀ batches batches' : List (List Event), Consistent batches.flatten →
      (∀ event, event ∈ batches.flatten ↔ event ∈ batches'.flatten) →
        received localeCompare batches = received localeCompare batches' ∧
        assistantReplies (received localeCompare batches) =
          assistantReplies (received localeCompare batches') ∧
        ∀ fallback,
          assistantStreamText (received localeCompare batches) fallback =
            assistantStreamText (received localeCompare batches')
              fallback) ∧
      ∀ a b c : List Event, Consistent (a ++ (b ++ c)) →
        mergeChatFlowEvents localeCompare a b =
            mergeChatFlowEvents localeCompare b a ∧
          mergeChatFlowEvents localeCompare
              (mergeChatFlowEvents localeCompare a b) c =
            mergeChatFlowEvents localeCompare a
              (mergeChatFlowEvents localeCompare b c) ∧
          mergeChatFlowEvents localeCompare
              (mergeChatFlowEvents localeCompare a b)
              (mergeChatFlowEvents localeCompare a b) =
            mergeChatFlowEvents localeCompare a b := by
  constructor
  · intro batches batches' hconsistent hsame
    have hother : Consistent batches'.flatten :=
      hconsistent.of_subset fun event hevent => (hsame event).mpr hevent
    obtain ⟨hleft, hmemLeft⟩ := received_spec localeCompare []
      List.Pairwise.nil hconsistent
    obtain ⟨hright, hmemRight⟩ := received_spec localeCompare []
      List.Pairwise.nil hother
    have hreceived : received localeCompare batches =
        received localeCompare batches' := by
      apply hleft.eq hright
      intro event
      rw [hmemLeft, hmemRight, hsame]
    rw [hreceived]
    exact ⟨rfl, rfl, fun _ => rfl⟩
  · intro a b c h
    have hab : Consistent (a ++ b) := by
      apply h.of_subset
      intro event hevent
      rw [← List.append_assoc]
      exact List.mem_append_left c hevent
    obtain ⟨hsorted, hmem⟩ := merge_spec localeCompare hab
    have hmerged : Consistent (mergeChatFlowEvents localeCompare a b) := by
      apply hab.of_subset
      intro event hevent
      rw [List.mem_append]
      exact (hmem event).mp hevent
    exact ⟨merge_comm localeCompare hab, merge_assoc localeCompare h,
      merge_self localeCompare hmerged hsorted⟩

end Convergence

namespace ChatStreamWitness

/-- A delta of the assistant's reply. -/
def delta (id : String) (sequence : Nat) (text : String) : Event :=
  ⟨JsString.ofString id, sequence, [],
    JsString.ofString "assistant.text.delta",
    [(JsString.ofString "text", .string (JsString.ofString text))]⟩

def first : Event := delta "a" 1 "Hel"

def second : Event := delta "b" 2 "lo"

theorem consistent : Consistent [first, second] where
  id a ha b hb hid := by
    simp only [List.mem_cons, List.not_mem_nil, or_false] at ha hb
    rcases ha with rfl | rfl
    · rcases hb with rfl | rfl
      · rfl
      · exact absurd hid (by decide)
    · rcases hb with rfl | rfl
      · exact absurd hid (by decide)
      · rfl
  sequence a ha b hb hsequence := by
    simp only [List.mem_cons, List.not_mem_nil, or_false] at ha hb
    rcases ha with rfl | rfl
    · rcases hb with rfl | rfl
      · rfl
      · exact absurd hsequence (by decide)
    · rcases hb with rfl | rfl
      · exact absurd hsequence (by decide)
      · rfl

/-- Two deltas in turn, and out of turn with a replay. -/
theorem chat_stream_converges_replayed :
    assistantReplies (received (fun _ _ => 0) [[first], [second]]) =
      assistantReplies
        (received (fun _ _ => 0) [[second, first], [second]]) := by
  apply ((chat_stream_converges fun _ _ => 0).1 [[first], [second]]
    [[second, first], [second]] consistent _).2.1
  intro event
  simp only [List.flatten_cons, List.flatten_nil, List.append_nil,
    List.mem_append, List.mem_cons, List.not_mem_nil, or_false]
  tauto

end ChatStreamWitness

end ChatStream

end Allrice
