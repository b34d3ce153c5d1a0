/-
Runs of the batcher.  A call that had to flush before its own event holds the
event in its hand until it is resumed; as long as no other event is let in
meanwhile, the order of the calls is the order of the writes.
-/
import Allrice.DeltaBatcher

namespace Allrice

namespace HarnessEventBatcher

variable {ι : Type}

/-- The chain may have grown, and a failure is noted only after a rejected
write. -/
structure Extends (before now : HarnessEventBatcher ι) : Prop where
  chain : ∃ more, now.writeChain = before.writeChain ++ more
  settled : now.settled = before.settled
  rejected : now.rejected = before.rejected
  failure : now.failure = true → before.failure = true ∨ before.rejected = true

theorem Extends.refl (batcher : HarnessEventBatcher ι) :
    Extends batcher batcher :=
  ⟨⟨[], by simp⟩, rfl, rfl, .inl⟩

theorem Extends.trans {a b c : HarnessEventBatcher ι}
    (hab : Extends a b) (hbc : Extends b c) : Extends a c where
  chain := by
    obtain ⟨first, hfirst⟩ := hab.chain
    obtain ⟨second, hsecond⟩ := hbc.chain
    exact ⟨first ++ second, by rw [hsecond, hfirst, List.append_assoc]⟩
  settled := hbc.settled.trans hab.settled
  rejected := hbc.rejected.trans hab.rejected
  failure := by
    intro h
    rcases hbc.failure h with h | h
    · exact hab.failure h
    · exact .inr (hab.rejected ▸ h)

variable {accepted : List (HarnessEvent ι)}
  {batcher before now : HarnessEventBatcher ι}

/-- A change that leaves the chain alone. -/
theorem Extends.of_eq (hchain : now.writeChain = before.writeChain)
    (hsettled : now.settled = before.settled)
    (hrejected : now.rejected = before.rejected)
    (hfailure : now.failure = before.failure) : Extends before now :=
  ⟨⟨[], by simp [hchain]⟩, hsettled, hrejected,
    fun h => .inl (hfailure ▸ h)⟩

theorem extends_enqueueWrite (batcher : HarnessEventBatcher ι)
    (event : HarnessEvent ι) (next : Continuation ι) :
    Extends batcher (batcher.enqueueWrite event next) :=
  ⟨⟨[event], rfl⟩, rfl, rfl, .inl⟩

theorem extends_flushThen (batcher : HarnessEventBatcher ι) (notes : Bool)
    (next : Continuation ι) :
    Extends batcher (batcher.flushThen notes next) := by
  cases hpending : batcher.pending with
  | nil =>
    simp only [flushThen, hpending]
    exact Extends.of_eq rfl rfl rfl rfl
  | cons first more =>
    simp only [flushThen, hpending]
    apply Extends.trans _ (extends_enqueueWrite _ _ _)
    exact Extends.of_eq rfl rfl rfl rfl

theorem extends_pushDelta (maxCharacters : Nat)
    (batcher : HarnessEventBatcher ι) (event : AssistantDelta ι) :
    Extends batcher (batcher.pushDelta maxCharacters event) := by
  simp only [pushDelta]
  split_ifs
  · exact Extends.of_eq rfl rfl rfl rfl
  · apply Extends.trans _ (extends_flushThen _ _ _)
    exact Extends.of_eq rfl rfl rfl rfl
  · exact Extends.of_eq rfl rfl rfl rfl

theorem extends_accept (maxCharacters : Nat)
    (batcher : HarnessEventBatcher ι) (event : HarnessEvent ι) :
    Extends batcher (batcher.accept maxCharacters event) := by
  cases event with
  | other carried => exact extends_flushThen _ _ _
  | delta event =>
    simp only [accept]
    split
    · exact extends_flushThen _ _ _
    · split
      · split
        · exact extends_pushDelta _ _ _
        · exact extends_flushThen _ _ _
      · exact extends_pushDelta _ _ _

theorem extends_continue (maxCharacters : Nat)
    (batcher : HarnessEventBatcher ι) (next : Continuation ι) :
    Extends batcher (batcher.continue_ maxCharacters next) := by
  cases next with
  | write event => exact extends_enqueueWrite _ _ _
  | push event => exact extends_pushDelta _ _ _
  | done => exact Extends.refl _

theorem extends_resume (maxCharacters : Nat)
    (batcher : HarnessEventBatcher ι) (i : Nat) :
    Extends batcher (batcher.resume maxCharacters i) := by
  simp only [resume]
  split
  · exact Extends.refl _
  · split
    · split
      · exact Extends.of_eq rfl rfl rfl rfl
      · apply Extends.trans _ (extends_continue _ _ _)
        exact Extends.of_eq rfl rfl rfl rfl
    · split
      · rename_i hrejected
        exact ⟨⟨[], by simp⟩, rfl, rfl, fun _ => .inr hrejected⟩
      · exact Extends.refl _

/-- What was written stays as it is when the chain grows behind it. -/
theorem Extends.written (h : Extends before now)
    (hle : before.settled ≤ before.writeChain.length) :
    now.written = before.written := by
  obtain ⟨more, hmore⟩ := h.chain
  rw [HarnessEventBatcher.written, HarnessEventBatcher.written, hmore,
    h.settled, List.take_append_of_le_length hle]

/-- The events that a suspended call may have in its hand. -/
def Continuation.Fits : Continuation ι → Prop
  | .write event => ¬IsAppend event
  | .push event => event.replaces = false
  | .done => True

/-- The accepted events are on the chain, pending, or in the hand of the one
call that made a flush before its own event. -/
structure Holds (batcher : HarnessEventBatcher ι)
    (accepted : List (HarnessEvent ι)) : Prop where
  chain : ∃ delivered, Coalesces batcher.writeChain delivered ∧
    accepted = delivered ++ batcher.pending.map .delta ++ batcher.inHand
  reply : OneReply batcher.pending
  alone : batcher.inHand ≠ [] → batcher.pending = []
  one : batcher.inHand.length ≤ 1
  fits : ∀ call ∈ batcher.calls, Continuation.Fits call.next

theorem inHand_enqueueWrite (batcher : HarnessEventBatcher ι)
    (event : HarnessEvent ι) (next : Continuation ι) :
    (batcher.enqueueWrite event next).inHand =
      batcher.inHand ++ Continuation.event next := by
  simp [enqueueWrite, inHand]

/-- A flush, made by a call that goes on with `next`. -/
theorem Holds.flushThen (h : Holds batcher accepted) (notes : Bool)
    {next : Continuation ι} (hfits : Continuation.Fits next)
    (hhand : Continuation.event next ≠ [] → batcher.inHand = []) :
    Holds (batcher.flushThen notes next)
      (accepted ++ Continuation.event next) := by
  obtain ⟨delivered, hdelivered, haccepted⟩ := h.chain
  have hone : (batcher.inHand ++ Continuation.event next).length ≤ 1 := by
    by_cases hevent : Continuation.event next = []
    · simpa [hevent] using h.one
    · rw [hhand hevent]
      cases next <;> simp [Continuation.event]
  cases hpending : batcher.pending with
  | nil =>
    have hinHand : (batcher.flushThen notes next).inHand =
        batcher.inHand ++ Continuation.event next := by
      simp [HarnessEventBatcher.flushThen, hpending, inHand]
    constructor
    · refine ⟨delivered, ?_, ?_⟩
      · simpa [HarnessEventBatcher.flushThen, hpending] using hdelivered
      · rw [hinHand, haccepted, hpending]
        simp [HarnessEventBatcher.flushThen, hpending]
    · simp only [HarnessEventBatcher.flushThen, hpending]
      exact OneReply.nil
    · intro _
      simp [HarnessEventBatcher.flushThen, hpending]
    · rw [hinHand]
      exact hone
    · intro call hcall
      simp only [HarnessEventBatcher.flushThen, hpending, List.mem_append,
        List.mem_singleton] at hcall
      rcases hcall with hcall | rfl
      · exact h.fits call hcall
      · exact hfits
  | cons first more =>
    have hempty : batcher.inHand = [] := by
      by_contra hne
      have hnil := h.alone hne
      rw [hpending] at hnil
      exact List.cons_ne_nil _ _ hnil
    have hinHand : (batcher.flushThen notes next).inHand =
        Continuation.event next := by
      simp only [HarnessEventBatcher.flushThen, hpending,
        inHand_enqueueWrite]
      change batcher.inHand ++ Continuation.event next = _
      rw [hempty, List.nil_append]
    constructor
    · refine ⟨delivered ++ (first :: more).map .delta, ?_, ?_⟩
      · simp only [HarnessEventBatcher.flushThen, hpending, enqueueWrite]
        exact .joined first more (hpending ▸ h.reply) hdelivered
      · rw [hinHand, haccepted, hempty, hpending]
        simp [HarnessEventBatcher.flushThen, hpending, enqueueWrite]
    · simp only [HarnessEventBatcher.flushThen, hpending, enqueueWrite]
      exact OneReply.nil
    · intro _
      simp [HarnessEventBatcher.flushThen, hpending, enqueueWrite]
    · rw [hinHand]
      rw [hempty, List.nil_append] at hone
      exact hone
    · intro call hcall
      simp only [HarnessEventBatcher.flushThen, hpending, enqueueWrite,
        List.mem_append, List.mem_singleton] at hcall
      rcases hcall with hcall | rfl
      · exact h.fits call hcall
      · exact hfits

/-- A flush that nothing follows. -/
theorem Holds.flushDone (h : Holds batcher accepted) (notes : Bool) :
    Holds (batcher.flushThen notes .done) accepted := by
  have hfits : Continuation.Fits (.done : Continuation ι) := trivial
  have hflushed := h.flushThen notes hfits (fun hne => absurd rfl hne)
  rw [Continuation.event, List.append_nil] at hflushed
  exact hflushed

/-- A change of the counter and the timer only. -/
theorem Holds.of_eq (h : Holds before accepted)
    (hpending : now.pending = before.pending)
    (hchain : now.writeChain = before.writeChain)
    (hcalls : now.calls = before.calls) : Holds now accepted := by
  have hinHand : now.inHand = before.inHand := by
    rw [inHand, inHand, hcalls]
  constructor
  · rw [hpending, hchain, hinHand]
    exact h.chain
  · rw [hpending]
    exact h.reply
  · rw [hpending, hinHand]
    exact h.alone
  · rw [hinHand]
    exact h.one
  · rw [hcalls]
    exact h.fits

theorem Holds.pushDelta (h : Holds batcher accepted) (maxCharacters : Nat)
    {event : AssistantDelta ι} (hevent : OneReply (batcher.pending ++ [event]))
    (hhand : batcher.inHand = []) :
    Holds (batcher.pushDelta maxCharacters event)
      (accepted ++ [HarnessEvent.delta event]) := by
  obtain ⟨delivered, hdelivered, haccepted⟩ := h.chain
  have hpushed : Holds { batcher with
      pending := batcher.pending ++ [event]
      pendingCharacters := batcher.pendingCharacters + event.text.length }
      (accepted ++ [HarnessEvent.delta event]) := by
    constructor
    · refine ⟨delivered, hdelivered, ?_⟩
      change _ = delivered ++ (batcher.pending ++ [event]).map .delta ++
        batcher.inHand
      rw [haccepted, hhand]
      simp
    · exact hevent
    · intro hne
      exact absurd hhand hne
    · exact h.one
    · exact h.fits
  simp only [HarnessEventBatcher.pushDelta]
  split_ifs
  · exact hpushed
  · exact hpushed.flushDone false
  · exact hpushed.of_eq rfl rfl rfl

theorem Holds.enqueueWrite (h : Holds batcher accepted) {event : HarnessEvent ι}
    (hevent : ¬IsAppend event) (hhand : batcher.inHand = [])
    (hpending : batcher.pending = []) :
    Holds (batcher.enqueueWrite event .done) (accepted ++ [event]) := by
  obtain ⟨delivered, hdelivered, haccepted⟩ := h.chain
  have hinHand : (batcher.enqueueWrite event .done).inHand = [] := by
    rw [inHand_enqueueWrite, hhand]
    rfl
  constructor
  · refine ⟨delivered ++ [event], ?_, ?_⟩
    · exact .single event hevent hdelivered
    · change _ = delivered ++ [event] ++ batcher.pending.map .delta ++ _
      rw [hinHand, haccepted, hhand, hpending]
      simp
  · exact h.reply
  · intro hne
    exact absurd hinHand hne
  · simp [hinHand]
  · intro call hcall
    simp only [HarnessEventBatcher.enqueueWrite, List.mem_append,
      List.mem_singleton] at hcall
    rcases hcall with hcall | rfl
    · exact h.fits call hcall
    · trivial

/-- An event is let in while no call has one in its hand. -/
theorem Holds.accept (h : Holds batcher accepted) (maxCharacters : Nat)
    (event : HarnessEvent ι) (hhand : batcher.inHand = []) :
    Holds (batcher.accept maxCharacters event) (accepted ++ [event]) := by
  cases event with
  | other carried =>
    have hfits : Continuation.Fits
        (.write (.other carried) : Continuation ι) := by
      simp [Continuation.Fits, IsAppend]
    exact h.flushThen false hfits (fun _ => hhand)
  | delta event =>
    simp only [HarnessEventBatcher.accept]
    by_cases hreplaces : event.replaces = true
    · rw [if_pos hreplaces]
      have hfits : Continuation.Fits (.write (.delta event)) := by
        simp [Continuation.Fits, IsAppend, hreplaces]
      exact h.flushThen false hfits (fun _ => hhand)
    · rw [if_neg hreplaces]
      have hreplaces : event.replaces = false := by simpa using hreplaces
      split
      · rename_i previous hprevious
        split
        · rename_i hsame
          exact h.pushDelta maxCharacters
            (h.reply.snoc hreplaces (List.mem_of_getLast? hprevious) hsame)
            hhand
        · exact h.flushThen false hreplaces
            (fun _ => hhand)
      · rename_i hnone
        have hpending : batcher.pending = [] :=
          List.getLast?_eq_none_iff.mp hnone
        apply h.pushDelta maxCharacters _ hhand
        rw [hpending]
        exact OneReply.single hreplaces

variable {i : Nat} {call : SuspendedCall ι}

/-- The calls around one of them. -/
theorem inHand_eraseIdx (hcall : batcher.calls[i]? = some call) :
    ∃ left right, batcher.inHand =
        left ++ Continuation.event call.next ++ right ∧
      HarnessEventBatcher.inHand
        { batcher with calls := batcher.calls.eraseIdx i } =
          left ++ right := by
  obtain ⟨hi, hget⟩ := List.getElem?_eq_some_iff.mp hcall
  have hsplit : batcher.calls =
      batcher.calls.take i ++ call :: batcher.calls.drop (i + 1) := by
    rw [← hget, ← List.drop_eq_getElem_cons hi, List.take_append_drop]
  refine ⟨(batcher.calls.take i).flatMap fun call =>
      Continuation.event call.next,
    (batcher.calls.drop (i + 1)).flatMap fun call =>
      Continuation.event call.next, ?_, ?_⟩
  · rw [inHand]
    conv_lhs => rw [hsplit]
    simp
  · rw [inHand, List.eraseIdx_eq_take_drop_succ]
    simp

/-- A call leaves; its event, if it has one, was the last accepted. -/
theorem Holds.erase (h : Holds batcher accepted)
    (hcall : batcher.calls[i]? = some call) :
    ∃ before, accepted = before ++ Continuation.event call.next ∧
      Holds { batcher with calls := batcher.calls.eraseIdx i } before ∧
      (Continuation.event call.next ≠ [] → batcher.pending = [] ∧
        HarnessEventBatcher.inHand
          { batcher with calls := batcher.calls.eraseIdx i } = []) := by
  obtain ⟨left, right, hinHand, hrest⟩ := inHand_eraseIdx hcall
  obtain ⟨delivered, hdelivered, haccepted⟩ := h.chain
  have hfits : ∀ other ∈ batcher.calls.eraseIdx i,
      Continuation.Fits other.next := by
    intro other hother
    exact h.fits other (List.mem_of_mem_eraseIdx hother)
  by_cases hevent : Continuation.event call.next = []
  · have hsame : HarnessEventBatcher.inHand
        { batcher with calls := batcher.calls.eraseIdx i } =
          batcher.inHand := by
      rw [hrest, hinHand, hevent, List.append_nil]
    refine ⟨accepted, by rw [hevent, List.append_nil], ?_,
      fun hne => absurd hevent hne⟩
    constructor
    · rw [hsame]
      exact h.chain
    · exact h.reply
    · rw [hsame]
      exact h.alone
    · rw [hsame]
      exact h.one
    · exact hfits
  · have hlength : 1 ≤ (Continuation.event call.next).length :=
      List.length_pos_of_ne_nil hevent
    have hone := h.one
    rw [hinHand, List.length_append, List.length_append] at hone
    have hleft : left = [] := List.length_eq_zero_iff.mp (by omega)
    have hright : right = [] := List.length_eq_zero_iff.mp (by omega)
    rw [hleft, hright, List.append_nil] at hrest
    rw [hleft, hright, List.nil_append, List.append_nil] at hinHand
    have hpending : batcher.pending = [] := h.alone (hinHand ▸ hevent)
    refine ⟨delivered, ?_, ?_, fun _ => ⟨hpending, hrest⟩⟩
    · rw [haccepted, hpending, hinHand]
      simp
    · constructor
      · refine ⟨delivered, hdelivered, ?_⟩
        change delivered = delivered ++ batcher.pending.map .delta ++ _
        rw [hrest, hpending]
        simp
      · exact h.reply
      · intro hne
        exact absurd hrest hne
      · rw [hrest]
        exact Nat.zero_le 1
      · exact hfits

theorem Holds.resume (h : Holds batcher accepted)
    (hrejected : batcher.rejected = false) (hfailure : batcher.failure = false)
    (maxCharacters i : Nat) :
    Holds (batcher.resume maxCharacters i) accepted := by
  cases hcall : batcher.calls[i]? with
  | none => simpa [HarnessEventBatcher.resume, hcall] using h
  | some call =>
    simp only [HarnessEventBatcher.resume, hcall]
    by_cases hawaited : call.awaited ≤ batcher.settled
    · rw [if_pos hawaited, if_neg (by simp [hfailure])]
      obtain ⟨before, rfl, hbefore, halone⟩ := h.erase hcall
      have hfits := h.fits call (List.mem_of_getElem? hcall)
      cases hnext : call.next with
      | write event =>
        rw [hnext] at halone hfits
        obtain ⟨hpending, hhand⟩ := halone (List.cons_ne_nil _ _)
        exact hbefore.enqueueWrite hfits hhand hpending
      | push event =>
        rw [hnext] at halone hfits
        obtain ⟨hpending, hhand⟩ := halone (List.cons_ne_nil _ _)
        apply hbefore.pushDelta maxCharacters _ hhand
        change OneReply (batcher.pending ++ [event])
        rw [hpending]
        exact OneReply.single hfits
      | done =>
        simpa [Continuation.event, HarnessEventBatcher.continue_]
          using hbefore
    · rw [if_neg hawaited, if_neg (by simp [hrejected])]
      exact h

/-- What holds after each step: the written events stand for a prefix of the
accepted ones, and until a write is rejected the rest is still held. -/
structure Orderly (batcher : HarnessEventBatcher ι)
    (accepted : List (HarnessEvent ι)) : Prop where
  bound : batcher.settled ≤ batcher.writeChain.length
  failure : batcher.failure = true → batcher.rejected = true
  written : ∃ delivered rest, accepted = delivered ++ rest ∧
    Coalesces batcher.written delivered
  holds : batcher.rejected = false → Holds batcher accepted

theorem Holds.written (h : Holds batcher accepted) :
    ∃ delivered rest, accepted = delivered ++ rest ∧
      Coalesces batcher.written delivered := by
  obtain ⟨chained, hchained, haccepted⟩ := h.chain
  obtain ⟨delivered, rest, rfl, hdelivered⟩ := hchained.take batcher.settled
  rw [List.append_assoc, List.append_assoc] at haccepted
  exact ⟨delivered, _, haccepted, hdelivered⟩

theorem orderly_fresh : Orderly (fresh : HarnessEventBatcher ι) [] where
  bound := Nat.le_refl 0
  failure := by simp [fresh]
  written := ⟨[], [], rfl, by simpa [written, fresh] using Coalesces.nil⟩
  holds _ := by
    constructor
    · exact ⟨[], .nil, by simp [fresh, inHand]⟩
    · exact OneReply.nil
    · intro _
      rfl
    · simp [fresh, inHand]
    · simp [fresh]

/-- A call that only makes the chain grow. -/
theorem Orderly.extends {more : List (HarnessEvent ι)}
    (h : Orderly before accepted) (hextends : Extends before now)
    (hholds : before.rejected = false → before.failure = false →
      Holds before accepted → Holds now (accepted ++ more)) :
    Orderly now (accepted ++ more) where
  bound := by
    obtain ⟨added, hadded⟩ := hextends.chain
    rw [hextends.settled, hadded, List.length_append]
    exact Nat.le_add_right_of_le h.bound
  failure := by
    intro hfailure
    rw [hextends.rejected]
    rcases hextends.failure hfailure with hnoted | hrejected
    · exact h.failure hnoted
    · exact hrejected
  written := by
    obtain ⟨delivered, rest, rfl, hdelivered⟩ := h.written
    refine ⟨delivered, rest ++ more, List.append_assoc _ _ _, ?_⟩
    rw [hextends.written h.bound]
    exact hdelivered
  holds := by
    intro hrejected
    rw [hextends.rejected] at hrejected
    have hfailure : before.failure = false := by
      by_contra hne
      have hnoted := h.failure (by simpa using hne)
      rw [hrejected] at hnoted
      exact Bool.false_ne_true hnoted
    exact hholds hrejected hfailure (h.holds hrejected)

/-- The event that a step lets in. -/
def letIn (action : Action ι) (answer : Bool) : List (HarnessEvent ι) :=
  match action with
  | .accept event => if answer then [event] else []
  | _ => []

/-- One step, where an event is let in only while none is held in a hand. -/
theorem orderly_step (maxCharacters : Nat) (h : Orderly batcher accepted)
    (action : Action ι)
    (hhand : ∀ event, action = .accept event → batcher.inHand = []) :
    Orderly (batcher.step maxCharacters action).1
      (accepted ++ letIn action (batcher.step maxCharacters action).2) := by
  cases action with
  | accept event =>
    simp only [step]
    split
    · simpa [letIn] using h
    · apply h.extends (extends_accept maxCharacters batcher event)
      intro _ _ hholds
      exact hholds.accept maxCharacters event (hhand event rfl)
  | flush =>
    simp only [step]
    split
    · simpa [letIn] using h
    · apply h.extends (extends_flushThen batcher false .done)
      intro _ _ hholds
      change Holds _ (accepted ++ [])
      rw [List.append_nil]
      exact hholds.flushDone false
  | timer =>
    have hstopped : Orderly { batcher with timer := false }
        accepted := by
      have hholds : batcher.rejected = false →
          Holds { batcher with timer := false } accepted := by
        intro hrejected
        exact (h.holds hrejected).of_eq rfl rfl rfl
      exact ⟨h.bound, h.failure, h.written, hholds⟩
    simp only [step]
    split
    · split
      · simpa [letIn] using hstopped
      · apply hstopped.extends (extends_flushThen _ true .done)
        intro _ _ hholds
        change Holds _ (accepted ++ [])
        rw [List.append_nil]
        exact hholds.flushDone true
    · simpa [letIn] using h
  | written =>
    simp only [step]
    split
    · rename_i hopen
      have hholds : Holds { batcher with settled := batcher.settled + 1 }
          accepted := by
        exact (h.holds (by simpa using hopen.2)).of_eq rfl rfl rfl
      change Orderly _ (accepted ++ [])
      rw [List.append_nil]
      exact ⟨hopen.1, h.failure, hholds.written, fun _ => hholds⟩
    · simpa [letIn] using h
  | rejected =>
    simp only [step]
    split
    · change Orderly _ (accepted ++ [])
      rw [List.append_nil]
      exact ⟨h.bound, fun _ => rfl, h.written,
        fun hrejected => absurd hrejected.symm Bool.false_ne_true⟩
    · simpa [letIn] using h
  | resume i =>
    apply h.extends (extends_resume maxCharacters batcher i)
    intro hrejected hfailure hholds
    simpa [letIn] using hholds.resume hrejected hfailure maxCharacters i

theorem acceptedEvents_single (action : Action ι) (answer : Bool) :
    acceptedEvents [(action, answer)] = letIn action answer := by
  cases action <;> simp [acceptedEvents, letIn]

theorem acceptedEvents_append (first second : List (Action ι × Bool)) :
    acceptedEvents (first ++ second) =
      acceptedEvents first ++ acceptedEvents second := by
  exact List.flatMap_append

/-- The invariant holds after every run that lets an event in only while none
is held in a hand. -/
theorem orderly_run (maxCharacters : Nat) (actions : List (Action ι))
    (hhand : ∀ before event rest,
      actions = before ++ Action.accept event :: rest →
      ((machine maxCharacters).after fresh before).inHand = []) :
    Orderly ((machine maxCharacters).after fresh actions)
      (acceptedEvents ((machine maxCharacters).events fresh actions)) := by
  induction actions using List.reverseRecOn with
  | nil => exact orderly_fresh
  | append_singleton actions action ih =>
    have hbefore := ih (by
      intro before event rest hsplit
      exact hhand before event (rest ++ [action]) (by simp [hsplit]))
    rw [Machine.after_append, Machine.events_append, acceptedEvents_append]
    have hnext := orderly_step maxCharacters hbefore action (by
      intro event haction
      exact hhand actions event [] (by rw [haction]))
    rw [Machine.events_cons, Machine.events_nil, acceptedEvents_single]
    exact hnext

/-- Nothing is left to be done. -/
def quiet (batcher : HarnessEventBatcher ι) : Prop :=
  batcher.rejected = false ∧ batcher.pending = [] ∧ batcher.inHand = [] ∧
    batcher.settled = batcher.writeChain.length

/-- In a run where an event is let in only while no call holds one in its
hand, at every moment the written events are the first of the accepted ones,
in their order and with adjacent deltas of a reply joined; the deltas of each
reply add up to the same text; and when all is quiet nothing is missing. -/
theorem batching_preserves_stream (maxCharacters : Nat)
    (actions : List (Action ι))
    (hhand : ∀ before event rest,
      actions = before ++ Action.accept event :: rest →
      ((machine maxCharacters).after fresh before).inHand = []) :
    let batcher := (machine maxCharacters).after fresh actions
    let accepted :=
      acceptedEvents ((machine maxCharacters).events fresh actions)
    ∃ delivered rest, accepted = delivered ++ rest ∧
      Coalesces batcher.written delivered ∧
      (∀ key, appendedText key batcher.written = appendedText key delivered) ∧
      (batcher.quiet → rest = []) := by
  intro batcher accepted
  have horderly : Orderly batcher accepted :=
    orderly_run maxCharacters actions hhand
  by_cases hquiet : batcher.quiet
  · obtain ⟨hrejected, hpending, hinHand, hsettled⟩ := hquiet
    obtain ⟨delivered, hdelivered, haccepted⟩ :=
      (horderly.holds hrejected).chain
    have hwritten : Coalesces batcher.written delivered := by
      rw [HarnessEventBatcher.written, hsettled, List.take_length]
      exact hdelivered
    refine ⟨delivered, [], ?_, hwritten, hwritten.appendedText,
      fun _ => rfl⟩
    rw [haccepted, hpending, hinHand]
    simp
  · obtain ⟨delivered, rest, haccepted, hwritten⟩ := horderly.written
    exact ⟨delivered, rest, haccepted, hwritten, hwritten.appendedText,
      fun h => absurd h hquiet⟩

namespace DeltaBatcherWitness

def delta (replyId text : String) (order : Nat) : AssistantDelta Unit where
  replyId := some (JsString.ofString replyId)
  generation := 0
  attempt := 1
  messageId := none
  turnId := none
  text := JsString.ofString text
  replaces := false
  order := order
  orderStart := none
  carried := ()

/-- Two deltas of a reply, the timer, a tool event and a delta after it. -/
def awaited : List (Action Unit) :=
  [.accept (.delta (delta "a" "x" 1)), .accept (.delta (delta "a" "y" 2)),
    .timer, .written, .resume 0, .accept (.other ()), .resume 0, .written,
    .resume 0, .accept (.delta (delta "b" "z" 4))]

def isAccept : Action Unit → Bool
  | .accept _ => true
  | _ => false

theorem batching_preserves_stream_awaited :
    (∀ before event rest,
      awaited = before ++ Action.accept event :: rest →
      ((machine 512).after fresh before).inHand = []) ∧
    ∃ delivered rest,
      acceptedEvents ((machine 512).events fresh awaited) =
        delivered ++ rest ∧
      Coalesces ((machine 512).after fresh awaited).written delivered ∧
      (∀ key, appendedText key ((machine 512).after fresh awaited).written =
        appendedText key delivered) ∧
      (((machine 512).after fresh awaited).quiet → rest = []) := by
  have hhand : ∀ before event rest,
      awaited = before ++ Action.accept event :: rest →
      ((machine 512).after fresh before).inHand = [] := by
    have hall : ∀ n ∈ List.range 10,
        awaited[n]?.map isAccept = some true →
        ((machine 512).after fresh (awaited.take n)).inHand = [] := by
      decide
    intro before event rest hsplit
    have hlength := congrArg List.length hsplit
    have hget : awaited[before.length]? = some (.accept event) := by
      rw [hsplit]
      simp
    have htake : awaited.take before.length = before := by
      rw [hsplit]
      simp
    rw [← htake]
    apply hall before.length _ (by rw [hget]; rfl)
    simp only [awaited, List.length_append, List.length_cons,
      List.length_nil] at hlength
    rw [List.mem_range]
    omega
  exact ⟨hhand, batching_preserves_stream 512 awaited hhand⟩

/-- The first delta of a reply waits for the flush of the reply before it; the
second one is let in meanwhile and goes ahead. -/
def overtaken : List (Action Unit) :=
  [.accept (.delta (delta "a" "x" 1)), .accept (.delta (delta "b" "1" 2)),
    .accept (.delta (delta "b" "2" 3)), .written, .resume 0, .flush,
    .written, .resume 0]

theorem second_delta_overtakes :
    ((machine 512).after fresh overtaken).quiet ∧
    acceptedEvents ((machine 512).events fresh overtaken) =
      [.delta (delta "a" "x" 1), .delta (delta "b" "1" 2),
        .delta (delta "b" "2" 3)] ∧
    appendedText (delta "b" "" 0)
      ((machine 512).after fresh overtaken).written =
        JsString.ofString "21" ∧
    appendedText (delta "b" "" 0)
      (acceptedEvents ((machine 512).events fresh overtaken)) =
        JsString.ofString "12" := by
  refine ⟨?_, ?_, ?_, ?_⟩
  · unfold quiet
    decide
  · decide
  · decide
  · decide

end DeltaBatcherWitness

end HarnessEventBatcher

end Allrice
