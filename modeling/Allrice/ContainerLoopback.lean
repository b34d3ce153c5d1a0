/-
A connection to a port of a container, carried by the output of a process in it.
The daemon wraps that output into frames; one loop takes them apart, whether
bytes arrive, the socket ends or the consumer wants more.
-/
import Allrice.ProjectLogs

namespace Allrice.ContainerLoopback

open ProjectLogs (Framed frameLength)

def maximumHttpBytes : Nat := 16000000

def maximumIncoming : Nat := maximumHttpBytes + 64000

def maximumBuffered : Nat := 1000000

def maximumFrameBytes : Nat := 500000

inductive LoopbackError
  | invalidStream
  | limit
  | incompleteStream
  | backpressure
  | transport
  | revoked

/-- `received` and `emitted` are what the socket has delivered so far and what
has been pushed to the consumer. -/
structure Loopback where
  pending : List UInt8
  incoming : Nat
  socketEnded : Bool
  readEnded : Bool
  destroyed : Option LoopbackError
  received : List UInt8
  emitted : List (List UInt8)

def Loopback.initial : Loopback where
  pending := []
  incoming := 0
  socketEnded := false
  readEnded := false
  destroyed := none
  received := []
  emitted := []

/-- What the checks of the loop say about the bytes that are pending. -/
def nextFrame : List UInt8 → Framed
  | kind :: a :: b :: c :: l₃ :: l₂ :: l₁ :: l₀ :: rest =>
    if kind ≠ 1 ∨ ¬(a = 0 ∧ b = 0 ∧ c = 0) ∨
        maximumFrameBytes < frameLength l₃ l₂ l₁ l₀ then .invalid
    else if rest.length < frameLength l₃ l₂ l₁ l₀ then .more
    else .frame (rest.take (frameLength l₃ l₂ l₁ l₀))
      (rest.drop (frameLength l₃ l₂ l₁ l₀))
  | _ => .more

variable {s : Loopback} {rest payload : List UInt8}
  {payloads : List (List UInt8)}

theorem nextFrame_shorter {pending : List UInt8}
    (h : nextFrame pending = .frame payload rest) :
    rest.length < pending.length := by
  unfold nextFrame at h
  split at h
  · split at h
    · cases h
    · split at h
      · cases h
      · obtain ⟨-, rfl⟩ := Framed.frame.inj h
        simp only [List.length_drop, List.length_cons]
        omega
  · cases h

namespace Loopback

def destroy (s : Loopback) (error : LoopbackError) : Loopback :=
  { s with destroyed := some error }

/-- `this.push(bytes)`. -/
def deliver (s : Loopback) (payload rest : List UInt8) : Loopback :=
  { s with
    pending := rest
    incoming := s.incoming + payload.length
    emitted := s.emitted ++ [payload] }

/-- Behind the loop: the end of the socket is passed on once. -/
def endRead (s : Loopback) : Loopback :=
  if s.socketEnded = true ∧ s.readEnded = false then
    if s.pending ≠ [] then s.destroy .incompleteStream
    else { s with readEnded := true }
  else s

/-- `drainFrames`; `ready` is what each push answers, by the number of those
before it. -/
def drainFrames (ready : ℕ → Bool) (s : Loopback) : Loopback :=
  match _hframe : nextFrame s.pending with
  | .invalid => s.destroy .invalidStream
  | .more => s.endRead
  | .frame payload rest =>
    if maximumIncoming < s.incoming + payload.length then
      ({ s with
        pending := rest
        incoming := s.incoming + payload.length } : Loopback).destroy .limit
    else if ready s.emitted.length then
      drainFrames ready (s.deliver payload rest)
    else s.deliver payload rest
termination_by s.pending.length
decreasing_by exact nextFrame_shorter _hframe

/-- `socket.on('data')`. -/
def data (s : Loopback) (ready : ℕ → Bool) (bytes : List UInt8) : Loopback :=
  let s :=
    { s with
      pending := s.pending ++ bytes
      received := s.received ++ bytes }
  if maximumBuffered < s.pending.length then s.destroy .backpressure
  else s.drainFrames ready

/-- `socket.once('end')`. -/
def ended (s : Loopback) (ready : ℕ → Bool) : Loopback :=
  ({ s with socketEnded := true } : Loopback).drainFrames ready

/-- `socket.once('close')`. -/
def socketClosed (s : Loopback) : Loopback :=
  if s.socketEnded then s else s.destroy .incompleteStream

end Loopback

/-- What the socket and the consumer do; `failed` stands for an error of the
socket and for a target that is revoked. -/
inductive Action
  | data (ready : ℕ → Bool) (bytes : List UInt8)
  | ended (ready : ℕ → Bool)
  | closed
  | read (ready : ℕ → Bool)
  | failed (revoked : Bool)

/-- A destroyed stream has no socket and no reader, and a socket that has ended
delivers nothing. -/
def containerLoopback : Machine Loopback Action Unit where
  step s action :=
    (if s.destroyed.isSome then s
      else
        match action with
        | .data ready bytes => if s.socketEnded then s else s.data ready bytes
        | .ended ready => if s.socketEnded then s else s.ended ready
        | .closed => s.socketClosed
        | .read ready => s.drainFrames ready
        | .failed revoked =>
          s.destroy (if revoked then .revoked else .transport), ())

def stdoutFrame (payload : List UInt8) : List UInt8 :=
  ProjectLogs.Frame.bytes ⟨1, payload⟩

/-- The bytes begin with the frames of these payloads, none of them too large,
nor all of them together. -/
structure Framing (bytes : List UInt8) (payloads : List (List UInt8))
    (rest : List UInt8) : Prop where
  bytes : bytes = payloads.flatMap stdoutFrame ++ rest
  sizes : ∀ payload ∈ payloads, payload.length ≤ maximumFrameBytes
  total : payloads.flatten.length ≤ maximumIncoming

/-- The bytes that an action brings, as long as the socket has not ended. -/
def arrivedWith : Action → List UInt8
  | .data _ bytes => bytes
  | .ended _ | .closed | .read _ | .failed _ => []

def endsWith : Action → Bool
  | .ended _ => true
  | .data _ _ | .closed | .read _ | .failed _ => false

/-- What the socket brings until it ends. -/
def arrived : List Action → List UInt8
  | [] => []
  | action :: rest =>
    arrivedWith action ++ if endsWith action then [] else arrived rest

/-- An error of the stream itself: what stands behind the frames that were
emitted. -/
def Spoils (s : Loopback) (rest : List UInt8) : LoopbackError → Prop
  | .invalidStream => nextFrame rest = .invalid
  | .limit => ∃ payload more, nextFrame rest = .frame payload more ∧
      maximumIncoming < s.emitted.flatten.length + payload.length
  | .incompleteStream =>
      s.socketEnded = true ∧ nextFrame rest = .more ∧ rest ≠ []
  | .backpressure | .transport | .revoked => False

/-- What an error says when the action has destroyed the stream. -/
def Explains (s : Loopback) (rest : List UInt8) (action : Action)
    (error : LoopbackError) : Prop :=
  Spoils s rest error ∨
    match action with
    | .data _ _ => error = .backpressure ∧ maximumBuffered < rest.length
    | .closed => error = .incompleteStream ∧ s.socketEnded = false
    | .failed revoked => error = if revoked then .revoked else .transport
    | .ended _ | .read _ => False

theorem nextFrame_bytes (h : payload.length ≤ maximumFrameBytes)
    (rest : List UInt8) :
    nextFrame (stdoutFrame payload ++ rest) = .frame payload rest := by
  simp only [maximumFrameBytes] at h
  have hlength : frameLength (UInt8.ofNat (payload.length / 65536 / 256))
      (UInt8.ofNat (payload.length / 65536))
      (UInt8.ofNat (payload.length / 256))
      (UInt8.ofNat payload.length) = payload.length := by
    simp only [frameLength, UInt8.toNat_ofNat']
    omega
  simp only [stdoutFrame, ProjectLogs.Frame.bytes, ByteReader.u16Bytes,
    ByteReader.u8Bytes, List.cons_append, List.nil_append, nextFrame, hlength]
  rw [if_neg, if_neg]
  · rw [List.take_left, List.drop_left]
  · rw [List.length_append]
    omega
  · simp only [maximumFrameBytes, ne_eq, not_true, false_or, and_self,
      Nat.not_lt]
    exact h

/-- What is taken from the front of a buffer is a frame. -/
theorem frame_of_nextFrame {stream : List UInt8}
    (h : nextFrame stream = .frame payload rest) :
    payload.length ≤ maximumFrameBytes ∧
      stream = stdoutFrame payload ++ rest := by
  unfold nextFrame at h
  split at h
  · rename_i kind a b c l₃ l₂ l₁ l₀ tail
    split at h
    · cases h
    · rename_i hvalid
      split at h
      · cases h
      · rename_i hwhole
        obtain ⟨rfl, rfl⟩ := Framed.frame.inj h
        simp only [not_or, not_not, Nat.not_lt, ne_eq] at hvalid hwhole
        obtain ⟨rfl, ⟨rfl, rfl, rfl⟩, hsize⟩ := hvalid
        have hpayload : (tail.take (frameLength l₃ l₂ l₁ l₀)).length =
            frameLength l₃ l₂ l₁ l₀ := by
          rw [List.length_take]
          omega
        constructor
        · rw [hpayload]
          exact hsize
        · simp only [stdoutFrame, ProjectLogs.Frame.bytes, hpayload,
            List.cons_append, List.append_assoc, List.take_append_drop]
          rw [← List.append_assoc, ProjectLogs.frameLength_bytes]
          rfl
  · cases h

theorem nextFrame_nil : nextFrame [] = .more := rfl

variable {t : Loopback} {front : List (List UInt8)} {bytes : List UInt8}
  {error : LoopbackError} {action : Action}

/-- Frames at the front of a stream are those that it consists of. -/
theorem frames_behind
    (hsizes : ∀ payload ∈ payloads, payload.length ≤ maximumFrameBytes)
    (hfront : ∀ payload ∈ front, payload.length ≤ maximumFrameBytes)
    (hbytes : payloads.flatMap stdoutFrame =
      front.flatMap stdoutFrame ++ rest) :
    ∃ more, payloads = front ++ more ∧ rest = more.flatMap stdoutFrame := by
  induction front generalizing payloads with
  | nil => exact ⟨payloads, rfl, hbytes.symm⟩
  | cons first others ih =>
    rw [List.forall_mem_cons] at hfront
    have hnext := nextFrame_bytes hfront.1
      (others.flatMap stdoutFrame ++ rest)
    rw [← List.append_assoc, ← List.flatMap_cons, ← hbytes] at hnext
    cases payloads with
    | nil =>
      rw [List.flatMap_nil, nextFrame_nil] at hnext
      cases hnext
    | cons payload payloads =>
      rw [List.forall_mem_cons] at hsizes
      rw [List.flatMap_cons, nextFrame_bytes hsizes.1] at hnext
      obtain ⟨rfl, htail⟩ := Framed.frame.inj hnext
      obtain ⟨more, hmore, hrest⟩ := ih hsizes.2 hfront.2 htail
      exact ⟨more, by rw [hmore, List.cons_append], hrest⟩

theorem Framing.behind (h : Framing bytes payloads [])
    (hfront : Framing bytes front rest) :
    ∃ more, payloads = front ++ more ∧ rest = more.flatMap stdoutFrame := by
  apply frames_behind h.sizes hfront.sizes
  rw [← hfront.bytes, h.bytes, List.append_nil]

section Loop

variable {s : Loopback} {ready : ℕ → Bool}

theorem drain_invalid (h : nextFrame s.pending = .invalid) :
    s.drainFrames ready = s.destroy .invalidStream := by
  rw [Loopback.drainFrames]
  split
  · rfl
  · rename_i hframe
    rw [h] at hframe
    cases hframe
  · rename_i hframe
    rw [h] at hframe
    cases hframe

theorem drain_more (h : nextFrame s.pending = .more) :
    s.drainFrames ready = s.endRead := by
  rw [Loopback.drainFrames]
  split
  · rename_i hframe
    rw [h] at hframe
    cases hframe
  · rfl
  · rename_i hframe
    rw [h] at hframe
    cases hframe

theorem drain_frame (h : nextFrame s.pending = .frame payload rest) :
    s.drainFrames ready =
      if maximumIncoming < s.incoming + payload.length then
        ({ s with
          pending := rest
          incoming := s.incoming + payload.length } : Loopback).destroy .limit
      else if ready s.emitted.length then
        (s.deliver payload rest).drainFrames ready
      else s.deliver payload rest := by
  rw [Loopback.drainFrames]
  split
  · rename_i hframe
    rw [h] at hframe
    cases hframe
  · rename_i hframe
    rw [h] at hframe
    cases hframe
  · rename_i hframe
    rw [h] at hframe
    obtain ⟨rfl, rfl⟩ := Framed.frame.inj hframe
    rfl

end Loop

structure Working (s : Loopback) : Prop where
  framing : Framing s.received s.emitted s.pending
  incoming : s.incoming = s.emitted.flatten.length
  quiet : s.readEnded = true → s.socketEnded = true ∧ s.pending = []

structure Tracked (s : Loopback) : Prop where
  working : s.destroyed = none → Working s
  failed : s.destroyed.isSome = true → ∃ rest, Framing s.received s.emitted rest
  ended : s.readEnded = true →
    s.socketEnded = true ∧ Framing s.received s.emitted []

/-- Nothing is left to do before something else happens. -/
def Settled (s : Loopback) : Prop :=
  s.destroyed.isSome = true ∨
    (nextFrame s.pending = .more ∧
      (s.socketEnded = true → s.readEnded = true))

/-- What the loop leads to. -/
structure Drains (s t : Loopback) : Prop where
  tracked : Tracked t
  received : t.received = s.received
  socketEnded : t.socketEnded = s.socketEnded
  progress : Settled t ∨ t.pending.length < s.pending.length
  errors : ∀ error, t.destroyed = some error →
    ∃ rest, Framing t.received t.emitted rest ∧ Spoils t rest error

theorem Working.ended (h : Working s) (hended : s.readEnded = true) :
    s.socketEnded = true ∧ Framing s.received s.emitted [] := by
  obtain ⟨hsocket, hpending⟩ := h.quiet hended
  have hframing := h.framing
  rw [hpending] at hframing
  exact ⟨hsocket, hframing⟩

theorem Working.tracked (h : Working s) (halive : s.destroyed = none) :
    Tracked s where
  working _ := h
  failed hsome := by
    rw [halive] at hsome
    cases hsome
  ended := h.ended

/-- A stream that is destroyed keeps what it has emitted. -/
theorem Working.destroy (h : Working s) (error : LoopbackError) :
    Tracked (s.destroy error) where
  working hnone := by cases hnone
  failed _ := ⟨s.pending, h.framing⟩
  ended := h.ended

/-- The stream goes on. -/
theorem Working.goes (h : Working t) (halive : t.destroyed = none)
    (hreceived : t.received = s.received)
    (hsocket : t.socketEnded = s.socketEnded)
    (hprogress : Settled t ∨ t.pending.length < s.pending.length) :
    Drains s t where
  tracked := h.tracked halive
  received := hreceived
  socketEnded := hsocket
  progress := hprogress
  errors error herror := by
    rw [halive] at herror
    cases herror

/-- The stream itself is why it is destroyed. -/
theorem Working.spoil (h : Working s) (hspoils : Spoils s s.pending error) :
    Drains s (s.destroy error) where
  tracked := h.destroy error
  received := rfl
  socketEnded := rfl
  progress := .inl (.inl rfl)
  errors other hother := by
    obtain rfl : error = other := Option.some.inj hother
    exact ⟨s.pending, h.framing, by cases error <;> exact hspoils⟩

theorem Working.endRead (h : Working s) (halive : s.destroyed = none)
    (hmore : nextFrame s.pending = .more) : Drains s s.endRead := by
  unfold Loopback.endRead
  by_cases hdue : s.socketEnded = true ∧ s.readEnded = false
  · rw [if_pos hdue]
    by_cases hpending : s.pending = []
    · rw [if_neg (not_not.2 hpending)]
      have hnext : Working { s with readEnded := true } :=
        { framing := h.framing
          incoming := h.incoming
          quiet := fun _ => ⟨hdue.1, hpending⟩ }
      exact hnext.goes halive rfl rfl (.inl (.inr ⟨hmore, fun _ => rfl⟩))
    · rw [if_pos hpending]
      exact h.spoil ⟨hdue.1, hmore, hpending⟩
  · rw [if_neg hdue]
    have hdone : s.socketEnded = true → s.readEnded = true := by
      intro hsocket
      by_contra hopen
      exact hdue ⟨hsocket, Bool.eq_false_iff.2 hopen⟩
    exact h.goes halive rfl rfl (.inl (.inr ⟨hmore, hdone⟩))

theorem Working.deliver (h : Working s)
    (hframe : nextFrame s.pending = .frame payload rest)
    (hlimit : s.incoming + payload.length ≤ maximumIncoming) :
    Working (s.deliver payload rest) := by
  obtain ⟨hsize, hpending⟩ := frame_of_nextFrame hframe
  have hincoming := h.incoming
  have htotal : (s.emitted ++ [payload]).flatten.length =
      s.emitted.flatten.length + payload.length := by
    simp
  constructor
  case framing =>
    constructor
    case bytes =>
      change s.received = (s.emitted ++ [payload]).flatMap stdoutFrame ++ rest
      rw [h.framing.bytes, hpending, List.flatMap_append, List.flatMap_singleton,
        List.append_assoc]
    case sizes =>
      intro other hother
      rcases List.mem_append.1 hother with hother | hother
      · exact h.framing.sizes other hother
      · rw [List.mem_singleton.1 hother]
        exact hsize
    case total =>
      change (s.emitted ++ [payload]).flatten.length ≤ maximumIncoming
      omega
  case incoming =>
    change s.incoming + payload.length = (s.emitted ++ [payload]).flatten.length
    omega
  case quiet =>
    intro hended
    rw [(h.quiet hended).2, nextFrame_nil] at hframe
    cases hframe

/-- The loop loses no frame and delivers none twice. -/
theorem Working.drain (h : Working s) (halive : s.destroyed = none)
    (ready : ℕ → Bool) : Drains s (s.drainFrames ready) := by
  induction hlength : s.pending.length using Nat.strong_induction_on
    generalizing s with
  | _ length ih =>
    cases hframe : nextFrame s.pending with
    | more =>
      rw [drain_more hframe]
      exact h.endRead halive hframe
    | invalid =>
      rw [drain_invalid hframe]
      exact h.spoil hframe
    | frame payload rest =>
      have hshorter := nextFrame_shorter hframe
      have hincoming := h.incoming
      rw [drain_frame hframe]
      by_cases hlimit : maximumIncoming < s.incoming + payload.length
      · rw [if_pos hlimit]
        exact
          { tracked :=
              { working := fun hnone => by cases hnone
                failed := fun _ => ⟨s.pending, h.framing⟩
                ended := h.ended }
            received := rfl
            socketEnded := rfl
            progress := .inl (.inl rfl)
            errors := fun error herror => by
              obtain rfl : LoopbackError.limit = error := Option.some.inj herror
              exact ⟨s.pending, h.framing, payload, rest, hframe, by
                change _ < s.emitted.flatten.length + _
                omega⟩ }
      · rw [if_neg hlimit]
        have hnext := h.deliver hframe (Nat.le_of_not_lt hlimit)
        by_cases hready : ready s.emitted.length = true
        · rw [if_pos hready]
          have hdrains := ih rest.length (hlength ▸ hshorter) hnext halive rfl
          exact
            { tracked := hdrains.tracked
              received := hdrains.received
              socketEnded := hdrains.socketEnded
              progress := hdrains.progress.imp_right fun hless =>
                hless.trans hshorter
              errors := hdrains.errors }
        · rw [if_neg hready]
          exact hnext.goes halive rfl rfl (.inr hshorter)

theorem Tracked.initial : Tracked .initial := by
  refine Working.tracked ⟨⟨rfl, ?_, Nat.zero_le _⟩, rfl, ?_⟩ rfl
  · intro payload hpayload
    cases hpayload
  · nofun

theorem step_destroyed (h : s.destroyed.isSome = true) (action : Action) :
    (containerLoopback.step s action).1 = s :=
  if_pos h

theorem after_destroyed {s : Loopback} (h : s.destroyed.isSome = true)
    (actions : List Action) : containerLoopback.after s actions = s := by
  induction actions with
  | nil => rfl
  | cons action rest ih =>
    rw [Machine.after_cons, step_destroyed h]
    exact ih

theorem step_read (h : s.destroyed = none) (ready : ℕ → Bool) :
    (containerLoopback.step s (.read ready)).1 = s.drainFrames ready := by
  refine if_neg ?_
  rw [h]
  decide

theorem Working.data (h : Working s) (halive : s.destroyed = none)
    (hopen : s.socketEnded = false) (ready : ℕ → Bool) (bytes : List UInt8) :
    Tracked (s.data ready bytes) ∧
      (s.data ready bytes).received = s.received ++ bytes ∧
      (s.data ready bytes).socketEnded = false ∧
      ∀ error, (s.data ready bytes).destroyed = some error →
        ∃ rest, Framing (s.data ready bytes).received
            (s.data ready bytes).emitted rest ∧
          Explains (s.data ready bytes) rest (.data ready bytes) error := by
  have hnext : Working
      { s with
        pending := s.pending ++ bytes
        received := s.received ++ bytes } :=
    { framing :=
        { bytes := by
            change s.received ++ bytes = _ ++ (s.pending ++ bytes)
            rw [h.framing.bytes, List.append_assoc]
          sizes := h.framing.sizes
          total := h.framing.total }
      incoming := h.incoming
      quiet := fun hended => by
        have hsocket := (h.quiet hended).1
        rw [hopen] at hsocket
        cases hsocket }
  unfold Loopback.data
  simp only
  split
  · rename_i hover
    refine ⟨hnext.destroy _, rfl, hopen, fun error herror => ?_⟩
    exact ⟨_, hnext.framing, .inr ⟨(Option.some.inj herror).symm, hover⟩⟩
  · have hdrains := hnext.drain halive ready
    refine ⟨hdrains.tracked, hdrains.received, hdrains.socketEnded.trans hopen,
      fun error herror => ?_⟩
    obtain ⟨rest, hframing, hspoils⟩ := hdrains.errors error herror
    exact ⟨rest, hframing, .inl hspoils⟩

/-- What one action does to a stream that is not destroyed. -/
structure Moves (s : Loopback) (action : Action) (t : Loopback) : Prop where
  tracked : Tracked t
  received : t.received =
    s.received ++ if s.socketEnded then [] else arrivedWith action
  socketEnded : t.socketEnded = (s.socketEnded || endsWith action)
  errors : ∀ error, t.destroyed = some error →
    ∃ rest, Framing t.received t.emitted rest ∧ Explains t rest action error

theorem Drains.moves (h : Drains s t) {start : Loopback}
    (hreceived : s.received =
      start.received ++ if start.socketEnded then [] else arrivedWith action)
    (hended : s.socketEnded = (start.socketEnded || endsWith action)) :
    Moves start action t where
  tracked := h.tracked
  received := h.received.trans hreceived
  socketEnded := h.socketEnded.trans hended
  errors error herror := by
    obtain ⟨rest, hframing, hspoils⟩ := h.errors error herror
    exact ⟨rest, hframing, .inl hspoils⟩

/-- An action that is ignored. -/
theorem Working.stay (h : Working s) (halive : s.destroyed = none)
    (hended : s.socketEnded = true) : Moves s action s where
  tracked := h.tracked halive
  received := by rw [if_pos hended, List.append_nil]
  socketEnded := by rw [hended, Bool.true_or]
  errors error herror := by
    rw [halive] at herror
    cases herror

theorem Working.step (h : Working s) (halive : s.destroyed = none)
    (action : Action) :
    Moves s action (containerLoopback.step s action).1 := by
  have hdestroyed : ¬s.destroyed.isSome = true := by simp [halive]
  simp only [containerLoopback, if_neg hdestroyed]
  cases action with
  | data ready bytes =>
    simp only
    split
    · rename_i hended
      exact h.stay halive hended
    · rename_i hopen
      obtain ⟨htracked, hreceived, hsocket, herrors⟩ :=
        h.data halive (Bool.eq_false_iff.2 hopen) ready bytes
      exact
        { tracked := htracked
          received := by rw [hreceived, if_neg hopen, arrivedWith]
          socketEnded := by
            rw [hsocket, Bool.eq_false_iff.2 hopen]
            rfl
          errors := herrors }
  | ended ready =>
    simp only
    split
    · rename_i hended
      exact h.stay halive hended
    · rename_i hopen
      have hnext : Working { s with socketEnded := true } :=
        { framing := h.framing
          incoming := h.incoming
          quiet := fun hended => ⟨rfl, (h.quiet hended).2⟩ }
      exact (hnext.drain halive ready).moves
        (by rw [if_neg hopen, arrivedWith, List.append_nil])
        (by rw [endsWith, Bool.or_true])
  | closed =>
    simp only [Loopback.socketClosed]
    split
    · rename_i hended
      exact h.stay halive hended
    · rename_i hopen
      exact
        { tracked := h.destroy _
          received := by simp [Loopback.destroy, arrivedWith]
          socketEnded := by simp [Loopback.destroy, endsWith]
          errors := fun error herror => ⟨s.pending, h.framing,
            .inr ⟨(Option.some.inj herror).symm, Bool.eq_false_iff.2 hopen⟩⟩ }
  | read ready =>
    exact (h.drain halive ready).moves (by simp [arrivedWith])
      (by simp [endsWith])
  | failed revoked =>
    exact
      { tracked := h.destroy _
        received := by simp [Loopback.destroy, arrivedWith]
        socketEnded := by simp [Loopback.destroy, endsWith]
        errors := fun error herror => ⟨s.pending, h.framing,
          .inr (Option.some.inj herror).symm⟩ }

theorem Tracked.step (h : Tracked s) (action : Action) :
    Tracked (containerLoopback.step s action).1 := by
  by_cases hdestroyed : s.destroyed.isSome = true
  · rw [step_destroyed hdestroyed]
    exact h
  · have halive : s.destroyed = none := by simpa using hdestroyed
    exact ((h.working halive).step halive action).tracked

theorem tracked_after (actions : List Action) :
    Tracked (containerLoopback.after .initial actions) := by
  apply containerLoopback.after_invariant Tracked
  · intro s action h
    exact h.step action
  · exact Tracked.initial

/-- The stream after some reads: nothing else has happened. -/
structure Reads (s t : Loopback) : Prop where
  tracked : Tracked t
  received : t.received = s.received
  socketEnded : t.socketEnded = s.socketEnded
  errors : s.destroyed = none → ∀ error, t.destroyed = some error →
    ∃ rest, Framing t.received t.emitted rest ∧ Spoils t rest error

theorem Settled.read (h : Settled s) (halive : s.destroyed = none)
    (ready : ℕ → Bool) : s.drainFrames ready = s := by
  rcases h with hdestroyed | ⟨hmore, hdone⟩
  · rw [halive] at hdestroyed
    cases hdestroyed
  · rw [drain_more hmore]
    refine if_neg ?_
    rintro ⟨hsocket, hopen⟩
    rw [hdone hsocket] at hopen
    cases hopen

/-- Every read takes a frame, or nothing is left to do. -/
theorem reads_settle (h : Tracked s) (reads : List (ℕ → Bool))
    (henough : Settled s ∨ s.pending.length < reads.length) :
    Reads s (containerLoopback.after s (reads.map Action.read)) ∧
      Settled (containerLoopback.after s (reads.map Action.read)) := by
  induction reads generalizing s with
  | nil =>
    refine ⟨⟨h, rfl, rfl, ?_⟩, ?_⟩
    · intro halive error herror
      rw [List.map_nil, Machine.after_nil, halive] at herror
      cases herror
    · exact henough.resolve_right (Nat.not_lt_zero _)
  | cons ready rest ih =>
    rw [List.map_cons, Machine.after_cons]
    by_cases hdestroyed : s.destroyed.isSome = true
    · rw [step_destroyed hdestroyed]
      exact ih h (.inl (.inl hdestroyed))
    · have halive : s.destroyed = none := by simpa using hdestroyed
      rw [step_read halive]
      have hdrains := (h.working halive).drain halive ready
      have hnext : Settled (s.drainFrames ready) ∨
          (s.drainFrames ready).pending.length < rest.length := by
        rcases henough with hsettled | hlength
        · rw [hsettled.read halive]
          exact .inl hsettled
        · rw [List.length_cons] at hlength
          exact hdrains.progress.imp_right fun hless => by omega
      obtain ⟨hreads, hsettled⟩ := ih hdrains.tracked hnext
      refine ⟨⟨hreads.tracked, hreads.received.trans hdrains.received,
        hreads.socketEnded.trans hdrains.socketEnded, ?_⟩, hsettled⟩
      intro _ error herror
      by_cases hstopped : (s.drainFrames ready).destroyed.isSome = true
      · rw [after_destroyed hstopped] at herror ⊢
        exact hdrains.errors error herror
      · exact hreads.errors (by simpa using hstopped) error herror

/-- What `t` has come to from `s`, with enough reads and nothing else. -/
structure Finished (s t : Loopback) : Prop where
  received : t.received = s.received
  socketEnded : t.socketEnded = s.socketEnded
  whole : ∀ payloads, Framing s.received payloads [] →
    t.destroyed = none ∧ t.emitted = payloads
  drained : t.destroyed = none →
    ∃ rest, Framing s.received t.emitted rest ∧ nextFrame rest = .more
  ends : s.socketEnded = true →
    (t.destroyed = none ∧ t.readEnded = true ↔
      ∃ payloads, Framing s.received payloads [])
  settles : s.socketEnded = true → t.destroyed = none → t.readEnded = true
  errors : ∀ error, t.destroyed = some error →
    ∃ rest, Framing t.received t.emitted rest ∧ Spoils t rest error

/-- Behind the first of whole frames there is nothing that spoils them. -/
theorem Framing.not_spoils {more : List (List UInt8)}
    (h : Framing bytes (s.emitted ++ more) []) (error : LoopbackError) :
    ¬Spoils s (more.flatMap stdoutFrame) error := by
  have htotal := h.total
  cases more with
  | nil =>
    cases error with
    | invalidStream => exact fun hspoils => by cases hspoils
    | limit =>
      rintro ⟨payload, rest, hframe, -⟩
      cases hframe
    | incompleteStream => exact fun hspoils => hspoils.2.2 rfl
    | backpressure | transport | revoked => exact id
  | cons payload more =>
    have hframe := nextFrame_bytes (h.sizes payload (by simp))
      (more.flatMap stdoutFrame)
    rw [← List.flatMap_cons] at hframe
    cases error with
    | invalidStream =>
      intro hspoils
      rw [Spoils, hframe] at hspoils
      cases hspoils
    | limit =>
      rintro ⟨other, rest, hother, hlimit⟩
      rw [hframe] at hother
      obtain ⟨rfl, -⟩ := Framed.frame.inj hother
      simp only [List.flatten_append, List.flatten_cons,
        List.length_append] at htotal
      omega
    | incompleteStream =>
      intro hspoils
      have hnext := hspoils.2.1
      rw [hframe] at hnext
      cases hnext
    | backpressure | transport | revoked => exact id

theorem Reads.whole (h : Reads s t) (halive : s.destroyed = none)
    (hsettled : Settled t) (hwhole : Framing s.received payloads []) :
    t.destroyed = none ∧ t.emitted = payloads := by
  rw [← h.received] at hwhole
  cases hdestroyed : t.destroyed with
  | some error =>
    obtain ⟨rest, hframing, hspoils⟩ := h.errors halive error hdestroyed
    obtain ⟨more, rfl, rfl⟩ := hwhole.behind hframing
    exact absurd hspoils (hwhole.not_spoils error)
  | none =>
    refine ⟨rfl, ?_⟩
    have hmore : nextFrame t.pending = .more := by
      rcases hsettled with hsome | ⟨hmore, -⟩
      · rw [hdestroyed] at hsome
        cases hsome
      · exact hmore
    obtain ⟨more, rfl, hpending⟩ :=
      hwhole.behind (h.tracked.working hdestroyed).framing
    cases more with
    | nil => rw [List.append_nil]
    | cons payload more =>
      have hsize := hwhole.sizes payload (by simp)
      rw [hpending, List.flatMap_cons, nextFrame_bytes hsize] at hmore
      cases hmore

theorem Reads.finished (h : Reads s t) (halive : s.destroyed = none)
    (hsettled : Settled t) : Finished s t := by
  have hrest : t.destroyed = none → nextFrame t.pending = .more ∧
      (s.socketEnded = true → t.readEnded = true) := by
    intro hnone
    rcases hsettled with hsome | ⟨hmore, hdone⟩
    · rw [hnone] at hsome
      cases hsome
    · exact ⟨hmore, fun hsocket => hdone (h.socketEnded.trans hsocket)⟩
  constructor
  case received => exact h.received
  case socketEnded => exact h.socketEnded
  case errors => exact h.errors halive
  case whole =>
    intro payloads hwhole
    exact h.whole halive hsettled hwhole
  case drained =>
    intro hnone
    have hframing := (h.tracked.working hnone).framing
    rw [h.received] at hframing
    exact ⟨t.pending, hframing, (hrest hnone).1⟩
  case ends =>
    intro hsocket
    constructor
    · rintro ⟨-, hended⟩
      have hframing := (h.tracked.ended hended).2
      rw [h.received] at hframing
      exact ⟨t.emitted, hframing⟩
    · rintro ⟨payloads, hwhole⟩
      have hnone := (h.whole halive hsettled hwhole).1
      exact ⟨hnone, (hrest hnone).2 hsocket⟩
  case settles =>
    intro hsocket hnone
    exact (hrest hnone).2 hsocket

/-- The bytes are received until the stream is destroyed. -/
theorem received_after (h : Tracked s) (actions : List Action) :
    ∃ missing,
      s.received ++ (if s.socketEnded then [] else arrived actions) =
        (containerLoopback.after s actions).received ++ missing ∧
      ((containerLoopback.after s actions).destroyed = none →
        missing = []) := by
  induction actions generalizing s with
  | nil => exact ⟨[], by simp [arrived], fun _ => rfl⟩
  | cons action rest ih =>
    by_cases hdestroyed : s.destroyed.isSome = true
    · rw [after_destroyed hdestroyed]
      refine ⟨_, rfl, fun hnone => ?_⟩
      rw [hnone] at hdestroyed
      cases hdestroyed
    · have halive : s.destroyed = none := by simpa using hdestroyed
      have hmoves := (h.working halive).step halive action
      obtain ⟨missing, hbytes, hwhole⟩ := ih hmoves.tracked
      rw [Machine.after_cons]
      refine ⟨missing, ?_, hwhole⟩
      rw [← hbytes, hmoves.received, hmoves.socketEnded, arrived]
      cases s.socketEnded <;> cases endsWith action <;> simp

/-- A stream is destroyed by one action, and nothing changes afterwards. -/
theorem destroyed_by {actions : List Action}
    (h : (containerLoopback.after .initial actions).destroyed = some error) :
    ∃ front action back, actions = front ++ action :: back ∧
      (containerLoopback.after .initial front).destroyed = none ∧
      containerLoopback.after .initial (front ++ [action]) =
        containerLoopback.after .initial actions := by
  induction actions using List.reverseRecOn with
  | nil => cases h
  | append_singleton actions action ih =>
    cases hbefore : (containerLoopback.after .initial actions).destroyed with
    | none => exact ⟨actions, action, [], rfl, hbefore, rfl⟩
    | some earlier =>
      have hsame : containerLoopback.after .initial (actions ++ [action]) =
          containerLoopback.after .initial actions := by
        rw [Machine.after_append]
        exact after_destroyed (by rw [hbefore]; rfl) [action]
      rw [hsame] at h ⊢
      obtain ⟨front, cause, back, rfl, halive, hcause⟩ := ih h
      exact ⟨front, cause, back ++ [action], by simp, halive, hcause⟩

/-- What is emitted are the first frames of what the socket has delivered, each
once and in order.  The stream ends well only behind the last of them, and an
error says what stands behind them or what the socket has done.  Enough reads
take all frames there are. -/
structure Faithful (actions : List Action) (s : Loopback) : Prop where
  received : ∃ missing, arrived actions = s.received ++ missing ∧
    (s.destroyed = none → missing = [])
  emitted : ∃ rest, Framing s.received s.emitted rest
  ended : s.readEnded = true →
    s.socketEnded = true ∧ Framing s.received s.emitted []
  failed : ∀ error, s.destroyed = some error →
    ∃ front action back, actions = front ++ action :: back ∧
      (containerLoopback.after .initial front).destroyed = none ∧
      containerLoopback.after .initial (front ++ [action]) = s ∧
      ∃ rest, Framing s.received s.emitted rest ∧ Explains s rest action error
  finishes : s.destroyed = none → ∀ reads : List (ℕ → Bool),
    s.pending.length < reads.length →
      Finished s (containerLoopback.after s (reads.map Action.read))

/-- However the stream is cut and read, and whatever happens to it. -/
theorem loopback_frames (actions : List Action) :
    Faithful actions (containerLoopback.after .initial actions) := by
  have htracked := tracked_after actions
  constructor
  case received =>
    obtain ⟨missing, hbytes, hwhole⟩ := received_after Tracked.initial actions
    exact ⟨missing, hbytes, hwhole⟩
  case emitted =>
    by_cases hdestroyed :
        (containerLoopback.after .initial actions).destroyed.isSome = true
    · exact htracked.failed hdestroyed
    · exact ⟨_, (htracked.working (by simpa using hdestroyed)).framing⟩
  case ended => exact htracked.ended
  case failed =>
    intro error herror
    obtain ⟨front, action, back, hactions, halive, hsame⟩ := destroyed_by herror
    refine ⟨front, action, back, hactions, halive, hsame, ?_⟩
    have hmoves := ((tracked_after front).working halive).step halive action
    rw [← hsame] at herror ⊢
    rw [Machine.after_append, Machine.after_cons, Machine.after_nil] at herror ⊢
    exact hmoves.errors error herror
  case finishes =>
    intro halive reads henough
    obtain ⟨hreads, hsettled⟩ := reads_settle htracked reads (.inr henough)
    exact hreads.finished halive hsettled

namespace TooLong

def chunk (payload : List UInt8) : Action :=
  .data (fun _ => true) (stdoutFrame payload)

theorem chunks_received (payloads : List (List UInt8)) (h : Tracked s)
    (hopen : s.socketEnded = false) :
    (containerLoopback.after s (payloads.map chunk)).socketEnded = false ∧
      ((containerLoopback.after s (payloads.map chunk)).destroyed.isSome =
          true ∨
        (containerLoopback.after s (payloads.map chunk)).received =
          s.received ++ payloads.flatMap stdoutFrame) := by
  induction payloads generalizing s with
  | nil => exact ⟨hopen, .inr (List.append_nil _).symm⟩
  | cons payload rest ih =>
    rw [List.map_cons, Machine.after_cons]
    by_cases hdestroyed : s.destroyed.isSome = true
    · rw [step_destroyed hdestroyed, after_destroyed hdestroyed]
      exact ⟨hopen, .inl hdestroyed⟩
    · have halive : s.destroyed = none := by simpa using hdestroyed
      have hmoves := (h.working halive).step halive (chunk payload)
      have hreceived : _ = s.received ++ stdoutFrame payload :=
        hmoves.received.trans (by rw [hopen]; rfl)
      rw [List.flatMap_cons, ← List.append_assoc, ← hreceived]
      exact ih hmoves.tracked (hmoves.socketEnded.trans (by rw [hopen]; rfl))

/-- Whole frames, each in a chunk of its own, of more than may come in: the
stream does not end, although its socket does. -/
theorem not_ended
    (hsizes : ∀ payload ∈ payloads, payload.length ≤ maximumFrameBytes)
    (hlong : maximumIncoming < payloads.flatten.length) :
    ¬(containerLoopback.after .initial (payloads.map chunk ++
      [Action.ended fun _ => true])).readEnded = true := by
  intro hended
  obtain ⟨hsocket, hreceived⟩ := chunks_received payloads Tracked.initial rfl
  have hwhole := (tracked_after (payloads.map chunk ++
    [Action.ended fun _ => true])).ended hended
  rw [Machine.after_append] at hwhole
  have hbefore := tracked_after (payloads.map chunk)
  generalize containerLoopback.after .initial (payloads.map chunk) = s
    at hsocket hreceived hwhole hbefore
  rw [Machine.after_cons, Machine.after_nil] at hwhole
  by_cases hdestroyed : s.destroyed.isSome = true
  · rw [step_destroyed hdestroyed, hsocket] at hwhole
    cases hwhole.1
  · obtain ⟨-, hframing⟩ := hwhole
    have halive : s.destroyed = none := by simpa using hdestroyed
    have hsame := ((hbefore.working halive).step halive
      (.ended fun _ => true)).received
    rw [arrivedWith, ite_self, List.append_nil] at hsame
    have hbytes := hframing.bytes
    rw [hsame, hreceived.resolve_left hdestroyed] at hbytes
    obtain ⟨more, hpayloads, hnone⟩ :=
      frames_behind hsizes hframing.sizes hbytes
    have hmore : more = [] := by
      cases more with
      | nil => rfl
      | cons payload more => cases hnone
    have htotal := hframing.total
    rw [hmore, List.append_nil] at hpayloads
    rw [← hpayloads] at htotal
    omega

/-- A payload of the largest size. -/
def full : List UInt8 := List.replicate maximumFrameBytes 0

theorem long_stream_fails :
    ¬∀ payloads : List (List UInt8),
      (∀ payload ∈ payloads, payload.length ≤ maximumFrameBytes) →
        (containerLoopback.after .initial (payloads.map chunk ++
          [Action.ended fun _ => true])).readEnded = true := by
  have hfull : full.length = maximumFrameBytes := List.length_replicate
  have hsizes : ∀ payload ∈ List.replicate 33 full,
      payload.length ≤ maximumFrameBytes := by
    intro payload hpayload
    rw [List.eq_of_mem_replicate hpayload, hfull]
  intro hall
  refine not_ended hsizes ?_ (hall _ hsizes)
  rw [List.length_flatten, List.map_replicate, List.sum_replicate_nat, hfull]
  decide

end TooLong

end Allrice.ContainerLoopback
