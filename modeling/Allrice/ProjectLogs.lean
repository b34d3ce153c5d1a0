/-
The output of a container, as the daemon streams it: frames of a header and a
payload, over chunks that cut them anywhere.  What is delivered are the payloads
of the frames that are complete; whether the stream ends well depends on where
its last frame ends.
-/
import Allrice.ByteReader
import Allrice.Runs

namespace Allrice.ProjectLogs

open ByteReader

def maximumTotalBytes : Nat := 500000

def maximumFrameBytes : Nat := 250000

inductive LogError
  | outputLimit
  | invalidFrame
  | invalidOutput
  | outputIncomplete
  | transport
  | timeout
  | aborted
deriving DecidableEq

/-- What stands at the front of a buffer. -/
inductive Framed
  | more
  | invalid
  | frame (payload rest : List UInt8)

/-- `readUInt32BE(4)` of a header. -/
def frameLength (l₃ l₂ l₁ l₀ : UInt8) : Nat :=
  l₃.toNat * 16777216 + l₂.toNat * 65536 + l₁.toNat * 256 + l₀.toNat

def nextFrame : List UInt8 → Framed
  | kind :: a :: b :: c :: l₃ :: l₂ :: l₁ :: l₀ :: rest =>
    if maximumFrameBytes < frameLength l₃ l₂ l₁ l₀ ∨
        (kind ≠ 1 ∧ kind ≠ 2) ∨ ¬(a = 0 ∧ b = 0 ∧ c = 0) then .invalid
    else if rest.length < frameLength l₃ l₂ l₁ l₀ then .more
    else .frame (rest.take (frameLength l₃ l₂ l₁ l₀))
      (rest.drop (frameLength l₃ l₂ l₁ l₀))
  | _ => .more

theorem nextFrame_shorter {buffered payload rest : List UInt8}
    (h : nextFrame buffered = .frame payload rest) :
    rest.length < buffered.length := by
  unfold nextFrame at h
  split at h
  · split at h
    · cases h
    · split at h
      · cases h
      · obtain ⟨-, rfl⟩ := Framed.frame.inj h
        simp only [List.length_drop, List.length_cons]
        omega
  · cases h

/-- What the loop over a buffer comes to. -/
structure Drained where
  buffered : List UInt8
  delivered : List (List UInt8)
  failure : Option LogError

section Receive

-- The consumer: what it answers to a payload after those before.  It may throw,
-- and it may abort the stream while it is called.
variable (receive : List (List UInt8) → List UInt8 → Option LogError)

def drain (buffered : List UInt8) (delivered : List (List UInt8)) : Drained :=
  match _hframe : nextFrame buffered with
  | .more => ⟨buffered, delivered, none⟩
  | .invalid => ⟨buffered, delivered, some .invalidFrame⟩
  | .frame payload rest =>
    match receive delivered payload with
    | some error => ⟨buffered, delivered ++ [payload], some error⟩
    | none => drain rest (delivered ++ [payload])
termination_by buffered.length
decreasing_by exact nextFrame_shorter _hframe

structure Session where
  buffered : List UInt8
  total : Nat
  delivered : List (List UInt8)
  settled : Option (Except LogError Unit)

def Session.initial : Session := ⟨[], 0, [], none⟩

def fail (s : Session) (error : LogError) : Session :=
  { s with settled := s.settled.orElse fun _ => some (.error error) }

/-- `res.on('data')`. -/
def data (s : Session) (chunk : List UInt8) : Session :=
  match s.settled with
  | some _ => s
  | none =>
    let total := s.total + chunk.length
    if maximumTotalBytes < total then fail { s with total } .outputLimit
    else
      let drained := drain receive (s.buffered ++ chunk) s.delivered
      { buffered := drained.buffered
        total := total
        delivered := drained.delivered
        settled := drained.failure.map .error }

/-- `res.once('end')`. -/
def ended (s : Session) : Session :=
  match s.settled with
  | some _ => s
  | none =>
    if s.buffered ≠ [] then fail s .outputIncomplete
    else { s with settled := some (.ok ()) }

/-- What happens to the response; `failed` stands for an error of the transport,
the deadline and an aborted signal. -/
inductive Event
  | data (chunk : List UInt8)
  | ended
  | failed (error : LogError)

def streamProjectLogs : Machine Session Event Unit where
  step s event :=
    (match event with
      | .data chunk => data receive s chunk
      | .ended => ended s
      | .failed error => fail s error, ())

/-- The stream arrives in these chunks, and ends. -/
def streamed (chunks : List (List UInt8)) : Session :=
  (streamProjectLogs receive).after .initial
    (chunks.map Event.data ++ [Event.ended])

end Receive

structure Frame where
  kind : UInt8
  payload : List UInt8

namespace Frame

def bytes (frame : Frame) : List UInt8 :=
  frame.kind :: 0 :: 0 :: 0 ::
    (u16Bytes (frame.payload.length / 65536) ++
      (u16Bytes frame.payload.length ++ frame.payload))

structure WellFormed (frame : Frame) : Prop where
  kind : frame.kind = 1 ∨ frame.kind = 2
  size : frame.payload.length ≤ maximumFrameBytes

end Frame

/-- The stream is these frames, one behind the other. -/
structure Consists (stream : List UInt8) (frames : List Frame) : Prop where
  bytes : stream = frames.flatMap Frame.bytes
  wellFormed : ∀ frame ∈ frames, frame.WellFormed

/-- The complete frames of a stream: what follows them does not begin with
another one. -/
def CompleteFrames (stream : List UInt8) (frames : List Frame) : Prop :=
  ∃ rest, stream = frames.flatMap Frame.bytes ++ rest ∧
    (∀ frame ∈ frames, frame.WellFormed) ∧
      ∀ frame : Frame, frame.WellFormed → ¬frame.bytes <+: rest

theorem nextFrame_bytes {frame : Frame} (h : frame.WellFormed)
    (rest : List UInt8) :
    nextFrame (frame.bytes ++ rest) = .frame frame.payload rest := by
  have hsize := h.size
  have hkind := h.kind
  simp only [maximumFrameBytes] at hsize
  have hlength : frameLength (UInt8.ofNat (frame.payload.length / 65536 / 256))
      (UInt8.ofNat (frame.payload.length / 65536))
      (UInt8.ofNat (frame.payload.length / 256))
      (UInt8.ofNat frame.payload.length) = frame.payload.length := by
    simp only [frameLength, UInt8.toNat_ofNat']
    omega
  simp only [Frame.bytes, u16Bytes, u8Bytes, List.cons_append, List.nil_append,
    nextFrame, hlength]
  rw [if_neg, if_neg]
  · rw [List.take_left, List.drop_left]
  · rw [List.length_append]
    omega
  · simp only [maximumFrameBytes, not_or, not_and_or, not_not]
    exact ⟨by omega, hkind, trivial, trivial, trivial⟩

theorem frameLength_bytes (l₃ l₂ l₁ l₀ : UInt8) :
    u16Bytes (frameLength l₃ l₂ l₁ l₀ / 65536) ++
      u16Bytes (frameLength l₃ l₂ l₁ l₀) = [l₃, l₂, l₁, l₀] := by
  have h₃ := l₃.toNat_lt
  have h₂ := l₂.toNat_lt
  have h₁ := l₁.toNat_lt
  have h₀ := l₀.toNat_lt
  have hbyte : ∀ (l : UInt8) (n : Nat), n % 256 = l.toNat →
      UInt8.ofNat n = l := by
    intro l n hn
    rw [← UInt8.toNat_inj, UInt8.toNat_ofNat']
    exact hn
  simp only [u16Bytes, u8Bytes, List.cons_append, List.nil_append, frameLength]
  rw [hbyte l₃, hbyte l₂, hbyte l₁, hbyte l₀]
  all_goals omega

theorem frame_of_nextFrame {stream payload rest : List UInt8}
    (h : nextFrame stream = .frame payload rest) :
    ∃ frame : Frame, frame.WellFormed ∧ frame.payload = payload ∧
      stream = frame.bytes ++ rest := by
  unfold nextFrame at h
  split at h
  · rename_i kind a b c l₃ l₂ l₁ l₀ tail
    split at h
    · cases h
    · rename_i hvalid
      split at h
      · cases h
      · rename_i hwhole
        obtain ⟨rfl, rfl⟩ := Framed.frame.inj h
        simp only [not_or, not_not, Nat.not_lt] at hvalid hwhole
        obtain ⟨hsize, hkind, rfl, rfl, rfl⟩ := hvalid
        have hpayload : (tail.take (frameLength l₃ l₂ l₁ l₀)).length =
            frameLength l₃ l₂ l₁ l₀ := by
          rw [List.length_take]
          omega
        refine ⟨⟨kind, tail.take (frameLength l₃ l₂ l₁ l₀)⟩, ⟨?_, ?_⟩, rfl, ?_⟩
        · by_cases hone : kind = 1
          · exact .inl hone
          · exact .inr (not_not.1 fun htwo => hkind ⟨hone, htwo⟩)
        · simp only [hpayload, hsize]
        · simp only [Frame.bytes, hpayload, List.cons_append, List.append_assoc,
            List.take_append_drop]
          rw [← List.append_assoc, frameLength_bytes]
          rfl
  · cases h

theorem nextFrame_append_invalid {stream : List UInt8}
    (h : nextFrame stream = .invalid) (more : List UInt8) :
    nextFrame (stream ++ more) = .invalid := by
  unfold nextFrame at h
  split at h
  · split at h
    · rename_i hinvalid
      simp only [List.cons_append, nextFrame, if_pos hinvalid]
    · split at h <;> cases h
  · cases h

theorem nextFrame_append {stream payload rest : List UInt8}
    (h : nextFrame stream = .frame payload rest) (more : List UInt8) :
    nextFrame (stream ++ more) = .frame payload (rest ++ more) := by
  obtain ⟨frame, hframe, rfl, rfl⟩ := frame_of_nextFrame h
  rw [List.append_assoc, nextFrame_bytes hframe]

section Receive

variable {receive : List (List UInt8) → List UInt8 → Option LogError}

theorem drain_more {buffered : List UInt8} (h : nextFrame buffered = .more)
    (delivered : List (List UInt8)) :
    drain receive buffered delivered = ⟨buffered, delivered, none⟩ := by
  rw [drain]
  split <;> simp_all

theorem drain_invalid {buffered : List UInt8}
    (h : nextFrame buffered = .invalid) (delivered : List (List UInt8)) :
    drain receive buffered delivered =
      ⟨buffered, delivered, some .invalidFrame⟩ := by
  rw [drain]
  split <;> simp_all

theorem drain_frame {buffered payload rest : List UInt8}
    (h : nextFrame buffered = .frame payload rest)
    (delivered : List (List UInt8)) :
    drain receive buffered delivered =
      match receive delivered payload with
      | some error => ⟨buffered, delivered ++ [payload], some error⟩
      | none => drain receive rest (delivered ++ [payload]) := by
  rw [drain]
  split
  · rename_i hmore
    rw [h] at hmore
    cases hmore
  · rename_i hinvalid
    rw [h] at hinvalid
    cases hinvalid
  · rename_i hframe
    rw [h] at hframe
    obtain ⟨rfl, rfl⟩ := Framed.frame.inj hframe
    rfl

/-- A buffer that grows: the loop goes on where it stopped, unless it failed. -/
theorem drain_append (buffered more : List UInt8)
    (delivered : List (List UInt8)) :
    match (drain receive buffered delivered).failure with
    | none =>
      nextFrame (drain receive buffered delivered).buffered = .more ∧
        drain receive (buffered ++ more) delivered =
          drain receive ((drain receive buffered delivered).buffered ++ more)
            (drain receive buffered delivered).delivered
    | some error =>
      (drain receive (buffered ++ more) delivered).delivered =
          (drain receive buffered delivered).delivered ∧
        (drain receive (buffered ++ more) delivered).failure =
          some error := by
  induction hn : buffered.length using Nat.strong_induction_on
    generalizing buffered delivered with
  | _ n ih =>
  cases hframe : nextFrame buffered with
  | more =>
    rw [drain_more hframe]
    exact ⟨hframe, rfl⟩
  | invalid =>
    rw [drain_invalid hframe,
      drain_invalid (nextFrame_append_invalid hframe more)]
    exact ⟨rfl, rfl⟩
  | frame payload rest =>
    rw [drain_frame hframe, drain_frame (nextFrame_append hframe more)]
    cases hreceive : receive delivered payload with
    | some error => exact ⟨rfl, rfl⟩
    | none =>
      exact ih _ (hn ▸ nextFrame_shorter hframe) rest
        (delivered ++ [payload]) rfl

/-- What reaches the consumer: it is the last that it refuses. -/
def handed (receive : List (List UInt8) → List UInt8 → Option LogError)
    (before : List (List UInt8)) : List (List UInt8) → List (List UInt8)
  | [] => before
  | payload :: rest =>
    match receive before payload with
    | some _ => before ++ [payload]
    | none => handed receive (before ++ [payload]) rest

/-- The first answer of the consumer that ends the stream. -/
def refusal (receive : List (List UInt8) → List UInt8 → Option LogError)
    (before : List (List UInt8)) : List (List UInt8) → Option LogError
  | [] => none
  | payload :: rest =>
    match receive before payload with
    | some error => some error
    | none => refusal receive (before ++ [payload]) rest

theorem drain_frames {frames : List Frame}
    (h : ∀ frame ∈ frames, frame.WellFormed) (rest : List UInt8)
    (delivered : List (List UInt8)) :
    match refusal receive delivered (frames.map Frame.payload) with
    | some error =>
      (drain receive (frames.flatMap Frame.bytes ++ rest)
          delivered).delivered =
            handed receive delivered (frames.map Frame.payload) ∧
        (drain receive (frames.flatMap Frame.bytes ++ rest)
          delivered).failure = some error
    | none =>
      drain receive (frames.flatMap Frame.bytes ++ rest) delivered =
        drain receive rest
          (handed receive delivered (frames.map Frame.payload)) := by
  induction frames generalizing delivered with
  | nil => rfl
  | cons frame frames ih =>
    obtain ⟨hframe, hframes⟩ := List.forall_mem_cons.1 h
    have hnext : nextFrame ((frame :: frames).flatMap Frame.bytes ++ rest) =
        .frame frame.payload (frames.flatMap Frame.bytes ++ rest) := by
      rw [List.flatMap_cons, List.append_assoc]
      exact nextFrame_bytes hframe _
    rw [drain_frame hnext, List.map_cons, refusal, handed]
    cases hreceive : receive delivered frame.payload with
    | some error => exact ⟨rfl, rfl⟩
    | none => exact ih hframes (delivered ++ [frame.payload])

/-- Behind the complete frames of a stream there is none to be read. -/
theorem nextFrame_rest {rest : List UInt8}
    (h : ∀ frame : Frame, frame.WellFormed → ¬frame.bytes <+: rest) :
    nextFrame rest = .more ∨ nextFrame rest = .invalid := by
  cases hnext : nextFrame rest with
  | more => exact .inl rfl
  | invalid => exact .inr rfl
  | frame payload tail =>
    obtain ⟨frame, hframe, -, rfl⟩ := frame_of_nextFrame hnext
    exact absurd (List.prefix_append _ _) (h frame hframe)

theorem completeFrames_exist (stream : List UInt8) :
    ∃ frames, CompleteFrames stream frames := by
  induction hn : stream.length using Nat.strong_induction_on
    generalizing stream with
  | _ n ih =>
  by_cases hnone : ∀ frame : Frame, frame.WellFormed → ¬frame.bytes <+: stream
  · exact ⟨[], stream, rfl, fun _ hnil => absurd hnil List.not_mem_nil, hnone⟩
  · simp only [not_forall, not_not] at hnone
    obtain ⟨frame, hframe, tail, rfl⟩ := hnone
    have hlength : 0 < frame.bytes.length := by
      simp only [Frame.bytes, List.length_cons]
      omega
    rw [List.length_append] at hn
    obtain ⟨frames, rest, rfl, hframes, hrest⟩ := ih _ (by omega) tail rfl
    exact ⟨frame :: frames, rest, by rw [List.flatMap_cons, List.append_assoc],
      List.forall_mem_cons.2 ⟨hframe, hframes⟩, hrest⟩

/-- The chunks before the one that passes the limit. -/
def acceptedChunks : Nat → List (List UInt8) → List (List UInt8)
  | _, [] => []
  | space, chunk :: rest =>
    if space < chunk.length then []
    else chunk :: acceptedChunks (space - chunk.length) rest

theorem acceptedChunks_all {space : Nat} {chunks : List (List UInt8)}
    (h : chunks.flatten.length ≤ space) : acceptedChunks space chunks = chunks := by
  induction chunks generalizing space with
  | nil => rfl
  | cons chunk rest ih =>
    rw [List.flatten_cons, List.length_append] at h
    rw [acceptedChunks, if_neg (by omega), ih (by omega)]

/-- Nothing happens to a session that has settled. -/
theorem after_settled {s : Session} {outcome : Except LogError Unit}
    (h : s.settled = some outcome) (events : List Event) :
    (streamProjectLogs receive).after s events = s := by
  induction events with
  | nil => rfl
  | cons event rest ih =>
    have hstep : ((streamProjectLogs receive).step s event).1 = s := by
      cases event with
      | data chunk => simp only [streamProjectLogs, data, h]
      | ended => simp only [streamProjectLogs, ended, h]
      | failed error =>
        simp only [streamProjectLogs, fail, h, Option.orElse_some]
        rw [← h]
    rw [Machine.after_cons, hstep, ih]

/-- What a running session comes to over some chunks. -/
structure Arrived (receive : List (List UInt8) → List UInt8 → Option LogError)
    (s : Session) (chunks : List (List UInt8)) (t : Session) : Prop where
  delivered : t.delivered = (drain receive (s.buffered ++
    (acceptedChunks (maximumTotalBytes - s.total) chunks).flatten)
      s.delivered).delivered
  within : s.total + chunks.flatten.length ≤ maximumTotalBytes →
    t.settled = (drain receive (s.buffered ++ chunks.flatten)
        s.delivered).failure.map .error ∧
      ((drain receive (s.buffered ++ chunks.flatten)
          s.delivered).failure = none →
        t.buffered = (drain receive (s.buffered ++ chunks.flatten)
          s.delivered).buffered)
  beyond : maximumTotalBytes < s.total + chunks.flatten.length →
    ∃ error, t.settled = some (.error error)

theorem after_chunks (chunks : List (List UInt8)) {s : Session}
    (hrunning : s.settled = none) (hmore : nextFrame s.buffered = .more)
    (htotal : s.total ≤ maximumTotalBytes) :
    Arrived receive s chunks
      ((streamProjectLogs receive).after s (chunks.map Event.data)) := by
  induction chunks generalizing s with
  | nil =>
    have hdrain := @drain_more receive _ hmore s.delivered
    simp only [List.map_nil, Machine.after_nil]
    refine ⟨?_, fun _ => ⟨?_, fun _ => ?_⟩, fun hlong => ?_⟩
    · simp [acceptedChunks, hdrain]
    · simp [hdrain, hrunning]
    · simp [hdrain]
    · simp only [List.flatten_nil, List.length_nil] at hlong
      omega
  | cons chunk rest ih =>
    rw [List.map_cons, Machine.after_cons]
    generalize ht : ((streamProjectLogs receive).step s (.data chunk)).1 = t
    simp only [streamProjectLogs, data, hrunning] at ht
    by_cases hlong : maximumTotalBytes < s.total + chunk.length
    · rw [if_pos hlong] at ht
      have hsettled : t.settled = some (.error .outputLimit) := by
        rw [← ht]
        simp [fail]
      have hsame : t.delivered = s.delivered := by
        rw [← ht]
        rfl
      have hdrain := @drain_more receive _ hmore s.delivered
      rw [after_settled hsettled]
      refine ⟨?_, fun hfits => ?_, fun _ => ⟨_, hsettled⟩⟩
      · rw [acceptedChunks, if_pos (by omega), List.flatten_nil,
          List.append_nil, hdrain, hsame]
      · rw [List.flatten_cons, List.length_append] at hfits
        omega
    · rw [if_neg hlong] at ht
      have happend := fun more =>
        @drain_append receive (s.buffered ++ chunk) more
          s.delivered
      have hassoc : s.buffered ++ (chunk ++ rest.flatten) =
          s.buffered ++ chunk ++ rest.flatten := by
        rw [List.append_assoc]
      cases hfailure : (drain receive (s.buffered ++ chunk)
          s.delivered).failure with
      | some error =>
        have hsettled : t.settled = some (.error error) := by
          rw [← ht, hfailure]
          rfl
        simp only [hfailure] at happend
        rw [after_settled hsettled]
        refine ⟨?_, fun hfits => ?_, fun _ => ⟨_, hsettled⟩⟩
        · rw [acceptedChunks, if_neg (by omega), List.flatten_cons,
            ← List.append_assoc, (happend _).1, ← ht]
        · rw [List.flatten_cons, hassoc, (happend _).2]
          exact ⟨hsettled, fun hnone => by cases hnone⟩
      | none =>
        simp only [hfailure] at happend
        have hnext := ih (s := t) (by rw [← ht, hfailure]; rfl)
          (by rw [← ht]; exact (happend []).1) (by rw [← ht]; simp; omega)
        have hbuffered : t.buffered =
            (drain receive (s.buffered ++ chunk) s.delivered).buffered := by
          rw [← ht]
        have hdelivered : t.delivered =
            (drain receive (s.buffered ++ chunk) s.delivered).delivered := by
          rw [← ht]
        have hcount : t.total = s.total + chunk.length := by rw [← ht]
        obtain ⟨hshown, hwithin, hbeyond⟩ := hnext
        rw [hbuffered, hdelivered, hcount] at hshown hwithin
        rw [hcount] at hbeyond
        refine ⟨?_, fun hfits => ?_, fun hmost => ?_⟩
        · rw [hshown, acceptedChunks, if_neg (by omega), List.flatten_cons,
            ← List.append_assoc, (happend _).2, Nat.sub_sub]
        · rw [List.flatten_cons, List.length_append] at hfits
          rw [List.flatten_cons, hassoc, (happend _).2]
          exact hwithin (by omega)
        · rw [List.flatten_cons, List.length_append] at hmost
          exact hbeyond (by omega)

/-- The loop delivers what the complete frames carry, up to a refusal. -/
theorem drain_delivered {stream : List UInt8} {frames : List Frame}
    (h : CompleteFrames stream frames) (before : List (List UInt8)) :
    (drain receive stream before).delivered =
      handed receive before (frames.map Frame.payload) := by
  obtain ⟨rest, rfl, hframes, hrest⟩ := h
  have hdrain := @drain_frames receive _ hframes rest before
  cases hrefusal : refusal receive before (frames.map Frame.payload) with
  | some error =>
    simp only [hrefusal] at hdrain
    exact hdrain.1
  | none =>
    simp only [hrefusal] at hdrain
    rw [hdrain]
    rcases nextFrame_rest hrest with hmore | hinvalid
    · rw [drain_more hmore]
    · rw [drain_invalid hinvalid]

/-- It ends without a failure and with nothing left exactly when the stream
consists of frames that the consumer takes. -/
theorem drain_clean (stream : List UInt8) (before : List (List UInt8)) :
    ((drain receive stream before).failure = none ∧
        (drain receive stream before).buffered = []) ↔
      ∃ frames, Consists stream frames ∧
        refusal receive before (frames.map Frame.payload) = none := by
  constructor
  · rintro ⟨hfailure, hbuffered⟩
    obtain ⟨frames, rest, rfl, hframes, hrest⟩ := completeFrames_exist stream
    have hdrain := @drain_frames receive _ hframes rest before
    cases hrefusal : refusal receive before (frames.map Frame.payload) with
    | some error =>
      simp only [hrefusal] at hdrain
      rw [hdrain.2] at hfailure
      cases hfailure
    | none =>
      simp only [hrefusal] at hdrain
      rw [hdrain] at hfailure hbuffered
      rcases nextFrame_rest hrest with hmore | hinvalid
      · rw [drain_more hmore] at hbuffered
        simp only at hbuffered
        exact ⟨frames, ⟨by rw [hbuffered, List.append_nil], hframes⟩, hrefusal⟩
      · rw [drain_invalid hinvalid] at hfailure
        cases hfailure
  · rintro ⟨frames, ⟨rfl, hframes⟩, hrefusal⟩
    have hdrain := @drain_frames receive _ hframes [] before
    simp only [hrefusal, List.append_nil] at hdrain
    rw [hdrain, drain_more rfl]
    exact ⟨rfl, rfl⟩

end Receive

section Streamed

variable (receive : List (List UInt8) → List UInt8 → Option LogError)
  (chunks : List (List UInt8))

theorem streamed_eq : streamed receive chunks =
    ended ((streamProjectLogs receive).after .initial
      (chunks.map Event.data)) := by
  rw [streamed, Machine.after_append]
  rfl

theorem ended_delivered (s : Session) : (ended s).delivered = s.delivered := by
  unfold ended
  split
  · rfl
  · split <;> rfl

theorem ended_settled {s : Session} {error : LogError}
    (h : s.settled = some (.error error)) : ended s = s := by
  simp only [ended, h]

theorem ended_running {s : Session} (h : s.settled = none) :
    (ended s).settled =
      if s.buffered = [] then some (.ok ())
      else some (.error .outputIncomplete) := by
  by_cases hbuffered : s.buffered = []
  · simp [ended, h, hbuffered]
  · simp [ended, h, hbuffered, fail]

/-- The outcome of a stream within the limit, whatever its chunks. -/
theorem streamed_within (hwithin : chunks.flatten.length ≤ maximumTotalBytes) :
    (streamed receive chunks).settled =
      match drain receive chunks.flatten [] with
      | ⟨_, _, some error⟩ => some (.error error)
      | ⟨[], _, none⟩ => some (.ok ())
      | ⟨_ :: _, _, none⟩ => some (.error .outputIncomplete) := by
  have harrived := (@after_chunks receive chunks .initial rfl rfl
    (Nat.zero_le _)).within (by simpa [Session.initial] using hwithin)
  obtain ⟨hsettled, hbuffered⟩ := harrived
  rw [show Session.initial.buffered = [] from rfl, List.nil_append] at *
  rw [show Session.initial.delivered = [] from rfl] at *
  rw [streamed_eq]
  generalize (streamProjectLogs receive).after .initial
    (chunks.map Event.data) = s at *
  generalize drain receive chunks.flatten [] = drained at *
  obtain ⟨left, delivered, failure⟩ := drained
  cases failure with
  | some error =>
    rw [ended_settled hsettled]
    exact hsettled
  | none =>
    have hleft := hbuffered rfl
    simp only at hleft
    rw [ended_running hsettled, hleft]
    cases left with
    | nil | cons byte rest => rfl

/-- The payloads of the complete frames among the accepted chunks are delivered
in order, up to a refusal by the consumer; the stream succeeds exactly when it
is within the limit and consists of frames that are taken, and is rejected
otherwise; and within the limit nothing depends on the chunks. -/
theorem stream_delivers_frames :
    (∀ frames, CompleteFrames
        (acceptedChunks maximumTotalBytes chunks).flatten frames →
      (streamed receive chunks).delivered =
        handed receive [] (frames.map Frame.payload)) ∧
    ((streamed receive chunks).settled = some (.ok ()) ↔
      chunks.flatten.length ≤ maximumTotalBytes ∧
        ∃ frames, Consists chunks.flatten frames ∧
          refusal receive [] (frames.map Frame.payload) = none) ∧
    ((streamed receive chunks).settled ≠ some (.ok ()) →
      ∃ error, (streamed receive chunks).settled = some (.error error)) ∧
    (chunks.flatten.length ≤ maximumTotalBytes →
      (acceptedChunks maximumTotalBytes chunks).flatten = chunks.flatten ∧
      ∀ others : List (List UInt8), others.flatten = chunks.flatten →
        (streamed receive others).delivered =
            (streamed receive chunks).delivered ∧
          (streamed receive others).settled =
            (streamed receive chunks).settled) := by
  have hdelivered : ∀ chunks, (streamed receive chunks).delivered =
      (drain receive (acceptedChunks maximumTotalBytes chunks).flatten
        []).delivered := by
    intro chunks
    have harrived := (@after_chunks receive chunks .initial rfl rfl
      (Nat.zero_le _)).delivered
    rw [streamed_eq, ended_delivered, harrived]
    rfl
  have hbeyond : maximumTotalBytes < chunks.flatten.length →
      ∃ error, (streamed receive chunks).settled = some (.error error) := by
    intro hlong
    obtain ⟨error, herror⟩ := (@after_chunks receive chunks .initial rfl rfl
      (Nat.zero_le _)).beyond (by simpa [Session.initial] using hlong)
    exact ⟨error, by rw [streamed_eq, ended_settled herror, herror]⟩
  refine ⟨fun frames hframes => ?_, ?_, ?_, fun hwithin => ⟨?_, ?_⟩⟩
  · rw [hdelivered, drain_delivered hframes]
  · rw [← drain_clean]
    by_cases hlong : maximumTotalBytes < chunks.flatten.length
    · obtain ⟨error, herror⟩ := hbeyond hlong
      rw [herror]
      constructor
      · nofun
      · intro hwithin
        omega
    · rw [streamed_within receive chunks (Nat.not_lt.1 hlong),
        and_iff_right (Nat.not_lt.1 hlong)]
      obtain ⟨left, delivered, failure⟩ := drain receive chunks.flatten []
      cases failure with
      | some error => simp
      | none => cases left <;> simp
  · intro hnot
    by_cases hlong : maximumTotalBytes < chunks.flatten.length
    · exact hbeyond hlong
    · rw [streamed_within receive chunks (Nat.not_lt.1 hlong)] at hnot ⊢
      generalize drain receive chunks.flatten [] = drained at *
      obtain ⟨left, delivered, failure⟩ := drained
      cases failure with
      | some error => exact ⟨error, rfl⟩
      | none =>
        cases left with
        | nil => exact (hnot rfl).elim
        | cons byte rest => exact ⟨.outputIncomplete, rfl⟩
  · rw [acceptedChunks_all hwithin]
  · intro others hsame
    have hothers : others.flatten.length ≤ maximumTotalBytes := by
      rw [hsame]
      exact hwithin
    rw [hdelivered, hdelivered, acceptedChunks_all hwithin,
      acceptedChunks_all hothers, streamed_within receive chunks hwithin,
      streamed_within receive others hothers, hsame]
    exact ⟨rfl, rfl⟩

end Streamed

namespace ProjectLogsWitness

def takeAll (_ : List (List UInt8)) (_ : List UInt8) : Option LogError := none

def frame : Frame := ⟨1, [7]⟩

/-- A frame in front of more than the limit. -/
def longStream : List UInt8 := frame.bytes ++ List.replicate 500000 0

theorem longStream_frames : CompleteFrames longStream [frame] := by
  refine ⟨List.replicate 500000 0, ?_, ?_, ?_⟩
  · rw [longStream, List.flatMap_singleton]
  · simp only [List.mem_singleton, forall_eq]
    exact ⟨.inl rfl, by decide⟩
  · intro other hother hbegins
    have hzero : other.kind = 0 :=
      List.eq_of_mem_replicate (hbegins.subset List.mem_cons_self)
    rcases hother.kind with hone | htwo
    · rw [hone] at hzero
      cases hzero
    · rw [htwo] at hzero
      cases hzero

/-- Cut into its frame and the rest, the stream delivers the frame; in one
chunk it delivers nothing. -/
theorem long_chunk_delivers_nothing :
    ¬∀ (receive : List (List UInt8) → List UInt8 → Option LogError)
      (chunks : List (List UInt8)) (frames : List Frame),
      (∀ before payload, receive before payload = none) →
        CompleteFrames chunks.flatten frames →
          (streamed receive chunks).delivered =
            frames.map Frame.payload := by
  intro h
  have hframe := h takeAll [longStream] [frame] (fun _ _ => rfl)
    (by rw [List.flatten_singleton]; exact longStream_frames)
  have hlength : maximumTotalBytes < longStream.length := by
    rw [longStream, List.length_append, List.length_replicate]
    decide
  have harrived := (@after_chunks takeAll [longStream] .initial rfl rfl
    (Nat.zero_le _)).delivered
  rw [acceptedChunks, if_pos (by simpa [Session.initial] using hlength),
    drain_more rfl] at harrived
  rw [streamed_eq, ended_delivered, harrived] at hframe
  cases hframe

end ProjectLogsWitness

end Allrice.ProjectLogs
