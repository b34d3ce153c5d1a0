/-
What is observed of a model's event stream while its bytes pass through.  Text
comes out of a streaming decoder, lines are put together from pieces, and a line
that grows too long is only known to have been there.  None of it depends on
where the network cuts the stream.
-/
import Allrice.JsonText
import Allrice.Pattern
import Allrice.Utf8Stream

namespace Allrice.ModelTransport

open JsonText

def maximumLineUnits : Nat := 65536

def newline : UInt16 := 0x0A

/-- What `new TextDecoder()` keeps between two chunks; a byte order mark at the
very start is dropped. -/
structure Decoder where
  state : Utf8Stream.State
  started : Bool

/-- What the requests of one transport have shown so far. -/
structure Counters where
  bytes : Nat
  heartbeats : Nat
  events : Nat
  outputItemEnded : Bool
  terminalEvent : Bool
  incompleteFrames : Bool

/-- A parser and the counters it adds to. -/
structure Observer where
  decoder : Decoder
  line : JsString
  oversized : Bool
  counters : Counters

def Decoder.initial : Decoder := ⟨none, false⟩

/-- `parser(request)`. -/
def Observer.initial (counters : Counters) : Observer :=
  ⟨.initial, [], false, counters⟩

/-- Drop the byte order mark once. -/
def dropMark : Bool → JsString → Bool × JsString
  | true, units => (true, units)
  | false, [] => (false, [])
  | false, unit :: rest => (true, if unit = 0xFEFF then rest else unit :: rest)

/-- `decoder.decode(chunk, { stream: true })`. -/
def Decoder.decode (decoder : Decoder) (chunk : List UInt8) :
    Decoder × JsString :=
  let (state, units) := Utf8Stream.run decoder.state chunk
  let (started, text) := dropMark decoder.started units
  (⟨state, started⟩, text)

/-- `text.split(/(\n)/)`: the line breaks are parts of their own. -/
def splitParts : JsString → List JsString
  | [] => [[]]
  | unit :: rest =>
    if unit = newline then [] :: [newline] :: splitParts rest
    else
      match splitParts rest with
      | part :: parts => (unit :: part) :: parts
      | [] => [[unit]]

/-- `/^data:\s*\[?ping\]?\s*$/i`. -/
def pingPattern : Pattern :=
  Pattern.sequence [Pattern.literalIgnoringCase "data:",
    .many JsString.isWhitespace 0, .optional (· == openBracket),
    Pattern.literalIgnoringCase "ping", .optional (· == closeBracket),
    .many JsString.isWhitespace 0]

def isPing (line : JsString) : Bool :=
  (pingPattern.ends ⟨[], line⟩).any fun place => place.rest.isEmpty

/-- `value?.type`, where it is a string. -/
def typeOf : JsValue → Option JsString
  | .object _ members =>
    match members.find? fun member => member.1 = JsString.ofString "type" with
    | some (_, .string text) => some text
    | _ => none
  | _ => none

/-- `names.includes(value?.type)`. -/
def typeIn (names : List String) (value : JsValue) : Bool :=
  (typeOf value).any fun text => names.any (JsString.ofString · = text)

def Counters.heartbeat (counters : Counters) : Counters :=
  { counters with heartbeats := counters.heartbeats + 1 }

def Counters.event (counters : Counters) : Counters :=
  { counters with events := counters.events + 1 }

/-- An event that could be read. -/
def Counters.value (counters : Counters) (value : JsValue) : Counters :=
  if typeIn ["ping", "heartbeat", "keepalive"] value then counters.heartbeat
  else
    { counters.event with
      outputItemEnded := counters.outputItemEnded ||
        typeIn ["response.output_item.done"] value
      terminalEvent := counters.terminalEvent ||
        typeIn ["response.completed", "response.failed",
          "response.incomplete"] value }

/-- A line that is complete. -/
def Counters.line (counters : Counters) (line : JsString) (oversized : Bool) :
    Counters :=
  if oversized then { counters.event with incompleteFrames := true }
  else if line.head? = some colon || isPing line then counters.heartbeat
  else if (JsString.ofString "data:").isPrefixOf line then
    match parse (JsString.trim (line.drop 5)) with
    | some value => counters.value value
    | none => counters.event
  else counters

namespace Observer

/-- A part of a line. -/
def add (observer : Observer) (part : JsString) : Observer :=
  if observer.oversized = false ∧
      observer.line.length + part.length ≤ maximumLineUnits then
    { observer with line := observer.line ++ part }
  else { observer with line := [], oversized := true }

/-- A line break. -/
def endLine (observer : Observer) : Observer :=
  { observer with
    line := []
    oversized := false
    counters := observer.counters.line observer.line observer.oversized }

def part (observer : Observer) (part : JsString) : Observer :=
  if part = [newline] then observer.endLine else observer.add part

/-- `observe(chunk)`. -/
def observe (observer : Observer) (chunk : List UInt8) : Observer :=
  let (decoder, text) := observer.decoder.decode chunk
  (splitParts text).foldl part
    { observer with
      decoder
      counters :=
        { observer.counters with
          bytes := observer.counters.bytes + chunk.length } }

/-- The `pull`s of a body: what is read is observed and then passed on. -/
def relay : Observer → List (List UInt8) → Observer × List (List UInt8)
  | observer, [] => (observer, [])
  | observer, chunk :: rest =>
    let (last, enqueued) := (observer.observe chunk).relay rest
    (last, chunk :: enqueued)

def unit (observer : Observer) (unit : UInt16) : Observer :=
  if unit = newline then observer.endLine else observer.add [unit]

/-- The line that is kept is one that may still be read. -/
structure Bounded (observer : Observer) : Prop where
  short : observer.line.length ≤ maximumLineUnits
  dropped : observer.oversized = true → observer.line = []

theorem Bounded.initial (counters : Counters) :
    Bounded (Observer.initial counters) where
  short := Nat.zero_le _
  dropped _ := rfl

variable {observer : Observer}

theorem Bounded.add (observer : Observer) (part : JsString) :
    Bounded (observer.add part) := by
  unfold Observer.add
  split
  · rename_i hfits
    constructor
    · rw [List.length_append]
      exact hfits.2
    · intro hover
      rw [hfits.1] at hover
      cases hover
  · exact ⟨Nat.zero_le _, fun _ => rfl⟩

theorem Bounded.endLine (observer : Observer) : Bounded observer.endLine :=
  ⟨Nat.zero_le _, fun _ => rfl⟩

theorem Bounded.unit (observer : Observer) (unit : UInt16) :
    Bounded (observer.unit unit) := by
  unfold Observer.unit
  split
  · exact .endLine observer
  · exact .add observer [unit]

theorem Bounded.units (h : Bounded observer) (text : JsString) :
    Bounded (text.foldl Observer.unit observer) := by
  induction text generalizing observer with
  | nil => exact h
  | cons unit rest ih => exact ih (.unit observer unit)

theorem Bounded.add_nil (h : Bounded observer) : observer.add [] = observer := by
  unfold Observer.add
  split
  · rw [List.append_nil]
  · rename_i hfits
    have hover : observer.oversized = true := by
      by_contra hnot
      exact hfits ⟨Bool.eq_false_iff.2 hnot, h.short⟩
    have hline := h.dropped hover
    cases observer
    simp only at hover hline
    rw [hover, hline]

theorem add_fits {part : JsString} (hopen : observer.oversized = false)
    (hshort : observer.line.length + part.length ≤ maximumLineUnits) :
    observer.add part = { observer with line := observer.line ++ part } :=
  if_pos ⟨hopen, hshort⟩

theorem add_over {part : JsString}
    (h : ¬(observer.oversized = false ∧
      observer.line.length + part.length ≤ maximumLineUnits)) :
    observer.add part = { observer with line := [], oversized := true } :=
  if_neg h

/-- A part may be cut anywhere. -/
theorem add_append (observer : Observer) (first second : JsString) :
    (observer.add first).add second = observer.add (first ++ second) := by
  by_cases hfirst : observer.oversized = false ∧
      observer.line.length + first.length ≤ maximumLineUnits
  case neg =>
    have hboth : ¬(observer.oversized = false ∧
        observer.line.length + (first ++ second).length ≤
          maximumLineUnits) := by
      rintro ⟨hopen, hshort⟩
      rw [List.length_append] at hshort
      exact hfirst ⟨hopen, by omega⟩
    rw [add_over hfirst, add_over hboth]
    apply add_over
    rintro ⟨hopen, -⟩
    cases hopen
  case pos =>
    obtain ⟨hopen, hshort⟩ := hfirst
    rw [add_fits hopen hshort]
    have hlength : (observer.line ++ first).length + second.length =
        observer.line.length + (first ++ second).length := by
      rw [List.length_append, List.length_append, Nat.add_assoc]
    by_cases hboth : observer.line.length + (first ++ second).length ≤
        maximumLineUnits
    · rw [add_fits hopen hboth, ← List.append_assoc]
      exact @add_fits { observer with line := observer.line ++ first } second
        hopen (hlength.trans_le hboth)
    · rw [add_over fun hfits => hboth hfits.2]
      apply add_over
      rintro ⟨-, hfits⟩
      exact hboth (hlength.symm.trans_le hfits)

/-- The first part of a text is within a line. -/
theorem part_head (text : JsString) :
    ∃ part parts, splitParts text = part :: parts ∧ newline ∉ part := by
  induction text with
  | nil => exact ⟨[], [], rfl, List.not_mem_nil⟩
  | cons unit rest ih =>
    obtain ⟨part, parts, hparts, hwithin⟩ := ih
    by_cases hbreak : unit = newline
    · exact ⟨[], [newline] :: splitParts rest, by
        rw [splitParts, if_pos hbreak], List.not_mem_nil⟩
    · refine ⟨unit :: part, parts, by
        rw [splitParts, if_neg hbreak, hparts], ?_⟩
      intro hmem
      rcases List.mem_cons.1 hmem with hsame | hmem
      · exact hbreak hsame.symm
      · exact hwithin hmem

theorem part_within {part : JsString} (h : newline ∉ part) :
    observer.part part = observer.add part := by
  refine if_neg fun hpart => h ?_
  rw [hpart]
  exact List.mem_singleton.2 rfl

/-- A text is observed unit by unit. -/
theorem foldl_parts (h : Bounded observer) (text : JsString) :
    (splitParts text).foldl part observer = text.foldl unit observer := by
  induction text generalizing observer with
  | nil =>
    change observer.part [] = observer
    rw [part_within List.not_mem_nil, h.add_nil]
  | cons unit rest ih =>
    rw [List.foldl_cons]
    by_cases hbreak : unit = newline
    · rw [splitParts, if_pos hbreak, List.foldl_cons, List.foldl_cons,
        part_within List.not_mem_nil, h.add_nil, Observer.unit, if_pos hbreak]
      exact ih (.endLine observer)
    · obtain ⟨part, parts, hparts, hwithin⟩ := part_head rest
      have hlater := ih (.add observer [unit])
      have hlonger : newline ∉ unit :: part := by
        intro hmem
        rcases List.mem_cons.1 hmem with hsame | hmem
        · exact hbreak hsame.symm
        · exact hwithin hmem
      rw [splitParts, if_neg hbreak, hparts, Observer.unit, if_neg hbreak,
        ← hlater, hparts, List.foldl_cons, List.foldl_cons,
        part_within hlonger, part_within hwithin, add_append]
      rfl

end Observer

theorem dropMark_append (started : Bool) (first second : JsString) :
    dropMark started (first ++ second) =
      ((dropMark (dropMark started first).1 second).1,
        (dropMark started first).2 ++
          (dropMark (dropMark started first).1 second).2) := by
  cases started with
  | true => rfl
  | false =>
    cases first with
    | nil => rfl
    | cons unit rest =>
      simp only [List.cons_append, dropMark]
      split
      · rfl
      · rfl

namespace Observer

theorem decode_append (decoder : Decoder) (first second : List UInt8) :
    decoder.decode (first ++ second) =
      (((decoder.decode first).1.decode second).1,
        (decoder.decode first).2 ++ ((decoder.decode first).1.decode second).2)
    := by
  simp only [Decoder.decode]
  rw [Utf8Stream.run_append, dropMark_append]

/-- A text, and so many bytes. -/
def read (observer : Observer) (decoder : Decoder) (text : JsString)
    (bytes : Nat) : Observer :=
  text.foldl unit
    { observer with
      decoder
      counters := { observer.counters with bytes } }

theorem unit_read (observer : Observer) (decoder : Decoder) (bytes : Nat)
    (unit : UInt16) :
    Observer.unit
        { observer with
          decoder
          counters := { observer.counters with bytes } } unit =
      { observer.unit unit with
        decoder
        counters := { (observer.unit unit).counters with bytes } } := by
  unfold Observer.unit Observer.endLine Observer.add
  split
  · unfold Counters.line Counters.value Counters.event Counters.heartbeat
    simp only
    split
    · rfl
    · split
      · rfl
      · split
        · split
          · split
            · rfl
            · rfl
          · rfl
        · rfl
  · simp only
    split
    · rfl
    · rfl

theorem read_eq (observer : Observer) (decoder : Decoder) (text : JsString)
    (bytes : Nat) :
    observer.read decoder text bytes =
      { text.foldl unit observer with
        decoder
        counters := { (text.foldl unit observer).counters with bytes } } := by
  unfold read
  induction text generalizing observer with
  | nil => rfl
  | cons unit rest ih =>
    rw [List.foldl_cons, List.foldl_cons, unit_read]
    exact ih (observer.unit unit)

variable {observer : Observer}

/-- The decoder and the count of bytes are the chunk's own. -/
theorem observe_eq (h : Bounded observer) (chunk : List UInt8) :
    observer.observe chunk =
      observer.read (observer.decoder.decode chunk).1
        (observer.decoder.decode chunk).2
        (observer.counters.bytes + chunk.length) :=
  @foldl_parts
    { observer with
      decoder := (observer.decoder.decode chunk).1
      counters :=
        { observer.counters with
          bytes := observer.counters.bytes + chunk.length } }
    ⟨h.short, h.dropped⟩ (observer.decoder.decode chunk).2

theorem bounded_observe (h : Bounded observer) (chunk : List UInt8) :
    Bounded (observer.observe chunk) := by
  rw [observe_eq h, read_eq]
  have hunits := h.units (observer.decoder.decode chunk).2
  exact ⟨hunits.short, hunits.dropped⟩

/-- Two chunks are observed like the one that they make up. -/
theorem observe_append (h : Bounded observer) (first second : List UInt8) :
    (observer.observe first).observe second =
      observer.observe (first ++ second) := by
  rw [observe_eq (bounded_observe h first), observe_eq h, observe_eq h,
    read_eq, read_eq, read_eq, decode_append]
  simp only [List.foldl_append, List.length_append, Nat.add_assoc]
  have hlater := read_eq
    ((observer.decoder.decode first).2.foldl unit observer)
    (observer.decoder.decode first).1
    ((observer.decoder.decode first).1.decode second).2
    (observer.counters.bytes + first.length)
  unfold read at hlater
  rw [hlater]

theorem observe_nil (h : Bounded observer) :
    observer.observe [] = observer := by
  rw [observe_eq h]
  have hdecode : observer.decoder.decode [] = (observer.decoder, []) := by
    rcases observer.decoder with ⟨state, started⟩
    cases started with
    | true | false => rfl
  rw [hdecode]
  rfl

theorem relay_spec (h : Bounded observer) (chunks : List (List UInt8)) :
    observer.relay chunks = (observer.observe chunks.flatten, chunks) := by
  induction chunks generalizing observer with
  | nil =>
    rw [List.flatten_nil, observe_nil h]
    rfl
  | cons chunk rest ih =>
    rw [relay, ih (bounded_observe h chunk)]
    simp only [List.flatten_cons, observe_append h]

end Observer

/-- The bytes go through unchanged, and what is observed depends on them alone,
whatever was observed of earlier requests. -/
theorem model_stream_any_chunks (counters : Counters)
    (chunks : List (List UInt8)) :
    ((Observer.initial counters).relay chunks).2 = chunks ∧
      ∀ others : List (List UInt8), others.flatten = chunks.flatten →
        ((Observer.initial counters).relay others).1.counters =
          ((Observer.initial counters).relay chunks).1.counters := by
  have hbounded := Observer.Bounded.initial counters
  constructor
  · rw [Observer.relay_spec hbounded]
  · intro others hsame
    rw [Observer.relay_spec hbounded, Observer.relay_spec hbounded, hsame]

end Allrice.ModelTransport
