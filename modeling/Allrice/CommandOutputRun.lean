/-
What the output filter makes of a whole stream.  At the end of every push its
state is a function of the text so far, as long as no line was dropped that is
hidden for another reason.  That exception is where the cut of the stream shows.
-/
import Allrice.CommandOutput

namespace Allrice

open TextLines Redaction Utf8Stream

/-- Whether a line is hidden as part of a private key. -/
def hides (inKey : Bool) (text : JsString) : Bool :=
  inKey || beginsKey.test text

/-- Whether the private key goes on after a line. -/
def keyAfter (inKey : Bool) (text : JsString) : Bool :=
  hides inKey text && !endsKey.test text

def shownLine (inKey : Bool) (text : JsString) : JsString :=
  if hides inKey text then omittedKey
  else if 4096 < text.length then omittedLine
  else redact text

/-- Whether a line is left out for its length. -/
def tooLong (inKey : Bool) (text : JsString) : Bool :=
  !hides inKey text && decide (4096 < text.length)

/-- What was read of a stream: whether a private key goes on, whether text was
left out for its length, and the text that left. -/
structure Shown where
  inKey : Bool
  truncated : Bool
  text : JsString

namespace Shown

def add (shown : Shown) (line : JsString) : Shown :=
  ⟨keyAfter shown.inKey line,
    shown.truncated || tooLong shown.inKey line,
    shown.text ++ shownLine shown.inKey line⟩

/-- A line that is dropped before it is complete. -/
def cut (shown : Shown) : Shown :=
  { shown with truncated := true, text := shown.text ++ omittedLine }

def ofLines (lines : List JsString) : Shown :=
  lines.foldl add ⟨false, false, []⟩

/-- What has left once a text was pushed. -/
def ofText (text : JsString) : Shown :=
  let shown := ofLines (linesOf newline text)
  if 4096 < (restOf newline text).length then shown.cut else shown

/-- What has left once a text has ended. -/
def ofWhole (text : JsString) : Shown :=
  let shown := ofLines (linesOf newline text)
  let rest := restOf newline text
  if 4096 < rest.length then shown.cut
  else if rest = [] then shown
  else shown.add rest

theorem ofLines_append (lines more : List JsString) :
    ofLines (lines ++ more) = more.foldl add (ofLines lines) := by
  rw [ofLines, List.foldl_append]
  rfl

theorem foldl_inKey (lines : List JsString) (shown : Shown) :
    (lines.foldl add shown).inKey = lines.foldl keyAfter shown.inKey := by
  induction lines generalizing shown with
  | nil => rfl
  | cons line lines ih =>
    rw [List.foldl_cons, List.foldl_cons, ih]
    rfl

/-- Text that has left does not come back. -/
theorem foldl_text (lines : List JsString) (shown : Shown) :
    ∃ more, (lines.foldl add shown).text = shown.text ++ more := by
  induction lines generalizing shown with
  | nil => exact ⟨[], by simp⟩
  | cons line lines ih =>
    obtain ⟨more, hmore⟩ := ih (shown.add line)
    refine ⟨shownLine shown.inKey line ++ more, ?_⟩
    rw [List.foldl_cons, hmore, ← List.append_assoc]
    rfl

/-- A long line that is not hidden counts the same, dropped or complete. -/
theorem add_of_long {shown : Shown} {line : JsString}
    (hlong : 4096 < line.length) (hhides : hides shown.inKey line = false) :
    shown.add line = shown.cut := by
  have hkey : shown.inKey = false := by
    rw [hides, Bool.or_eq_false_iff] at hhides
    exact hhides.1
  unfold add cut keyAfter tooLong shownLine
  rw [hhides, hkey]
  simp [hlong]

end Shown

namespace LocalCommandOutputFilter

/-- What a filter and the text that left it amount to. -/
def view (state : LocalCommandOutputFilter × JsString) : Shown :=
  ⟨state.1.privateKey, state.1.truncated, state.2⟩

theorem line_eq (filter : LocalCommandOutputFilter) (text : JsString) :
    filter.line text =
      ({ filter with
          privateKey := keyAfter filter.privateKey text
          truncated := filter.truncated ||
            tooLong filter.privateKey text },
        shownLine filter.privateKey text) := by
  obtain ⟨decoder, pending, dropping, inKey, truncated⟩ := filter
  unfold line keyAfter tooLong shownLine hides
  cases hbegins : beginsKey.test text with
  | true =>
    cases hends : endsKey.test text with
    | true | false => simp
  | false =>
    cases inKey with
    | true =>
      cases hends : endsKey.test text with
      | true | false => simp
    | false =>
      by_cases hlong : 4096 < text.length
      · simp [hlong]
      · simp [hlong]

variable {filter : LocalCommandOutputFilter} {result text : JsString}

theorem takeLine_view (h : filter.dropping = false) :
    takeLine (filter, result) text =
      ({ filter with
          privateKey := ((view (filter, result)).add text).inKey
          truncated := ((view (filter, result)).add text).truncated },
        ((view (filter, result)).add text).text) := by
  obtain ⟨decoder, pending, dropping, inKey, truncated⟩ := filter
  subst h
  simp [takeLine, line_eq, view, Shown.add]

/-- The lines of a push, when none is being dropped. -/
theorem foldl_takeLine (lines : List JsString) (h : filter.dropping = false) :
    lines.foldl takeLine (filter, result) =
      ({ filter with
          privateKey := (lines.foldl Shown.add (view (filter, result))).inKey
          truncated :=
            (lines.foldl Shown.add (view (filter, result))).truncated },
        (lines.foldl Shown.add (view (filter, result))).text) := by
  induction lines generalizing filter result with
  | nil => rfl
  | cons line lines ih =>
    rw [List.foldl_cons, takeLine_view h]
    rw [ih (by simpa using h)]
    rfl

theorem foldl_takeLine_after (lines : List JsString)
    (filter : LocalCommandOutputFilter) (earlier result : JsString) :
    lines.foldl takeLine (filter, earlier ++ result) =
      ((lines.foldl takeLine (filter, result)).1,
        earlier ++ (lines.foldl takeLine (filter, result)).2) := by
  induction lines generalizing filter result with
  | nil => rfl
  | cons line lines ih =>
    have htake : takeLine (filter, earlier ++ result) line =
        ((takeLine (filter, result) line).1,
          earlier ++ (takeLine (filter, result) line).2) := by
      unfold takeLine
      cases hdropping : filter.dropping with
      | true | false => simp [hdropping]
    rw [List.foldl_cons, List.foldl_cons, htake, ih]

theorem process_after (filter : LocalCommandOutputFilter)
    (earlier result : JsString) :
    process (filter, earlier ++ result) =
      ((process (filter, result)).1,
        earlier ++ (process (filter, result)).2) := by
  unfold process bound
  simp only [foldl_takeLine_after]
  split
  · split
    · rfl
    · simp
  · rfl

theorem flush_after (filter : LocalCommandOutputFilter)
    (earlier result : JsString) :
    flush (filter, earlier ++ result) =
      ((flush (filter, result)).1, earlier ++ (flush (filter, result)).2) := by
  unfold flush
  simp only
  split
  · rfl
  · split
    · simp
    · simp

/-- A push, after the text that has left. -/
theorem push_after (filter : LocalCommandOutputFilter) (bytes : List UInt8)
    (earlier : JsString) :
    ((filter.push bytes false).1, earlier ++ (filter.push bytes false).2) =
      process (filter.receive bytes false, earlier) := by
  have hafter := process_after (filter.receive bytes false) earlier []
  rw [List.append_nil] at hafter
  rw [hafter]
  rfl

theorem push_end_after (filter : LocalCommandOutputFilter)
    (bytes : List UInt8) (earlier : JsString) :
    ((filter.push bytes true).1, earlier ++ (filter.push bytes true).2) =
      flush (process (filter.receive bytes true, earlier)) := by
  have hafter := process_after (filter.receive bytes true) earlier []
  rw [List.append_nil] at hafter
  rw [hafter, flush_after]
  rfl

/-- What a filter and the text that left it are once a text was pushed. -/
structure Tracks (text : JsString)
    (state : LocalCommandOutputFilter × JsString) : Prop where
  dropping : state.1.dropping =
    decide (4096 < (restOf newline text).length)
  pending : state.1.dropping = false →
    state.1.pending = restOf newline text
  noLine : newline ∉ state.1.pending
  shown : view state = Shown.ofText text

theorem tracks_fresh : Tracks [] (fresh, []) where
  dropping := rfl
  pending := fun _ => rfl
  noLine := List.not_mem_nil
  shown := rfl

/-- The bound on what is left, after lines that were read in order. -/
theorem bound_tracks (hdropping : filter.dropping = false)
    (hpending : filter.pending = restOf newline text)
    (hview : view (filter, result) = Shown.ofLines (linesOf newline text)) :
    Tracks text (bound (filter, result)) := by
  have hnot := sep_not_mem_restOf newline text
  unfold bound
  simp only [hpending, hdropping]
  by_cases hlong : 4096 < (restOf newline text).length
  · rw [if_pos hlong]
    apply Tracks.mk
    · simp [hlong]
    · nofun
    · exact List.not_mem_nil
    · unfold Shown.ofText
      rw [if_pos hlong, ← hview]
      rfl
  · rw [if_neg hlong]
    apply Tracks.mk
    · rw [hdropping]
      simp [hlong]
    · intro _
      exact hpending
    · rw [hpending]
      exact hnot
    · unfold Shown.ofText
      rw [if_neg hlong, hview]

/-- The line that a push completes, if it was dropped, is not hidden. -/
def NotCut (text more : JsString) : Prop :=
  4096 < (restOf newline text).length →
    ∀ line ∈ (linesOf newline (restOf newline text ++ more)).head?,
      hides (Shown.ofLines (linesOf newline text)).inKey line = false

/-- One push. -/
theorem process_tracks {more : JsString} (h : Tracks text (filter, result))
    (hcut : NotCut text more) (decoder : List UInt8) :
    Tracks (text ++ more)
      (process ({ filter with
        decoder := decoder, pending := filter.pending ++ more }, result)) := by
  have hshown := h.shown
  have hlines := linesOf_append newline text more
  have hrest := restOf_append newline text more
  unfold process
  simp only
  cases hdropping : filter.dropping with
  | false =>
    have hpending : filter.pending = restOf newline text :=
      h.pending hdropping
    have hshort : ¬4096 < (restOf newline text).length := by
      have hflag := h.dropping
      rw [hdropping] at hflag
      simpa using hflag.symm
    unfold Shown.ofText at hshown
    rw [if_neg hshort] at hshown
    rw [foldl_takeLine _ rfl]
    apply bound_tracks
    · rfl
    · rw [hrest, ← hpending]
    · rw [hlines, Shown.ofLines_append, ← hshown, hpending]
      rfl
  | true =>
    have hlong : 4096 < (restOf newline text).length := by
      have hflag := h.dropping
      rw [hdropping] at hflag
      simpa using hflag.symm
    unfold Shown.ofText at hshown
    rw [if_pos hlong] at hshown
    have hnot := sep_not_mem_restOf newline text
    cases hmore : linesOf newline more with
    | nil =>
      have hmem := not_mem_of_linesOf_nil hmore
      have hpending : newline ∉ filter.pending ++ more := by
        simp only [List.mem_append, not_or]
        exact ⟨h.noLine, hmem⟩
      have htext : newline ∉ restOf newline text ++ more := by
        simp only [List.mem_append, not_or]
        exact ⟨hnot, hmem⟩
      obtain ⟨hone, htwo⟩ := splitLines_of_not_mem hpending
      obtain ⟨hfirst, hsecond⟩ := splitLines_of_not_mem htext
      have hlonger : 4096 < (restOf newline text ++ more).length := by
        rw [List.length_append]
        omega
      have hkept : Shown.ofText (text ++ more) =
          (Shown.ofLines (linesOf newline text)).cut := by
        unfold Shown.ofText
        rw [hlines, hrest, hfirst, hsecond, if_pos hlonger,
          List.append_nil]
      simp only [hone, htwo, List.foldl_nil, bound, if_true]
      -- The notice for this line has left already.
      split
      · apply Tracks.mk
        · rw [hrest, hsecond]
          exact (decide_eq_true hlonger).symm
        · nofun
        · exact List.not_mem_nil
        · have htruncated : filter.truncated = true :=
            congrArg Shown.truncated hshown
          rw [hkept, ← hshown]
          simp [view, htruncated]
      · apply Tracks.mk
        · rw [hrest, hsecond]
          exact (decide_eq_true hlonger).symm
        · nofun
        · exact hpending
        · rw [hkept, ← hshown]
          rfl
    | cons line others =>
      obtain ⟨hone, htwo⟩ := splitLines_prefix h.noLine hmore
      obtain ⟨hfirst, hsecond⟩ := splitLines_prefix hnot hmore
      have hhides : hides (Shown.ofLines (linesOf newline text)).inKey
          (restOf newline text ++ line) = false := by
        apply hcut hlong
        rw [hfirst]
        rfl
      rw [hone, htwo, List.foldl_cons]
      simp only [takeLine, if_true]
      rw [foldl_takeLine _ rfl]
      apply bound_tracks
      · rfl
      · rw [hrest, hsecond]
      · rw [hlines, hfirst, Shown.ofLines_append, List.foldl_cons,
          Shown.add_of_long (by simp; omega) hhides, ← hshown]
        rfl

/-- The end of the output. -/
theorem flush_view {state : LocalCommandOutputFilter × JsString}
    (h : Tracks text state) : view (flush state) = Shown.ofWhole text := by
  obtain ⟨filter, result⟩ := state
  have hshown := h.shown
  unfold Shown.ofText at hshown
  unfold Shown.ofWhole
  simp only
  cases hdropping : filter.dropping with
  | true =>
    have hlong : 4096 < (restOf newline text).length := by
      have hflag := h.dropping
      rw [hdropping] at hflag
      simpa using hflag.symm
    rw [if_pos hlong] at hshown
    rw [if_pos hlong, ← hshown]
    unfold flush
    simp only
    split
    · rfl
    · simp [view]
  | false =>
    have hshort : ¬4096 < (restOf newline text).length := by
      have hflag := h.dropping
      rw [hdropping] at hflag
      simpa using hflag.symm
    have hpending : filter.pending = restOf newline text :=
      h.pending hdropping
    rw [if_neg hshort] at hshown
    rw [if_neg hshort, ← hshown, ← hpending]
    unfold flush
    simp only [hdropping]
    by_cases hempty : filter.pending = []
    · rw [if_pos hempty, if_pos hempty]
    · rw [if_neg hempty, if_neg hempty]
      simp [line_eq, view, Shown.add]

end LocalCommandOutputFilter

/-- The byte of a line end. -/
def lineEnd : UInt8 := 0x0A

/-- Whether a private key goes on after complete lines. -/
def keyOpen (before : List UInt8) : Bool :=
  (linesOf newline (decode before)).foldl keyAfter false

/-- No complete line that is hidden can exceed the bound before its end comes:
neither a line that starts a private key nor one within. -/
def HiddenLinesFit (stream : List UInt8) : Prop :=
  ∀ before line after, stream = before ++ line ++ lineEnd :: after →
    restOf lineEnd before = [] → lineEnd ∉ line →
    hides (keyOpen before) (decode line ++ [newline]) = true →
    (decode (settled line)).length ≤ 4096

variable {before bytes : List UInt8}

theorem newline_not_mem_decode (h : lineEnd ∉ bytes) :
    newline ∉ decode bytes := by
  intro hmem
  obtain ⟨byte, hbyte, heq⟩ := decode_ascii_mem hmem (by decide)
  apply h
  have hsame : lineEnd = byte := by
    apply UInt8.toNat_inj.mp
    rw [← heq]
    rfl
  rw [hsame]
  exact hbyte

theorem decode_line (before after : List UInt8) :
    decode (before ++ lineEnd :: after) =
      decode before ++ newline :: decode after :=
  decode_append_ascii (by decide) before after

/-- Nothing waits at the end of complete lines. -/
theorem tail_of_complete (h : restOf lineEnd before = []) :
    tail before = [] := by
  rcases ends_of_complete h with rfl | ⟨front, rfl⟩
  · rfl
  · exact tail_ascii (by decide) front

theorem settled_of_complete (h : restOf lineEnd before = []) :
    settled before = before := by
  have hsplit := settled_append_tail before
  rw [tail_of_complete h, List.append_nil] at hsplit
  exact hsplit

theorem decode_after_complete (h : restOf lineEnd before = [])
    (more : List UInt8) :
    decode (before ++ more) = decode before ++ decode more := by
  rcases ends_of_complete h with rfl | ⟨front, rfl⟩
  · rfl
  · rw [List.append_assoc, List.singleton_append, decode_line, decode_line,
      decode_nil, List.append_assoc]
    rfl

theorem complete_decode (h : restOf lineEnd before = []) :
    restOf newline (decode before) = [] := by
  rcases ends_of_complete h with rfl | ⟨front, rfl⟩
  · rfl
  · rw [decode_line, decode_nil, (restOf_snoc newline (decode front) newline).2,
      if_pos rfl]

theorem settled_after_complete (h : restOf lineEnd before = [])
    (more : List UInt8) :
    settled (before ++ more) = before ++ settled more ∧
      tail (before ++ more) = tail more := by
  rw [settled_split, tail_split, tail_of_complete h, settled_of_complete h]
  exact ⟨rfl, rfl⟩

/-- The text after complete lines: those lines, and the start of one. -/
theorem lines_after_complete {front : JsString} (h : restOf lineEnd before = [])
    (hfront : newline ∉ front) :
    linesOf newline (decode before ++ front) = linesOf newline (decode before) ∧
      restOf newline (decode before ++ front) = front := by
  obtain ⟨hlines, hrest⟩ := splitLines_after (complete_decode h) front
  obtain ⟨hnone, hall⟩ := splitLines_of_not_mem hfront
  rw [hlines, hrest, hnone, hall, List.append_nil]
  exact ⟨rfl, rfl⟩

theorem not_mem_settled (h : lineEnd ∉ bytes) : lineEnd ∉ settled bytes := by
  intro hmem
  exact h (List.mem_of_mem_take hmem)

theorem not_mem_tail (h : lineEnd ∉ bytes) : lineEnd ∉ tail bytes := by
  intro hmem
  exact h (List.mem_of_mem_drop hmem)

/-- Bytes that come after others, as far as their text is known: what they add
to the text, and how the stream goes on. -/
structure Arrives (seen bytes : List UInt8) (part : List UInt8) : Prop where
  starts : part <+: tail seen ++ bytes
  joined : decode (settled seen ++ part) =
    decode (settled seen) ++ decode part

theorem arrives_settled (seen bytes : List UInt8) :
    Arrives seen bytes (settled (tail seen ++ bytes)) where
  starts := List.take_prefix _ _
  joined := by rw [← settled_split, decode_settled_append]

theorem arrives_whole (seen bytes : List UInt8) :
    Arrives seen bytes (tail seen ++ bytes) where
  starts := List.prefix_rfl
  joined := by
    rw [← List.append_assoc, settled_append_tail, decode_settled_tail,
      decode_settled_append, tail_split, List.append_assoc,
      ← decode_settled_tail]

/-- The first line end among bytes that arrive is not among those that waited:
they and more bytes complete the line. -/
theorem grown_of_prefix {begun front back : List UInt8}
    (hbegun : lineEnd ∉ begun)
    (h : front ++ lineEnd :: back <+: tail begun ++ bytes) :
    ∃ grown after, front = tail begun ++ grown ∧
      begun ++ bytes = (begun ++ grown) ++ lineEnd :: after := by
  obtain ⟨rest, hrest⟩ := h
  rw [List.append_assoc] at hrest
  rcases List.append_eq_append_iff.mp hrest with
    ⟨middle, hmiddle, hbytes⟩ | ⟨grown, hgrown, hbytes⟩
  · cases middle with
    | nil =>
      rw [List.append_nil] at hmiddle
      refine ⟨[], back ++ rest, ?_, ?_⟩
      · rw [hmiddle, List.append_nil]
      · rw [List.nil_append] at hbytes
        rw [← hbytes, List.append_nil, List.cons_append]
    | cons unit middle =>
      exfalso
      rw [List.cons_append, List.cons_append] at hbytes
      apply not_mem_tail hbegun
      rw [hmiddle, (List.cons.inj hbytes).1]
      simp
  · refine ⟨grown, back ++ rest, hgrown, ?_⟩
    rw [hbytes, List.cons_append, List.append_assoc]

/-- Where hidden lines fit, none is dropped. -/
theorem HiddenLinesFit.notCut {seen later part : List UInt8}
    (hfits : HiddenLinesFit (seen ++ bytes ++ later))
    (harrives : Arrives seen bytes part) :
    LocalCommandOutputFilter.NotCut (decode (settled seen)) (decode part) := by
  obtain ⟨before, hseen, hbefore⟩ :=
    exists_complete lineEnd seen
  have hnot := sep_not_mem_restOf lineEnd seen
  generalize restOf lineEnd seen = begun at hseen hnot
  subst hseen
  obtain ⟨hsettled, htail⟩ := settled_after_complete hbefore begun
  obtain ⟨hstarts, hjoined⟩ := harrives
  rw [hsettled, List.append_assoc, decode_after_complete hbefore,
    decode_after_complete hbefore, List.append_assoc] at hjoined
  have hjoin := List.append_cancel_left hjoined
  have hstart := newline_not_mem_decode (not_mem_settled hnot)
  obtain ⟨hlines, hrest⟩ := lines_after_complete hbefore hstart
  rw [htail] at hstarts
  rw [hsettled, decode_after_complete hbefore]
  intro hlong line hline
  rw [hrest] at hlong hline
  -- The line end that completes the line is among the new bytes.
  have hend : lineEnd ∈ part := by
    by_contra hnone
    have hmem : newline ∉ decode (settled begun) ++ decode part := by
      simp only [List.mem_append, not_or]
      exact ⟨hstart, newline_not_mem_decode hnone⟩
    rw [(splitLines_of_not_mem hmem).1] at hline
    cases hline
  obtain ⟨front, back, rfl, hfront⟩ := List.eq_append_cons_of_mem hend
  obtain ⟨grown, after, rfl, hstream⟩ := grown_of_prefix hnot hstarts
  have hgrown : lineEnd ∉ begun ++ grown := by
    simp only [List.mem_append, not_or] at hfront ⊢
    exact ⟨hnot, hfront.2⟩
  rw [← hjoin, ← List.append_assoc, ← List.append_assoc, settled_append_tail,
    decode_line, (splitLines_line (newline_not_mem_decode hgrown) _).1]
    at hline
  cases hline
  rw [hlines]
  by_contra hhides
  rw [Bool.not_eq_false] at hhides
  have hkey : (Shown.ofLines (linesOf newline (decode before))).inKey =
      keyOpen before := Shown.foldl_inKey _ _
  rw [hkey] at hhides
  have hle := hfits before (begun ++ grown) (after ++ later)
    (by rw [List.append_assoc before, hstream]; simp) hbefore hgrown hhides
  rw [decode_settled_append, List.length_append] at hle
  omega

namespace LocalCommandOutputFilter

/-- What a filter is after some bytes, however they were pushed. -/
structure Follows (seen : List UInt8)
    (state : LocalCommandOutputFilter × JsString) : Prop where
  decoder : state.1.decoder = tail seen
  tracks : Tracks (decode (settled seen)) state

theorem follows_fresh : Follows [] (fresh, []) where
  decoder := rfl
  tracks := tracks_fresh

theorem process_decoder (state : LocalCommandOutputFilter × JsString) :
    (process state).1.decoder = state.1.decoder := by
  have htake : ∀ lines, ∀ before : LocalCommandOutputFilter × JsString,
      (List.foldl takeLine before lines).1.decoder = before.1.decoder := by
    intro lines
    induction lines with
    | nil =>
      intro before
      rfl
    | cons line lines ih =>
      intro before
      rw [List.foldl_cons, ih]
      simp only [takeLine]
      split
      · rfl
      · simp [line_eq]
  unfold process bound
  simp only
  split
  · rw [htake]
  · rw [htake]

theorem receive_eq (filter : LocalCommandOutputFilter) (bytes : List UInt8) :
    filter.receive bytes false =
        { filter with
          decoder := tail (filter.decoder ++ bytes)
          pending := filter.pending ++
            decode (settled (filter.decoder ++ bytes)) } ∧
      filter.receive bytes true =
        { filter with
          decoder := []
          pending := filter.pending ++ decode (filter.decoder ++ bytes) } := by
  constructor
  · rfl
  · rw [decode_settled_tail (filter.decoder ++ bytes), ← List.append_assoc]
    rfl

/-- The step lemma: one push. -/
theorem push_follows {seen later : List UInt8}
    (hfits : HiddenLinesFit (seen ++ bytes ++ later))
    {filter : LocalCommandOutputFilter} {earlier : JsString}
    (h : Follows seen (filter, earlier)) :
    Follows (seen ++ bytes) ((filter.push bytes false).1,
      earlier ++ (filter.push bytes false).2) := by
  have hdecoder : filter.decoder = tail seen := h.decoder
  rw [push_after, (receive_eq filter bytes).1, hdecoder]
  constructor
  · rw [process_decoder]
    exact (tail_split seen bytes).symm
  · rw [decode_settled_append]
    exact process_tracks h.tracks
      (hfits.notCut (arrives_settled seen bytes)) _

/-- The run lemma: all the pushes before the last. -/
theorem pushAll_follows (chunks : List (List UInt8)) {seen later : List UInt8}
    (hfits : HiddenLinesFit (seen ++ chunks.flatten ++ later))
    {state : LocalCommandOutputFilter × JsString} (h : Follows seen state) :
    Follows (seen ++ chunks.flatten) (pushAll state chunks) := by
  induction chunks generalizing seen state with
  | nil => simpa [pushAll] using h
  | cons bytes chunks ih =>
    rw [List.flatten_cons, ← List.append_assoc]
    rw [List.flatten_cons, ← List.append_assoc] at hfits
    apply ih hfits
    rw [List.append_assoc] at hfits
    exact push_follows hfits h

/-- A whole stream, where hidden lines fit. -/
theorem run_view {stream : List UInt8} (hfits : HiddenLinesFit stream)
    {chunks : List (List UInt8)} {last : List UInt8}
    (hstream : chunks.flatten ++ last = stream) :
    view (run chunks last) = Shown.ofWhole (decode stream) := by
  subst hstream
  have hpushed : Follows ([] ++ chunks.flatten)
      (pushAll (fresh, []) chunks) := pushAll_follows chunks hfits follows_fresh
  rw [List.nil_append] at hpushed
  unfold run
  generalize pushAll (fresh, []) chunks = state at hpushed
  obtain ⟨filter, earlier⟩ := state
  have hdecoder : filter.decoder = tail chunks.flatten := hpushed.decoder
  simp only
  rw [push_end_after, (receive_eq filter last).2, hdecoder]
  apply flush_view
  have harrives := arrives_whole chunks.flatten last
  have hjoined := harrives.joined
  rw [← List.append_assoc, settled_append_tail] at hjoined
  rw [hjoined]
  apply process_tracks hpushed.tracks
  apply HiddenLinesFit.notCut _ harrives
  · exact []
  · rw [List.append_nil]
    exact hfits

end LocalCommandOutputFilter

end Allrice
