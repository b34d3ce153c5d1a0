/-
What a call has read of a text does not depend on its chunks: the page holds the
lines from the offset on, or it is too large.
-/
import Allrice.DocumentTextPage

namespace Allrice.DocumentPage

open TextLines Utf8Stream

/-- The lines of a page. -/
def window {α : Type} (offset : Nat) (lines : List α) : List α :=
  (lines.drop (offset - 1)).take pageLines

/-- The bytes that a page holds, line breaks among them. -/
def pageSize (offset : Nat) (text : JsString) : Nat :=
  ((window offset (linesOf newline text ++ [restOf newline text])).map
    JsString.byteLength).sum

variable {offset : Nat} {text part : JsString} {hashed : List UInt8}
  {decoder : ModelTransport.Decoder}

theorem splitLines_part (text : JsString) (h : newline ∉ part) :
    linesOf newline (text ++ part) = linesOf newline text ∧
      restOf newline (text ++ part) = restOf newline text ++ part := by
  have hpart : newline ∉ restOf newline text ++ part := by
    rw [List.mem_append, not_or]
    exact ⟨sep_not_mem_restOf newline text, h⟩
  obtain ⟨hlines, hrest⟩ := splitLines_of_not_mem hpart
  rw [linesOf_append, restOf_append, hlines, hrest, List.append_nil]
  exact ⟨rfl, rfl⟩

theorem splitLines_break (text : JsString) (h : newline ∉ part) :
    linesOf newline (text ++ (part ++ [newline])) =
        linesOf newline text ++ [restOf newline text ++ part ++ [newline]] ∧
      restOf newline (text ++ (part ++ [newline])) = [] := by
  obtain ⟨hlines, hrest⟩ := splitLines_part text h
  have hpart : newline ∉ restOf newline text ++ part := by
    rw [← hrest]
    exact sep_not_mem_restOf newline (text ++ part)
  obtain ⟨hline, hnone⟩ := splitLines_line hpart []
  rw [← List.append_assoc, linesOf_append, hlines, hrest, hline,
    restOf_append, hrest, hnone]
  exact ⟨rfl, rfl⟩

/-- One line more is on the page or not. -/
theorem window_snoc {α : Type} (hoffset : 0 < offset) (lines : List α)
    (last : α) :
    window offset (lines ++ [last]) = window offset lines ++
      if onPage offset (lines.length + 1) then [last] else [] := by
  unfold window onPage
  by_cases hbefore : lines.length < offset - 1
  · rw [List.drop_eq_nil_of_le (by rw [List.length_append]; exact hbefore),
      List.drop_eq_nil_of_le (by omega), if_neg]
    · simp
    · simp only [Bool.and_eq_true, decide_eq_true_eq]
      omega
  · rw [List.drop_append_of_le_length (by omega), List.take_append,
      List.length_drop]
    congr 1
    split
    · rename_i hon
      simp only [Bool.and_eq_true, decide_eq_true_eq] at hon
      exact List.take_of_length_le (by rw [List.length_singleton]; omega)
    · rename_i hon
      simp only [Bool.and_eq_true, decide_eq_true_eq, not_and] at hon
      rw [show pageLines - (lines.length - (offset - 1)) = 0 by omega]
      rfl

/-- A part that goes on from the text before it. -/
def Joins (text more : JsString) : Prop :=
  restOf newline text = [] ∨ BeginsWhole more

theorem beginsWhole_newline : BeginsWhole [newline] := by
  rintro unit ⟨⟩
  rfl

theorem Joins.byteLength (h : Joins text part) :
    JsString.byteLength (restOf newline text ++ part) =
      JsString.byteLength (restOf newline text) +
        JsString.byteLength part := by
  rcases h with hnone | hwhole
  · rw [hnone]
    simp [JsString.byteLength]
  · exact JsString.byteLength_append _ hwhole

theorem pageSize_eq (hoffset : 0 < offset) (text : JsString) :
    pageSize offset text =
      ((window offset (linesOf newline text)).map JsString.byteLength).sum +
        if onPage offset ((linesOf newline text).length + 1) then
          JsString.byteLength (restOf newline text)
        else 0 := by
  unfold pageSize
  rw [window_snoc hoffset, List.map_append, List.sum_append]
  congr 1
  split
  · simp
  · rfl

theorem pageSize_part (hoffset : 0 < offset) (h : newline ∉ part)
    (hjoins : Joins text part) :
    pageSize offset (text ++ part) = pageSize offset text +
      if onPage offset ((linesOf newline text).length + 1) then
        JsString.byteLength part
      else 0 := by
  obtain ⟨hlines, hrest⟩ := splitLines_part text h
  rw [pageSize_eq hoffset, pageSize_eq hoffset, hlines, hrest,
    hjoins.byteLength]
  split
  · omega
  · rfl

theorem pageSize_break (hoffset : 0 < offset) (h : newline ∉ part)
    (hjoins : Joins text part) :
    pageSize offset (text ++ (part ++ [newline])) = pageSize offset text +
      if onPage offset ((linesOf newline text).length + 1) then
        JsString.byteLength part + 1
      else 0 := by
  obtain ⟨hlines, hrest⟩ := splitLines_break text h
  have hline : JsString.byteLength
      (restOf newline text ++ part ++ [newline]) =
      JsString.byteLength (restOf newline text) +
        JsString.byteLength part + 1 := by
    rw [JsString.byteLength_append _ beginsWhole_newline, hjoins.byteLength]
    rfl
  rw [pageSize_eq hoffset, pageSize_eq hoffset, hlines, hrest,
    window_snoc hoffset, List.map_append, List.sum_append]
  simp only [JsString.byteLength, ite_self, Nat.add_zero]
  split
  · rw [List.map_singleton, List.sum_singleton, hline]
    omega
  · rfl

/-- What a page holds of a text is not taken back. -/
theorem pageSize_append (hoffset : 0 < offset) (more : JsString) :
    ∀ {text}, Joins text more →
      pageSize offset text ≤ pageSize offset (text ++ more) := by
  induction more using line_induction newline with
  | rest more hmore =>
    intro text hjoins
    rw [pageSize_part hoffset hmore hjoins]
    exact Nat.le_add_right _ _
  | line part more hpart ih =>
    intro text hjoins
    have hfirst : Joins text part := by
      apply hjoins.imp_right
      intro hwhole unit hunit
      exact hwhole unit (by rw [List.head?_append, hunit]; rfl)
    have hrest := (splitLines_break text hpart).2
    have hmore := @ih (text ++ (part ++ [newline])) (.inl hrest)
    rw [pageSize_break hoffset hpart hfirst] at hmore
    rw [List.append_assoc, List.append_assoc] at hmore
    exact Nat.le_trans (Nat.le_add_right _ _) hmore

/-- What a call has read of a text, while the page is not too large. -/
def Reading.of (offset : Nat) (decoder : ModelTransport.Decoder)
    (hashed : List UInt8) (text : JsString) : Reading :=
  { decoder := decoder
    hashed := hashed
    line := (linesOf newline text).length + 1
    pageBytes := pageSize offset text
    current :=
      if onPage offset ((linesOf newline text).length + 1) then
        restOf newline text
      else []
    trailing := !(restOf newline text).isEmpty
    lines := window offset ((linesOf newline text).map List.dropLast) }

/-- What becomes of a call that has come to this text. -/
def outcome (offset : Nat) (decoder : ModelTransport.Decoder)
    (hashed : List UInt8) (text : JsString) : Except PageError Reading :=
  if pageBytes < pageSize offset text then .error .previewPageTooLarge
  else .ok (.of offset decoder hashed text)

theorem breakPart_of (hoffset : 0 < offset) (h : newline ∉ part)
    (hjoins : Joins text part) (hfits : pageSize offset text ≤ pageBytes) :
    breakPart offset (.of offset decoder hashed text) part =
      outcome offset decoder hashed (text ++ (part ++ [newline])) := by
  obtain ⟨hlines, hrest⟩ := splitLines_break text h
  have hdrop : (restOf newline text ++ part ++ [newline]).dropLast =
      restOf newline text ++ part := List.dropLast_concat
  unfold breakPart addPart outcome Reading.of
  simp only [hlines, hrest, pageSize_break hoffset h hjoins, List.map_append,
    List.map_cons, List.map_nil, window_snoc hoffset, List.length_map, hdrop,
    List.length_append, List.length_singleton]
  by_cases hon : onPage offset ((linesOf newline text).length + 1) = true
  · simp only [hon, if_true]
    split
    · rfl
    · simp [bind, Except.bind, pure, Except.pure, hon]
  · have hkept := Nat.not_lt.mpr hfits
    simp [bind, Except.bind, pure, Except.pure, hon, hkept]

theorem lastPart_of (hoffset : 0 < offset) (h : newline ∉ part)
    (hjoins : Joins text part) (hfits : pageSize offset text ≤ pageBytes) :
    lastPart offset (.of offset decoder hashed text) part =
      outcome offset decoder hashed (text ++ part) := by
  obtain ⟨hlines, hrest⟩ := splitLines_part text h
  have htrailing : (!(restOf newline text ++ part).isEmpty) =
      (!(restOf newline text).isEmpty || !part.isEmpty) := by
    cases restOf newline text with
    | nil | cons unit rest => rfl
  unfold lastPart addPart outcome Reading.of
  simp only [hlines, hrest, pageSize_part hoffset h hjoins, htrailing,
    Nat.add_zero]
  by_cases hon : onPage offset ((linesOf newline text).length + 1) = true
  · simp only [hon, if_true]
    split
    · rfl
    · rfl
  · have hkept := Nat.not_lt.mpr hfits
    simp [bind, Except.bind, pure, Except.pure, hon, hkept]

theorem outcome_of_fits (h : pageSize offset text ≤ pageBytes) :
    outcome offset decoder hashed text =
      .ok (.of offset decoder hashed text) :=
  if_neg (by omega)

theorem outcome_of_exceeds (h : pageBytes < pageSize offset text) :
    outcome offset decoder hashed text = .error .previewPageTooLarge :=
  if_pos h

/-- Once a page is too large it stays so. -/
theorem outcome_bind (hoffset : 0 < offset) {more : JsString}
    (hjoins : Joins text more) {α : Type}
    {next : Reading → Except PageError α} {result : Except PageError α}
    (hresult : pageBytes < pageSize offset (text ++ more) →
      result = .error .previewPageTooLarge)
    (hnext : pageSize offset text ≤ pageBytes →
      next (.of offset decoder hashed text) = result) :
    outcome offset decoder hashed text >>= next = result := by
  by_cases hfits : pageSize offset text ≤ pageBytes
  · rw [outcome_of_fits hfits]
    exact hnext hfits
  · have hmore := pageSize_append hoffset more hjoins
    rw [outcome_of_exceeds (by omega), hresult (by omega)]
    rfl

/-- The parts of a text, one after the other. -/
theorem parts_of (hoffset : 0 < offset) (more : JsString) :
    ∀ {text}, Joins text more → pageSize offset text ≤ pageBytes →
      (((linesOf newline more).map List.dropLast).foldlM (breakPart offset)
          (.of offset decoder hashed text) >>= fun reading =>
        lastPart offset reading (restOf newline more)) =
      outcome offset decoder hashed (text ++ more) := by
  induction more using line_induction newline with
  | rest more hmore =>
    intro text hjoins hfits
    obtain ⟨hlines, hrest⟩ := splitLines_of_not_mem hmore
    rw [hlines, hrest]
    exact lastPart_of hoffset hmore hjoins hfits
  | line part more hpart ih =>
    intro text hjoins hfits
    have hfirst : Joins text part := by
      apply hjoins.imp_right
      intro hwhole unit hunit
      exact hwhole unit (by rw [List.head?_append, hunit]; rfl)
    have hwhole : text ++ (part ++ newline :: more) =
        text ++ (part ++ [newline]) ++ more := by simp
    have hnone : Joins (text ++ (part ++ [newline])) more :=
      .inl (splitLines_break text hpart).2
    obtain ⟨hlines, hrest⟩ := splitLines_line hpart more
    rw [hlines, hrest, List.map_cons, List.dropLast_concat,
      List.foldlM_cons, breakPart_of hoffset hpart hfirst hfits, bind_assoc,
      hwhole]
    exact outcome_bind hoffset hnone outcome_of_exceeds fun h => ih hnone h

theorem consume_of (hoffset : 0 < offset) {more : JsString}
    (hnul : 0 ∉ more) (hjoins : Joins text more)
    (hfits : pageSize offset text ≤ pageBytes) :
    consume offset (.of offset decoder hashed text) more =
      outcome offset decoder hashed (text ++ more) := by
  unfold consume
  rw [if_neg hnul]
  exact parts_of hoffset more hjoins hfits

/-- A chunk's text goes on from the text before it. -/
theorem joins_dropMark {state : State} (hclean : Clean state) {started : Bool}
    (hstarted : started = false → text = []) {chunk : List UInt8}
    {last : State} {units : JsString}
    (hrun : runStrictly state chunk = some (last, units)) :
    Joins text (ModelTransport.dropMark started units).2 := by
  cases started with
  | false =>
    rw [hstarted rfl]
    exact .inl rfl
  | true =>
    have hwhole := (run_clean chunk hclean).2
    rw [run_of_runStrictly hrun] at hwhole
    exact .inr hwhole

/-- The text of a decoder that has seen nothing is empty. -/
theorem dropMark_started {started : Bool} {units : JsString}
    (hstarted : started = false → text = [])
    (h : (ModelTransport.dropMark started units).1 = false) :
    text ++ (ModelTransport.dropMark started units).2 = [] := by
  cases started with
  | true => cases h
  | false =>
    rw [hstarted rfl]
    cases units with
    | nil => rfl
    | cons unit rest => cases h

theorem runStrictly_split {state last : State} {first rest : List UInt8}
    {units : JsString}
    (h : runStrictly state (first ++ rest) = some (last, units)) :
    ∃ middle units', runStrictly state first = some (middle, units') ∧
      ∃ more, runStrictly middle rest = some (last, more) ∧
        units = units' ++ more := by
  rw [runStrictly_append] at h
  obtain ⟨⟨middle, units'⟩, hfirst, hrest⟩ := Option.bind_eq_some_iff.mp h
  obtain ⟨⟨final, more⟩, hmore, heq⟩ := Option.map_eq_some_iff.mp hrest
  cases heq
  exact ⟨middle, units', hfirst, more, hmore, rfl⟩

/-- The chunks, wherever the stream is cut. -/
theorem readChunks_of (hoffset : 0 < offset) {object : StorageObject}
    {aborted : Nat → Bool} (hlive : ∀ n, aborted n = false)
    (chunks : List (List UInt8)) :
    ∀ {looks state started hashed text last units},
      runStrictly state chunks.flatten = some (last, units) → Clean state →
      (started = false → text = []) →
      0 ∉ (ModelTransport.dropMark started units).2 →
      hashed.length + chunks.flatten.length ≤ object.sizeBytes →
      pageSize offset text ≤ pageBytes →
      readChunks object aborted offset looks chunks
          (.of offset ⟨state, started⟩ hashed text) =
        outcome offset ⟨last, (ModelTransport.dropMark started units).1⟩
          (hashed ++ chunks.flatten)
          (text ++ (ModelTransport.dropMark started units).2) := by
  induction chunks with
  | nil =>
    intro looks state started hashed text last units hrun _ _ _ _ hfits
    cases hrun
    have hmark : ModelTransport.dropMark started [] = (started, []) := by
      cases started with
      | false | true => rfl
    rw [readChunks, hlive, hmark, List.flatten_nil, List.append_nil,
      List.append_nil, outcome_of_fits hfits]
    rfl
  | cons chunk rest ih =>
    intro looks state started hashed text last units hrun hclean hstarted
      hnul hsize hfits
    rw [List.flatten_cons] at hrun hsize ⊢
    obtain ⟨middle, first, hfirst, more, hmore, rfl⟩ :=
      runStrictly_split hrun
    have hmiddle : Clean middle := by
      have hnext := (run_clean chunk hclean).1
      rw [run_of_runStrictly hfirst] at hnext
      exact hnext
    rw [ModelTransport.dropMark_append] at hnul ⊢
    rw [List.mem_append, not_or] at hnul
    rw [List.length_append] at hsize
    have hjoins := joins_dropMark hclean hstarted hfirst
    have hstarted' := fun h => @dropMark_started _ _ first hstarted h
    have hjoins' := joins_dropMark hmiddle hstarted' hmore
    have hchunk : ¬object.sizeBytes < hashed.length + chunk.length := by
      omega
    have hread : readChunks object aborted offset looks (chunk :: rest)
        (.of offset ⟨state, started⟩ hashed text) =
        consume offset (.of offset
          ⟨middle, (ModelTransport.dropMark started first).1⟩
          (hashed ++ chunk) text)
          (ModelTransport.dropMark started first).2 >>= fun reading =>
        readChunks object aborted offset (looks + 1) rest reading := by
      rw [readChunks, hlive]
      simp only [Reading.of, hchunk, decode, hfirst]
      rfl
    rw [hread, consume_of hoffset hnul.1 hjoins hfits, ← List.append_assoc,
      ← List.append_assoc]
    apply outcome_bind hoffset hjoins' outcome_of_exceeds
    intro hfits'
    apply ih hmore hmiddle hstarted' hnul.2 _ hfits'
    rw [List.length_append]
    omega

/-- The page of a text that begins at a line. -/
def pageOf (offset : Nat) (text : JsString) : Page :=
  { text := joinLines (window offset (documentLines text))
    offset := offset
    lines := (window offset (documentLines text)).length
    eof := (documentLines text).length <
      offset + (window offset (documentLines text)).length }

/-- The bytes are a text without NUL, whatever byte order mark it starts
with. -/
structure Holds (object : StorageObject) (sha256 : List UInt8 → JsString)
    (text : JsString) : Prop where
  wellFormed : Utf8Text.toWellFormed text = text
  nulFree : 0 ∉ text
  size : (Utf8Text.encode text).length = object.sizeBytes
  checksum : JsString.ofString "sha256:" ++ sha256 (Utf8Text.encode text) =
    object.checksum

/-- The text without its byte order mark. -/
def unmarked (text : JsString) : JsString :=
  (ModelTransport.dropMark false text).2

/-- A stream of the text that is not aborted. -/
structure Streams (source : Source) (text : JsString) : Prop where
  chunks : source.chunks.flatten = Utf8Text.encode text
  live : ∀ n, source.aborted n = false

theorem window_documentLines (hoffset : 0 < offset) (text : JsString) :
    window offset (documentLines text) =
      window offset ((linesOf newline text).map List.dropLast) ++
        if restOf newline text ≠ [] ∧
            onPage offset ((linesOf newline text).length + 1) then
          [restOf newline text]
        else [] := by
  unfold documentLines
  by_cases hrest : restOf newline text = []
  · simp [hrest]
  · rw [if_neg hrest, window_snoc hoffset, List.length_map]
    simp [hrest]

theorem mem_unmarked {unit : UInt16} (h : unit ∈ unmarked text) :
    unit ∈ text := by
  cases text with
  | nil => cases h
  | cons first rest =>
    simp only [unmarked, ModelTransport.dropMark] at h
    split at h
    · exact List.mem_cons_of_mem _ h
    · exact h

theorem pageSize_nil (hoffset : 0 < offset) : pageSize offset [] = 0 := by
  rw [pageSize_eq hoffset]
  simp [window, linesOf, restOf, splitLines, JsString.byteLength]

/-- After the last chunk the page is put together. -/
theorem finish_of {sha256 : List UInt8 → JsString} {object : StorageObject}
    (h : Holds object sha256 text) (hoffset : 0 < offset) (started : Bool)
    (hfits : pageSize offset (unmarked text) ≤ pageBytes) :
    finish sha256 object offset (.of offset ⟨none, started⟩
        (Utf8Text.encode text) (unmarked text)) =
      .ok (pageOf offset (unmarked text)) := by
  have hnone : Joins (unmarked text) [] := .inr (by rintro unit ⟨⟩)
  have hlast := @consume_of offset (unmarked text) (Utf8Text.encode text)
    ⟨none, started⟩ hoffset [] (by simp) hnone hfits
  rw [List.append_nil, outcome_of_fits hfits] at hlast
  have hflush : flush offset (.of offset ⟨none, started⟩
      (Utf8Text.encode text) (unmarked text)) =
      .ok (.of offset ⟨none, started⟩ (Utf8Text.encode text)
        (unmarked text)) := hlast
  unfold finish
  rw [hflush]
  simp only [bind, Except.bind, Reading.of, pure, Except.pure, pageOf,
    window_documentLines hoffset]
  by_cases hrest : restOf newline (unmarked text) = []
  · have htotal : (documentLines (unmarked text)).length =
        (linesOf newline (unmarked text)).length := by
      simp [documentLines, hrest]
    simp [hrest, htotal, h.size, h.checksum]
  · have htotal : (documentLines (unmarked text)).length =
        (linesOf newline (unmarked text)).length + 1 := by
      simp [documentLines, hrest]
    by_cases hon :
        onPage offset ((linesOf newline (unmarked text)).length + 1) = true
    · simp [hrest, htotal, hon, h.size, h.checksum]
    · simp [hrest, htotal, hon, h.size, h.checksum]

/-- A call reads the page from its offset on, unless that is too large. -/
theorem readDocumentTextPage_of {sha256 : List UInt8 → JsString}
    {object : StorageObject} {source : Source} (h : Holds object sha256 text)
    (hstream : Streams source text) (hoffset : 0 < offset)
    (hsafe : offset ≤ maxSafeInteger) :
    readDocumentTextPage sha256 object source offset =
      if pageBytes < pageSize offset (unmarked text) then
        .error .previewPageTooLarge
      else .ok (pageOf offset (unmarked text)) := by
  have hrun : runStrictly none source.chunks.flatten = some (none, text) := by
    rw [hstream.chunks, Utf8Text.runStrictly_encode, h.wellFormed]
  have hnul : 0 ∉ unmarked text := fun hmem => h.nulFree (mem_unmarked hmem)
  have hempty := pageSize_nil hoffset
  have hstart : Reading.of offset ⟨none, false⟩ [] [] = .initial := by
    simp [Reading.of, Reading.initial, ModelTransport.Decoder.initial, hempty,
      window, restOf, linesOf, splitLines]
  have hsize : ([] : List UInt8).length + source.chunks.flatten.length ≤
      object.sizeBytes := by
    rw [hstream.chunks, h.size, List.length_nil, Nat.zero_add]
  have hfits : pageSize offset [] ≤ pageBytes := by
    rw [hempty]
    exact Nat.zero_le _
  have hread := @readChunks_of offset hoffset object source.aborted
    hstream.live source.chunks 1 none false [] [] none text hrun trivial
    (fun _ => rfl) hnul hsize hfits
  rw [hstream.chunks, List.nil_append, List.nil_append] at hread
  unfold readDocumentTextPage
  rw [if_neg (by omega), hstream.live, ← hstart, hread]
  simp only [Bool.false_eq_true, if_false]
  unfold outcome
  by_cases hlarge : pageBytes < pageSize offset (unmarked text)
  · rw [if_pos hlarge]
    exact congrArg (· >>= _) (if_pos hlarge)
  · have hkept : pageSize offset (unmarked text) ≤ pageBytes := by omega
    rw [if_neg hlarge, ← finish_of h hoffset _ hkept]
    exact congrArg (· >>= _) (if_neg hlarge)

end Allrice.DocumentPage
