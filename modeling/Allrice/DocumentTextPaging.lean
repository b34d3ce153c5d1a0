/-
Page after page every line of a text is read once, in order, unless one of the
pages is too large.
-/
import Allrice.DocumentTextReading

namespace Allrice.DocumentPage

open TextLines Utf8Stream

variable {offset : Nat} {text : JsString}

/-- No page from a line on is too large. -/
def Fits (offset : Nat) (text : JsString) : Prop :=
  ∀ k, pageSize (offset + k * pageLines) text ≤ pageBytes

theorem fits_iff : Fits offset text ↔
    pageSize offset text ≤ pageBytes ∧ Fits (offset + pageLines) text := by
  constructor
  · intro h
    refine ⟨by simpa using h 0, ?_⟩
    intro k
    have hk := h (k + 1)
    rw [Nat.add_mul, Nat.one_mul, ← Nat.add_assoc, Nat.add_right_comm] at hk
    exact hk
  · rintro ⟨hfirst, hrest⟩ k
    cases k with
    | zero => simpa using hfirst
    | succ k =>
      have hk := hrest k
      rw [Nat.add_right_comm, Nat.add_assoc, ← Nat.succ_mul] at hk
      exact hk

/-- Past the last line there is nothing. -/
theorem pageSize_past (h : (documentLines text).length < offset) :
    pageSize offset text = 0 := by
  have hoffset : 0 < offset := by omega
  unfold documentLines at h
  rw [List.length_append, List.length_map] at h
  have hnone : window offset (linesOf newline text) = [] := by
    unfold window
    rw [List.drop_eq_nil_of_le (by omega), List.take_nil]
  rw [pageSize_eq hoffset, hnone]
  by_cases hrest : restOf newline text = []
  · simp [hrest, JsString.byteLength]
  · rw [if_neg hrest, List.length_singleton] at h
    have hoff : onPage offset ((linesOf newline text).length + 1) = false := by
      simp only [onPage, Bool.and_eq_false_iff, decide_eq_false_iff_not]
      omega
    simp [hoff]

theorem documentLines_length (text : JsString) :
    (documentLines text).length ≤ text.length := by
  induction text using line_induction newline with
  | rest text h =>
    obtain ⟨hlines, hrest⟩ := splitLines_of_not_mem h
    unfold documentLines
    rw [hlines, hrest]
    cases text with
    | nil => exact Nat.le_refl _
    | cons unit rest => simp
  | line part more hpart ih =>
    obtain ⟨hlines, hrest⟩ := splitLines_line hpart more
    unfold documentLines at ih ⊢
    rw [hlines, hrest, List.map_cons, List.cons_append]
    simp only [List.length_append, List.length_cons] at ih ⊢
    omega

theorem documentLines_single (text : JsString) :
    ∀ line ∈ documentLines text, newline ∉ line := by
  induction text using line_induction newline with
  | rest text h =>
    obtain ⟨hlines, hrest⟩ := splitLines_of_not_mem h
    unfold documentLines
    rw [hlines, hrest]
    intro line hline
    split at hline
    · cases hline
    · rw [List.mem_singleton.mp hline]
      exact h
  | line part more hpart ih =>
    obtain ⟨hlines, hrest⟩ := splitLines_line hpart more
    unfold documentLines at ih ⊢
    rw [hlines, hrest, List.map_cons, List.dropLast_concat,
      List.cons_append]
    intro line hline
    rcases List.mem_cons.mp hline with rfl | hmore
    · exact hpart
    · exact ih line hmore

/-- Lines that were joined are found again. -/
theorem split_joinLines (lines : List JsString) (hlines : lines ≠ [])
    (h : ∀ line ∈ lines, newline ∉ line) :
    (linesOf newline (joinLines lines)).map List.dropLast ++
      [restOf newline (joinLines lines)] = lines := by
  induction lines with
  | nil => exact absurd rfl hlines
  | cons line rest ih =>
    have hline : newline ∉ line := h line (by simp)
    cases rest with
    | nil =>
      have hjoin : joinLines [line] = line := by
        simp [joinLines, List.intercalate]
      obtain ⟨hnone, hall⟩ := splitLines_of_not_mem hline
      rw [hjoin, hnone, hall]
      rfl
    | cons next rest =>
      have hjoin : joinLines (line :: next :: rest) =
          line ++ newline :: joinLines (next :: rest) := by
        simp [joinLines, List.intercalate]
      have hrest := ih (by simp) fun other hother =>
        h other (List.mem_cons_of_mem _ hother)
      obtain ⟨hfirst, hlast⟩ :=
        splitLines_line hline (joinLines (next :: rest))
      rw [hjoin, hfirst, hlast, List.map_cons, List.dropLast_concat,
        List.cons_append, hrest]

theorem pageOf_contents (offset : Nat) (text : JsString) :
    (pageOf offset text).contents = window offset (documentLines text) := by
  unfold Page.contents pageOf
  split
  · rename_i hempty
    exact (List.length_eq_zero_iff.mp hempty).symm
  · rename_i hlines
    apply split_joinLines
    · intro hnil
      rw [hnil] at hlines
      exact hlines rfl
    · intro line hline
      exact documentLines_single text line
        (List.mem_of_mem_drop (List.mem_of_mem_take hline))

variable {call : Nat → Nat → Except PageError Page}

/-- Every call reads its page, or throws where that is too large. -/
def Reads (call : Nat → Nat → Except PageError Page) (text : JsString) :
    Prop :=
  ∀ n offset, 0 < offset → offset ≤ maxSafeInteger →
    call n offset =
      if pageBytes < pageSize offset text then .error .previewPageTooLarge
      else .ok (pageOf offset text)

/-- Enough calls come to the end of the file with all its lines, or to a page
that is too large. -/
theorem readPages_of (hcall : Reads call text)
    (hlines : (documentLines text).length ≤ maxSafeInteger) (left : Nat) :
    ∀ n offset, 0 < offset → offset ≤ max 1 (documentLines text).length →
      0 < left → (documentLines text).length < offset + left →
      (Fits offset text → ∃ pages,
        readPages call left n offset = some (.ok pages) ∧
          pages.flatMap Page.contents =
            (documentLines text).drop (offset - 1)) ∧
      (¬Fits offset text →
        readPages call left n offset =
          some (.error .previewPageTooLarge)) := by
  induction left with
  | zero =>
    intro n offset _ _ hleft
    exact absurd hleft (Nat.lt_irrefl 0)
  | succ left ih =>
    intro n offset hoffset hbound _ henough
    have hsafe : offset ≤ maxSafeInteger := by
      have hone : 1 ≤ maxSafeInteger := by decide
      omega
    have hpage := hcall n offset hoffset hsafe
    have hwindow : (window offset (documentLines text)).length =
        min pageLines ((documentLines text).length - (offset - 1)) := by
      unfold window
      rw [List.length_take, List.length_drop]
    rw [fits_iff, readPages, hpage]
    by_cases hlarge : pageBytes < pageSize offset text
    · rw [if_pos hlarge]
      exact ⟨fun h => absurd h.1 (by omega), fun _ => rfl⟩
    · rw [if_neg hlarge]
      have hdrop : (documentLines text).drop (offset - 1) =
          window offset (documentLines text) ++
            (documentLines text).drop (offset + pageLines - 1) := by
        unfold window
        rw [show offset + pageLines - 1 = offset - 1 + pageLines by omega,
          ← List.drop_drop, List.take_append_drop]
      have hcontents := pageOf_contents offset text
      by_cases heof : (pageOf offset text).eof = true
      · have hend : (documentLines text).length < offset + pageLines := by
          have hlast := of_decide_eq_true heof
          omega
        have hrest : Fits (offset + pageLines) text := by
          intro k
          rw [pageSize_past (by omega)]
          exact Nat.zero_le _
        simp only [heof, if_true]
        refine ⟨fun _ => ⟨_, rfl, ?_⟩, fun h => absurd ⟨by omega, hrest⟩ h⟩
        rw [hdrop, List.drop_eq_nil_of_le (by omega), List.flatMap_singleton,
          hcontents, List.append_nil]
      · have hmore : ¬(documentLines text).length <
            offset + (window offset (documentLines text)).length := by
          intro hlast
          exact heof (decide_eq_true hlast)
        have hfull : (pageOf offset text).lines = pageLines := by
          change (window offset (documentLines text)).length = pageLines
          omega
        have hnext : offset + pageLines ≤ (documentLines text).length := by
          have hfull' : (window offset (documentLines text)).length =
            pageLines := hfull
          omega
        have hpositive : 0 < pageLines := by decide
        obtain ⟨hgood, hbad⟩ := ih (n + 1) (offset + pageLines) (by omega)
          (by omega) (by omega) (by omega)
        simp only [heof, hfull]
        constructor
        · rintro ⟨-, hrest⟩
          obtain ⟨pages, hpages, hall⟩ := hgood hrest
          refine ⟨pageOf offset text :: pages, ?_, ?_⟩
          · simp only [hpages]
            rfl
          · rw [List.flatMap_cons, hcontents, hall, hdrop]
        · intro h
          have hrest : ¬Fits (offset + pageLines) text :=
            fun hrest => h ⟨by omega, hrest⟩
          simp only [hbad hrest]
          rfl

variable {sha256 : List UInt8 → JsString} {object : StorageObject}

theorem Holds.reads {sources : Nat → Source} (h : Holds object sha256 text)
    (hstreams : ∀ n, Streams (sources n) text) :
    Reads (fun n => readDocumentTextPage sha256 object (sources n))
      (unmarked text) :=
  fun n _ hoffset hsafe =>
    readDocumentTextPage_of h (hstreams n) hoffset hsafe

/-- The lines of a file can be counted. -/
theorem Holds.lines_le (h : Holds object sha256 text) :
    (documentLines (unmarked text)).length ≤ maxSafeInteger := by
  have hrun := run_length (Utf8Text.encode text) none
  rw [Utf8Text.run_encode, h.wellFormed] at hrun
  have hunmarked : (unmarked text).length ≤ text.length := by
    cases text with
    | nil => exact Nat.le_refl _
    | cons unit rest =>
      simp only [unmarked, ModelTransport.dropMark]
      split
      · exact Nat.le_succ _
      · exact Nat.le_refl _
  have hlines := documentLines_length (unmarked text)
  have hsafe := object.safe
  rw [← h.size] at hsafe
  simp [Utf8Stream.finish] at hrun
  omega

/-- Calls with any chunks read every line of a text once and in order, where no
page is too large for its limit; otherwise the first page that is ends them. -/
theorem pages_hold_every_line (sha256 : List UInt8 → JsString)
    (object : StorageObject) (sources : Nat → Source) (text : JsString)
    (h : Holds object sha256 text)
    (hstreams : ∀ n, Streams (sources n) text) :
    ∃ calls,
      (Fits 1 (unmarked text) → ∃ pages,
        readPages (fun n => readDocumentTextPage sha256 object (sources n))
            calls 0 1 = some (.ok pages) ∧
          pages.flatMap Page.contents = documentLines (unmarked text)) ∧
      (¬Fits 1 (unmarked text) →
        readPages (fun n => readDocumentTextPage sha256 object (sources n))
            calls 0 1 = some (.error .previewPageTooLarge)) := by
  refine ⟨(documentLines (unmarked text)).length + 1, ?_⟩
  exact readPages_of (h.reads hstreams) h.lines_le _ 0 1 (by omega)
    (by omega) (by omega) (by omega)

namespace PageExamples

def note : JsString := [0x61, 0x0A, 0x4E2D]

def noteObject : StorageObject where
  sizeBytes := 5
  checksum := JsString.ofString "sha256:"
  safe := by decide

def noteSource : Source where
  chunks := [[0x61, 0x0A, 0xE4], [0xB8], [], [0xAD]]
  aborted _ := false

theorem note_holds : Holds noteObject (fun _ => []) note where
  wellFormed := rfl
  nulFree := by decide
  size := rfl
  checksum := rfl

theorem note_streams : Streams noteSource note where
  chunks := rfl
  live _ := rfl

theorem note_fits : Fits 1 (unmarked note) := by
  apply fits_iff.mpr
  refine ⟨by decide, ?_⟩
  intro k
  have hlines : (documentLines (unmarked note)).length = 2 := by decide
  rw [pageSize_past]
  · exact Nat.zero_le _
  · rw [hlines]
    have hpage : 2 ≤ pageLines := by decide
    omega

theorem note_pages : ∃ calls pages,
    readPages (fun _ => readDocumentTextPage (fun _ => []) noteObject
        noteSource) calls 0 1 = some (.ok pages) ∧
      pages.flatMap Page.contents = [[0x61], [0x4E2D]] := by
  obtain ⟨calls, hread, -⟩ := pages_hold_every_line (fun _ => []) noteObject
    (fun _ => noteSource) note note_holds fun _ => note_streams
  obtain ⟨pages, hpages, hlines⟩ := hread note_fits
  exact ⟨calls, pages, hpages, hlines⟩

/-- A line of so many letters. -/
def line (count : Nat) : JsString := List.replicate count 0x61

/-- Two lines. -/
def lines (count : Nat) : JsString :=
  line count ++ [newline] ++ (line count ++ [newline])

variable {count : Nat} {unit : UInt16}

theorem line_unit (h : unit ∈ line count) : unit = 0x61 :=
  (List.mem_replicate.mp h).2

theorem line_single (count : Nat) : newline ∉ line count := by
  intro hmem
  cases line_unit hmem

theorem line_size (count : Nat) :
    JsString.byteLength (line count) = count := by
  induction count with
  | zero => rfl
  | succ count ih =>
    unfold line at ih ⊢
    rw [List.replicate_succ, JsString.byteLength.eq_def]
    simp only [ih]
    rw [if_pos (by decide)]
    omega

theorem lines_units (h : unit ∈ lines count) :
    unit = 0x61 ∨ unit = newline := by
  simp only [lines, List.mem_append, List.mem_singleton] at h
  rcases h with (hline | hbreak) | hline | hbreak
  · exact .inl (line_unit hline)
  · exact .inr hbreak
  · exact .inl (line_unit hline)
  · exact .inr hbreak

theorem lines_length (count : Nat) : (lines count).length = 2 * count + 2 := by
  simp only [lines, line, List.length_append, List.length_replicate,
    List.length_singleton]
  omega

theorem lines_size (count : Nat) :
    2 * count ≤ pageSize 1 (lines count) := by
  have hfirst := pageSize_break Nat.one_pos (line_single count)
    (.inl rfl : Joins [] (line count))
  obtain ⟨hline, hrest⟩ := splitLines_break [] (line_single count)
  have hsecond := pageSize_break Nat.one_pos (line_single count)
    (.inl hrest : Joins _ (line count))
  have hone : onPage 1 1 = true := by decide
  have htwo : onPage 1 2 = true := by decide
  rw [List.nil_append] at hfirst hsecond hline
  rw [hline, List.length_append, List.length_singleton] at hsecond
  simp only [linesOf, splitLines, List.length_nil, Nat.zero_add, hone, htwo,
    if_true, line_size] at hfirst hsecond
  unfold lines
  omega

/-- The file with these lines. -/
def linesObject (count : Nat) (h : 2 * count + 2 ≤ maxSafeInteger) :
    StorageObject where
  sizeBytes := 2 * count + 2
  checksum := JsString.ofString "sha256:"
  safe := h

theorem lines_holds (h : 2 * count + 2 ≤ maxSafeInteger) :
    Holds (linesObject count h) (fun _ => []) (lines count) := by
  have hascii : Utf8Text.Ascii (lines count) := by
    intro unit hunit
    rcases lines_units hunit with rfl | rfl
    · decide
    · decide
  constructor
  · exact Utf8Text.toWellFormed_plain hascii.plain
  · intro hmem
    rcases lines_units hmem with hunit | hunit
    · cases hunit
    · cases hunit
  · rw [Utf8Text.encode_ascii_length hascii, lines_length]
    rfl
  · rfl

theorem unmarked_lines (count : Nat) :
    unmarked (lines count) = lines count := by
  cases hlines : lines count with
  | nil => rfl
  | cons unit rest =>
    have hunit := @lines_units count unit
      (by rw [hlines]; exact List.mem_cons_self)
    simp only [unmarked, ModelTransport.dropMark]
    rw [if_neg]
    rintro rfl
    rcases hunit with hunit | hunit
    · cases hunit
    · cases hunit

theorem documentLines_lines {member : JsString}
    (h : member ∈ documentLines (lines count)) :
    JsString.byteLength member ≤ count := by
  have hsingle := line_single count
  have hlines : lines count =
      line count ++ newline :: (line count ++ newline :: []) := by
    simp [lines]
  obtain ⟨hfirst, hfirst'⟩ := splitLines_line hsingle
    (line count ++ newline :: [])
  obtain ⟨hsecond, hsecond'⟩ := splitLines_line hsingle []
  unfold documentLines at h
  rw [hlines, hfirst, hfirst', hsecond, hsecond'] at h
  have hmember : member = line count := by
    simpa [linesOf, restOf, splitLines] using h
  rw [hmember, line_size]

/-- Each line is within the limit, and no call returns any of them. -/
theorem lines_within_limit_refused :
    ¬∀ (sha256 : List UInt8 → JsString) (object : StorageObject)
      (sources : Nat → Source) (text : JsString),
      Holds object sha256 text → (∀ n, Streams (sources n) text) →
      (∀ line ∈ documentLines (unmarked text),
        JsString.byteLength line ≤ pageBytes) →
      ∃ calls pages,
        readPages (fun n => readDocumentTextPage sha256 object (sources n))
            calls 0 1 = some (.ok pages) ∧
          pages.flatMap Page.contents = documentLines (unmarked text) := by
  intro h
  obtain ⟨count, hcount⟩ : ∃ count, count = pageBytes := ⟨_, rfl⟩
  have hsafe : 2 * count + 2 ≤ maxSafeInteger := by
    rw [hcount]
    decide
  have hholds := lines_holds hsafe
  have hstreams :
      Streams ⟨[Utf8Text.encode (lines count)], fun _ => false⟩
        (lines count) :=
    ⟨List.flatten_singleton, fun _ => rfl⟩
  have hlines : ∀ line ∈ documentLines (unmarked (lines count)),
      JsString.byteLength line ≤ pageBytes := by
    intro line hline
    rw [unmarked_lines] at hline
    rw [← hcount]
    exact documentLines_lines hline
  have hlarge : pageBytes < pageSize 1 (lines count) := by
    have hsize := lines_size count
    have hpositive : 0 < pageBytes := by decide
    omega
  obtain ⟨calls, pages, hpages, -⟩ := h _ _ _ _ hholds (fun _ => hstreams)
    hlines
  have hcall := readDocumentTextPage_of hholds hstreams Nat.one_pos
    (by decide)
  rw [unmarked_lines, if_pos hlarge] at hcall
  cases calls with
  | zero => cases hpages
  | succ left =>
    rw [readPages, hcall] at hpages
    cases hpages

end PageExamples

end Allrice.DocumentPage
