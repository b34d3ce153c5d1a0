/-
The windows that a long text is shown in.  Two limits compete for the end of a
window, and the cut at the limit of characters is moved back by one before a
surrogate pair.
-/
import Allrice.JsString

namespace Allrice.DocumentText

/-- `textRenderLimits.lines`. -/
def renderLines : Nat := 200

/-- `textRenderLimits.characters`. -/
def renderCharacters : Nat := 16000

def newline : UInt16 := 0x0A

/-- `text.indexOf('\n', cursor)`. -/
def newlineFrom (text : JsString) (cursor : Nat) : Option Nat :=
  ((text.drop cursor).findIdx? (· == newline)).map (cursor + ·)

/-- The end that the limit of characters allows. -/
def characterEnd (text : JsString) (start : Nat) : Nat :=
  let stop := min (start + renderCharacters) text.length
  if stop < text.length ∧ text[stop - 1]?.any JsString.isHighSurrogate then
    stop - 1
  else stop

/-- The loop over the line breaks before the end; so many more may follow the
one that it looks for. -/
def lineEnd (text : JsString) (stop : Nat) : Nat → Nat → Nat
  | left, cursor =>
    match (newlineFrom text cursor).filter (· < stop) with
    | none => stop
    | some found =>
      match left with
      | 0 => found + 1
      | more + 1 => lineEnd text stop more (found + 1)

/-- Where the window that begins at `start` ends. -/
def windowEnd (text : JsString) (start : Nat) : Nat :=
  lineEnd text (characterEnd text start) (renderLines - 1) start

/-- `text.slice(start, end)`. -/
def slice (text : JsString) (start stop : Nat) : JsString :=
  (text.drop start).take (stop - start)

/-- A window's cut does not fall within a surrogate pair. -/
def Splits (window next : JsString) : Prop :=
  ∃ high ∈ window.getLast?, ∃ low ∈ next.head?,
    JsString.isHighSurrogate high = true ∧ JsString.isLowSurrogate low = true

variable {text : JsString} {start stop cursor left : Nat}

theorem slice_append (text : JsString) {middle : Nat} (hfirst : start ≤ middle)
    (hlast : middle ≤ stop) :
    slice text start stop =
      slice text start middle ++ slice text middle stop := by
  unfold slice
  have hdrop : text.drop middle =
      (text.drop start).drop (middle - start) := by
    rw [List.drop_drop]
    congr 1
    omega
  rw [hdrop, ← List.take_add]
  congr 1
  omega

theorem slice_one (h : text[start]? = some newline) :
    slice text start (start + 1) = [newline] := by
  unfold slice
  rw [Nat.add_sub_cancel_left, List.take_one, List.head?_drop, h]
  rfl

theorem newlineFrom_some {found : Nat}
    (h : newlineFrom text cursor = some found) :
    cursor ≤ found ∧ text[found]? = some newline ∧
      (slice text cursor found).count newline = 0 := by
  unfold newlineFrom at h
  obtain ⟨index, hindex, rfl⟩ := Option.map_eq_some_iff.mp h
  obtain ⟨hlt, hat, hbefore⟩ := List.findIdx?_eq_some_iff_getElem.mp hindex
  refine ⟨Nat.le_add_right _ _, ?_, ?_⟩
  · rw [← List.getElem?_drop, List.getElem?_eq_getElem hlt, eq_of_beq hat]
  · rw [List.count_eq_zero]
    unfold slice
    intro hmem
    obtain ⟨k, hk, hunit⟩ := List.mem_iff_getElem.mp hmem
    have hlength := List.length_take_le (cursor + index - cursor)
      (text.drop cursor)
    have hnone := hbefore k (by omega)
    rw [List.getElem_take] at hunit
    exact hnone (beq_iff_eq.mpr hunit)

/-- Without a line break before the end, there is none in the window. -/
theorem newlineFrom_filter_none (hcursor : cursor ≤ stop)
    (h : (newlineFrom text cursor).filter (· < stop) = none) :
    (slice text cursor stop).count newline = 0 := by
  cases hfound : newlineFrom text cursor with
  | none =>
    unfold newlineFrom at hfound
    rw [Option.map_eq_none_iff, List.findIdx?_eq_none_iff] at hfound
    rw [List.count_eq_zero]
    intro hmem
    have hnot := hfound newline (List.mem_of_mem_take hmem)
    simp at hnot
  | some found =>
    obtain ⟨-, -, hcount⟩ := newlineFrom_some hfound
    rw [hfound] at h
    have hstop : stop ≤ found := by simpa using h
    rw [slice_append text hcursor hstop, List.count_append] at hcount
    omega

/-- The end by lines is the one by characters, or right after a line break. -/
theorem lineEnd_spec (left : Nat) : ∀ cursor, cursor ≤ stop →
    cursor ≤ lineEnd text stop left cursor ∧
      lineEnd text stop left cursor ≤ stop ∧
      (lineEnd text stop left cursor = stop ∨
        cursor < lineEnd text stop left cursor ∧
          text[lineEnd text stop left cursor - 1]? = some newline) ∧
      (slice text cursor (lineEnd text stop left cursor)).count newline ≤
        left + 1 := by
  induction left with
  | zero =>
    intro cursor hcursor
    unfold lineEnd
    split
    · rename_i hnone
      rw [newlineFrom_filter_none hcursor hnone]
      exact ⟨hcursor, Nat.le_refl _, .inl rfl, Nat.zero_le _⟩
    · rename_i found hfound
      obtain ⟨hat, hlt⟩ := Option.filter_eq_some_iff.mp hfound
      obtain ⟨hle, hbreak, hcount⟩ := newlineFrom_some hat
      have hstop : found < stop := of_decide_eq_true hlt
      dsimp only
      rw [slice_append text hle (Nat.le_succ found), slice_one hbreak,
        List.count_append, hcount]
      exact ⟨by omega, hstop, .inr ⟨by omega, hbreak⟩, by simp⟩
  | succ more ih =>
    intro cursor hcursor
    unfold lineEnd
    split
    · rename_i hnone
      rw [newlineFrom_filter_none hcursor hnone]
      exact ⟨hcursor, Nat.le_refl _, .inl rfl, Nat.zero_le _⟩
    · rename_i found hfound
      obtain ⟨hat, hlt⟩ := Option.filter_eq_some_iff.mp hfound
      obtain ⟨hle, hbreak, hcount⟩ := newlineFrom_some hat
      obtain ⟨hfrom, hstop, hends, hmore⟩ :=
        ih (found + 1) (of_decide_eq_true hlt)
      dsimp only
      refine ⟨by omega, hstop, hends.imp_right fun h => ⟨by omega, h.2⟩, ?_⟩
      rw [slice_append text (by omega : cursor ≤ found + 1) hfrom,
        slice_append text hle (Nat.le_succ found), slice_one hbreak,
        List.count_append, List.count_append, hcount,
        List.count_singleton_self]
      omega

theorem characterEnd_spec (h : start < text.length) :
    start < characterEnd text start ∧ characterEnd text start ≤ text.length ∧
      characterEnd text start ≤ start + renderCharacters ∧
      ∀ high low, text[characterEnd text start - 1]? = some high →
        text[characterEnd text start]? = some low →
        JsString.isHighSurrogate high = true →
        JsString.isLowSurrogate low = false := by
  have hpositive : 1 < renderCharacters := by decide
  unfold characterEnd
  simp only
  split
  · rename_i hback
    obtain ⟨hshort, hhigh⟩ := hback
    refine ⟨by omega, by omega, by omega, ?_⟩
    intro high low _ hlow _
    rw [hlow] at hhigh
    simp only [Option.any_some, JsString.isHighSurrogate, Bool.and_eq_true,
      decide_eq_true_eq] at hhigh
    simp only [JsString.isLowSurrogate, Bool.and_eq_false_iff,
      decide_eq_false_iff_not]
    omega
  · rename_i hkept
    refine ⟨by omega, by omega, by omega, ?_⟩
    intro high low hhigh hlow hsurrogate
    obtain ⟨hshort, -⟩ := List.getElem?_eq_some_iff.mp hlow
    rw [hhigh] at hkept
    exact absurd ⟨hshort, hsurrogate⟩ hkept

/-- A window is not empty, within both limits, and ends between characters. -/
theorem windowEnd_spec (h : start < text.length) :
    start < windowEnd text start ∧ windowEnd text start ≤ text.length ∧
      windowEnd text start ≤ start + renderCharacters ∧
      (slice text start (windowEnd text start)).count newline ≤
        renderLines ∧
      ∀ high low, text[windowEnd text start - 1]? = some high →
        text[windowEnd text start]? = some low →
        JsString.isHighSurrogate high = true →
        JsString.isLowSurrogate low = false := by
  obtain ⟨hstart, hlength, hlimit, hwhole⟩ := characterEnd_spec h
  obtain ⟨-, hstop, hends, hcount⟩ :=
    @lineEnd_spec text (characterEnd text start) (renderLines - 1) start
      (Nat.le_of_lt hstart)
  unfold windowEnd
  refine ⟨?_, by omega, by omega, hcount, ?_⟩
  · rcases hends with hends | hends
    · omega
    · exact hends.1
  · rcases hends with hends | hends
    · rw [hends]
      exact hwhole
    · intro high low hhigh hlow hsurrogate
      rw [hends.2] at hhigh
      cases hhigh
      cases hsurrogate

/-- The loop from `start` on. -/
def windowsFrom (text : JsString) (start : Nat) : List JsString :=
  if _h : start < text.length then
    slice text start (windowEnd text start) ::
      windowsFrom text (windowEnd text start)
  else []
termination_by text.length - start
decreasing_by
  have hspec := windowEnd_spec _h
  omega

def documentTextWindows (text : JsString) : List JsString :=
  let pages := windowsFrom text 0
  if pages.isEmpty then [[]] else pages

/-- A window within the limits. -/
structure Bounded (window : JsString) : Prop where
  characters : window.length ≤ renderCharacters
  lines : window.count newline ≤ renderLines

theorem slice_length (hstop : stop ≤ text.length) :
    (slice text start stop).length = stop - start := by
  unfold slice
  rw [List.length_take, List.length_drop]
  omega

theorem windowsFrom_flatten (text : JsString) (start : Nat) :
    (windowsFrom text start).flatten = text.drop start := by
  induction start using windowsFrom.induct text with
  | case1 start hlt ih =>
    obtain ⟨hstart, -⟩ := windowEnd_spec hlt
    rw [windowsFrom, dif_pos hlt, List.flatten_cons, ih]
    unfold slice
    have hdrop : text.drop (windowEnd text start) =
        (text.drop start).drop (windowEnd text start - start) := by
      rw [List.drop_drop]
      congr 1
      omega
    rw [hdrop, List.take_append_drop]
  | case2 start hge =>
    rw [windowsFrom, dif_neg hge, List.drop_eq_nil_of_le (by omega)]
    rfl

theorem windowsFrom_bounded (text : JsString) (start : Nat) :
    ∀ window ∈ windowsFrom text start, window ≠ [] ∧ Bounded window := by
  induction start using windowsFrom.induct text with
  | case1 start hlt ih =>
    obtain ⟨hstart, hlength, hlimit, hcount, -⟩ := windowEnd_spec hlt
    have hslice := @slice_length text start _ hlength
    rw [windowsFrom, dif_pos hlt]
    intro window hmem
    rcases List.mem_cons.mp hmem with rfl | hrest
    · refine ⟨?_, ⟨by omega, hcount⟩⟩
      intro hempty
      rw [hempty, List.length_nil] at hslice
      omega
    · exact ih window hrest
  | case2 start hge =>
    rw [windowsFrom, dif_neg hge]
    simp

/-- What follows a cut begins with the unit after it. -/
theorem windowsFrom_head {next : JsString} {rest : List JsString}
    (h : windowsFrom text start = next :: rest) :
    next.head? = text[start]? := by
  have hflatten := windowsFrom_flatten text start
  obtain ⟨hne, -⟩ := windowsFrom_bounded text start next (by rw [h]; simp)
  rw [h, List.flatten_cons] at hflatten
  have hhead : (next ++ rest.flatten).head? = next.head? :=
    List.head?_append_of_ne_nil _ hne
  rw [← hhead, hflatten, List.head?_drop]

theorem slice_last (hstart : start < stop) (hstop : stop ≤ text.length) :
    (slice text start stop).getLast? = text[stop - 1]? := by
  have hlength := @slice_length text start _ hstop
  rw [List.getLast?_eq_getElem?, hlength]
  unfold slice
  rw [List.getElem?_take_of_lt (by omega), List.getElem?_drop]
  congr 1
  omega

theorem windowsFrom_whole (text : JsString) (start : Nat) :
    (windowsFrom text start).IsChain fun window next =>
      ¬Splits window next := by
  induction start using windowsFrom.induct text with
  | case1 start hlt ih =>
    obtain ⟨hstart, hlength, -, -, hwhole⟩ := windowEnd_spec hlt
    rw [windowsFrom, dif_pos hlt]
    cases hrest : windowsFrom text (windowEnd text start) with
    | nil => exact List.isChain_singleton _
    | cons next rest =>
      rw [hrest] at ih
      apply List.isChain_cons_cons.mpr
      refine ⟨?_, ih⟩
      rintro ⟨high, hhigh, low, hlow, hpair⟩
      rw [slice_last hstart hlength] at hhigh
      rw [windowsFrom_head hrest] at hlow
      have hnot := hwhole high low hhigh hlow hpair.1
      rw [hpair.2] at hnot
      cases hnot
  | case2 start hge =>
    rw [windowsFrom, dif_neg hge]
    exact List.isChain_nil

/-- The windows are a partition of the text: together they are the text, each
is within the limits and not empty unless the text is, and no surrogate pair
falls between two of them. -/
theorem windows_partition_text (text : JsString) :
    (documentTextWindows text).flatten = text ∧
      (∀ window ∈ documentTextWindows text,
        Bounded window ∧ (window = [] → text = [])) ∧
      (documentTextWindows text).IsChain fun window next =>
        ¬Splits window next := by
  have hflatten := windowsFrom_flatten text 0
  unfold documentTextWindows
  simp only
  split
  · rename_i hempty
    rw [List.isEmpty_iff.mp hempty, List.drop_zero] at hflatten
    subst hflatten
    refine ⟨rfl, ?_, List.isChain_singleton _⟩
    intro window hmem
    rw [List.mem_singleton.mp hmem]
    exact ⟨⟨Nat.zero_le _, Nat.zero_le _⟩, fun h => h⟩
  · refine ⟨hflatten, ?_, windowsFrom_whole text 0⟩
    intro window hmem
    obtain ⟨hne, hbounded⟩ := windowsFrom_bounded text 0 window hmem
    exact ⟨hbounded, fun h => absurd h hne⟩

end Allrice.DocumentText
