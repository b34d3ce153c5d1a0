/-
What stands in quotations decides nothing about a schedule: neither the place
at which the conversation mode is split off nor the prose that is read depends
on it.
-/
import Allrice.RecurringTaskIntent

namespace Allrice.RecurringTaskIntent

open JsString

/-- The content of a quotation that this sign closes. -/
inductive Literal : UInt16 → JsString → Prop
  | nil (close : UInt16) : Literal close []
  | plain {close unit : UInt16} {text : JsString} (quote : isQuote unit = false)
      (rest : Literal close text) : Literal close (unit :: text)
  | nested {close sign close' : UInt16} {inner text : JsString}
      (opens : closing sign = some close') (differs : sign ≠ close)
      (content : Literal close' inner) (rest : Literal close text) :
      Literal close (sign :: (inner ++ close' :: text))

def hasText (text : JsString) : Bool :=
  text.any fun unit => !isQuote unit && !isWhitespace unit

/-- A quotation from its first sign to its last. -/
inductive Quotation : JsString → Prop
  | mk {sign close : UInt16} {inner : JsString}
      (opens : closing sign = some close) (content : Literal close inner) :
      Quotation (sign :: (inner ++ [close]))

/-- Every quotation of the text is closed. -/
inductive Balanced : JsString → Prop
  | nil : Balanced []
  | outer {unit : UInt16} {text : JsString} (quote : isQuote unit = false)
      (rest : Balanced text) : Balanced (unit :: text)
  | quotation {quoted text : JsString} (closed : Quotation quoted)
      (rest : Balanced text) : Balanced (quoted ++ text)

/-- The same characters outside the outermost quotations, and closed quotations
that are not blank at the same places. -/
inductive Corresponds : JsString → JsString → Prop
  | nil : Corresponds [] []
  | outer {unit : UInt16} {a b : JsString} (quote : isQuote unit = false)
      (rest : Corresponds a b) : Corresponds (unit :: a) (unit :: b)
  | quotation {q q' a b : JsString} (closed : Quotation q)
      (text : hasText q = true) (closed' : Quotation q')
      (text' : hasText q' = true) (rest : Corresponds a b) :
      Corresponds (q ++ a) (q' ++ b)

variable {text a b quoted : JsString} {unit sign close : UInt16}
  {mode : ConversationMode}

theorem closing_isQuote (h : closing sign = some close) :
    isQuote sign = true := by
  rw [isQuote, h]
  rfl

theorem isQuote_close (h : closing sign = some close) :
    isQuote close = true := by
  have hcases : close = 0x201D ∨ close = 0x2019 ∨ close = 0x300D ∨
      close = 0x300F ∨ close = sign := by
    simp only [closing] at h
    split at h
    · exact .inl (Option.some.inj h).symm
    split at h
    · exact .inr (.inl (Option.some.inj h).symm)
    split at h
    · exact .inr (.inr (.inl (Option.some.inj h).symm))
    split at h
    · exact .inr (.inr (.inr (.inl (Option.some.inj h).symm)))
    split at h
    · exact .inr (.inr (.inr (.inr (Option.some.inj h).symm)))
    · cases h
  rcases hcases with rfl | rfl | rfl | rfl | rfl
  · decide
  · decide
  · decide
  · decide
  · exact closing_isQuote h

theorem plain_iff : isQuote unit = false ↔
    closing unit = none ∧ isClosing unit = false := by
  rw [isQuote, Bool.or_eq_false_iff, Option.isSome_eq_false_iff,
    Option.isNone_iff_eq_none]

theorem isWhitespace_plain (h : isWhitespace unit = true) :
    isQuote unit = false := by
  rw [plain_iff]
  simp only [isWhitespace, Bool.or_eq_true, Bool.and_eq_true, decide_eq_true_eq,
    beq_iff_eq] at h
  constructor
  · simp only [closing]
    rw [if_neg (by omega), if_neg (by omega), if_neg (by omega),
      if_neg (by omega), if_neg (by omega)]
  · simp only [isClosing, Bool.or_eq_false_iff, beq_eq_false_iff_ne]
    omega

theorem maskUnit_plain {mask : Mask} (h : isQuote unit = false)
    (hhead : mask.stack.head? ≠ some unit) :
    maskUnit mask unit =
      if mask.stack = [] then some { mask with result := mask.result ++ [unit] }
      else some
        { mask with
          literalHasText := mask.literalHasText || !isWhitespace unit } := by
  obtain ⟨hcloses, hclosing⟩ := plain_iff.1 h
  rw [maskUnit, if_neg hhead, hcloses]
  simp only [hclosing, Bool.false_eq_true, ↓reduceIte]

/-- The content of a quotation leaves no trace but whether it has a text. -/
theorem mask_literal {inner : JsString} (h : Literal close inner) :
    ∀ (stack : List UInt16) (text : Bool) (result : JsString),
      isQuote close = true →
      inner.foldlM maskUnit ⟨close :: stack, text, result⟩ =
        some ⟨close :: stack, text || hasText inner, result⟩ := by
  induction h with
  | nil close =>
    intro stack text result hquote
    simp [hasText]
  | @plain close unit rest hplain _ ih =>
    intro stack text result hquote
    have hhead : (close :: stack).head? ≠ some unit := by
      rw [List.head?_cons]
      intro heq
      rw [Option.some.inj heq, hplain] at hquote
      cases hquote
    rw [List.foldlM_cons, maskUnit_plain hplain hhead,
      if_neg (List.cons_ne_nil close stack)]
    refine (ih stack _ result hquote).trans ?_
    simp [hasText, hplain, Bool.or_assoc]
  | @nested close sign close' inner rest hopens hdiffers _ _ ih ihrest =>
    intro stack text result hquote
    have hhead : (close :: stack).head? ≠ some sign := by
      rw [List.head?_cons]
      exact fun heq => hdiffers (Option.some.inj heq).symm
    have hopen : maskUnit ⟨close :: stack, text, result⟩ sign =
        some ⟨close' :: close :: stack, text, result⟩ := by
      rw [maskUnit, if_neg hhead, hopens]
      simp
    have hclose : ∀ text : Bool,
        maskUnit ⟨close' :: close :: stack, text, result⟩ close' =
          some ⟨close :: stack, text, result⟩ := by
      intro text
      simp [maskUnit]
    rw [List.foldlM_cons, hopen]
    show (inner ++ close' :: rest).foldlM maskUnit _ = _
    rw [List.foldlM_append, ih _ _ _ (isQuote_close hopens)]
    show (close' :: rest).foldlM maskUnit _ = _
    rw [List.foldlM_cons, hclose]
    refine (ihrest stack _ result hquote).trans ?_
    simp [hasText, closing_isQuote hopens, isQuote_close hopens,
      Bool.or_assoc]

/-- A quotation becomes the same text, unless it is blank. -/
theorem mask_quotation {quoted : JsString} (h : Quotation quoted) (text : Bool)
    (result : JsString) :
    quoted.foldlM maskUnit ⟨[], text, result⟩ =
      if hasText quoted then some ⟨[], true, result ++ literalContent⟩
      else none := by
  obtain ⟨hopens, hcontent⟩ := h
  rename_i sign close inner
  have hopen : maskUnit ⟨[], text, result⟩ sign =
      some ⟨[close], false, result⟩ := by
    rw [maskUnit, if_neg (by simp), hopens]
    simp
  have htext : hasText (sign :: (inner ++ [close])) = hasText inner := by
    simp [hasText, closing_isQuote hopens, isQuote_close hopens]
  rw [List.foldlM_cons, hopen]
  show (inner ++ [close]).foldlM maskUnit _ = _
  rw [List.foldlM_append, mask_literal hcontent _ _ _ (isQuote_close hopens),
    htext, Bool.false_or]
  cases hasText inner with
  | true | false => simp [maskUnit]

theorem mask_corresponds (h : Corresponds a b) :
    ∀ (result : JsString) (text text' : Bool), ∃ last text₁ text₂,
      a.foldlM maskUnit ⟨[], text, result⟩ = some ⟨[], text₁, last⟩ ∧
        b.foldlM maskUnit ⟨[], text', result⟩ = some ⟨[], text₂, last⟩ := by
  induction h with
  | nil => exact fun result text text' => ⟨result, text, text', rfl, rfl⟩
  | @outer unit a b hplain _ ih =>
    intro result text text'
    have hunit : ∀ text : Bool, maskUnit ⟨[], text, result⟩ unit =
        some ⟨[], text, result ++ [unit]⟩ := by
      intro text
      rw [maskUnit_plain hplain (by simp)]
      simp
    rw [List.foldlM_cons, List.foldlM_cons, hunit, hunit]
    exact ih (result ++ [unit]) text text'
  | @quotation q q' a b hclosed htext hclosed' htext' _ ih =>
    intro result text text'
    rw [List.foldlM_append, List.foldlM_append, mask_quotation hclosed,
      mask_quotation hclosed', htext, htext']
    exact ih (result ++ literalContent) true true

/-- The same prose. -/
theorem Corresponds.mask (h : Corresponds a b) :
    maskQuotedArguments a = maskQuotedArguments b := by
  obtain ⟨last, text₁, text₂, ha, hb⟩ := mask_corresponds h [] false false
  rw [maskQuotedArguments, maskQuotedArguments, ha, hb]

/-- A text behind quotations that these signs have still to close. -/
def Rest : List UInt16 → JsString → Prop
  | [], text => Balanced text
  | close :: stack, text => ∃ inner rest, Literal close inner ∧
      text = inner ++ close :: rest ∧ Rest stack rest

variable {stack : List UInt16} {request before after : JsString}

theorem Rest.plain (hplain : isQuote unit = false) (h : Rest stack text) :
    Rest stack (unit :: text) := by
  cases stack with
  | nil => exact .outer hplain h
  | cons close stack =>
    obtain ⟨inner, rest, hinner, rfl, hrest⟩ := h
    exact ⟨unit :: inner, rest, .plain hplain hinner, rfl, hrest⟩

theorem Rest.opens (hopens : closing sign = some close)
    (hhead : stack.head? ≠ some sign) (h : Rest (close :: stack) text) :
    Rest stack (sign :: text) := by
  obtain ⟨inner, rest, hinner, rfl, hrest⟩ := h
  cases stack with
  | nil =>
    have hquotation := Balanced.quotation (.mk hopens hinner) hrest
    rw [List.cons_append, List.append_assoc] at hquotation
    exact hquotation
  | cons outer stack =>
    obtain ⟨inner', rest', hinner', rfl, hrest'⟩ := hrest
    refine ⟨sign :: (inner ++ close :: inner'), rest',
      .nested hopens (fun heq => hhead (congrArg some heq.symm)) hinner
        hinner', ?_, hrest'⟩
    simp

theorem mask_rest (text : JsString) : ∀ (mask last : Mask),
    text.foldlM maskUnit mask = some last → last.stack = [] →
      Rest mask.stack text := by
  induction text with
  | nil =>
    intro mask last h hlast
    cases h
    rw [hlast]
    exact .nil
  | cons unit text ih =>
    intro mask last h hlast
    rw [List.foldlM_cons] at h
    obtain ⟨next, hnext, hrest⟩ := Option.bind_eq_some_iff.1 h
    have hnextRest := ih next last hrest hlast
    rw [maskUnit] at hnext
    split at hnext
    · rename_i hhead
      obtain ⟨stack, hstack⟩ := List.head?_eq_some_iff.1 hhead
      have hpopped : next.stack = mask.stack.tail := by
        by_cases hnil : mask.stack.tail = []
        · rw [if_pos hnil] at hnext
          by_cases htext : mask.literalHasText = true
          · rw [if_pos htext] at hnext
            cases hnext
            rfl
          · rw [if_neg htext] at hnext
            cases hnext
        · rw [if_neg hnil] at hnext
          cases hnext
          rfl
      rw [hstack, List.tail_cons] at hpopped
      rw [hstack]
      rw [hpopped] at hnextRest
      exact ⟨[], text, .nil unit, rfl, hnextRest⟩
    · rename_i hhead
      split at hnext
      · rename_i close hopens
        cases hnext
        exact hnextRest.opens hopens hhead
      · rename_i hcloses
        split at hnext
        · cases hnext
        · rename_i hclosing
          have hplain := plain_iff.2
            ⟨hcloses, Bool.eq_false_iff.2 hclosing⟩
          split at hnext
          · cases hnext
            exact hnextRest.plain hplain
          · cases hnext
            exact hnextRest.plain hplain

theorem balanced_of_mask {prose : JsString}
    (h : maskQuotedArguments text = some prose) : Balanced text := by
  rw [maskQuotedArguments] at h
  split at h
  · rename_i last hlast
    split at h
    · rename_i hstack
      exact mask_rest text _ last hlast hstack
    · cases h
  · cases h

theorem Balanced.append (h : Balanced a)
    (hplain : ∀ unit ∈ b, isQuote unit = false) : Balanced (a ++ b) := by
  induction h with
  | nil =>
    induction b with
    | nil => exact .nil
    | cons unit b ih =>
      exact .outer (hplain unit List.mem_cons_self)
        (ih fun other hmem => hplain other (List.mem_cons_of_mem unit hmem))
  | outer hquote _ ih => exact .outer hquote ih
  | quotation hclosed _ ih =>
    rw [List.append_assoc]
    exact .quotation hclosed ih

theorem isTail_plain (h : isTail unit = true) : isQuote unit = false := by
  rw [isTail, Bool.or_eq_true] at h
  rcases h with hsign | hblank
  · have hcases : unit = 0x3002 ∨ unit = 0xFF01 ∨ unit = 0x21 := by
      simpa [ofString, unitsOf] using hsign
    rcases hcases with rfl | rfl | rfl
    · decide
    · decide
    · decide
  · exact isWhitespace_plain hblank

theorem mode_plain : ∀ mode ∈ modes, ∀ unit ∈ mode.1, isQuote unit = false := by
  have hall : modes.all (fun mode => mode.1.all fun unit => !isQuote unit) =
      true := rfl
  intro mode hmode unit hmem
  have hunits := List.all_eq_true.1 (List.all_eq_true.1 hall mode hmode)
  exact Bool.not_eq_true' _ ▸ hunits unit hmem

theorem dropStart_eq_some {start rest : JsString}
    (h : dropStart start text = some rest) : text = start ++ rest := by
  rw [dropStart] at h
  split at h
  · rename_i hprefix
    cases h
    exact (List.prefix_iff_eq_append.1 hprefix).symm
  · cases h

/-- No quotation sign stands behind the split. -/
theorem modeAtEnd_plain (h : modeAtEnd text = some mode) :
    ∀ unit ∈ text, isQuote unit = false := by
  obtain ⟨entry, hfound, -⟩ := Option.map_eq_some_iff.1 h
  have hentry := List.mem_of_find?_eq_some hfound
  have hends := List.find?_some hfound
  obtain ⟨rest, hrest, htail⟩ := (Option.any_eq_true _ _).1 hends
  have hmode := dropStart_eq_some hrest
  have hpolite : ∀ unit ∈ (dropStart (ofString "请")
      (text.dropWhile isWhitespace)).getD (text.dropWhile isWhitespace),
      isQuote unit = false := by
    rw [hmode]
    intro unit hmem
    rcases List.mem_append.1 hmem with hmem | hmem
    · exact mode_plain entry hentry unit hmem
    · exact isTail_plain (List.all_eq_true.1 htail unit hmem)
  have hblank : ∀ unit ∈ text.dropWhile isWhitespace,
      isQuote unit = false := by
    cases hdropped : dropStart (ofString "请")
        (text.dropWhile isWhitespace) with
    | none =>
      rw [hdropped] at hpolite
      exact hpolite
    | some rest =>
      rw [hdropped] at hpolite
      rw [dropStart_eq_some hdropped]
      intro unit hmem
      rcases List.mem_append.1 hmem with hmem | hmem
      · have hsign : unit = 0x8BF7 := by
          simpa [ofString, unitsOf] using hmem
        rw [hsign]
        decide
      · exact hpolite unit hmem
  intro unit hmem
  rw [← List.takeWhile_append_dropWhile (p := isWhitespace) (l := text)] at hmem
  rcases List.mem_append.1 hmem with hmem | hmem
  · exact isWhitespace_plain (List.mem_takeWhile_imp hmem)
  · exact hblank unit hmem

theorem separator_plain (h : isSeparator unit = true) :
    isQuote unit = false := by
  have hcases : unit = 0xFF1B ∨ unit = 0x3B ∨ unit = 0x3002 ∨ unit = 0xA := by
    simpa [isSeparator, ofString, unitsOf] using h
  rcases hcases with rfl | rfl | rfl | rfl
  · decide
  · decide
  · decide
  · decide

/-- What is split off has no quotation sign. -/
theorem conversationChoice_plain
    (h : conversationChoice text = some (request, mode)) :
    ∃ tail, text = request ++ tail ∧
      ∀ unit ∈ tail, isQuote unit = false := by
  induction text generalizing request with
  | nil => cases h
  | cons unit text ih =>
    rw [conversationChoice] at h
    cases hrest : conversationChoice text with
    | some choice =>
      rw [hrest] at h
      cases h
      obtain ⟨tail, htext, hplain⟩ := ih hrest
      exact ⟨tail, congrArg (unit :: ·) htext, hplain⟩
    | none =>
      rw [hrest] at h
      simp only [] at h
      split at h
      · rename_i hseparator
        obtain ⟨mode', hmode, hsame⟩ := Option.map_eq_some_iff.1 h
        cases hsame
        refine ⟨unit :: text, rfl, fun other hmem => ?_⟩
        rcases List.mem_cons.1 hmem with rfl | hmem
        · exact separator_plain hseparator
        · exact modeAtEnd_plain hmode other hmem
      · cases h

theorem conversationChoice_append
    (h : conversationChoice text = some (request, mode)) (before : JsString) :
    conversationChoice (before ++ text) = some (before ++ request, mode) := by
  induction before with
  | nil => exact h
  | cons unit before ih => rw [List.cons_append, conversationChoice, ih]; rfl

/-- No split stands before a quotation sign. -/
theorem conversationChoice_none (h : conversationChoice text = none)
    (hsign : isQuote sign = true) (hmem : sign ∈ text) (before : JsString) :
    conversationChoice (before ++ text) = none := by
  induction before with
  | nil => exact h
  | cons unit before ih =>
    rw [List.cons_append, conversationChoice, ih]
    simp only []
    split
    · cases hmode : modeAtEnd (before ++ text) with
      | none => rfl
      | some mode =>
        have hplain := modeAtEnd_plain hmode sign
          (List.mem_append_right before hmem)
        rw [hsign] at hplain
        cases hplain
    · rfl

/-- The split behind a quotation. -/
theorem conversationChoice_quotation (h : Quotation quoted)
    (hnone : conversationChoice text = none) :
    conversationChoice (quoted ++ text) = none := by
  obtain ⟨hopens, -⟩ := h
  rename_i sign close inner
  have hquote := isQuote_close hopens
  have hclose : conversationChoice (close :: text) = none := by
    rw [conversationChoice, hnone]
    simp only []
    split
    · rename_i hseparator
      rw [separator_plain hseparator] at hquote
      cases hquote
    · rfl
  have hall := conversationChoice_none hclose hquote List.mem_cons_self
    (sign :: inner)
  rw [show sign :: (inner ++ [close]) ++ text =
    sign :: inner ++ close :: text by simp]
  exact hall

theorem Corresponds.eq_or_quote (h : Corresponds a b) :
    a = b ∨ (∃ unit ∈ a, isQuote unit = true) ∧
      ∃ unit ∈ b, isQuote unit = true := by
  have hsign : ∀ {q : JsString}, Quotation q →
      ∃ unit ∈ q, isQuote unit = true := by
    intro q hq
    obtain ⟨hopens, -⟩ := hq
    exact ⟨_, List.mem_cons_self, closing_isQuote hopens⟩
  induction h with
  | nil => exact .inl rfl
  | @outer unit a b _ _ ih =>
    rcases ih with rfl | ⟨⟨x, hx, hquote⟩, ⟨y, hy, hquote'⟩⟩
    · exact .inl rfl
    · exact .inr ⟨⟨x, List.mem_cons_of_mem unit hx, hquote⟩,
        ⟨y, List.mem_cons_of_mem unit hy, hquote'⟩⟩
  | quotation hclosed _ hclosed' _ _ _ =>
    obtain ⟨x, hx, hquote⟩ := hsign hclosed
    obtain ⟨y, hy, hquote'⟩ := hsign hclosed'
    exact .inr ⟨⟨x, List.mem_append_left _ hx, hquote⟩,
      ⟨y, List.mem_append_left _ hy, hquote'⟩⟩

/-- The same mode, or none for both. -/
theorem Corresponds.modeAtEnd (h : Corresponds a b) :
    modeAtEnd a = RecurringTaskIntent.modeAtEnd b := by
  have hnone : ∀ {text : JsString}, (∃ unit ∈ text, isQuote unit = true) →
      RecurringTaskIntent.modeAtEnd text = none := by
    intro text hquote
    obtain ⟨unit, hmem, hquote⟩ := hquote
    cases hmode : RecurringTaskIntent.modeAtEnd text with
    | none => rfl
    | some mode =>
      rw [modeAtEnd_plain hmode unit hmem] at hquote
      cases hquote
  rcases h.eq_or_quote with rfl | ⟨ha, hb⟩
  · rfl
  · rw [hnone ha, hnone hb]

/-- Both texts are split at the same place, or neither is. -/
theorem Corresponds.choice (h : Corresponds a b) :
    (conversationChoice a = none ∧ conversationChoice b = none) ∨
      ∃ a' b' mode, conversationChoice a = some (a', mode) ∧
        conversationChoice b = some (b', mode) ∧ Corresponds a' b' := by
  induction h with
  | nil => exact .inl ⟨rfl, rfl⟩
  | @outer unit a b hplain hrest ih =>
    rcases ih with ⟨ha, hb⟩ | ⟨a', b', mode, ha, hb, hcorresponds⟩
    · rw [conversationChoice, conversationChoice, ha, hb]
      simp only []
      cases hseparator : isSeparator unit with
      | false => exact .inl ⟨rfl, rfl⟩
      | true =>
        rw [hrest.modeAtEnd]
        cases hmode : RecurringTaskIntent.modeAtEnd b with
        | none => exact .inl ⟨rfl, rfl⟩
        | some mode => exact .inr ⟨[], [], mode, rfl, rfl, .nil⟩
    · refine .inr ⟨unit :: a', unit :: b', mode, ?_, ?_,
        .outer hplain hcorresponds⟩
      · exact conversationChoice_append ha [unit]
      · exact conversationChoice_append hb [unit]
  | @quotation q q' a b hclosed htext hclosed' htext' _ ih =>
    rcases ih with ⟨ha, hb⟩ | ⟨a', b', mode, ha, hb, hcorresponds⟩
    · exact .inl ⟨conversationChoice_quotation hclosed ha,
        conversationChoice_quotation hclosed' hb⟩
    · exact .inr ⟨q ++ a', q' ++ b', mode,
        conversationChoice_append ha q, conversationChoice_append hb q',
        .quotation hclosed htext hclosed' htext' hcorresponds⟩

variable {knownZone : JsString → Bool}

/-- The rule and the mode of an intent. -/
def Intent.granted (intent : Intent) : Rule × Option ConversationMode :=
  (intent.rule, intent.conversationMode)

theorem granted_of_selection (text request : JsString)
    (mode : Option ConversationMode)
    (hpasses : passesFilters text = true)
    (h : scheduleConversationIntent text = (request, mode)) :
    (explicitRecurringTaskIntent knownZone text).map Intent.granted =
      ((maskQuotedArguments request).map trim).bind fun prose =>
        if prose = [] then none
        else (ruleOf knownZone prose).map fun rule => (rule, mode) := by
  rw [explicitRecurringTaskIntent, if_neg (by rw [hpasses]; decide), h]
  simp only []
  cases hprose : (maskQuotedArguments request).map trim with
  | none => rfl
  | some prose =>
    simp only [Option.bind_some]
    split
    · rfl
    · rw [Option.map_map]
      rfl

theorem refused_of_mask
    (h : maskQuotedArguments (scheduleConversationIntent text).1 = none) :
    explicitRecurringTaskIntent knownZone text = none := by
  rw [explicitRecurringTaskIntent]
  split
  · rfl
  · simp only [h, Option.map_none]

/-- A text whose quotations are not closed is refused. -/
theorem refused_of_unbalanced (h : ¬ Balanced text) :
    explicitRecurringTaskIntent knownZone text = none := by
  apply refused_of_mask
  by_contra hmask
  obtain ⟨prose, hprose⟩ := Option.ne_none_iff_exists'.1 hmask
  have hbalanced := balanced_of_mask hprose
  rw [scheduleConversationIntent] at hbalanced
  split at hbalanced
  · rename_i request mode hchoice
    obtain ⟨tail, rfl, hplain⟩ := conversationChoice_plain hchoice
    exact h (hbalanced.append hplain)
  · exact h hbalanced

theorem conversationChoice_blank (h : ∀ unit ∈ text, isWhitespace unit = true) :
    conversationChoice text = none := by
  induction text with
  | nil => rfl
  | cons unit text ih =>
    have hrest := fun other hmem => h other (List.mem_cons_of_mem unit hmem)
    rw [conversationChoice, ih hrest]
    simp only []
    have hmode : modeAtEnd text = none := by
      have hblank : text.dropWhile isWhitespace = [] :=
        List.dropWhile_eq_nil_iff.2 hrest
      rw [modeAtEnd, hblank]
      rfl
    rw [hmode]
    split <;> rfl

theorem mask_blank (h : ∀ unit ∈ text, isWhitespace unit = true)
    (literal : Bool) (result : JsString) :
    text.foldlM maskUnit ⟨[], literal, result⟩ =
      some ⟨[], literal, result ++ text⟩ := by
  induction text generalizing result with
  | nil => simp
  | cons unit text ih =>
    rw [List.foldlM_cons, maskUnit_plain
      (isWhitespace_plain (h unit List.mem_cons_self)) (by simp)]
    refine (ih (fun other hmem => h other (List.mem_cons_of_mem unit hmem))
      (result ++ [unit])).trans ?_
    simp

theorem trim_blank (hbefore : ∀ unit ∈ before, isWhitespace unit = true)
    (hafter : ∀ unit ∈ after, isWhitespace unit = true) :
    trim (before ++ literalContent ++ after) = literalContent := by
  have hfront : (before ++ literalContent ++ after).dropWhile isWhitespace =
      literalContent ++ after := by
    rw [List.append_assoc, List.dropWhile_append_of_pos hbefore]
    rfl
  have hback : (literalContent ++ after).reverse.dropWhile isWhitespace =
      literalContent.reverse := by
    rw [List.reverse_append, List.dropWhile_append_of_pos]
    · rfl
    · exact fun unit hmem => hafter unit (List.mem_reverse.1 hmem)
  rw [trim, hfront, hback, List.reverse_reverse]

/-- A quotation and blanks are no prose that grants a rule. -/
theorem refused_of_quotation
    (hbefore : ∀ unit ∈ before, isWhitespace unit = true)
    (hquoted : Quotation quoted)
    (hafter : ∀ unit ∈ after, isWhitespace unit = true) :
    explicitRecurringTaskIntent knownZone (before ++ quoted ++ after) =
      none := by
  have hchoice : conversationChoice (before ++ quoted ++ after) = none := by
    obtain ⟨hopens, hcontent⟩ := hquoted
    rw [List.append_assoc]
    exact conversationChoice_none
      (conversationChoice_quotation (.mk hopens hcontent)
        (conversationChoice_blank hafter))
      (closing_isQuote hopens) (List.mem_append_left _ List.mem_cons_self)
      before
  have hrequest : scheduleConversationIntent (before ++ quoted ++ after) =
      (before ++ quoted ++ after, none) := by
    rw [scheduleConversationIntent, hchoice]
  cases htext : hasText quoted with
  | false =>
    have hfold : (before ++ quoted ++ after).foldlM maskUnit
        ⟨[], false, []⟩ = none := by
      rw [List.append_assoc, List.foldlM_append, mask_blank hbefore]
      show (quoted ++ after).foldlM maskUnit _ = _
      rw [List.foldlM_append, mask_quotation hquoted, htext]
      rfl
    apply refused_of_mask
    rw [hrequest, maskQuotedArguments, hfold]
  | true =>
    have hmask : maskQuotedArguments (before ++ quoted ++ after) =
        some (before ++ literalContent ++ after) := by
      have hfold : (before ++ quoted ++ after).foldlM maskUnit
          ⟨[], false, []⟩ =
            some ⟨[], true, before ++ literalContent ++ after⟩ := by
        rw [List.append_assoc, List.foldlM_append, mask_blank hbefore]
        show (quoted ++ after).foldlM maskUnit _ = _
        rw [List.foldlM_append, mask_quotation hquoted, htext]
        exact mask_blank hafter true _
      rw [maskQuotedArguments, hfold]
      rfl
    rw [explicitRecurringTaskIntent]
    split
    · rfl
    · rw [hrequest]
      simp only [hmask, Option.map_some, trim_blank hbefore hafter]
      rfl

/-- What quotations cannot do. -/
structure GrantsNothing (knownZone : JsString → Bool) : Prop where
  same : ∀ a b, Corresponds a b → passesFilters a = true →
    passesFilters b = true →
    (explicitRecurringTaskIntent knownZone a).map Intent.granted =
      (explicitRecurringTaskIntent knownZone b).map Intent.granted
  quotation : ∀ before quoted after : JsString,
    (∀ unit ∈ before, isWhitespace unit = true) → Quotation quoted →
    (∀ unit ∈ after, isWhitespace unit = true) →
    explicitRecurringTaskIntent knownZone (before ++ quoted ++ after) = none
  unbalanced : ∀ text, ¬ Balanced text →
    explicitRecurringTaskIntent knownZone text = none

/-- Whatever stands in the quotations. -/
theorem quoted_text_grants_nothing (knownZone : JsString → Bool) :
    GrantsNothing knownZone where
  same a b h ha hb := by
    rcases h.choice with ⟨hnone, hnone'⟩ | ⟨a', b', mode, hsome, hsome', h'⟩
    · have hselection : scheduleConversationIntent a = (a, none) := by
        rw [scheduleConversationIntent, hnone]
      have hselection' : scheduleConversationIntent b = (b, none) := by
        rw [scheduleConversationIntent, hnone']
      rw [granted_of_selection a a none ha hselection,
        granted_of_selection b b none hb hselection', h.mask]
    · have hselection : scheduleConversationIntent a = (a', some mode) := by
        rw [scheduleConversationIntent, hsome]
      have hselection' : scheduleConversationIntent b = (b', some mode) := by
        rw [scheduleConversationIntent, hsome']
      rw [granted_of_selection a a' _ ha hselection,
        granted_of_selection b b' _ hb hselection', h'.mask]
  quotation _ _ _ hbefore hquoted hafter :=
    refused_of_quotation hbefore hquoted hafter
  unbalanced _ h := refused_of_unbalanced h

end Allrice.RecurringTaskIntent
