/-
The canonical text of a JSON value, and what is read back from it: the same
value, with its members in the order of their keys and zeros without a sign.
-/
import Allrice.JsonText

namespace JsonText

open DigitText NumberText JsValue

mutual

/-- The canonical text of a value that JSON can spell. -/
def jsonText : JsValue → JsString
  | .null => nullText
  | .boolean value => booleanText value
  | .number value => toText value
  | .string text => quote text
  | .array elements => bracketed (elementTexts elements)
  | .object _ members => braced (memberTexts members)
  | .undefined => []
  | .other => []

def elementTexts : List (Option JsValue) → List JsString
  | [] => []
  | none :: rest => [] :: elementTexts rest
  | some value :: rest => jsonText value :: elementTexts rest

def memberTexts : List (JsString × JsValue) → List (JsString × JsString)
  | [] => []
  | (key, value) :: rest => (key, jsonText value) :: memberTexts rest

end

mutual

/-- The value with its members in the order of their keys, and without the
sign of zeros. -/
def normal : JsValue → JsValue
  | .number value => .number (unsignedZero value)
  | .array elements => .array (normalElements elements)
  | .object prototype members => .object prototype (sortByKey (normalMembers members))
  | .undefined => .undefined
  | .null => .null
  | .boolean value => .boolean value
  | .string text => .string text
  | .other => .other

def normalElements : List (Option JsValue) → List (Option JsValue)
  | [] => []
  | none :: rest => none :: normalElements rest
  | some value :: rest => some (normal value) :: normalElements rest

def normalMembers : List (JsString × JsValue) → List (JsString × JsValue)
  | [] => []
  | (key, value) :: rest => (key, normal value) :: normalMembers rest

end

/-- What a member looks like before its text is put together. -/
def memberText (member : JsString × JsValue) : JsString × JsString :=
  (member.1, jsonText member.2)

def normalMember (member : JsString × JsValue) : JsString × JsValue :=
  (member.1, normal member.2)

theorem elementTexts_some (elements : List JsValue) :
    elementTexts (elements.map some) = elements.map jsonText := by
  induction elements with
  | nil => rfl
  | cons element rest ih =>
    rw [List.map_cons, elementTexts, ih, List.map_cons]

theorem memberTexts_eq (members : List (JsString × JsValue)) :
    memberTexts members = members.map memberText := by
  induction members with
  | nil => rfl
  | cons member rest ih =>
    rw [memberTexts, ih, List.map_cons]
    rfl

theorem normalElements_some (elements : List JsValue) :
    normalElements (elements.map some) = (elements.map normal).map some := by
  induction elements with
  | nil => rfl
  | cons element rest ih =>
    rw [List.map_cons, normalElements, ih, List.map_cons, List.map_cons]

theorem normalMembers_eq (members : List (JsString × JsValue)) :
    normalMembers members = members.map normalMember := by
  induction members with
  | nil => rfl
  | cons member rest ih =>
    rw [normalMembers, ih, List.map_cons]
    rfl

/-- A member's text in an object. -/
def spelled (member : JsString × JsValue) : JsString :=
  quote member.1 ++ colon :: jsonText member.2

theorem jsonText_array (elements : List JsValue) :
    jsonText (.array (elements.map some)) =
      openBracket ::
        (join (elements.map jsonText) ++ [closeBracket]) := by
  rw [jsonText, elementTexts_some]
  rfl

theorem jsonText_object (prototype : Prototype)
    (members : List (JsString × JsValue)) :
    jsonText (.object prototype members) =
      openBrace ::
        (join ((sortByKey members).map spelled) ++ [closeBrace]) := by
  rw [jsonText, memberTexts_eq, braced,
    sortByKey_map memberText (fun _ => rfl), List.map_map]
  rfl

theorem normal_array (elements : List JsValue) :
    normal (.array (elements.map some)) =
      .array ((elements.map normal).map some) := by
  rw [normal, normalElements_some]

theorem normal_object (prototype : Prototype) (members : List (JsString × JsValue)) :
    normal (.object prototype members) =
      .object prototype ((sortByKey members).map normalMember) := by
  rw [normal, normalMembers_eq, sortByKey_map normalMember fun _ => rfl]

/-- The first unit of a value's text. -/
structure Starts (unit : UInt16) : Prop where
  visible : isSpace unit = false
  open_ : unit ≠ closeBracket

/-- A number starts with a digit or a minus sign. -/
def StartsNumber (unit : UInt16) : Prop :=
  isDigit unit = true ∨ unit = minus

variable {unit : UInt16} {value left right : JsValue} {elements : List JsValue}
  {members : List (JsString × JsValue)}

theorem StartsNumber.ne (h : StartsNumber unit) {other : UInt16}
    (hother : isDigit other = false) (hminus : other ≠ minus) :
    unit ≠ other := by
  rintro rfl
  rcases h with hdigit | hsame
  · rw [hdigit] at hother
    cases hother
  · exact hminus hsame

theorem StartsNumber.starts (h : StartsNumber unit) : Starts unit := by
  constructor
  · simp only [isSpace, Bool.or_eq_false_iff, beq_eq_false_iff_ne]
    exact ⟨⟨⟨h.ne (by decide) (by decide), h.ne (by decide) (by decide)⟩,
      h.ne (by decide) (by decide)⟩, h.ne (by decide) (by decide)⟩
  · exact h.ne (by decide) (by decide)

theorem numeral_head {whole fraction : JsString}
    (h : IsNumeral whole fraction) (exponent : JsString) :
    ∃ unit rest, numeral whole fraction exponent = unit :: rest ∧
      isDigit unit = true := by
  cases hwhole : whole with
  | nil => exact absurd hwhole h.notEmpty
  | cons unit rest =>
    have hunit := h.wholeDigits unit (by rw [hwhole]; simp)
    exact ⟨unit, _, rfl, hunit⟩

theorem toText_head {value : JsNumber} (h : value.isFinite = true) :
    ∃ unit rest, toText value = unit :: rest ∧ StartsNumber unit := by
  cases value with
  | nan | infinity negative => cases h
  | finite negative magnitude =>
    by_cases hunits : magnitude.units = 0
    · refine ⟨digitUnit 0, [], ?_, .inl (by decide)⟩
      simp only [toText, if_pos hunits]
    · have hdigits : (JsNumber.decimalOf magnitude).1 ≠ 0 := by
        intro hzero
        have hreads := JsNumber.decimalOf_reads magnitude
        rw [hzero] at hreads
        exact hunits (JsNumber.units_of_zero hreads)
      obtain ⟨whole, fraction, power, hnumeral, htext, _⟩ :=
        positiveText_numeral hdigits (JsNumber.decimalOf magnitude).2
          negative
      obtain ⟨unit, rest, hhead, hunit⟩ :=
        numeral_head hnumeral (optionalExponent power)
      simp only [toText, if_neg hunits, htext, hhead]
      cases negative with
      | false => exact ⟨unit, rest, rfl, .inl hunit⟩
      | true => exact ⟨minus, unit :: rest, rfl, .inr rfl⟩

theorem skip_cons (h : isSpace unit = false) (rest : JsString) :
    skip (unit :: rest) = unit :: rest := by
  rw [skip, List.dropWhile_cons, h]
  rfl

theorem jsonText_head (h : IsJson value) :
    ∃ unit rest, jsonText value = unit :: rest ∧ Starts unit := by
  cases h with
  | null => exact ⟨0x6E, _, rfl, by decide, by decide⟩
  | boolean value =>
    cases value with
    | false => exact ⟨0x66, _, rfl, by decide, by decide⟩
    | true => exact ⟨0x74, _, rfl, by decide, by decide⟩
  | number value hfinite =>
    obtain ⟨unit, rest, hhead, hunit⟩ := toText_head hfinite
    exact ⟨unit, rest, hhead, hunit.starts⟩
  | string text => exact ⟨quotation, _, rfl, by decide, by decide⟩
  | array elements helements =>
    rw [jsonText_array]
    exact ⟨openBracket, _, rfl, by decide, by decide⟩
  | object members hkeys hmembers =>
    rw [jsonText_object]
    exact ⟨openBrace, _, rfl, by decide, by decide⟩

theorem endsNumber_cons (hdigit : isDigit unit = false) (hpoint : unit ≠ point)
    (he : unit ≠ 0x65) (hE : unit ≠ 0x45) (rest : JsString) :
    EndsNumber (unit :: rest) := by
  intro other hother
  cases hother
  exact ⟨hdigit, hpoint, he, hE⟩

/-- What the parser finds at the front of a text that starts with a value's
text. -/
def ReadsBack (value : JsValue) : Prop :=
  ∀ fuel rest, EndsNumber rest → 2 * (jsonText value).length < fuel →
    parseValue fuel (jsonText value ++ rest) = some (normal value, rest)

theorem parseValue_cons (fuel : Nat) (h : isSpace unit = false)
    (rest : JsString) :
    parseValue (fuel + 1) (unit :: rest) =
      if unit = quotation then
        (scanChars rest).map fun (text, rest) => (.string text, rest)
      else if unit = openBracket then
        if (skip rest).head? = some closeBracket then
          some (.array [], (skip rest).tail)
        else parseElements fuel [] rest
      else if unit = openBrace then
        if (skip rest).head? = some closeBrace then
          some (.object .object [], (skip rest).tail)
        else parseMembers fuel [] rest
      else if unit = 0x74 then
        scanWord (JsString.ofString "true") (.boolean true) (unit :: rest)
      else if unit = 0x66 then
        scanWord (JsString.ofString "false") (.boolean false) (unit :: rest)
      else if unit = 0x6E then
        scanWord (JsString.ofString "null") .null (unit :: rest)
      else
        (scanNumber (unit :: rest)).map fun (value, rest) =>
          (.number value, rest) := by
  rw [parseValue, skip_cons h]

theorem scanWord_append (word : JsString) (value : JsValue)
    (rest : JsString) :
    scanWord word value (word ++ rest) = some (value, rest) := by
  have hprefix : word.isPrefixOf (word ++ rest) = true :=
    List.isPrefixOf_iff_prefix.mpr (List.prefix_append word rest)
  rw [scanWord, if_pos hprefix, List.drop_left]

theorem readsBack_null : ReadsBack .null := by
  intro fuel rest _ hfuel
  cases fuel with
  | zero => omega
  | succ fuel =>
    have hword := scanWord_append nullText .null rest
    have htext : nullText = [0x6E, 0x75, 0x6C, 0x6C] := by decide
    rw [jsonText, normal, ← hword, htext]
    simp only [List.cons_append, List.nil_append]
    rw [parseValue_cons fuel (by decide)]
    rfl

theorem readsBack_boolean (value : Bool) : ReadsBack (.boolean value) := by
  intro fuel rest _ hfuel
  cases fuel with
  | zero => omega
  | succ fuel =>
    have hword := scanWord_append (booleanText value) (.boolean value) rest
    rw [jsonText, normal, ← hword]
    cases value with
    | false =>
      have htext : booleanText false =
          [0x66, 0x61, 0x6C, 0x73, 0x65] := by decide
      rw [htext]
      simp only [List.cons_append, List.nil_append]
      rw [parseValue_cons fuel (by decide)]
      rfl
    | true =>
      have htext : booleanText true = [0x74, 0x72, 0x75, 0x65] := by
        decide
      rw [htext]
      simp only [List.cons_append, List.nil_append]
      rw [parseValue_cons fuel (by decide)]
      rfl

theorem readsBack_string (text : JsString) : ReadsBack (.string text) := by
  intro fuel rest _ hfuel
  cases fuel with
  | zero => omega
  | succ fuel =>
    have hscan := scanChars_quote text rest
    rw [jsonText, normal, quote, List.cons_append, List.append_assoc,
      parseValue_cons fuel (by decide), if_pos rfl]
    change (scanChars (_ ++ quotation :: rest)).map _ = _
    rw [hscan]
    rfl

theorem toText_unsignedZero (value : JsNumber) :
    toText (unsignedZero value) = toText value := by
  cases value with
  | nan | infinity negative => rfl
  | finite negative magnitude =>
    by_cases hunits : magnitude.units = 0
    · simp only [unsignedZero, toText, if_pos hunits]
    · have hsign : (magnitude.units != 0) = true := by simpa using hunits
      rw [unsignedZero, hsign, Bool.and_true]

variable {rest key : JsString}

/-- A number is read back without the sign of zero. -/
theorem scanNumber_unsigned {value : JsNumber} (h : value.isFinite = true)
    (hrest : EndsNumber rest) :
    scanNumber (toText value ++ rest) = some (unsignedZero value, rest) := by
  rw [← toText_unsignedZero value]
  cases value with
  | nan | infinity negative => cases h
  | finite negative magnitude =>
    apply scanNumber_toText _ hrest
    intro hunits
    rw [hunits]
    simp

theorem readsBack_number {value : JsNumber} (h : value.isFinite = true) :
    ReadsBack (.number value) := by
  intro fuel rest hrest hfuel
  cases fuel with
  | zero => omega
  | succ fuel =>
    obtain ⟨unit, tail, hhead, hunit⟩ := toText_head h
    have hscan := scanNumber_unsigned h hrest
    rw [hhead, List.cons_append] at hscan
    rw [jsonText, normal, hhead, List.cons_append,
      parseValue_cons fuel hunit.starts.visible,
      if_neg (hunit.ne (by decide) (by decide)),
      if_neg (hunit.ne (by decide) (by decide)),
      if_neg (hunit.ne (by decide) (by decide)),
      if_neg (hunit.ne (by decide) (by decide)),
      if_neg (hunit.ne (by decide) (by decide)),
      if_neg (hunit.ne (by decide) (by decide)), hscan]
    rfl

theorem join_cons (part : JsString) {parts : List JsString}
    (h : parts ≠ []) : join (part :: parts) = part ++ comma :: join parts := by
  cases parts with
  | nil => exact absurd rfl h
  | cons next parts => rfl

theorem parseElements_texts (elements : List JsValue) (hne : elements ≠ [])
    (h : ∀ element ∈ elements, ReadsBack element) :
    ∀ (done : List JsValue) (fuel : Nat) (rest : JsString),
      2 * (join (elements.map jsonText)).length + 1 < fuel →
      parseElements fuel done
          (join (elements.map jsonText) ++ closeBracket :: rest) =
        some (.array ((done ++ elements.map normal).map some), rest) := by
  induction elements with
  | nil => exact absurd rfl hne
  | cons element more ih =>
    intro done fuel rest hfuel
    have helement := h element (by simp)
    cases fuel with
    | zero => omega
    | succ fuel =>
      by_cases hmore : more = []
      · subst hmore
        simp only [List.map_cons, List.map_nil, join] at hfuel ⊢
        have hread := helement fuel (closeBracket :: rest)
          (endsNumber_cons (by decide) (by decide) (by decide) (by decide)
            rest) (by omega)
        rw [parseElements, hread]
        simp only [skip_cons (show isSpace closeBracket = false by decide),
          if_true]
        rw [if_neg (by decide)]
      · have hmap : more.map jsonText ≠ [] := by simpa using hmore
        rw [List.map_cons, join_cons _ hmap, List.length_append,
          List.length_cons] at hfuel
        have hread := helement fuel
          (comma :: (join (more.map jsonText) ++ closeBracket :: rest))
          (endsNumber_cons (by decide) (by decide) (by decide) (by decide)
            _) (by omega)
        have hrest := ih hmore
          (fun element helement => h element (by simp [helement]))
          (done ++ [normal element]) fuel rest (by omega)
        rw [List.map_cons, join_cons _ hmap, List.append_assoc,
          List.cons_append, parseElements, hread]
        simp only [skip_cons (show isSpace comma = false by decide),
          if_true]
        rw [hrest, List.append_assoc]
        rfl

theorem join_head (hne : elements ≠ [])
    (h : ∀ element ∈ elements, IsJson element) (rest : JsString) :
    (skip (join (elements.map jsonText) ++ rest)).head? ≠
      some closeBracket := by
  cases elements with
  | nil => exact absurd rfl hne
  | cons element more =>
    obtain ⟨unit, tail, htext, hunit⟩ := jsonText_head (h element (by simp))
    have hjoin : ∃ tail', join ((element :: more).map jsonText) ++ rest =
        unit :: tail' := by
      cases more with
      | nil => exact ⟨tail ++ rest, by simp [join, htext]⟩
      | cons next more =>
        refine ⟨tail ++ comma :: join ((next :: more).map jsonText) ++
          rest, ?_⟩
        rw [List.map_cons, join_cons _ (by simp), htext]
        rfl
    obtain ⟨tail', hjoin⟩ := hjoin
    rw [hjoin, skip_cons hunit.visible, List.head?_cons]
    intro hsame
    exact hunit.open_ (Option.some.inj hsame)

theorem readsBack_array (hjson : ∀ element ∈ elements, IsJson element)
    (h : ∀ element ∈ elements, ReadsBack element) :
    ReadsBack (.array (elements.map some)) := by
  intro fuel rest _ hfuel
  cases fuel with
  | zero => omega
  | succ fuel =>
    rw [jsonText_array] at hfuel ⊢
    rw [normal_array, List.cons_append, List.append_assoc,
      parseValue_cons fuel (by decide), if_neg (by decide), if_pos rfl]
    by_cases hne : elements = []
    · subst hne
      have hskip : skip (closeBracket :: rest) = closeBracket :: rest :=
        skip_cons (by decide) rest
      simp only [List.map_nil, join, List.nil_append, List.cons_append,
        hskip, List.head?_cons, if_true, List.tail_cons]
    · rw [if_neg (join_head hne hjson _)]
      simp only [List.length_cons, List.length_append] at hfuel
      have hread := parseElements_texts elements hne h [] fuel rest
        (by omega)
      exact hread

theorem define_new {done : List (JsString × JsValue)}
    (h : key ∉ done.map Prod.fst) (value : JsValue) :
    define done key value = done ++ [(key, value)] := by
  rw [define, if_neg h]

theorem spelled_append (member : JsString × JsValue) (rest : JsString) :
    spelled member ++ rest =
      quotation :: ((JsString.codePoints member.1).flatMap escapePoint ++
        quotation :: colon :: (jsonText member.2 ++ rest)) := by
  simp [spelled, quote]

/-- One member, read up to what follows its value. -/
theorem parseMembers_member {member : JsString × JsValue}
    (h : ReadsBack member.2) {fuel : Nat}
    (hfuel : 2 * (spelled member).length < fuel)
    (done : List (JsString × JsValue)) (hspace : isSpace unit = false)
    (hends : EndsNumber (unit :: rest)) :
    parseMembers (fuel + 1) done (spelled member ++ unit :: rest) =
      if unit = comma then
        parseMembers fuel (define done member.1 (normal member.2)) rest
      else if unit = closeBrace then
        some (.object .object (define done member.1 (normal member.2)), rest)
      else none := by
  have hlength : (jsonText member.2).length < (spelled member).length := by
    simp only [spelled, List.length_append, List.length_cons]
    omega
  have hread := h fuel (unit :: rest) hends (by omega)
  rw [spelled_append, parseMembers,
    skip_cons (show isSpace quotation = false by decide)]
  simp only [if_true, scanChars_quote,
    skip_cons (show isSpace colon = false by decide), List.head?_cons,
    List.tail_cons, hread, skip_cons hspace]

theorem parseMembers_texts (members : List (JsString × JsValue))
    (hne : members ≠ []) (h : ∀ member ∈ members, ReadsBack member.2) :
    ∀ (done : List (JsString × JsValue)) (fuel : Nat) (rest : JsString),
      (done.map Prod.fst ++ members.map Prod.fst).Nodup →
      2 * (join (members.map spelled)).length + 1 < fuel →
      parseMembers fuel done
          (join (members.map spelled) ++ closeBrace :: rest) =
        some (.object .object (done ++ members.map normalMember), rest) := by
  induction members with
  | nil => exact absurd rfl hne
  | cons member more ih =>
    intro done fuel rest hkeys hfuel
    have hmember := h member (by simp)
    have hnew : member.1 ∉ done.map Prod.fst := by
      intro hmem
      rw [List.nodup_append] at hkeys
      exact hkeys.2.2 member.1 hmem member.1 (by simp) rfl
    cases fuel with
    | zero => omega
    | succ fuel =>
      by_cases hmore : more = []
      · subst hmore
        simp only [List.map_cons, List.map_nil, join] at hfuel ⊢
        rw [parseMembers_member hmember (by omega) done (by decide)
          (endsNumber_cons (by decide) (by decide) (by decide) (by decide)
            rest), if_neg (by decide), if_pos rfl, define_new hnew]
        rfl
      · have hmap : more.map spelled ≠ [] := by simpa using hmore
        rw [List.map_cons, join_cons _ hmap, List.length_append,
          List.length_cons] at hfuel
        have hrest := ih hmore
          (fun member hmember => h member (by simp [hmember]))
          (done ++ [(member.1, normal member.2)]) fuel rest
          (by simpa [List.append_assoc] using hkeys) (by omega)
        rw [List.map_cons, join_cons _ hmap, List.append_assoc,
          List.cons_append,
          parseMembers_member hmember (by omega) done (by decide)
            (endsNumber_cons (by decide) (by decide) (by decide)
              (by decide) _), if_pos rfl, define_new hnew, hrest,
          List.append_assoc]
        rfl

theorem readsBack_object (hkeys : (members.map Prod.fst).Nodup)
    (h : ∀ member ∈ members, ReadsBack member.2) :
    ReadsBack (.object .object members) := by
  intro fuel rest _ hfuel
  cases fuel with
  | zero => omega
  | succ fuel =>
    have hperm := sortByKey_perm members
    have hsorted : ((sortByKey members).map Prod.fst).Nodup :=
      ((hperm.map Prod.fst).nodup_iff).mpr hkeys
    have hread : ∀ member ∈ sortByKey members, ReadsBack member.2 :=
      fun member hmember => h member (hperm.mem_iff.mp hmember)
    rw [jsonText_object] at hfuel ⊢
    rw [normal_object, List.cons_append, List.append_assoc,
      parseValue_cons fuel (by decide), if_neg (by decide),
      if_neg (by decide), if_pos rfl]
    generalize sortByKey members = sorted at *
    by_cases hne : sorted = []
    · subst hne
      have hskip : skip (closeBrace :: rest) = closeBrace :: rest :=
        skip_cons (by decide) rest
      simp only [List.map_nil, join, List.nil_append, List.cons_append,
        hskip, List.head?_cons, if_true, List.tail_cons]
    · have hhead : (skip (join (sorted.map spelled) ++
          ([closeBrace] ++ rest))).head? ≠ some closeBrace := by
        cases sorted with
        | nil => exact absurd rfl hne
        | cons member more =>
          have hjoin : ∃ tail, join ((member :: more).map spelled) ++
              ([closeBrace] ++ rest) = quotation :: tail := by
            cases more with
            | nil | cons next more => exact ⟨_, rfl⟩
          obtain ⟨tail, hjoin⟩ := hjoin
          rw [hjoin, skip_cons (by decide), List.head?_cons]
          decide
      rw [if_neg hhead]
      simp only [List.length_cons, List.length_append] at hfuel
      exact parseMembers_texts sorted hne hread [] fuel rest
        (by simpa using hsorted) (by omega)

/-- The text of a JSON value is read back. -/
theorem readsBack (h : IsJson value) : ReadsBack value := by
  induction h with
  | null => exact readsBack_null
  | boolean value => exact readsBack_boolean value
  | number value hfinite => exact readsBack_number hfinite
  | string text => exact readsBack_string text
  | array elements helements ih => exact readsBack_array helements ih
  | object members hkeys hmembers ih => exact readsBack_object hkeys ih

theorem parse_jsonText (h : IsJson value) :
    parse (jsonText value) = some (normal value) := by
  have hread := readsBack h (2 * (jsonText value).length + 2) []
    (by simp [EndsNumber]) (by omega)
  rw [List.append_nil] at hread
  rw [parse, hread]
  rfl

theorem isJson_elements (h : IsJson (.array (elements.map some))) :
    ∀ element ∈ elements, IsJson element := by
  generalize hvalue : JsValue.array (elements.map some) = value at h
  cases h with
  | array others helements =>
    injection hvalue with hsame
    rw [(Option.some_injective _).list_map hsame]
    exact helements
  | null | boolean value | number value hfinite | string text
  | object members hkeys hmembers => cases hvalue

theorem isJson_object (h : IsJson (.object .object members)) :
    (members.map Prod.fst).Nodup ∧ ∀ member ∈ members, IsJson member.2 := by
  cases h with
  | object _ hkeys hmembers => exact ⟨hkeys, hmembers⟩

theorem memberText_keys (members : List (JsString × JsValue)) :
    (members.map memberText).map Prod.fst = members.map Prod.fst := by
  rw [List.map_map]
  rfl

/-- Members with the same keys and the same text under each of them. -/
theorem memberTexts_perm {left right : List (JsString × JsValue)}
    (hleft : (left.map Prod.fst).Nodup) (hright : (right.map Prod.fst).Nodup)
    (hkeys : (left.map Prod.fst).Perm (right.map Prod.fst))
    (h : ∀ key a b, (key, a) ∈ left → (key, b) ∈ right →
      jsonText a = jsonText b) :
    (left.map memberText).Perm (right.map memberText) := by
  have hnodup : ∀ members : List (JsString × JsValue),
      (members.map Prod.fst).Nodup → (members.map memberText).Nodup := by
    intro members hmembers
    apply List.Nodup.of_map Prod.fst
    rw [memberText_keys]
    exact hmembers
  apply (List.perm_ext_iff_of_nodup (hnodup left hleft)
    (hnodup right hright)).mpr
  rintro ⟨key, text⟩
  simp only [List.mem_map, memberText, Prod.mk.injEq, Prod.exists]
  constructor
  · rintro ⟨key, a, hmem, rfl, rfl⟩
    have hkey : key ∈ right.map Prod.fst :=
      hkeys.mem_iff.mp (List.mem_map_of_mem hmem)
    rcases List.mem_map.mp hkey with ⟨⟨_, b⟩, hb, rfl⟩
    exact ⟨_, b, hb, rfl, (h _ a b hmem hb).symm⟩
  · rintro ⟨key, b, hmem, rfl, rfl⟩
    have hkey : key ∈ left.map Prod.fst :=
      hkeys.mem_iff.mpr (List.mem_map_of_mem hmem)
    rcases List.mem_map.mp hkey with ⟨⟨_, a⟩, ha, rfl⟩
    exact ⟨_, a, ha, rfl, h _ a b ha hmem⟩

/-- The text does not depend on the order of keys, or on the sign of zero. -/
theorem jsonText_of_same (h : SameJson left right) (hleft : IsJson left)
    (hright : IsJson right) : jsonText left = jsonText right := by
  induction h with
  | null | boolean value | string text => rfl
  | number left right hsame =>
    have htext := congrArg toText hsame
    rw [toText_unsignedZero, toText_unsignedZero] at htext
    exact htext
  | array left right hlength helements ih =>
    have hleft := isJson_elements hleft
    have hright := isJson_elements hright
    have htexts : left.map jsonText = right.map jsonText := by
      apply List.ext_getElem (by simpa using hlength)
      intro i hi hi'
      rw [List.length_map] at hi hi'
      rw [List.getElem_map, List.getElem_map]
      exact ih i _ _ (List.getElem?_eq_getElem hi)
        (List.getElem?_eq_getElem hi') (hleft _ (List.getElem_mem hi))
        (hright _ (List.getElem_mem hi'))
    rw [jsonText_array, jsonText_array, htexts]
  | object left right hkeys hmembers ih =>
    obtain ⟨hleftKeys, hleft⟩ := isJson_object hleft
    obtain ⟨hrightKeys, hright⟩ := isJson_object hright
    have hperm := memberTexts_perm hleftKeys hrightKeys hkeys
      fun key a b ha hb => ih key a b ha hb (hleft _ ha) (hright _ hb)
    have hsorted := sortByKey_of_perm
      (by rw [memberText_keys]; exact hleftKeys) hperm
    rw [jsonText, jsonText, memberTexts_eq, memberTexts_eq, braced, braced,
      hsorted]

theorem normal_keys (members : List (JsString × JsValue)) :
    (((sortByKey members).map normalMember).map Prod.fst).Perm
      (members.map Prod.fst) := by
  rw [List.map_map]
  exact (sortByKey_perm members).map Prod.fst

/-- The members of a normal object are the normal members. -/
theorem mem_normal :
    (key, value) ∈ (sortByKey members).map normalMember ↔
      ∃ a, (key, a) ∈ members ∧ normal a = value := by
  simp only [List.mem_map, normalMember, Prod.mk.injEq, Prod.exists,
    (sortByKey_perm members).mem_iff]
  constructor
  · rintro ⟨key, a, hmem, rfl, rfl⟩
    exact ⟨a, hmem, rfl⟩
  · rintro ⟨a, hmem, rfl⟩
    exact ⟨key, a, hmem, rfl, rfl⟩

/-- What is read back is the same value. -/
theorem same_normal (h : IsJson value) : SameJson value (normal value) := by
  induction h with
  | null => exact SameJson.null
  | boolean value => exact SameJson.boolean value
  | string text => exact SameJson.string text
  | number value hfinite =>
    apply SameJson.number
    cases value with
    | nan | infinity negative => rfl
    | finite negative magnitude =>
      simp only [unsignedZero, Bool.and_assoc, Bool.and_self]
  | array elements helements ih =>
    rw [normal_array]
    apply SameJson.array
    · rw [List.length_map]
    · intro i a b ha hb
      rw [List.getElem?_map, ha] at hb
      cases hb
      exact ih a (List.mem_of_getElem? ha)
  | object members hkeys hmembers ih =>
    rw [normal_object]
    apply SameJson.object
    · exact (normal_keys members).symm
    · intro key a b ha hb
      obtain ⟨a', ha', rfl⟩ := mem_normal.mp hb
      have hsame := eq_of_same_key hkeys ha ha' rfl
      cases hsame
      exact ih _ ha

/-- Values with one normal form are the same. -/
theorem same_of_normal (hleft : IsJson left) (hright : IsJson right)
    (h : normal left = normal right) : SameJson left right := by
  induction hleft generalizing right with
  | null =>
    cases hright with
    | null => exact SameJson.null
    | _ => cases h
  | boolean value =>
    cases hright with
    | boolean other =>
      cases h
      exact SameJson.boolean value
    | _ => cases h
  | string text =>
    cases hright with
    | string other =>
      cases h
      exact SameJson.string text
    | _ => cases h
  | number value hfinite =>
    cases hright with
    | number other hfinite' =>
      injection h with hsame
      exact SameJson.number value other hsame
    | _ => cases h
  | array elements helements ih =>
    cases hright with
    | array others hothers =>
      rw [normal_array, normal_array] at h
      injection h with hsame
      have hnormal := (Option.some_injective _).list_map hsame
      apply SameJson.array
      · have hlength := congrArg List.length hnormal
        rwa [List.length_map, List.length_map] at hlength
      · intro i a b ha hb
        have hat := congrArg (fun values => values[i]?) hnormal
        simp only [List.getElem?_map, ha, hb, Option.map_some,
          Option.some.injEq] at hat
        exact ih a (List.mem_of_getElem? ha)
          (hothers b (List.mem_of_getElem? hb)) hat
    | _ => cases h
  | object members hkeys hmembers ih =>
    cases hright with
    | object others hkeys' hothers =>
      rw [normal_object, normal_object] at h
      injection h with _ hsame
      have hleftKeys := normal_keys members
      rw [hsame] at hleftKeys
      apply SameJson.object
      · exact hleftKeys.symm.trans (normal_keys others)
      · intro key a b ha hb
        have hmem := mem_normal.mpr ⟨a, ha, rfl⟩
        rw [hsame] at hmem
        obtain ⟨b', hb', hnormal⟩ := mem_normal.mp hmem
        have hother := eq_of_same_key hkeys' hb hb' rfl
        cases hother
        exact ih _ ha (hothers _ hb) hnormal.symm
    | _ => cases h

/-- Two JSON values have one text exactly when they are the same. -/
theorem jsonText_eq_iff (hleft : IsJson left) (hright : IsJson right) :
    jsonText left = jsonText right ↔ SameJson left right := by
  constructor
  · intro htext
    have hparse := parse_jsonText hleft
    rw [htext, parse_jsonText hright] at hparse
    exact same_of_normal hleft hright (Option.some.inj hparse).symm
  · intro hsame
    exact jsonText_of_same hsame hleft hright

end JsonText
