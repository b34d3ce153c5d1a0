/-
Regular expressions as JavaScript matches them without the flag `u`: by code
units, with backtracking in a fixed order, so that the first way to match is
the one that counts.
-/
import Allrice.JsString

/-- A place in a text: what was passed, last unit first, and what comes. -/
structure Place where
  passed : JsString
  rest : JsString

/-- A regular expression.  Loops are loops over one class of code units. -/
inductive Pattern where
  | empty
  /-- `\b`. -/
  | boundary
  /-- One unit of a class. -/
  | one (units : UInt16 → Bool)
  /-- Greedy, at least so many units of a class. -/
  | many (units : UInt16 → Bool) (least : Nat)
  /-- Greedy, one unit of a class or none. -/
  | optional (units : UInt16 → Bool)
  | both (first second : Pattern)
  | either (first second : Pattern)

namespace Pattern

/-- `[A-Za-z]`. -/
def isLetter (unit : UInt16) : Bool :=
  let n := unit.toNat
  (0x41 ≤ n && n ≤ 0x5A) || (0x61 ≤ n && n ≤ 0x7A)

/-- `[0-9]`. -/
def isDigit (unit : UInt16) : Bool :=
  0x30 ≤ unit.toNat && unit.toNat ≤ 0x39

/-- `\w`. -/
def isWord (unit : UInt16) : Bool :=
  isLetter unit || isDigit unit || unit.toNat == 0x5F

/-- `.`, everything but a line terminator. -/
def isDot (unit : UInt16) : Bool :=
  let n := unit.toNat
  n != 0xA && n != 0xD && n != 0x2028 && n != 0x2029

/-- A class written as the characters in it. -/
def among (characters : String) (unit : UInt16) : Bool :=
  (JsString.ofString characters).contains unit

/-- The lower case of an ASCII letter, as the flag `i` compares. -/
def fold (unit : UInt16) : UInt16 :=
  let n := unit.toNat
  if 0x41 ≤ n && n ≤ 0x5A then UInt16.ofNat (n + 0x20) else unit

/-- The same class under the flag `i`. -/
def ignoringCase (unit : UInt16) : UInt16 → Bool :=
  fun other => fold other == fold unit

/-- The patterns one after the other. -/
def sequence : List Pattern → Pattern
  | [] => .empty
  | [pattern] => pattern
  | pattern :: more => .both pattern (sequence more)

/-- One of the patterns, the earlier ones first. -/
def oneOf : List Pattern → Pattern
  | [] => .one (fun _ => false)
  | [pattern] => pattern
  | pattern :: more => .either pattern (oneOf more)

/-- A text that stands for itself. -/
def literal (text : String) : Pattern :=
  sequence ((JsString.ofString text).map fun unit => .one (· == unit))

/-- A text that stands for itself in either case. -/
def literalIgnoringCase (text : String) : Pattern :=
  sequence ((JsString.ofString text).map fun unit => .one (ignoringCase unit))

/-- Where a greedy loop can stop, the farthest place first. -/
def reach (units : UInt16 → Bool) : JsString → JsString → List Place
  | passed, [] => [⟨passed, []⟩]
  | passed, unit :: rest =>
    if units unit then
      reach units (unit :: passed) rest ++ [⟨passed, unit :: rest⟩]
    else [⟨passed, unit :: rest⟩]

def step (units : UInt16 → Bool) (place : Place) : List Place :=
  match place.rest with
  | [] => []
  | unit :: rest =>
    if units unit then [⟨unit :: place.passed, rest⟩] else []

def atBoundary (place : Place) : Bool :=
  (place.passed.head?.any isWord) != (place.rest.head?.any isWord)

/-- Where a match from this place can end, in the order of the attempts. -/
def ends : Pattern → Place → List Place
  | .empty, place => [place]
  | .boundary, place => if atBoundary place then [place] else []
  | .one units, place => step units place
  | .many units least, place =>
    let places := reach units place.passed place.rest
    places.take (places.length - least)
  | .optional units, place => step units place ++ [place]
  | .both first second, place => (first.ends place).flatMap second.ends
  | .either first second, place => first.ends place ++ second.ends place

/-- Whether the pattern matches from this place on or from a later one. -/
def foundFrom (pattern : Pattern) : JsString → JsString → Bool
  | passed, [] => !(pattern.ends ⟨passed, []⟩).isEmpty
  | passed, unit :: rest =>
    !(pattern.ends ⟨passed, unit :: rest⟩).isEmpty ||
      foundFrom pattern (unit :: passed) rest

/-- `pattern.test(text)`. -/
def test (pattern : Pattern) (text : JsString) : Bool :=
  foundFrom pattern [] text

/-- `/^…/.test(text)`. -/
def matchesStart (pattern : Pattern) (text : JsString) : Bool :=
  !(pattern.ends ⟨[], text⟩).isEmpty

/-- `/^…$/.test(text)`. -/
def matchesWhole (pattern : Pattern) (text : JsString) : Bool :=
  (pattern.ends ⟨[], text⟩).any fun place => place.rest.isEmpty

/-- `/^…(?:[stop]|$)/.test(text)`. -/
def matchesUpTo (pattern : Pattern) (stop : UInt16 → Bool)
    (text : JsString) : Bool :=
  (pattern.ends ⟨[], text⟩).any fun place => place.rest.head?.all stop

/-- The units between a place and a later one. -/
def between (first last : Place) : JsString :=
  first.rest.take (last.passed.length - first.passed.length)

/-- `text.replace(/(kept)hidden/g, '$1replacement')`, for patterns that match
no empty text.  Every round takes a unit or a match, so that as many rounds as
there are units suffice. -/
def replaceFrom (kept hidden : Pattern) (replacement : JsString) :
    Nat → Place → JsString
  | 0, place => place.rest
  | rounds + 1, place =>
    let found := (kept.ends place).flatMap fun middle =>
      (hidden.ends middle).map fun last => (middle, last)
    match found.head?, place.rest with
    | some (middle, last), _ =>
      between place middle ++ replacement ++
        replaceFrom kept hidden replacement rounds last
    | none, [] => []
    | none, unit :: rest =>
      unit :: replaceFrom kept hidden replacement rounds
        ⟨unit :: place.passed, rest⟩

def replaceAll (kept hidden : Pattern) (replacement : String)
    (text : JsString) : JsString :=
  replaceFrom kept hidden (JsString.ofString replacement) text.length
    ⟨[], text⟩

/-- The same place in a text that starts earlier. -/
def shift (place : Place) (earlier : JsString) : Place :=
  ⟨place.passed ++ earlier, place.rest⟩

/-- Whether a pattern looks at nothing but what comes. -/
def looksAhead : Pattern → Bool
  | .boundary => false
  | .both first second => first.looksAhead && second.looksAhead
  | .either first second => first.looksAhead && second.looksAhead
  | _ => true

theorem reach_shift (units : UInt16 → Bool) (earlier rest : JsString) :
    ∀ passed, reach units (passed ++ earlier) rest =
      (reach units passed rest).map (shift · earlier) := by
  induction rest with
  | nil =>
    intro passed
    rfl
  | cons unit rest ih =>
    intro passed
    cases hunit : units unit with
    | true =>
      have hnext := ih (unit :: passed)
      rw [List.cons_append] at hnext
      simp only [reach, hunit, if_true, hnext, List.map_append]
      rfl
    | false =>
      simp only [reach, hunit]
      rfl

theorem step_shift (units : UInt16 → Bool) (place : Place)
    (earlier : JsString) :
    step units (shift place earlier) =
      (step units place).map (shift · earlier) := by
  obtain ⟨passed, rest⟩ := place
  cases rest with
  | nil => rfl
  | cons unit rest =>
    cases hunit : units unit with
    | true | false => simp [step, shift, hunit]

variable {units : UInt16 → Prop} {pattern : Pattern}

/-- Such a pattern matches the same way wherever the text starts. -/
theorem ends_shift (h : pattern.looksAhead = true) (place : Place)
    (earlier : JsString) :
    pattern.ends (shift place earlier) =
      (pattern.ends place).map (shift · earlier) := by
  induction pattern generalizing place with
  | empty => rfl
  | boundary => cases h
  | one units => exact step_shift units place earlier
  | many units least =>
    simp only [ends]
    rw [show (shift place earlier).passed = place.passed ++ earlier from rfl,
      show (shift place earlier).rest = place.rest from rfl,
      reach_shift, List.length_map, List.map_take]
  | optional units =>
    simp only [ends, step_shift, List.map_append]
    rfl
  | both first second ihFirst ihSecond =>
    simp only [looksAhead, Bool.and_eq_true] at h
    simp only [ends, ihFirst h.1, List.flatMap_map, List.map_flatMap]
    apply List.flatMap_congr
    intro middle _
    exact ihSecond h.2 middle
  | either first second ihFirst ihSecond =>
    simp only [looksAhead, Bool.and_eq_true] at h
    simp only [ends, ihFirst h.1, ihSecond h.2, List.map_append]

variable {rest : JsString} {own : UInt16 → Bool} {place last : Place}

/-- A pattern is found wherever it matches. -/
theorem foundFrom_of_ends (hlooks : pattern.looksAhead = true)
    (before : JsString) (h : (pattern.ends ⟨[], rest⟩).isEmpty = false)
    (passed : JsString) : foundFrom pattern passed (before ++ rest) = true := by
  induction before generalizing passed with
  | nil =>
    have hends := ends_shift hlooks ⟨[], rest⟩ passed
    rw [show shift ⟨[], rest⟩ passed = ⟨passed, rest⟩ from rfl] at hends
    have hfound : (pattern.ends ⟨passed, rest⟩).isEmpty = false := by
      rw [hends, List.isEmpty_map]
      exact h
    cases rest with
    | nil | cons unit rest => simp [foundFrom, hfound]
  | cons unit before ih =>
    simp only [List.cons_append, foundFrom, Bool.or_eq_true]
    apply Or.inr
    exact ih (unit :: passed)

theorem test_of_ends (hlooks : pattern.looksAhead = true) (before : JsString)
    (h : (pattern.ends ⟨[], rest⟩).isEmpty = false) :
    test pattern (before ++ rest) = true :=
  foundFrom_of_ends hlooks before h []

/-- Every class of the pattern lies within another one. -/
def Within (units : UInt16 → Prop) : Pattern → Prop
  | .empty => True
  | .boundary => True
  | .one own => ∀ unit, own unit = true → units unit
  | .many own _ => ∀ unit, own unit = true → units unit
  | .optional own => ∀ unit, own unit = true → units unit
  | .both first second => first.Within units ∧ second.Within units
  | .either first second => first.Within units ∧ second.Within units

theorem within_sequence {patterns : List Pattern}
    (h : ∀ pattern ∈ patterns, pattern.Within units) :
    (sequence patterns).Within units := by
  induction patterns with
  | nil => trivial
  | cons pattern more ih =>
    have hmore := ih fun other hother =>
      h other (List.mem_cons_of_mem _ hother)
    cases more with
    | nil => exact h pattern List.mem_cons_self
    | cons next more => exact ⟨h pattern List.mem_cons_self, hmore⟩

/-- What a match passes over. -/
def Passes (units : UInt16 → Prop) (first last : Place) : Prop :=
  ∃ passed, first.rest = passed ++ last.rest ∧
    ∀ unit ∈ passed, units unit

theorem Passes.refl (units : UInt16 → Prop) (place : Place) :
    Passes units place place :=
  ⟨[], rfl, by simp⟩

theorem Passes.trans {a b c : Place} (hab : Passes units a b)
    (hbc : Passes units b c) : Passes units a c := by
  obtain ⟨first, hfirst, hfirstUnits⟩ := hab
  obtain ⟨second, hsecond, hsecondUnits⟩ := hbc
  refine ⟨first ++ second, ?_, ?_⟩
  · rw [hfirst, hsecond, List.append_assoc]
  · intro unit hunit
    rcases List.mem_append.mp hunit with hunit | hunit
    · exact hfirstUnits unit hunit
    · exact hsecondUnits unit hunit

theorem step_passes (h : ∀ unit, own unit = true → units unit)
    (hlast : last ∈ step own place) : Passes units place last := by
  obtain ⟨passed, rest⟩ := place
  cases rest with
  | nil => simp [step] at hlast
  | cons unit rest =>
    by_cases hunit : own unit = true
    · simp only [step, hunit, if_true, List.mem_singleton] at hlast
      subst hlast
      exact ⟨[unit], rfl, by simpa using h unit hunit⟩
    · simp [step, hunit] at hlast

theorem reach_passes (h : ∀ unit, own unit = true → units unit)
    (rest : JsString) :
    ∀ passed, ∀ last ∈ reach own passed rest,
      Passes units ⟨passed, rest⟩ last := by
  induction rest with
  | nil =>
    intro passed last hlast
    rw [List.mem_singleton.mp hlast]
    exact Passes.refl units _
  | cons unit rest ih =>
    intro passed last hlast
    by_cases hunit : own unit = true
    · simp only [reach, hunit, if_true, List.mem_append,
        List.mem_singleton] at hlast
      rcases hlast with hlast | rfl
      · have hfirst : Passes units ⟨passed, unit :: rest⟩
            ⟨unit :: passed, rest⟩ :=
          ⟨[unit], rfl, by simpa using h unit hunit⟩
        exact hfirst.trans (ih (unit :: passed) last hlast)
      · exact Passes.refl units _
    · simp only [reach, hunit, Bool.false_eq_true, if_false,
        List.mem_singleton] at hlast
      rw [hlast]
      exact Passes.refl units _

/-- A match passes over units of the pattern's classes only. -/
theorem ends_passes (h : pattern.Within units)
    (hlast : last ∈ pattern.ends place) : Passes units place last := by
  induction pattern generalizing place last with
  | empty =>
    rw [List.mem_singleton.mp hlast]
    exact Passes.refl units _
  | boundary =>
    simp only [ends] at hlast
    split at hlast
    · rw [List.mem_singleton.mp hlast]
      exact Passes.refl units _
    · exact absurd hlast List.not_mem_nil
  | one own => exact step_passes h hlast
  | many own least =>
    exact reach_passes h place.rest place.passed last
      (List.mem_of_mem_take hlast)
  | optional own =>
    simp only [ends, List.mem_append, List.mem_singleton] at hlast
    rcases hlast with hlast | rfl
    · exact step_passes h hlast
    · exact Passes.refl units _
  | both first second ihFirst ihSecond =>
    simp only [ends, List.mem_flatMap] at hlast
    obtain ⟨middle, hmiddle, hlast⟩ := hlast
    exact (ihFirst h.1 hmiddle).trans (ihSecond h.2 hlast)
  | either first second ihFirst ihSecond =>
    simp only [ends, List.mem_append] at hlast
    rcases hlast with hlast | hlast
    · exact ihFirst h.1 hlast
    · exact ihSecond h.2 hlast

end Pattern
