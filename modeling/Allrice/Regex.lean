/-
Regular expressions with groups, as JavaScript matches them: alternatives and
loops are tried in order, and the first way to match is the one that counts.
-/
import Allrice.JsString

/-- A place in a text (what was passed, last unit first, and what comes), and
what the groups have captured so far, latest first. -/
structure Spot where
  passed : JsString
  rest : JsString
  groups : List (Nat × JsString)

inductive Regex where
  /-- An assertion about the units on the two sides. -/
  | looks (holds : JsString → JsString → Bool)
  /-- One unit of a class. -/
  | one (units : UInt16 → Bool)
  /-- Such a text comes, or does not come; nothing is consumed. -/
  | ahead (wanted : Bool) (body : Regex)
  | both (first second : Regex)
  | either (first second : Regex)
  /-- Any number of times, many before few unless it is lazy. -/
  | loop (lazy : Bool) (body : Regex)
  | group (number : Nat) (body : Regex)

namespace Regex

/-- Every round of a loop has to consume something, so that there are at most as
many rounds as units. -/
def rounds (lazy : Bool) (body : Spot → List Spot) : Nat → Spot → List Spot
  | 0, spot => [spot]
  | count + 1, spot =>
    let more := ((body spot).filter fun next =>
      next.rest.length < spot.rest.length).flatMap (rounds lazy body count)
    if lazy then spot :: more else more ++ [spot]

def step (units : UInt16 → Bool) (spot : Spot) : List Spot :=
  match spot.rest with
  | [] => []
  | unit :: rest =>
    if units unit then [{ spot with passed := unit :: spot.passed, rest }]
    else []

/-- Where a match from this spot can end, in the order of the attempts. -/
def ends : Regex → Spot → List Spot
  | .looks holds, spot => if holds spot.passed spot.rest then [spot] else []
  | .one units, spot => step units spot
  | .ahead wanted body, spot =>
    if (body.ends spot).isEmpty != wanted then [spot] else []
  | .both first second, spot => (first.ends spot).flatMap second.ends
  | .either first second, spot => first.ends spot ++ second.ends spot
  | .loop lazy body, spot => rounds lazy body.ends spot.rest.length spot
  | .group number body, spot =>
    (body.ends spot).map fun last =>
      { last with
        groups := (number, spot.rest.take
          (spot.rest.length - last.rest.length)) :: last.groups }

def empty : Regex := .looks fun _ _ => true

def start : Regex := .looks fun passed _ => passed.isEmpty

def stop : Regex := .looks fun _ rest => rest.isEmpty

def sequence : List Regex → Regex
  | [] => empty
  | [regex] => regex
  | regex :: more => .both regex (sequence more)

def oneOf : List Regex → Regex
  | [] => .one fun _ => false
  | [regex] => regex
  | regex :: more => .either regex (oneOf more)

/-- A class written as the characters in it. -/
def among (characters : String) : Regex :=
  .one fun unit => (JsString.ofString characters).contains unit

def literal (text : String) : Regex :=
  sequence ((JsString.ofString text).map fun unit => .one (· == unit))

def words (texts : List String) : Regex := oneOf (texts.map literal)

def optional (body : Regex) : Regex := .either body empty

/-- Any number of times. -/
def many (body : Regex) : Regex := .loop false body

/-- At least once. -/
def more (body : Regex) : Regex := .both body (many body)

/-- Between `least` and `least + extra` times. -/
def times (body : Regex) : Nat → Nat → Regex
  | 0, 0 => empty
  | 0, extra + 1 => optional (.both body (times body 0 extra))
  | least + 1, extra => .both body (times body least extra)

/-- `\s*`. -/
def spaces : Regex := many (.one JsString.isWhitespace)

def anything : Regex := .one fun _ => true

/-- The first match that begins here, or later. -/
def find (regex : Regex) : JsString → JsString → Option (Spot × Spot)
  | passed, [] =>
    (regex.ends ⟨passed, [], []⟩).head?.map fun last =>
      (⟨passed, [], []⟩, last)
  | passed, unit :: rest =>
    match (regex.ends ⟨passed, unit :: rest, []⟩).head? with
    | some last => some (⟨passed, unit :: rest, []⟩, last)
    | none => find regex (unit :: passed) rest

/-- `regex.test(text)`. -/
def test (regex : Regex) (text : JsString) : Bool :=
  (regex.find [] text).isSome

end Regex

def Spot.captured (spot : Spot) (number : Nat) : Option JsString :=
  (spot.groups.find? (·.1 = number)).map Prod.snd

/-- The groups of `text.match(regex)`, for a regular expression that begins at
the start. -/
def Regex.matched (regex : Regex) (text : JsString) :
    Option (Nat → Option JsString) :=
  (regex.ends ⟨[], text, []⟩).head?.map Spot.captured

/-- `text.replace(regex, …)`, for a regular expression that begins at the
start. -/
def Regex.replaceStart (regex : Regex) (replacement : Spot → JsString)
    (text : JsString) : JsString :=
  match (regex.ends ⟨[], text, []⟩).head? with
  | some last => replacement last ++ last.rest
  | none => text
