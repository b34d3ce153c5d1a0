/-
The links of a reply: read from its Markdown tree, where quoted text makes no
claims, and sorted into links to managed files, other links, and links that
only look managed.
-/
import Allrice.DeliveryFacts

namespace Allrice

namespace FinalDelivery

open Pattern (matchesStart matchesUpTo matchesWhole)

section Host

variable (host : DeliveryHost)

/-- A run of blanks becomes one. -/
def collapseBlanks : Bool → JsString → JsString
  | _, [] => []
  | inside, unit :: rest =>
    if JsString.isWhitespace unit then
      if inside then collapseBlanks true rest
      else 0x20 :: collapseBlanks true rest
    else unit :: collapseBlanks false rest

def referenceId (value : JsString) : JsString :=
  toLowerCase host (collapseBlanks false (JsString.trim value))

structure CandidateLink where
  href : JsString
  offset : Option Nat

/-- The first definition of each reference. -/
abbrev Definitions := Table JsString (JsString × JsString) Prod.fst

structure WalkState where
  visited : Nat
  definitions : Definitions
  nodes : List MarkdownNode

/-- Quoted examples are not delivery claims. -/
def isQuoted (type : JsString) : Bool :=
  type = JsString.ofString "code" || type = JsString.ofString "inlineCode" ||
    type = JsString.ofString "blockquote"

/-- Markdown's first definition wins. -/
def addDefinition (definitions : Definitions)
    (identifier url : Option JsString) : Definitions :=
  let id := referenceId host (identifier.getD [])
  match url with
  | none => definitions
  | some url =>
    if id = [] ∨ (definitions.find? id).isSome then definitions
    else definitions.put (id, url)

mutual

/-- `walk`; `none` is the error about too many nodes. -/
def walk : MarkdownNode → WalkState → Option WalkState
  | .node type url identifier value children offset, state =>
    let state := { state with visited := state.visited + 1 }
    if maxNodes < state.visited then none
    else if isQuoted type then some state
    else if type = JsString.ofString "definition" then
      some { state with
        definitions := addDefinition host state.definitions identifier url }
    else
      walkAll children { state with
        nodes := state.nodes ++
          [.node type url identifier value children offset] }

def walkAll : List MarkdownNode → WalkState → Option WalkState
  | [], state => some state
  | node :: rest, state =>
    match walk node state with
    | none => none
    | some state => walkAll rest state

end

/-- The links of one node; `none` is an error. -/
def nodeLinks (definitions : Definitions) :
    MarkdownNode → Option (List CandidateLink)
  | .node type url identifier value _ offset =>
    if type = JsString.ofString "link" ∨
        type = JsString.ofString "image" then
      url.map fun href => [⟨href, offset⟩]
    else if type = JsString.ofString "linkReference" ∨
        type = JsString.ofString "imageReference" then
      (definitions.find? (referenceId host (identifier.getD []))).map
        fun definition => [⟨definition.2, offset⟩]
    else if type = JsString.ofString "html" then
      match host.html (value.getD []) with
      | none => none
      | some fragment =>
        if fragment.complete then
          some (fragment.links.map fun href => ⟨href, offset⟩)
        else none
    else some []

/-- The loop over the nodes; `none` is an error. -/
def collectLinks (definitions : Definitions) :
    List MarkdownNode → List CandidateLink → Option (List CandidateLink)
  | [], links => some links
  | node :: rest, links =>
    match nodeLinks host definitions node with
    | none => none
    | some more =>
      if maxLinks < (links ++ more).length then none
      else collectLinks definitions rest (links ++ more)

def readLinks (text : JsString) : Option (List CandidateLink) :=
  match host.markdown text with
  | none => none
  | some (.node type url identifier value children offset) =>
    if type ≠ JsString.ofString "root" then none
    else
      match walk host (.node type url identifier value children offset)
          ⟨0, Table.empty, []⟩ with
      | none => none
      | some state => collectLinks host state.definitions state.nodes []

/-- A run of backslashes before a slash goes, `replace(/\\+\//g, '/')`. -/
def unescapeSeparators : JsString → JsString → JsString
  | held, [] => held
  | held, unit :: rest =>
    if unit = 0x5C then unescapeSeparators (held ++ [unit]) rest
    else if unit = 0x2F then 0x2F :: unescapeSeparators [] rest
    else held ++ unit :: unescapeSeparators [] rest

inductive LinkTarget where
  | external
  | managed (objectId : JsString)
  | invalid (reason : String)

/-- Slashes and backslashes of both widths. -/
def isSeparator (unit : UInt16) : Bool :=
  [0x2F, 0x5C, 0xFF0F, 0xFF3C].contains unit.toNat

/-- What may follow a path's first part. -/
def endsPart (unit : UInt16) : Bool :=
  [0x2F, 0x5C, 0x3F, 0x23, 0xFF0F].contains unit.toNat

def endsPartWide (unit : UInt16) : Bool :=
  isSeparator unit || [0x3F, 0x23].contains unit.toNat

def isWide (unit : UInt16) : Bool :=
  [0xFF0F, 0xFF3C].contains unit.toNat

def isSlash (unit : UInt16) : Bool := unit == 0x2F

def schemePattern : Pattern :=
  Pattern.sequence [.one Pattern.isLetter,
    .many (fun unit => Pattern.isLetter unit || Pattern.isDigit unit ||
      Pattern.among "+.-" unit) 0, Pattern.literal ":"]

def objectPathPattern : Pattern :=
  Pattern.sequence [Pattern.literal "/api/v1/files/",
    Pattern.sequence (List.replicate 36
      (.one fun unit => isHex unit || unit == 0x2D)),
    .either (Pattern.literal "/download") .empty]

/-- The target of a path of the own origin below `/api`. -/
def ownTarget (url : Url) : LinkTarget :=
  if (url.protocol ≠ JsString.ofString "http:" ∧
      url.protocol ≠ JsString.ofString "https:") ∨
      url.username ≠ [] ∨ url.password ≠ [] then
    .invalid "unsupported_managed_url"
  else
    let objectId := (url.pathname.drop 14).take 36
    if matchesWhole objectPathPattern url.pathname = false ∨
        isUuid objectId = false then
      .invalid "managed_object_id_required"
    else if url.hash ≠ [] then .invalid "unexpected_managed_fragment"
    else if url.searchNames.any (· ≠ JsString.ofString "name") then
      .invalid "unsupported_managed_query"
    else .managed (toLowerCase host objectId)

def managedTarget (href : JsString) (origins : List JsString) : LinkTarget :=
  let escaped := unescapeSeparators [] href
  if matchesUpTo (.both (.one isWide) (Pattern.literalIgnoringCase "api"))
      endsPart escaped then
    .invalid "noncanonical_managed_path"
  else
    let sandbox :=
      if (JsString.ofString "sandbox:/api/v1/files/").isPrefixOf escaped then
        escaped.drop 8
      else escaped
    match host.parseUrl sandbox
        (some (JsString.ofString "https://managed-link.invalid")) with
    | none =>
      if matchesUpTo (.both (.many isSeparator 0)
          (Pattern.literalIgnoringCase "api")) endsPartWide sandbox then
        .invalid "malformed_managed_url"
      else .external
    | some url =>
      let relative := !matchesStart schemePattern sandbox &&
        !(JsString.ofString "//").isPrefixOf sandbox
      let ownOrigin := relative || origins.contains url.origin
      let filePath := matchesUpTo
        (Pattern.literalIgnoringCase "/api/v1/files") isSlash url.pathname
      let apiPath := matchesUpTo (Pattern.literalIgnoringCase "/api")
        isSlash url.pathname
      if ownOrigin = false ∧ filePath = false then .external
      else if apiPath = false then .external
      else if ownOrigin = false then .invalid "foreign_managed_origin"
      else ownTarget host url

end Host

end FinalDelivery

end Allrice
