/-
Inspecting the saved values of a workbook's formulas.  Every cell of every sheet
is looked at once; a formula's saved value falls into one category, and shared
formulas are compared with the range of their master at the end of each sheet.
-/
import Allrice.Interruptible
import Allrice.NumberText
import Allrice.Pattern

namespace Allrice.FormulaCache

open Program

/-- A node of a parsed document. -/
inductive Node
  | element (namespaceURI localName : String)
      (attributes : List (String × JsString)) (childNodes : List Node)
  | text (data : JsString)
  /-- A comment or a processing instruction. -/
  | other

def Node.isElement : Node → Bool
  | .element _ _ _ _ => true
  | _ => false

def Node.childNodes : Node → List Node
  | .element _ _ _ nodes => nodes
  | _ => []

/-- `element.namespaceURI === uri && element.localName === name`. -/
def Node.isNamed (uri name : String) : Node → Bool
  | .element namespaceURI localName _ _ =>
    namespaceURI == uri && localName == name
  | _ => false

def Node.attribute? (name : String) : Node → Option JsString
  | .element _ _ attributes _ =>
    (attributes.find? (·.1 == name)).map (·.2)
  | _ => none

/-- `element.hasAttribute(name)`. -/
def Node.hasAttribute (node : Node) (name : String) : Bool :=
  (node.attribute? name).isSome

/-- `element.getAttribute(name) ?? ''`. -/
def Node.getAttribute (node : Node) (name : String) : JsString :=
  (node.attribute? name).getD []

mutual

def Node.textContent : Node → JsString
  | .element _ _ _ nodes => textOf nodes
  | .text data => data
  | .other => []

/-- The text of the nodes, one after the other. -/
def textOf : List Node → JsString
  | [] => []
  | node :: rest => node.textContent ++ textOf rest

end

/-- `ns.s`. -/
def spreadsheet : String :=
  "http://schemas.openxmlformats.org/spreadsheetml/2006/main"

def relationships : String :=
  "http://schemas.openxmlformats.org/package/2006/relationships"

def children (root : Node) (uri name : String) : List Node :=
  root.childNodes.filter (Node.isNamed uri name)

def plain (element : Node) : Bool :=
  !element.childNodes.any Node.isElement

inductive InspectionCode
  | invalidPackage
  | invalidStructure
  | ambiguousCells
  | invalidFormula
  | unsupportedFormula
  | unsupportedCacheType
  | limitExceeded
  | inspectionFailed
deriving DecidableEq

structure Address where
  column : Nat
  row : Nat

def isUpper (unit : UInt16) : Bool :=
  0x41 ≤ unit.toNat && unit.toNat ≤ 0x5A

/-- `/^([A-Z]{1,3})([1-9][0-9]{0,6})$/`, within the last column and row. -/
def address (value : JsString) : Option Address :=
  let letters := value.takeWhile isUpper
  let digits := value.dropWhile isUpper
  let column := letters.foldl (fun n unit => n * 26 + (unit.toNat - 64)) 0
  let row := DigitText.valueOf 10 digits
  if 1 ≤ letters.length ∧ letters.length ≤ 3 ∧ 1 ≤ digits.length ∧
      digits.length ≤ 7 ∧ digits.all DigitText.isDigit ∧
      digits.head? ≠ some 0x30 ∧ column ≤ 16384 ∧ row ≤ 1048576 then
    some ⟨column, row⟩
  else none

/-- `/^\+?\d+$/`, at most 4294967295. -/
def unsignedIndex (value : JsString) : Option Nat :=
  let raw := value.trim
  let digits := if raw.head? = some 0x2B then raw.tail else raw
  if digits ≠ [] ∧ digits.all DigitText.isDigit ∧
      DigitText.valueOf 10 digits ≤ 4294967295 then
    some (DigitText.valueOf 10 digits)
  else none

structure Range where
  first : Address
  last : Address

def Range.contains (range : Range) (point : Address) : Bool :=
  range.first.column ≤ point.column && point.column ≤ range.last.column &&
    range.first.row ≤ point.row && point.row ≤ range.last.row

/-- One or two addresses; what follows an empty third part is not looked at. -/
def range (value : JsString) : Option Range :=
  let parts := value.splitOn 0x3A
  let first := parts.headD []
  let last := parts.tail.headD first
  let extra := parts.tail.tail.headD []
  match address first, address last with
  | some start, some stop =>
    if extra = [] ∧ start.column ≤ stop.column ∧ start.row ≤ stop.row then
      some ⟨start, stop⟩
    else none
  | _, _ => none

/-- `/^[+-]?(?:\d+(?:\.\d*)?|\.\d+)(?:[eE][+-]?\d+)?$/`. -/
def numericPattern : Pattern :=
  let sign := Pattern.optional (Pattern.among "+-")
  let point := Pattern.literal "."
  Pattern.sequence [sign,
    .either
      (Pattern.sequence [.many Pattern.isDigit 1,
        .either (.both point (.many Pattern.isDigit 0)) .empty])
      (.both point (.many Pattern.isDigit 1)),
    .either
      (Pattern.sequence [.one (Pattern.among "eE"), sign,
        .many Pattern.isDigit 1])
      .empty]

def isNumeric (value : JsString) : Bool :=
  ((numericPattern.ends ⟨[], value⟩).any fun place => place.rest.isEmpty) &&
    (NumberText.ofText value).isFinite

/-- A shared string without what belongs to its pronunciation. -/
def stringItem (item : Node) : Bool :=
  item.childNodes.all fun child =>
    match child with
    | .element uri name _ _ =>
      uri == spreadsheet &&
        (if name = "t" then plain child
        else if name = "r" then
          match children child spreadsheet "t" with
          | [text] => plain text
          | _ => false
        else ["rPh", "phoneticPr"].contains name)
    | _ => true

structure Counts where
  formulaCount : Nat
  numericCacheCount : Nat
  booleanCacheCount : Nat
  stringCacheCount : Nat
  errorCacheCount : Nat
  missingCacheCount : Nat
  invalidCacheCount : Nat
  unsupportedCacheCount : Nat
  unsupportedFormulaCount : Nat
deriving DecidableEq

def Counts.zero : Counts := ⟨0, 0, 0, 0, 0, 0, 0, 0, 0⟩

inductive Category
  | numeric
  | boolean
  | string
  | error
  | missing
  | invalid
  | unsupported
deriving DecidableEq

def Counts.add (counts : Counts) : Category → Counts
  | .numeric =>
    { counts with numericCacheCount := counts.numericCacheCount + 1 }
  | .boolean =>
    { counts with booleanCacheCount := counts.booleanCacheCount + 1 }
  | .string => { counts with stringCacheCount := counts.stringCacheCount + 1 }
  | .error => { counts with errorCacheCount := counts.errorCacheCount + 1 }
  | .missing =>
    { counts with missingCacheCount := counts.missingCacheCount + 1 }
  | .invalid =>
    { counts with invalidCacheCount := counts.invalidCacheCount + 1 }
  | .unsupported =>
    { counts with unsupportedCacheCount := counts.unsupportedCacheCount + 1 }

/-- The part that a formula has in a shared one. -/
inductive Share
  | normal
  | unsupported
  | master (group : Nat) (coverage : Range)
  | follower (group : Nat)

/-- What is known so far, of the workbook and of the sheet at hand. -/
structure Scan where
  counts : Counts
  incomplete : Option InspectionCode
  cellCount : Nat
  seen : List JsString
  masters : List (Nat × Range)
  followers : List (Nat × Address)

def Scan.initial : Scan := ⟨.zero, none, 0, [], [], []⟩

abbrev Exec := Program InspectionCode Scan

def lift {α : Type} : Except InspectionCode α → Exec α
  | .ok value => pure value
  | .error code => raise code

/-- `unknown(code)`. -/
def Scan.unknown (scan : Scan) (code : InspectionCode) : Scan :=
  { scan with incomplete := scan.incomplete.or (some code) }

def Scan.classify (scan : Scan) (category : Category) : Scan :=
  let counted := { scan with counts := scan.counts.add category }
  if category = .unsupported then counted.unknown .unsupportedCacheType
  else counted

def Scan.record (scan : Scan) (point : Address) : Share → Scan
  | .normal => scan
  | .unsupported =>
    { scan with
      counts := { scan.counts with
        unsupportedFormulaCount :=
          scan.counts.unsupportedFormulaCount + 1 } }.unknown
      .unsupportedFormula
  | .master group coverage =>
    { scan with
      masters := scan.masters ++ [(group, coverage)]
      followers := scan.followers ++ [(group, point)] }
  | .follower group =>
    { scan with followers := scan.followers ++ [(group, point)] }

def reference (cell : Node) : JsString := cell.getAttribute "r"

/-- `formula.hasAttribute('t') ? formula.getAttribute('t') : 'normal'`. -/
def kindOf (formula : Node) : JsString :=
  (formula.attribute? "t").getD (JsString.ofString "normal")

def shareOf (masters : List (Nat × Range)) (cell formula : Node) :
    Except InspectionCode Share :=
  let kind := kindOf formula
  if !plain formula then .error .invalidFormula
  else if 2000 < formula.textContent.length then .error .limitExceeded
  else if (kind ≠ JsString.ofString "normal" ∧
      kind ≠ JsString.ofString "shared") ∨
      cell.hasAttribute "cm" ∨ cell.hasAttribute "vm" then
    .ok .unsupported
  else if kind = JsString.ofString "shared" then
    match unsignedIndex (formula.getAttribute "si") with
    | none => .error .invalidFormula
    | some group =>
      if formula.textContent ≠ [] then
        match range (formula.getAttribute "ref") with
        | none => .error .invalidFormula
        | some coverage =>
          if masters.any (·.1 == group) then .error .invalidFormula
          else .ok (.master group coverage)
      else if formula.hasAttribute "ref" then .error .invalidFormula
      else .ok (.follower group)
  else if formula.textContent = [] ∨ formula.hasAttribute "ref" then
    .error .invalidFormula
  else .ok .normal

/-- The category of a cell's saved value. -/
def categoryOf (strings : Except InspectionCode (List Node)) (cell : Node) :
    Except InspectionCode Category :=
  let values := children cell spreadsheet "v"
  let kind := (cell.attribute? "t").getD (JsString.ofString "n")
  if ¬["n", "b", "str", "s", "e"].any (JsString.ofString · == kind) then
    .ok .unsupported
  else if 1 < values.length ∨ children cell spreadsheet "is" ≠ [] ∨
      values.head?.any (!plain ·) then
    .ok .invalid
  else
    match values with
    | [] => .ok .missing
    | value :: _ =>
      let raw := value.textContent.trim
      if kind ≠ JsString.ofString "str" ∧ raw = [] then .ok .missing
      else if kind = JsString.ofString "n" then
        .ok (if isNumeric raw then .numeric else .invalid)
      else if kind = JsString.ofString "b" then
        .ok (if raw = JsString.ofString "0" ∨ raw = JsString.ofString "1"
          then .boolean else .invalid)
      else if kind = JsString.ofString "s" then
        match unsignedIndex raw with
        | none => .ok .invalid
        | some index => do
            let table ← strings
            return if table[index]?.any stringItem then .string
              else .invalid
      else if kind = JsString.ofString "e" then .ok .error
      else .ok .string

/-- A formula of a cell. -/
def inspectFormula (strings : Except InspectionCode (List Node))
    (cell formula : Node) (point : Address) : Exec Unit := do
  let scan ← read
  if 10000 ≤ scan.counts.formulaCount then raise .limitExceeded
  else do
    update fun scan =>
      { scan with counts := { scan.counts with
          formulaCount := scan.counts.formulaCount + 1 } }
    let share ← lift (shareOf scan.masters cell formula)
    update (·.record point share)
    let category ← lift (categoryOf strings cell)
    update (·.classify category)

def inspectCell (strings : Except InspectionCode (List Node)) (cell : Node) :
    Exec Unit := do
  update fun scan => { scan with cellCount := scan.cellCount + 1 }
  let scan ← read
  if 100000 < scan.cellCount then raise .limitExceeded
  else
    match address (reference cell) with
    | none => raise .ambiguousCells
    | some point =>
      if reference cell ∈ scan.seen then raise .ambiguousCells
      else do
        update fun scan =>
          { scan with seen := reference cell :: scan.seen }
        match children cell spreadsheet "f" with
        | [] => return ()
        | [formula] => inspectFormula strings cell formula point
        | _ => raise .invalidFormula

def inspectCells (strings : Except InspectionCode (List Node)) :
    List Node → Exec Unit
  | [] => return ()
  | cell :: rest => do
      inspectCell strings cell
      inspectCells strings rest

structure Part where
  path : JsString
  name : JsString

/-- What `OfficePackage` makes of the bytes; its errors are those codes that
the inspection reports for them. -/
structure Package where
  orderedParts : Except InspectionCode (List Part)
  /-- `(await pkg.xml(path)).documentElement`. -/
  root : JsString → Except InspectionCode (Option Node)
  /-- `await pkg.links('xl/workbook.xml')`. -/
  links : Except InspectionCode (JsString → Option JsString)

/-- The root element, where it has that name. -/
def Package.rootNamed (package : Package) (path : JsString) (name : String) :
    Except InspectionCode Node := do
  match ← package.root path with
  | none => .error .invalidStructure
  | some root =>
    if root.isNamed spreadsheet name then return root
    else .error .invalidStructure

/-- `strings()`. -/
def Package.strings (package : Package) :
    Except InspectionCode (List Node) := do
  let rels ← package.root (JsString.ofString "xl/_rels/workbook.xml.rels")
  let root ← rels.elim (.error .inspectionFailed) .ok
  let declarations :=
    (children root relationships "Relationship").filter fun rel =>
      (JsString.ofString "/sharedStrings").isSuffixOf (rel.getAttribute "Type")
  match declarations with
  | [declaration] =>
    if declaration.getAttribute "TargetMode" = JsString.ofString "External"
    then .error .invalidStructure
    else
      let links ← package.links
      match (links (declaration.getAttribute "Id")).filter (· ≠ []) with
      | none => .error .invalidStructure
      | some target =>
        let table ← package.rootNamed target "sst"
        let items := children table spreadsheet "si"
        if 100000 < items.length then .error .limitExceeded
        else return items
  | _ => .error .invalidStructure

/-- The cells of a sheet, row by row. -/
def Package.cells (package : Package) (part : Part) :
    Except InspectionCode (List Node) := do
  let root ← package.rootNamed part.path "worksheet"
  match children root spreadsheet "sheetData" with
  | [data] =>
    return (children data spreadsheet "row").flatMap
      (children · spreadsheet "c")
  | _ => .error .invalidStructure

/-- Each member of a shared formula lies in the range of its master. -/
def checkFollowers : Exec Unit := do
  let scan ← read
  if scan.followers.all fun follower =>
      ((scan.masters.find? (·.1 == follower.1)).any
        (·.2.contains follower.2)) then
    return ()
  else raise .invalidFormula

def inspectSheet (package : Package) (part : Part) : Exec Unit := do
  let cells ← lift (package.cells part)
  update fun scan => { scan with seen := [], masters := [], followers := [] }
  inspectCells package.strings cells
  checkFollowers

def inspectParts (package : Package) : List Part → Exec Unit
  | [] => return ()
  | part :: rest => do
      inspectSheet package part
      inspectParts package rest

def inspectPackage (opened : Except InspectionCode Package) : Exec Unit := do
  let package ← lift opened
  let parts ← lift package.orderedParts
  if parts.isEmpty then raise .invalidStructure
  else if 256 < parts.length then raise .limitExceeded
  else if ¬(parts.map Part.name).Nodup ∨ ¬(parts.map Part.path).Nodup then
    raise .ambiguousCells
  else inspectParts package parts

inductive Inspection
  | complete (counts : Counts)
  | incomplete (code : InspectionCode) (observed : Counts)
deriving DecidableEq

structure Facts where
  checksum : JsString
  inspection : Inspection

/-- The package is opened from the bytes, or refused. -/
def inspectXlsxFormulaCaches (sha256 : List UInt8 → JsString)
    (opened : List UInt8 → Except InspectionCode Package)
    (bytes : List UInt8) : Facts :=
  { checksum := JsString.ofString "sha256:" ++ sha256 bytes
    inspection :=
      match inspectPackage (opened bytes) .initial with
      | (.ok (), scan) =>
        match scan.incomplete with
        | some code => .incomplete code scan.counts
        | none => .complete scan.counts
      | (.error (.thrown code), scan) => .incomplete code scan.counts
      | (.error .crashed, scan) => .incomplete .inspectionFailed scan.counts }

end Allrice.FormulaCache
