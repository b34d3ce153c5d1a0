/-
What a complete inspection of formula caches has looked at.  The step lemma says
what one cell adds; the cells of a sheet and the sheets of a workbook follow by
induction.  All of it is conditional on nothing having been found unknown: once
`incomplete` holds a code it keeps one.
-/
import Allrice.FormulaCache

namespace Allrice.FormulaCache

open Program

def formulas (cell : Node) : List Node := children cell spreadsheet "f"

def formulaCells (cells : List Node) : List Node :=
  cells.filter fun cell => !(formulas cell).isEmpty

def shared : JsString := JsString.ofString "shared"

/-- The shared formula that is written out in a cell, with its range. -/
def masterOf (cell : Node) : Option (Nat × Range) := do
  let formula ← (formulas cell).head?
  if kindOf formula = shared ∧ formula.textContent ≠ [] then
    return (← unsignedIndex (formula.getAttribute "si"),
      ← range (formula.getAttribute "ref"))
  else none

/-- What holds of the cells of a sheet. -/
structure SheetSound (cells : List Node) : Prop where
  addressed : ∀ cell ∈ cells, (address (reference cell)).isSome
  once : (cells.map reference).Nodup
  masters_once : ((cells.filterMap masterOf).map (·.1)).Nodup
  covered : ∀ cell ∈ cells, ∀ formula ∈ formulas cell, kindOf formula = shared →
    ∃ group point, unsignedIndex (formula.getAttribute "si") = some group ∧
      address (reference cell) = some point ∧
      ∃ coverage, (group, coverage) ∈ cells.filterMap masterOf ∧
        coverage.contains point

/-- The sum of the categories. -/
def Counts.cached (counts : Counts) : Nat :=
  counts.numericCacheCount + counts.booleanCacheCount +
    counts.stringCacheCount + counts.errorCacheCount +
    counts.missingCacheCount + counts.invalidCacheCount

/-- A cell whose address is sound and new. -/
def Scan.visit (scan : Scan) (cell : Node) : Scan :=
  { scan with
    cellCount := scan.cellCount + 1
    seen := reference cell :: scan.seen }

def Scan.countFormula (scan : Scan) : Scan :=
  { scan with counts := { scan.counts with
      formulaCount := scan.counts.formulaCount + 1 } }

/-- The ways in which a cell is looked at to its end. -/
inductive Inspected (cell : Node) (point : Address) (scan : Scan) : Scan → Prop
  | value (hnone : formulas cell = []) :
      Inspected cell point scan (scan.visit cell)
  | formula (formula : Node) (share : Share) (category : Category)
      (hone : formulas cell = [formula])
      (hshare : shareOf scan.masters cell formula = .ok share) :
      Inspected cell point scan
        ((((scan.visit cell).countFormula).record point share).classify
          category)

variable {scan next : Scan} {formula : Node} {point : Address}
  {strings : Except InspectionCode (List Node)} {start : Nat} {α : Type}
  {share : Share} {done : List Node}

/-- A program that returns has returned from its first part. -/
theorem bind_ok {β : Type} {action : Exec α} {rest : α → Exec β} {b : β}
    (h : (action >>= rest) scan = (.ok b, next)) :
    ∃ a between, action scan = (.ok a, between) ∧
      rest a between = (.ok b, next) := by
  simp only [Bind.bind] at h
  split at h
  next a between haction => exact ⟨a, between, haction, h⟩
  next => cases h

theorem lift_ok {result : Except InspectionCode α} {value : α}
    (h : lift result scan = (.ok value, next)) :
    result = .ok value ∧ scan = next := by
  cases result with
  | ok a => cases h; exact ⟨rfl, rfl⟩
  | error code => cases h

theorem inspectFormula_ok {cell : Node}
    (h : inspectFormula strings cell formula point scan = (.ok (), next)) :
    ∃ share category, shareOf scan.masters cell formula = .ok share ∧
      next = ((scan.countFormula).record point share).classify category := by
  obtain ⟨_, _, hread, h⟩ := bind_ok h
  cases hread
  split at h
  · cases h
  obtain ⟨_, _, hcount, h⟩ := bind_ok h
  cases hcount
  obtain ⟨share, _, hlift, h⟩ := bind_ok h
  obtain ⟨hshare, rfl⟩ := lift_ok hlift
  obtain ⟨_, _, hrecord, h⟩ := bind_ok h
  cases hrecord
  obtain ⟨category, _, hlift, h⟩ := bind_ok h
  obtain ⟨-, rfl⟩ := lift_ok hlift
  cases h
  exact ⟨share, category, hshare, rfl⟩

theorem inspectCell_ok {cell : Node}
    (h : inspectCell strings cell scan = (.ok (), next)) :
    ∃ point, address (reference cell) = some point ∧
      reference cell ∉ scan.seen ∧ Inspected cell point scan next := by
  obtain ⟨_, _, hcount, h⟩ := bind_ok h
  cases hcount
  obtain ⟨_, _, hread, h⟩ := bind_ok h
  cases hread
  split at h
  · cases h
  cases hpoint : address (reference cell) with
  | none => rw [hpoint] at h; cases h
  | some point =>
    rw [hpoint] at h
    dsimp only at h
    split at h
    · cases h
    next hnew =>
      obtain ⟨_, _, hvisit, h⟩ := bind_ok h
      cases hvisit
      refine ⟨point, rfl, hnew, ?_⟩
      cases hformulas : children cell spreadsheet "f" with
      | nil => rw [hformulas] at h; cases h; exact .value hformulas
      | cons formula rest =>
        rw [hformulas] at h
        cases rest with
        | nil =>
          obtain ⟨share, category, hshare, rfl⟩ := inspectFormula_ok h
          exact .formula formula share category hformulas hshare
        | cons second others => cases h

/-- The scan of a sheet after the cells `done`, `start` formulas having been
counted before it. -/
structure Counted (start : Nat) (done : List Node) (scan : Scan) : Prop where
  total : scan.counts.formulaCount = scan.counts.cached
  counted : scan.counts.formulaCount = start + (formulaCells done).length
  seen : scan.seen = (done.map reference).reverse
  masters : scan.masters = done.filterMap masterOf
  addressed : ∀ cell ∈ done, (address (reference cell)).isSome
  once : (done.map reference).Nodup
  masters_once : ((done.filterMap masterOf).map (·.1)).Nodup
  followed : ∀ cell ∈ done, ∀ formula ∈ formulas cell, kindOf formula = shared →
    ∃ group point, unsignedIndex (formula.getAttribute "si") = some group ∧
      address (reference cell) = some point ∧ (group, point) ∈ scan.followers

@[simp] theorem formulaCells_append (done cells : List Node) :
    formulaCells (done ++ cells) = formulaCells done ++ formulaCells cells :=
  List.filter_append ..

section Fields

variable (scan : Scan) (point : Address) (share : Share) (category : Category)

theorem unknown_incomplete (code : InspectionCode) :
    (scan.unknown code).incomplete ≠ none := by
  cases h : scan.incomplete <;> simp [Scan.unknown, h]

@[simp] theorem classify_seen : (scan.classify category).seen = scan.seen := by
  unfold Scan.classify; split <;> rfl

@[simp] theorem classify_masters :
    (scan.classify category).masters = scan.masters := by
  unfold Scan.classify; split <;> rfl

@[simp] theorem classify_followers :
    (scan.classify category).followers = scan.followers := by
  unfold Scan.classify; split <;> rfl

@[simp] theorem classify_formulaCount :
    (scan.classify category).counts.formulaCount =
      scan.counts.formulaCount := by
  cases category <;> rfl

/-- A category that is known is counted in the sum, once. -/
theorem classify_known (h : (scan.classify category).incomplete = none) :
    scan.incomplete = none ∧
      (scan.classify category).counts.cached = scan.counts.cached + 1 := by
  cases category with
  | unsupported => exact absurd h (unknown_incomplete _ _)
  | _ =>
    refine ⟨h, ?_⟩
    simp only [Scan.classify, Counts.add, Counts.cached, reduceCtorEq,
      if_false]
    omega

@[simp] theorem record_seen : (scan.record point share).seen = scan.seen := by
  cases share <;> rfl

@[simp] theorem record_formulaCount :
    (scan.record point share).counts.formulaCount =
      scan.counts.formulaCount := by
  cases share <;> rfl

@[simp] theorem record_cached :
    (scan.record point share).counts.cached = scan.counts.cached := by
  cases share <;> rfl

theorem record_known (h : (scan.record point share).incomplete = none) :
    scan.incomplete = none ∧ share ≠ .unsupported := by
  cases share with
  | unsupported => exact absurd h (unknown_incomplete _ _)
  | _ => exact ⟨h, nofun⟩

end Fields

/-- What a formula's share says of it. -/
theorem shareOf_ok {masters : List (Nat × Range)} {cell : Node}
    (h : shareOf masters cell formula = .ok share)
    (hknown : share ≠ .unsupported) :
    (share = .normal ∧ kindOf formula ≠ shared) ∨
      ∃ group, kindOf formula = shared ∧
        unsignedIndex (formula.getAttribute "si") = some group ∧
        ((∃ coverage, share = .master group coverage ∧
          formula.textContent ≠ [] ∧
          range (formula.getAttribute "ref") = some coverage ∧
          group ∉ masters.map (·.1)) ∨
        (share = .follower group ∧ formula.textContent = [])) := by
  simp only [shareOf] at h
  split at h
  · cases h
  split at h
  · cases h
  split at h
  · cases h; exact absurd rfl hknown
  split at h
  next hshared =>
    right
    split at h
    · cases h
    next group hgroup =>
      refine ⟨group, hshared, hgroup, ?_⟩
      split at h
      next htext =>
        split at h
        · cases h
        next coverage hrange =>
          split at h
          · cases h
          next hany =>
            cases h
            refine .inl ⟨coverage, rfl, htext, hrange, ?_⟩
            simpa using hany
      next htext =>
        split at h
        · cases h
        · cases h; exact .inr ⟨rfl, not_not.mp htext⟩
  next hshared =>
    split at h
    · cases h
    · cases h; exact .inl ⟨rfl, hshared⟩

theorem masterOf_none {cell : Node} (hnone : formulas cell = []) :
    masterOf cell = none := by
  simp [masterOf, hnone]

theorem masterOf_one {cell : Node} (hone : formulas cell = [formula])
    (h : kindOf formula ≠ shared ∨ formula.textContent = []) :
    masterOf cell = none := by
  simp only [masterOf, hone, List.head?_cons, Option.bind_eq_bind,
    Option.bind_some]
  apply if_neg
  tauto

theorem masterOf_master {cell : Node} {group : Nat} {coverage : Range}
    (hone : formulas cell = [formula]) (hkind : kindOf formula = shared)
    (hgroup : unsignedIndex (formula.getAttribute "si") = some group)
    (htext : formula.textContent ≠ [])
    (hrange : range (formula.getAttribute "ref") = some coverage) :
    masterOf cell = some (group, coverage) := by
  simp [masterOf, hone, hkind, hgroup, htext, hrange]

/-- What a share adds to the shared formulas of the sheet. -/
theorem record_shared {cell : Node} (point : Address)
    (hone : formulas cell = [formula])
    (hshare : shareOf scan.masters cell formula = .ok share)
    (hknown : share ≠ .unsupported) :
    (scan.record point share).masters =
        scan.masters ++ (masterOf cell).toList ∧
      (∀ master, masterOf cell = some master →
        master.1 ∉ scan.masters.map (·.1)) ∧
      (∀ follower ∈ scan.followers,
        follower ∈ (scan.record point share).followers) ∧
      ∀ member ∈ formulas cell, kindOf member = shared →
        ∃ group, unsignedIndex (member.getAttribute "si") = some group ∧
          (group, point) ∈ (scan.record point share).followers := by
  obtain ⟨rfl, hnormal⟩ | ⟨group, hkind, hgroup,
    ⟨coverage, rfl, htext, hrange, hfresh⟩ | ⟨rfl, htext⟩⟩ :=
    shareOf_ok hshare hknown
  · have hmaster := masterOf_one hone (.inl hnormal)
    simp [Scan.record, hmaster, hone, hnormal]
  · have hmaster := masterOf_master hone hkind hgroup htext hrange
    refine ⟨by simp [Scan.record, hmaster], ?_, ?_, ?_⟩
    · intro master h
      rw [hmaster] at h
      cases h
      exact hfresh
    · exact fun follower h => List.mem_append_left _ h
    · simp [hone, hgroup, Scan.record]
  · have hmaster := masterOf_one hone (.inr htext)
    refine ⟨by simp [Scan.record, hmaster], by simp [hmaster], ?_, ?_⟩
    · exact fun follower h => List.mem_append_left _ h
    · simp [hone, hgroup, Scan.record]

/-- What is the same for every cell. -/
theorem Counted.cell {cell : Node} (hdone : Counted start done scan)
    (hpoint : address (reference cell) = some point)
    (hnew : reference cell ∉ scan.seen)
    (hseen : next.seen = reference cell :: scan.seen)
    (htotal : next.counts.formulaCount = next.counts.cached)
    (hcounted : next.counts.formulaCount =
      scan.counts.formulaCount + (formulaCells [cell]).length)
    (hmasters : next.masters = scan.masters ++ (masterOf cell).toList)
    (honce : ∀ master, masterOf cell = some master →
      master.1 ∉ scan.masters.map (·.1))
    (hfollowers : ∀ follower ∈ scan.followers, follower ∈ next.followers)
    (hshared : ∀ formula ∈ formulas cell, kindOf formula = shared →
      ∃ group, unsignedIndex (formula.getAttribute "si") = some group ∧
        (group, point) ∈ next.followers) :
    Counted start (done ++ [cell]) next where
  total := htotal
  counted := by
    rw [hcounted, hdone.counted, formulaCells_append, List.length_append]
    omega
  seen := by simp [hseen, hdone.seen]
  masters := by
    cases hmaster : masterOf cell <;>
      simp [hmasters, hdone.masters, hmaster]
  addressed member hmember := by
    rcases List.mem_append.mp hmember with hold | hlast
    · exact hdone.addressed member hold
    · rw [List.mem_singleton.mp hlast, hpoint]
      rfl
  once := by
    rw [hdone.seen, List.mem_reverse] at hnew
    rw [List.map_append, List.map_singleton]
    exact hdone.once.append (List.nodup_singleton _)
      (List.disjoint_singleton.mpr hnew)
  masters_once := by
    rw [List.filterMap_append, List.map_append]
    apply hdone.masters_once.append
    · cases hmaster : masterOf cell <;> simp [hmaster]
    · cases hmaster : masterOf cell with
      | none => simp [hmaster]
      | some master =>
        have hfresh := honce master hmaster
        rw [hdone.masters] at hfresh
        simpa [hmaster] using hfresh
  followed member hmember formula hformula hkind := by
    rcases List.mem_append.mp hmember with hold | hlast
    · obtain ⟨group, place, hgroup, hplace, hmem⟩ :=
        hdone.followed member hold formula hformula hkind
      exact ⟨group, place, hgroup, hplace, hfollowers _ hmem⟩
    · rw [List.mem_singleton.mp hlast] at hformula ⊢
      obtain ⟨group, hgroup, hmem⟩ := hshared formula hformula hkind
      exact ⟨group, point, hgroup, hpoint, hmem⟩

/-- One cell is added to those counted, unless something in it is unknown. -/
theorem Counted.step {cell : Node}
    (hdone : scan.incomplete = none → Counted start done scan)
    (hpoint : address (reference cell) = some point)
    (hnew : reference cell ∉ scan.seen) (hstep : Inspected cell point scan next)
    (hknown : next.incomplete = none) :
    Counted start (done ++ [cell]) next := by
  cases hstep with
  | value hnone =>
    have hdone := hdone hknown
    have hmaster := masterOf_none hnone
    apply hdone.cell hpoint hnew
    · rfl
    · exact hdone.total
    · simp [Scan.visit, formulaCells, hnone]
    · simp [Scan.visit, hmaster]
    · simp [hmaster]
    · exact fun _ => id
    · simp [hnone]
  | formula formula share category hone hshare =>
    obtain ⟨hrecorded, hcached⟩ := classify_known _ _ hknown
    obtain ⟨hvisited, hshared⟩ := record_known _ _ _ hrecorded
    have hdone := hdone hvisited
    obtain ⟨hmasters, honce, hfollowers, hgroups⟩ :=
      @record_shared (scan.visit cell).countFormula _ _ _ point hone hshare
        hshared
    apply hdone.cell hpoint hnew
    · rw [classify_seen, record_seen]
      rfl
    · rw [hcached, classify_formulaCount, record_formulaCount, record_cached]
      exact congrArg (· + 1) hdone.total
    · rw [classify_formulaCount, record_formulaCount]
      simp [formulaCells, hone, Scan.visit, Scan.countFormula]
    · exact (classify_masters ..).trans hmasters
    · exact honce
    · rw [classify_followers]
      exact hfollowers
    · rw [classify_followers]
      exact hgroups

/-- What is known after a cell was known before it. -/
theorem Inspected.known {cell : Node} (hstep : Inspected cell point scan next)
    (hknown : next.incomplete = none) : scan.incomplete = none := by
  cases hstep with
  | value => exact hknown
  | formula => exact (record_known _ _ _ (classify_known _ _ hknown).1).1

/-- The cells of a sheet, one after the other. -/
theorem inspectCells_counted {cells : List Node} (done : List Node)
    (hrun : inspectCells strings cells scan = (.ok (), next))
    (hdone : scan.incomplete = none → Counted start done scan)
    (hknown : next.incomplete = none) :
    scan.incomplete = none ∧ Counted start (done ++ cells) next := by
  induction cells generalizing done scan with
  | nil =>
    cases hrun
    rw [List.append_nil]
    exact ⟨hknown, hdone hknown⟩
  | cons cell rest ih =>
    obtain ⟨_, between, hcell, hrest⟩ := bind_ok hrun
    obtain ⟨point, hpoint, hnew, hstep⟩ := inspectCell_ok hcell
    have hnext := ih _ hrest (Counted.step hdone hpoint hnew hstep)
    rw [List.append_assoc] at hnext
    exact ⟨hstep.known hnext.1, hnext.2⟩

theorem checkFollowers_ok (h : checkFollowers scan = (.ok (), next)) :
    next = scan ∧ ∀ follower ∈ scan.followers,
      ∃ coverage, (follower.1, coverage) ∈ scan.masters ∧
        coverage.contains follower.2 := by
  obtain ⟨_, _, hread, h⟩ := bind_ok h
  cases hread
  split at h
  next hall =>
    cases h
    refine ⟨rfl, fun follower hmem => ?_⟩
    have hcovered := List.all_eq_true.mp hall follower hmem
    obtain ⟨master, hfind, hcontains⟩ := (Option.any_eq_true _ _).mp hcovered
    have hgroup : master.1 = follower.1 := by
      simpa using List.find?_some hfind
    exact ⟨master.2, hgroup ▸ List.mem_of_find?_eq_some hfind, hcontains⟩
  next => cases h

/-- What is counted after the sheets. -/
structure Totals (sheets : List (List Node)) (scan : Scan) : Prop where
  total : scan.counts.formulaCount = scan.counts.cached
  counted : scan.counts.formulaCount =
    (sheets.map fun cells => (formulaCells cells).length).sum
  sound : ∀ cells ∈ sheets, SheetSound cells

theorem inspectSheet_totals {package : Package} {part : Part}
    {sheets : List (List Node)}
    (hrun : inspectSheet package part scan = (.ok (), next))
    (hdone : scan.incomplete = none → Totals sheets scan) :
    ∃ cells, package.cells part = .ok cells ∧
      (next.incomplete = none → Totals (sheets ++ [cells]) next) := by
  obtain ⟨cells, _, hlift, hrun⟩ := bind_ok hrun
  obtain ⟨hcells, rfl⟩ := lift_ok hlift
  obtain ⟨_, _, hreset, hrun⟩ := bind_ok hrun
  cases hreset
  obtain ⟨_, after, hinspect, hrun⟩ := bind_ok hrun
  obtain ⟨rfl, hcovered⟩ := checkFollowers_ok hrun
  refine ⟨cells, hcells, fun hknown => ?_⟩
  obtain ⟨hbefore, hcounted⟩ :=
    inspectCells_counted [] hinspect (fun hstart =>
      { total := (hdone hstart).total
        counted := rfl
        seen := rfl
        masters := rfl
        addressed := by simp
        once := List.nodup_nil
        masters_once := List.nodup_nil
        followed := by simp }) hknown
  have hold := hdone hbefore
  refine ⟨hcounted.total, ?_, ?_⟩
  · rw [hcounted.counted]
    simp [hold.counted]
  · intro sheet hsheet
    rcases List.mem_append.mp hsheet with hmem | hlast
    · exact hold.sound sheet hmem
    · rw [List.mem_singleton.mp hlast]
      refine ⟨hcounted.addressed, hcounted.once, hcounted.masters_once, ?_⟩
      intro cell hcell formula hformula hkind
      obtain ⟨group, point, hgroup, hpoint, hmem⟩ :=
        hcounted.followed cell hcell formula hformula hkind
      obtain ⟨coverage, hmaster, hcontains⟩ := hcovered _ hmem
      rw [hcounted.masters] at hmaster
      exact ⟨group, point, hgroup, hpoint, coverage, hmaster, hcontains⟩

theorem inspectParts_totals {package : Package} {parts : List Part}
    (sheets : List (List Node))
    (hrun : inspectParts package parts scan = (.ok (), next))
    (hdone : scan.incomplete = none → Totals sheets scan)
    (hknown : next.incomplete = none) :
    ∃ rest, parts.mapM package.cells = .ok rest ∧
      Totals (sheets ++ rest) next := by
  induction parts generalizing sheets scan with
  | nil =>
    cases hrun
    exact ⟨[], rfl, by simpa using hdone hknown⟩
  | cons part parts ih =>
    obtain ⟨_, between, hsheet, hrest⟩ := bind_ok hrun
    obtain ⟨cells, hcells, hnext⟩ := inspectSheet_totals hsheet hdone
    obtain ⟨rest, hmap, htotals⟩ := ih _ hrest hnext
    refine ⟨cells :: rest, ?_, by simpa using htotals⟩
    rw [List.mapM_cons, hcells, hmap]
    rfl

/-- A complete inspection has counted each formula cell of each sheet once, in
one category, and has found each shared formula within its master's range. -/
theorem complete_inspection_counts {sha256 : List UInt8 → JsString}
    {opened : List UInt8 → Except InspectionCode Package} {bytes : List UInt8}
    {counts : Counts}
    (h : (inspectXlsxFormulaCaches sha256 opened bytes).inspection =
      .complete counts) :
    counts.formulaCount = counts.numericCacheCount + counts.booleanCacheCount +
        counts.stringCacheCount + counts.errorCacheCount +
        counts.missingCacheCount + counts.invalidCacheCount ∧
      ∃ package parts sheets, opened bytes = .ok package ∧
        package.orderedParts = .ok parts ∧ (parts.map Part.path).Nodup ∧
        parts.mapM package.cells = .ok sheets ∧
        counts.formulaCount =
          (sheets.map fun cells => (formulaCells cells).length).sum ∧
        ∀ cells ∈ sheets, SheetSound cells := by
  simp only [inspectXlsxFormulaCaches] at h
  cases hrun : inspectPackage (opened bytes) .initial with
  | mk ended scan =>
    rw [hrun] at h
    cases ended with
    | error halt => cases halt <;> cases h
    | ok _ =>
      cases hknown : scan.incomplete with
      | some code => simp only [hknown] at h; cases h
      | none =>
        simp only [hknown] at h
        cases h
        obtain ⟨package, _, hlift, hrun⟩ := bind_ok hrun
        obtain ⟨hopened, rfl⟩ := lift_ok hlift
        obtain ⟨parts, _, hlift, hrun⟩ := bind_ok hrun
        obtain ⟨hparts, rfl⟩ := lift_ok hlift
        split at hrun
        · cases hrun
        split at hrun
        · cases hrun
        split at hrun
        · cases hrun
        next hdistinct =>
          obtain ⟨sheets, hsheets, htotals⟩ :=
            inspectParts_totals [] hrun
              (fun _ => ⟨rfl, rfl, by simp⟩) hknown
          rw [List.nil_append] at htotals
          exact ⟨htotals.total, package, parts, sheets, hopened, hparts,
            not_not.mp (not_or.mp hdistinct).2, hsheets,
            htotals.counted, htotals.sound⟩

namespace SharedSum

/-- A cell with a formula and its saved text. -/
def formulaCell (place value : String) (shared : List (String × JsString))
    (text : JsString) : Node :=
  .element spreadsheet "c"
    [("r", JsString.ofString place), ("t", JsString.ofString "str")]
    [.element spreadsheet "f"
        (("t", JsString.ofString "shared") :: ("si", JsString.ofString "0") ::
          shared)
        [.text text],
      .element spreadsheet "v" [] [.text (JsString.ofString value)]]

/-- A master over two rows, its follower, and a cell without a formula. -/
def sheet : Node :=
  .element spreadsheet "worksheet" []
    [.element spreadsheet "sheetData" []
      [.element spreadsheet "row" []
        [formulaCell "A1" "x" [("ref", JsString.ofString "A1:A2")]
          (JsString.ofString "B1")],
       .element spreadsheet "row" []
        [formulaCell "A2" "y" [] [],
         .element spreadsheet "c" [("r", JsString.ofString "B2")] []]]]

def package : Package :=
  { orderedParts := .ok [⟨JsString.ofString "s", JsString.ofString "Sum"⟩]
    root := fun _ => .ok (some sheet)
    links := .ok fun _ => none }

def counts : Counts := ⟨2, 0, 0, 2, 0, 0, 0, 0, 0⟩

theorem inspected :
    (inspectXlsxFormulaCaches (fun _ => []) (fun _ => .ok package)
      []).inspection = .complete counts := by
  decide +kernel

theorem shared_sum_counts :
    ∃ sheets : List (List Node), counts.formulaCount =
        (sheets.map fun cells => (formulaCells cells).length).sum ∧
      ∀ cells ∈ sheets, SheetSound cells := by
  obtain ⟨-, _, _, sheets, -, -, -, -, hsheets⟩ :=
    complete_inspection_counts inspected
  exact ⟨sheets, hsheets⟩

end SharedSum

end Allrice.FormulaCache
