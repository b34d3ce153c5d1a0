/-
The estimate of what an organization's investment in a period saved: for every
business sample the minutes and their value, and for every currency the values
and the stated costs, summed in doubles.
-/
import Allrice.JsString
import Allrice.RunningTotal
import Mathlib.Data.List.Dedup
import Allrice.RuntimeIdentity

namespace Allrice.InvestmentEstimate

open RunningTotal

inductive Currency
  | cny
  | usd
deriving DecidableEq

inductive HumanScope
  | complete
  | reviewOnly
deriving DecidableEq

/-- `partial` or `complete`; a report also says `unknown`. -/
inductive Coverage
  | unknown
  | inPart
  | complete
deriving DecidableEq

structure InvestmentBaseline where
  minutesPerUnit : Nat
  hourlyRateMinor : Option Nat
  currency : Option Currency

structure InvestmentWork where
  units : Nat
  adoptedAt : Option JsString
  humanMinutes : Option Nat
  humanScope : HumanScope

structure InvestmentStatement where
  fromDate : JsString
  toDate : JsString
  currency : Currency
  modelMinor : Option Nat
  otherMinor : Option Nat
  subscriptionKnown : Bool
  coverage : Coverage
  /-- In units of the smallest double. -/
  standardHours : Option Nat

structure InvestmentRevision (κ : Type) where
  id : Uuid
  entryId : Uuid
  content : κ
  /-- `facts.subscriptionReferences`, the amounts. -/
  subscriptionReferences : Option (List Nat)

/-- The content of a revision that may be a statement. -/
inductive InvestmentContent
  | statement (content : InvestmentStatement)
  | other

structure Sample where
  revision : InvestmentRevision InvestmentWork
  baseline : Option (InvestmentRevision InvestmentBaseline)
  sourceAvailable : Bool

inductive InvestmentOmission
  | notAdopted
  | baselineMissing
  | humanInputMissing
  | humanScopeIncomplete
  | sourceUnavailable
  | calculationOutOfRange
deriving DecidableEq

structure InvestmentSample extends Sample where
  omissions : List InvestmentOmission
  savedMinutes : Option Int
  valueMinor : Option Int
  currency : Option Currency

structure Period where
  fromDate : JsString
  toDate : JsString
  timeZone : JsString

structure Input where
  organizationId : Uuid
  period : Period
  samples : List Sample
  candidateWorks : Nat
  statements : List (InvestmentRevision InvestmentContent)
  filtered : Bool
  generatedAt : JsString

structure Group where
  currency : Currency
  valuedWorks : Nat
  unvaluedWorks : Nat
  valueCoverage : Coverage
  valueMinor : Option Int
  modelMinor : Option Nat
  subscriptionMinor : Option Int
  otherMinor : Option Nat
  costMinor : Option Int
  costCoverage : Coverage
  /-- In units of the smallest double. -/
  ratio : Option Int
  roi : Option Int
  statement : Option (InvestmentRevision InvestmentStatement)
  excludedCosts : List String

namespace Sample

def work (s : Sample) : InvestmentWork := s.revision.content

def base (s : Sample) : Option InvestmentBaseline :=
  s.baseline.map (·.content)

open InvestmentOmission in
/-- What a sample lacks. -/
def lacks (s : Sample) : List InvestmentOmission :=
  (if (s.work.adoptedAt.getD []).isEmpty then [notAdopted] else []) ++
    (if s.base.isNone then [baselineMissing] else []) ++
    (if s.work.humanMinutes.isNone then [humanInputMissing] else []) ++
    (if s.work.humanScope ≠ .complete then [humanScopeIncomplete] else []) ++
    if s.sourceAvailable then [] else [sourceUnavailable]

/-- `b.minutesPerUnit * work.units - work.humanMinutes`. -/
def saved (s : Sample) : Option Int :=
  match s.lacks, s.base, s.work.humanMinutes with
  | [], some b, some humanMinutes =>
    some (nearest
      (nearest (b.minutesPerUnit * s.work.units : Nat) 1 - humanMinutes) 1)
  | _, _, _ => none

/-- `Math.round(Math.abs(minutes * rate) / 60)`: the product and the quotient
are doubles, the latter in units of the smallest. -/
def roundedValue (minutes : Int) (rate : Nat) : Int :=
  let product := (nearest (minutes * rate) 1).natAbs
  let quotient := nearest (product * JsNumber.one : Nat) 60
  (2 * quotient + JsNumber.one) / (2 * JsNumber.one)

/-- The value of the minutes, before it is checked. -/
def value (s : Sample) : Option Int :=
  match s.saved, s.base with
  | some minutes, some b =>
    match b.hourlyRateMinor, b.currency with
    | some rate, some _ => some (minutes.sign * roundedValue minutes rate)
    | _, _ => none
  | _, _ => none

def currency (s : Sample) : Option Currency := s.base.bind (·.currency)

def estimate (s : Sample) : InvestmentSample :=
  if s.value.all isSafe then
    { s with omissions := s.lacks, savedMinutes := s.saved
             valueMinor := s.value, currency := s.currency }
  else
    { s with omissions := s.lacks ++ [.calculationOutOfRange]
             savedMinutes := none, valueMinor := none
             currency := s.currency }

end Sample

/-- `Date.parse`. -/
structure Clock where
  parseDate : JsString → Option Int

def sameInstant (clock : Clock) (a b : JsString) : Bool :=
  match clock.parseDate a, clock.parseDate b with
  | some x, some y => x == y
  | _, _ => false

namespace Input

variable (clock : Clock) (input : Input)

def estimated : List InvestmentSample := input.samples.map Sample.estimate

def included : List InvestmentSample :=
  input.estimated.filter (·.savedMinutes.isSome)

def truncated : Bool := input.samples.length < input.candidateWorks

/-- The statements of exactly the period. -/
def statementsOf : List (InvestmentRevision InvestmentStatement) :=
  input.statements.filterMap fun r =>
    match r.content with
    | .statement content =>
      if sameInstant clock content.fromDate input.period.fromDate &&
          sameInstant clock content.toDate input.period.toDate then
        some { id := r.id, entryId := r.entryId, content := content
               subscriptionReferences := r.subscriptionReferences }
      else none
    | .other => none

def valued (currency : Currency) : List InvestmentSample :=
  input.included.filter fun s =>
    s.currency == some currency && s.valueMinor.isSome

def statement (currency : Currency) :
    Option (InvestmentRevision InvestmentStatement) :=
  (input.statementsOf clock).find? (·.content.currency == currency)

def unvaluedWorks (currency : Currency) : Nat :=
  (input.included.filter fun s =>
    (s.currency == some currency || s.currency.isNone) &&
      s.valueMinor.isNone).length

/-- The amounts that a total of values runs over. -/
def values (currency : Currency) : List Int :=
  (input.valued currency).filterMap (·.valueMinor)

/-- The amounts that the total of minutes runs over. -/
def minutes : List Int := input.included.filterMap (·.savedMinutes)

end Input

namespace InvestmentRevision

/-- The amounts that the total of subscriptions runs over. -/
def references (r : InvestmentRevision InvestmentStatement) : List Int :=
  (r.subscriptionReferences.getD []).map fun amount : Nat =>
    (amount : Int)

def subscriptionMinor (r : InvestmentRevision InvestmentStatement) :
    Option Int :=
  if r.content.subscriptionKnown then some (total r.references) else none

def costMinor (r : InvestmentRevision InvestmentStatement) : Option Int :=
  match r.content.modelMinor, r.subscriptionMinor, r.content.otherMinor with
  | some modelMinor, some subscriptionMinor, some otherMinor =>
    some (nearest (nearest (modelMinor + subscriptionMinor) 1 + otherMinor) 1)
  | _, _, _ => none

end InvestmentRevision

namespace Input

variable (clock : Clock) (input : Input)

def valueSum (currency : Currency) : Int := total (input.values currency)

def valueMinor (currency : Currency) : Option Int :=
  if !(input.valued currency).isEmpty && !input.truncated &&
      isSafe (input.valueSum currency) then
    some (input.valueSum currency)
  else none

def valueCoverage (currency : Currency) : Coverage :=
  if (input.valueMinor currency).isNone then .unknown
  else if input.unvaluedWorks currency ≠ 0 ||
      input.included.length ≠ input.candidateWorks then .inPart
  else .complete

def costMinor (currency : Currency) : Option Int :=
  (input.statement clock currency).bind (·.costMinor)

/-- Whether the costs are known and stand for all of the samples. -/
def complete (currency : Currency) : Bool :=
  (input.costMinor clock currency).isSome &&
    ((input.statement clock currency).any
      (·.content.coverage == .complete)) &&
    !input.filtered && !input.truncated

def costCoverage (currency : Currency) : Coverage :=
  if input.complete clock currency then .complete
  else if (input.costMinor clock currency).isSome then .inPart
  else .unknown

def ratio (currency : Currency) : Option Int :=
  match input.valueMinor currency, input.costMinor clock currency with
  | some value, some cost =>
    if input.valueCoverage currency = .complete &&
        input.complete clock currency && 0 < cost then
      some (nearest (value * JsNumber.one) cost.toNat)
    else none
  | _, _ => none

def excludedCosts (currency : Currency) : List String :=
  let content := (input.statement clock currency).map (·.content)
  let gap (missing : Bool) (text : String) : List String :=
    if missing then [text] else []
  gap (content.bind (·.modelMinor)).isNone
      "模型费用缺少明确账单依据和币种；原始账本不改写、不重复累计子智能体费用" ++
    gap ((input.statement clock currency).bind (·.subscriptionMinor)).isNone
      "订阅分摊未确认" ++
    gap (content.bind (·.otherMinor)).isNone "其他投入未确认" ++
    gap (!content.any (·.coverage == .complete)) "未声明投入范围完整" ++
    gap input.filtered "员工/AI/岗位筛选与公司费用范围不同" ++
    gap input.truncated "业务样本超出本次证据上限" ++
    gap (input.unvaluedWorks currency != 0)
      "已登记样本存在未知人工费率或币种，收益仅为已知部分" ++
    gap (input.included.length != input.candidateWorks)
      "已登记样本未全部满足估算条件" ++
    gap (!(input.valued currency).isEmpty && !isSafe (input.valueSum currency))
      "收益总额超出精确计算范围"

def group (currency : Currency) : Group where
  currency := currency
  valuedWorks := (input.valued currency).length
  unvaluedWorks := input.unvaluedWorks currency
  valueCoverage := input.valueCoverage currency
  valueMinor := input.valueMinor currency
  modelMinor := (input.statement clock currency).bind (·.content.modelMinor)
  subscriptionMinor :=
    (input.statement clock currency).bind (·.subscriptionMinor)
  otherMinor := (input.statement clock currency).bind (·.content.otherMinor)
  costMinor := input.costMinor clock currency
  costCoverage := input.costCoverage clock currency
  ratio := input.ratio clock currency
  roi := (input.ratio clock currency).map fun ratio =>
    nearest (ratio - JsNumber.one) 1
  statement := input.statement clock currency
  excludedCosts := input.excludedCosts clock currency

def savedMinutes : Option Int :=
  if !input.included.isEmpty && !input.truncated then
    some (total input.minutes)
  else none

/-- The one number of standard hours that the statements name. -/
def standardHours : Option Nat :=
  match ((input.statementsOf clock).filterMap (·.content.standardHours)).dedup
  with
  | [hours] => some hours
  | _ => none

/-- `missing[key]`, a count over the samples. -/
def missing (key : InvestmentOmission) : Nat :=
  input.estimated.foldl (fun n s => n + s.omissions.count key) 0

end Input

end Allrice.InvestmentEstimate
