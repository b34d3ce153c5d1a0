/-
Business targets of monthly rules: when a day of the month and a time of day
come next in a time zone, and which of them has come last.  Dates are
milliseconds since 1970, on a calendar that has no first or last day.
-/
import Allrice.Calendar

namespace Allrice.MonthlyTarget

open Calendar

def minuteMs : ℤ := 60000
def hourMs : ℤ := 3600000
def dayMs : ℤ := 86400000

/-- A time zone: at each instant, how far its clocks are ahead. -/
structure Zone where
  offset : ℤ → ℤ
  bounded : ∀ date, -dayMs < offset date ∧ offset date < dayMs

/-- What the schema accepts, with the time taken apart. -/
structure MonthlyScheduleRule where
  monthDay : ℤ
  hour : ℤ
  minute : ℤ
  second : ℤ
  timezone : Zone
  dayRange : 1 ≤ monthDay ∧ monthDay ≤ 31
  hourRange : 0 ≤ hour ∧ hour ≤ 23
  minuteRange : 0 ≤ minute ∧ minute ≤ 59
  secondRange : 0 ≤ second ∧ second ≤ 59

/-- `Date.UTC`: months count from zero, and more than a year of them, like the
days, carry over. -/
def utc (year month day hour minute : ℤ) : ℤ :=
  (monthStart (12 * year + month) + (day - 1)) * dayMs + hour * hourMs +
    minute * minuteMs

def getUTCFullYear (date : ℤ) : ℤ := monthOf (date / dayMs) / 12

def getUTCMonth (date : ℤ) : ℤ := monthOf (date / dayMs) % 12

def getUTCDate (date : ℤ) : ℤ := dayOfMonth (date / dayMs)

structure DateParts where
  year : ℤ
  month : ℤ
  day : ℤ
  hour : ℤ
  minute : ℤ

/-- What the clocks and calendars of the zone show. -/
def dateParts (date : ℤ) (zone : Zone) : DateParts :=
  let wall := date + zone.offset date
  { year := getUTCFullYear wall
    month := getUTCMonth wall + 1
    day := getUTCDate wall
    hour := wall % dayMs / hourMs
    minute := wall % hourMs / minuteMs }

def timeZoneOffset (date : ℤ) (zone : Zone) : ℤ :=
  let parts := dateParts date zone
  utc parts.year (parts.month - 1) parts.day parts.hour parts.minute - date

def zonedTimeToUtc (input : DateParts) (zone : Zone) : ℤ :=
  let guess :=
    utc input.year (input.month - 1) input.day input.hour input.minute
  let first := guess - timeZoneOffset guess zone
  let second := guess - timeZoneOffset first zone
  let third := guess - timeZoneOffset second zone
  if third = second then second else max first second

inductive Fault
  | invalidMonthlySchedule
  | monthlyTargetBoundExceeded

/-- The result that is tried for the month with this offset. -/
def monthlyCandidate (rule : MonthlyScheduleRule) (current : DateParts)
    (offset : ℤ) : ℤ :=
  let month := utc current.year (current.month - 1 + offset) 1 0 0
  let lastDay :=
    getUTCDate (utc (getUTCFullYear month) (getUTCMonth month + 1) 0 0 0)
  zonedTimeToUtc
    { year := getUTCFullYear month
      month := getUTCMonth month + 1
      day := min rule.monthDay lastDay
      hour := rule.hour
      minute := rule.minute }
    rule.timezone

/-- The branch for monthly schedules. -/
def nextScheduleAt (rule : MonthlyScheduleRule) (after : ℤ) : Except Fault ℤ :=
  let current := dateParts after rule.timezone
  if after < monthlyCandidate rule current 0 then
    .ok (monthlyCandidate rule current 0)
  else if after < monthlyCandidate rule current 1 then
    .ok (monthlyCandidate rule current 1)
  else .error .invalidMonthlySchedule

def nextMonthlyBusinessTarget (rule : MonthlyScheduleRule) (after : ℤ) :
    Except Fault ℤ := do
  let target ← nextScheduleAt rule (after - rule.second * 1000)
  pure (target + rule.second * 1000)

/-- So many rounds of the loop. -/
def latestRounds (rule : MonthlyScheduleRule) (date : ℤ) :
    Nat → ℤ → Option ℤ → Except Fault ℤ
  | 0, _, _ => .error .monthlyTargetBoundExceeded
  | rounds + 1, target, latest =>
    if date < target then
      match latest with
      | some latest => .ok latest
      | none => .error .monthlyTargetBoundExceeded
    else do
      let next ← nextMonthlyBusinessTarget rule target
      latestRounds rule date rounds next (some target)

def latestMonthlyBusinessTarget (rule : MonthlyScheduleRule) (date : ℤ) :
    Except Fault ℤ := do
  let target ← nextMonthlyBusinessTarget rule (date - 64 * dayMs)
  latestRounds rule date 4 target none

end Allrice.MonthlyTarget
