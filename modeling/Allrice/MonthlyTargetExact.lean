/-
When the latest target of a monthly rule is found.  Targets of successive months
lie four weeks apart, up to two days; what can fail is the step from an instant
to the month that the clocks show there.
-/
import Allrice.MonthlyTarget

namespace Allrice.MonthlyTarget

open Calendar

namespace Zone

/-- What the clocks show, as if it were a date. -/
def wall (zone : Zone) (date : ℤ) : ℤ := date + zone.offset date

/-- The month that the calendars show. -/
def month (zone : Zone) (date : ℤ) : ℤ := monthOf (zone.wall date / dayMs)

end Zone

theorem utc_dateParts (date : ℤ) (zone : Zone) :
    utc (dateParts date zone).year ((dateParts date zone).month - 1)
      (dateParts date zone).day (dateParts date zone).hour
        (dateParts date zone).minute =
      zone.wall date - zone.wall date % minuteMs := by
  show utc (getUTCFullYear (zone.wall date))
    (getUTCMonth (zone.wall date) + 1 - 1) (getUTCDate (zone.wall date))
    (zone.wall date % dayMs / hourMs) (zone.wall date % hourMs / minuteMs) = _
  rw [utc, getUTCFullYear, getUTCMonth, getUTCDate, dayOfMonth,
    add_sub_cancel_right, Int.mul_ediv_add_emod]
  generalize zone.wall date = wall
  generalize monthStart (monthOf (wall / dayMs)) = first
  simp only [dayMs, hourMs, minuteMs]
  omega

theorem timeZoneOffset_eq (date : ℤ) (zone : Zone) :
    timeZoneOffset date zone =
      zone.offset date - zone.wall date % minuteMs := by
  rw [timeZoneOffset, utc_dateParts, Zone.wall]
  ring

theorem timeZoneOffset_bounds (date : ℤ) (zone : Zone) :
    -(dayMs + minuteMs) < timeZoneOffset date zone ∧
      timeZoneOffset date zone < dayMs := by
  have hoffset := zone.bounded date
  have hrest := Int.emod_nonneg (zone.wall date) (b := minuteMs) (by decide)
  have hlt := Int.emod_lt_of_pos (zone.wall date) (b := minuteMs) (by decide)
  rw [timeZoneOffset_eq]
  omega

/-- The offset of a whole minute is a number of minutes. -/
theorem timeZoneOffset_minutes {date : ℤ} (h : minuteMs ∣ date) (zone : Zone) :
    minuteMs ∣ timeZoneOffset date zone := by
  have hwall : zone.offset date - zone.wall date % minuteMs =
      (zone.wall date - zone.wall date % minuteMs) - date := by
    rw [Zone.wall]
    ring
  rw [timeZoneOffset_eq, hwall]
  exact dvd_sub (Int.dvd_self_sub_emod) h

section

variable (rule : MonthlyScheduleRule)

/-- The day of a month that the rule is about, or its last day, and the time. -/
def partsOf (month : ℤ) : DateParts where
  year := month / 12
  month := month % 12 + 1
  day := min rule.monthDay (monthLength month)
  hour := rule.hour
  minute := rule.minute

/-- When the clocks show the minute of a month. -/
def moment (month : ℤ) : ℤ := zonedTimeToUtc (partsOf rule month) rule.timezone

/-- The target instant of a month. -/
def target (month : ℤ) : ℤ := moment rule month + rule.second * 1000

/-- What the clocks should show in a month. -/
def wallTime (month : ℤ) : ℤ :=
  (monthStart month + (min rule.monthDay (monthLength month) - 1)) * dayMs +
    rule.hour * hourMs + rule.minute * minuteMs

end

variable {rule : MonthlyScheduleRule}

theorem utc_month (year month : ℤ) :
    monthOf (utc year month 1 0 0 / dayMs) = 12 * year + month := by
  have hstart : utc year month 1 0 0 =
      monthStart (12 * year + month) * dayMs := by
    rw [utc]
    ring
  rw [hstart, Int.mul_ediv_cancel _ (by decide)]
  exact monthOf_eq le_rfl (monthStart_strictMono (Int.lt_succ _))

theorem monthlyCandidate_eq (rule : MonthlyScheduleRule) (date offset : ℤ) :
    monthlyCandidate rule (dateParts date rule.timezone) offset =
      moment rule (rule.timezone.month date + offset) := by
  have hmonth : monthOf (utc (dateParts date rule.timezone).year
      ((dateParts date rule.timezone).month - 1 + offset) 1 0 0 / dayMs) =
        rule.timezone.month date + offset := by
    rw [utc_month]
    show 12 * (rule.timezone.month date / 12) +
      (rule.timezone.month date % 12 + 1 - 1 + offset) = _
    omega
  have hlast : ∀ month : ℤ,
      getUTCDate (utc (month / 12) (month % 12 + 1) 0 0 0) =
        monthLength month := by
    intro month
    have hday : utc (month / 12) (month % 12 + 1) 0 0 0 / dayMs =
        monthStart (month + 1) - 1 := by
      rw [utc, ← add_assoc, Int.mul_ediv_add_emod]
      simp only [dayMs, hourMs, minuteMs]
      omega
    rw [getUTCDate, hday, dayOfMonth_last]
  simp only [monthlyCandidate, getUTCFullYear, getUTCMonth, hmonth, hlast]
  rfl

theorem utc_partsOf (month : ℤ) :
    utc (partsOf rule month).year ((partsOf rule month).month - 1)
      (partsOf rule month).day (partsOf rule month).hour
        (partsOf rule month).minute = wallTime rule month := by
  simp only [partsOf, utc, wallTime, add_sub_cancel_right,
    Int.mul_ediv_add_emod]

theorem wallTime_minutes (month : ℤ) : minuteMs ∣ wallTime rule month := by
  refine ⟨(monthStart month + (min rule.monthDay (monthLength month) - 1)) *
    1440 + rule.hour * 60 + rule.minute, ?_⟩
  rw [wallTime]
  simp only [dayMs, hourMs, minuteMs]
  ring

/-- A moment is found by taking an offset off the time that the clocks should
show. -/
theorem moment_eq (month : ℤ) : ∃ date, minuteMs ∣ date ∧
    moment rule month =
      wallTime rule month - timeZoneOffset date rule.timezone := by
  have hguess := @wallTime_minutes rule month
  have hfirst := dvd_sub hguess
    (timeZoneOffset_minutes hguess rule.timezone)
  simp only [moment, zonedTimeToUtc, utc_partsOf]
  split
  · exact ⟨_, hfirst, rfl⟩
  · rcases max_choice
      (wallTime rule month -
        timeZoneOffset (wallTime rule month) rule.timezone)
      (wallTime rule month - timeZoneOffset (wallTime rule month -
        timeZoneOffset (wallTime rule month) rule.timezone) rule.timezone)
      with hmax | hmax
    · exact ⟨_, hguess, hmax⟩
    · exact ⟨_, hfirst, hmax⟩

theorem moment_near (month : ℤ) :
    wallTime rule month - dayMs < moment rule month ∧
      moment rule month < wallTime rule month + (dayMs + minuteMs) := by
  obtain ⟨date, -, hmoment⟩ := @moment_eq rule month
  have hbounds := timeZoneOffset_bounds date rule.timezone
  rw [hmoment]
  omega

/-- Seconds are preserved. -/
theorem target_seconds (month : ℤ) :
    target rule month % minuteMs = rule.second * 1000 := by
  obtain ⟨date, hdate, hmoment⟩ := @moment_eq rule month
  have hminutes : minuteMs ∣ moment rule month := by
    rw [hmoment]
    exact dvd_sub (wallTime_minutes month)
      (timeZoneOffset_minutes hdate rule.timezone)
  have hsecond := rule.secondRange
  obtain ⟨count, hcount⟩ := hminutes
  rw [target, hcount, Int.mul_add_emod_self_left]
  apply Int.emod_eq_of_lt
  · omega
  · rw [minuteMs]
    omega

theorem wallTime_succ (month : ℤ) :
    wallTime rule month + 28 * dayMs ≤ wallTime rule (month + 1) ∧
      wallTime rule (month + 1) ≤ wallTime rule month + 31 * dayMs := by
  have hlength := monthLength_bounds month
  have hnext := monthLength_bounds (month + 1)
  have hstart : monthStart (month + 1) =
      monthStart month + monthLength month := by
    rw [monthLength]
    ring
  rw [wallTime, wallTime, hstart]
  simp only [dayMs]
  constructor <;> omega

theorem wallTime_within (month : ℤ) :
    monthStart month * dayMs ≤ wallTime rule month ∧
      wallTime rule month < monthStart (month + 1) * dayMs := by
  have hlength := monthLength_bounds month
  have hday := rule.dayRange
  have hhour := rule.hourRange
  have hminute := rule.minuteRange
  have hstart : monthStart (month + 1) =
      monthStart month + monthLength month := by
    rw [monthLength]
    ring
  rw [wallTime, hstart]
  simp only [dayMs, hourMs, minuteMs]
  constructor <;> omega

theorem target_succ (month : ℤ) :
    target rule month + 25 * dayMs < target rule (month + 1) ∧
      target rule (month + 1) < target rule month + 34 * dayMs := by
  have hmoment := @moment_near rule month
  have hnext := @moment_near rule (month + 1)
  have hwall := @wallTime_succ rule month
  rw [target, target]
  simp only [dayMs, minuteMs] at *
  omega

theorem target_strictMono : StrictMono (target rule) := by
  apply strictMono_int_of_lt_succ
  intro month
  have hsucc := (@target_succ rule month).1
  have hpositive : 0 < dayMs := by decide
  omega

/-- What is tried, in terms of months. -/
theorem next_eq (rule : MonthlyScheduleRule) (after : ℤ) :
    nextMonthlyBusinessTarget rule after =
      let month := rule.timezone.month (after - rule.second * 1000)
      if after < target rule month then .ok (target rule month)
      else if after < target rule (month + 1) then
        .ok (target rule (month + 1))
      else .error .invalidMonthlySchedule := by
  have hlt : ∀ month : ℤ, after - rule.second * 1000 < moment rule month ↔
      after < target rule month := by
    intro month
    rw [target]
    omega
  simp only [nextMonthlyBusinessTarget, nextScheduleAt, monthlyCandidate_eq,
    add_zero, hlt]
  split
  · rfl
  split
  · rfl
  · rfl

/-- The month that the clocks show at a target is its own, or a neighbour. -/
theorem month_near (month : ℤ) :
    month - 1 ≤ rule.timezone.month (moment rule month) ∧
      rule.timezone.month (moment rule month) ≤ month + 1 := by
  have hmoment := @moment_near rule month
  have hoffset := rule.timezone.bounded (moment rule month)
  have hwithin := @wallTime_within rule month
  have hbefore := monthLength_bounds (month - 1)
  have hafter := monthLength_bounds (month + 1)
  rw [monthLength, sub_add_cancel] at hbefore
  rw [monthLength] at hafter
  obtain ⟨hfrom, huntil⟩ :=
    monthOf_spec (rule.timezone.wall (moment rule month) / dayMs)
  have hlow : monthStart (month - 1) <
      monthStart (monthOf (rule.timezone.wall (moment rule month) / dayMs) +
        1) := by
    refine lt_of_le_of_lt ?_ huntil
    rw [Int.le_ediv_iff_mul_le (by decide), Zone.wall]
    simp only [dayMs, minuteMs] at *
    omega
  have hhigh : monthStart
      (monthOf (rule.timezone.wall (moment rule month) / dayMs)) <
        monthStart (month + 1 + 1) := by
    refine lt_of_le_of_lt hfrom ?_
    rw [Int.ediv_lt_iff_lt_mul (by decide), Zone.wall]
    simp only [dayMs, minuteMs] at *
    omega
  rw [monthStart_strictMono.lt_iff_lt] at hlow hhigh
  rw [Zone.month]
  omega

/-- The clocks do not show the month before at a target. -/
def InMonth (rule : MonthlyScheduleRule) (month : ℤ) : Prop :=
  month ≤ rule.timezone.month (moment rule month)

/-- From a target to the next one. -/
theorem next_target (month : ℤ) :
    (InMonth rule month → nextMonthlyBusinessTarget rule (target rule month) =
      .ok (target rule (month + 1))) ∧
    (¬ InMonth rule month →
      nextMonthlyBusinessTarget rule (target rule month) =
        .error .invalidMonthlySchedule) := by
  have hnear := @month_near rule month
  have hback : target rule month - rule.second * 1000 = moment rule month := by
    rw [target, add_sub_cancel_right]
  have hlt := fun {a b : ℤ} => (@target_strictMono rule).lt_iff_lt
    (a := a) (b := b)
  rw [next_eq, hback]
  simp only [InMonth, hlt]
  generalize rule.timezone.month (moment rule month) = shown at *
  constructor
  · intro hin
    split
    · rename_i hafter
      rw [show shown = month + 1 by omega]
    · rename_i hsame
      rw [if_pos (by omega), show shown = month by omega]
  · intro hout
    rw [if_neg (by omega), if_neg (by omega)]

/-- A month whose target is the latest one at a date. -/
def IsLatest (rule : MonthlyScheduleRule) (date month : ℤ) : Prop :=
  target rule month ≤ date ∧ date < target rule (month + 1)

/-- Enough rounds find the latest target, if the clocks show no target of the
search in the month before. -/
theorem latestRounds_spec {date : ℤ} (rounds : Nat) : ∀ month : ℤ,
    target rule (month - 1) ≤ date → date < target rule (month + rounds) →
    ((∀ m, month ≤ m → target rule m ≤ date → InMonth rule m) →
      ∃ m, month - 1 ≤ m ∧ IsLatest rule date m ∧
        latestRounds rule date (rounds + 1) (target rule month)
          (some (target rule (month - 1))) = .ok (target rule m)) ∧
    ((∃ m, month ≤ m ∧ target rule m ≤ date ∧ ¬ InMonth rule m) →
      ∃ fault, latestRounds rule date (rounds + 1) (target rule month)
        (some (target rule (month - 1))) = .error fault) := by
  induction rounds with
  | zero =>
    intro month hlast hend
    rw [Nat.cast_zero, add_zero] at hend
    rw [latestRounds, if_pos hend]
    constructor
    · intro _
      refine ⟨month - 1, le_rfl, ⟨hlast, ?_⟩, rfl⟩
      rw [sub_add_cancel]
      exact hend
    · intro hbad
      obtain ⟨m, hm, hle, -⟩ := hbad
      have hmono := (@target_strictMono rule).monotone hm
      omega
  | succ rounds ih =>
    intro month hlast hend
    have hmono := (@target_strictMono rule).monotone
    rw [latestRounds]
    by_cases hpast : date < target rule month
    · rw [if_pos hpast]
      constructor
      · intro _
        refine ⟨month - 1, le_rfl, ⟨hlast, ?_⟩, rfl⟩
        rw [sub_add_cancel]
        exact hpast
      · intro hbad
        obtain ⟨m, hm, hle, -⟩ := hbad
        exact absurd (hpast.trans_le (hmono hm)) (not_lt.2 hle)
    rw [if_neg hpast]
    by_cases hin : InMonth rule month
    · have hnext := (next_target month).1 hin
      have hih := ih (month + 1) (by rw [add_sub_cancel_right]; omega)
        (by rw [add_assoc, add_comm 1]; exact_mod_cast hend)
      rw [add_sub_cancel_right] at hih
      rw [hnext]
      constructor
      · intro hgood
        obtain ⟨m, hm, hlatest, hfound⟩ := hih.1 fun m hm =>
          hgood m (by omega)
        exact ⟨m, by omega, hlatest, hfound⟩
      · intro hbad
        obtain ⟨m, hm, hle, hout⟩ := hbad
        refine hih.2 ⟨m, ?_, hle, hout⟩
        rcases hm.eq_or_lt with rfl | hlt
        · exact absurd hin hout
        · omega
    · have hnext := (next_target month).2 hin
      rw [hnext]
      constructor
      · intro hgood
        exact absurd (hgood month le_rfl (not_lt.1 hpast)) hin
      · intro _
        exact ⟨_, rfl⟩

/-- The month at which the search begins. -/
def startMonth (rule : MonthlyScheduleRule) (date : ℤ) : ℤ :=
  rule.timezone.month (date - 64 * dayMs - rule.second * 1000)

/-- The clocks were not put back across the start of a month whose target had
come, at the start of the search; and they show no target that the search meets
in the month before. -/
structure Regular (rule : MonthlyScheduleRule) (date : ℤ) : Prop where
  start : date - 64 * dayMs < target rule (startMonth rule date + 1)
  shown : ∀ month, startMonth rule date ≤ month →
    date - 64 * dayMs < target rule month → target rule month ≤ date →
      InMonth rule month

/-- The first target of the search. -/
theorem next_start {date : ℤ}
    (h : date - 64 * dayMs < target rule (startMonth rule date + 1)) :
    ∃ month, nextMonthlyBusinessTarget rule (date - 64 * dayMs) =
        .ok (target rule month) ∧
      startMonth rule date ≤ month ∧ date - 64 * dayMs < target rule month ∧
        target rule month ≤ date ∧
        ∀ m, startMonth rule date ≤ m → date - 64 * dayMs < target rule m →
          month ≤ m := by
  have hnext := next_eq rule (date - 64 * dayMs)
  have hmono := @target_strictMono rule
  by_cases hsame : date - 64 * dayMs < target rule (startMonth rule date)
  · refine ⟨startMonth rule date, ?_, le_rfl, hsame, ?_, fun m hm _ => hm⟩
    · rw [hnext]
      exact if_pos hsame
    · have hmoment := @moment_near rule (startMonth rule date)
      have hwithin := @wallTime_within rule (startMonth rule date)
      have hlength := monthLength_bounds (startMonth rule date)
      have hoffset :=
        rule.timezone.bounded (date - 64 * dayMs - rule.second * 1000)
      have hshown := (monthOf_spec (rule.timezone.wall
        (date - 64 * dayMs - rule.second * 1000) / dayMs)).1
      rw [Int.le_ediv_iff_mul_le (by decide), Zone.wall] at hshown
      rw [monthLength] at hlength
      rw [startMonth, Zone.month, Zone.wall] at *
      rw [target]
      simp only [dayMs, minuteMs] at *
      omega
  · have hgap := (@target_succ rule (startMonth rule date)).2
    refine ⟨startMonth rule date + 1, ?_, by omega, h, ?_, fun m hm hlt => ?_⟩
    · rw [hnext]
      exact (if_neg hsame).trans (if_pos h)
    · simp only [dayMs] at *
      omega
    · rcases hm.eq_or_lt with rfl | hmore
      · exact absurd hlt hsame
      · omega

/-- Behind the start, four rounds are enough. -/
theorem latest_of_start {date month : ℤ}
    (hnext : nextMonthlyBusinessTarget rule (date - 64 * dayMs) =
      .ok (target rule month))
    (hstart : date - 64 * dayMs < target rule month)
    (hle : target rule month ≤ date) :
    ((∀ m, month ≤ m → target rule m ≤ date → InMonth rule m) →
      ∃ m, month ≤ m ∧ IsLatest rule date m ∧
        latestMonthlyBusinessTarget rule date = .ok (target rule m)) ∧
    ((∃ m, month ≤ m ∧ target rule m ≤ date ∧ ¬ InMonth rule m) →
      ∃ fault, latestMonthlyBusinessTarget rule date = .error fault) := by
  have hsteps : target rule month + 75 * dayMs <
      target rule (month + 1 + 2) := by
    have h₁ := (@target_succ rule month).1
    have h₂ := (@target_succ rule (month + 1)).1
    have h₃ := (@target_succ rule (month + 1 + 1)).1
    rw [show month + 1 + 2 = month + 1 + 1 + 1 by ring]
    omega
  have hend : date < target rule (month + 1 + (2 : Nat)) := by
    simp only [dayMs] at *
    exact_mod_cast (by omega : date < target rule (month + 1 + 2))
  have hrounds := @latestRounds_spec rule date 2 (month + 1)
    (by rw [add_sub_cancel_right]; exact hle) hend
  rw [add_sub_cancel_right] at hrounds
  have hfirst : latestMonthlyBusinessTarget rule date =
      (nextMonthlyBusinessTarget rule (target rule month)).bind fun next =>
        latestRounds rule date 3 next (some (target rule month)) := by
    rw [latestMonthlyBusinessTarget, hnext]
    show latestRounds rule date 4 (target rule month) none = _
    rw [latestRounds, if_neg (not_lt.2 hle)]
    rfl
  rw [hfirst]
  by_cases hin : InMonth rule month
  · rw [(next_target month).1 hin]
    constructor
    · intro hgood
      obtain ⟨m, hm, hlatest, hfound⟩ := hrounds.1 fun m hm =>
        hgood m (by omega)
      exact ⟨m, hm, hlatest, hfound⟩
    · intro hbad
      obtain ⟨m, hm, hle', hout⟩ := hbad
      refine hrounds.2 ⟨m, ?_, hle', hout⟩
      rcases hm.eq_or_lt with rfl | hmore
      · exact absurd hin hout
      · omega
  · rw [(next_target month).2 hin]
    constructor
    · intro hgood
      exact absurd (hgood month le_rfl hle) hin
    · intro _
      exact ⟨_, rfl⟩

/-- The target instants of all months that are not after a date. -/
def targetsUntil (rule : MonthlyScheduleRule) (date : ℤ) : Set ℤ :=
  { instant | (∃ month, instant = target rule month) ∧ instant ≤ date }

/-- The latest target is found, it keeps the seconds, and the next one is
later. -/
def Meets (rule : MonthlyScheduleRule) (date : ℤ) : Prop :=
  ∃ found, latestMonthlyBusinessTarget rule date = .ok found ∧
    IsGreatest (targetsUntil rule date) found ∧
    found % minuteMs = rule.second * 1000 ∧
    ∃ later, nextMonthlyBusinessTarget rule found = .ok later ∧ found < later

theorem IsLatest.isGreatest {date month : ℤ} (h : IsLatest rule date month) :
    IsGreatest (targetsUntil rule date) (target rule month) := by
  refine ⟨⟨⟨month, rfl⟩, h.1⟩, fun instant hinstant => ?_⟩
  obtain ⟨⟨m, rfl⟩, hle⟩ := hinstant
  have hmono := @target_strictMono rule
  have hlt := hmono.lt_iff_lt.1 (hle.trans_lt h.2)
  exact hmono.monotone (by omega)

theorem meets_of_regular {date : ℤ} (h : Regular rule date) :
    Meets rule date := by
  obtain ⟨month, hnext, hfrom, hstart, hle, -⟩ := next_start h.start
  have hgood : ∀ m, month ≤ m → target rule m ≤ date → InMonth rule m := by
    intro m hm hdate
    exact h.shown m (hfrom.trans hm)
      (hstart.trans_le ((@target_strictMono rule).monotone hm)) hdate
  obtain ⟨m, hm, hlatest, hfound⟩ :=
    (latest_of_start hnext hstart hle).1 hgood
  refine ⟨target rule m, hfound, hlatest.isGreatest, target_seconds m,
    target rule (m + 1), ?_, ?_⟩
  · exact (next_target m).1 (hgood m hm hlatest.1)
  · exact (@target_strictMono rule) (Int.lt_succ m)

theorem regular_of_meets {date : ℤ} (h : Meets rule date) :
    Regular rule date := by
  obtain ⟨found, hfound, -⟩ := h
  have hstart : date - 64 * dayMs <
      target rule (startMonth rule date + 1) := by
    by_contra hpast
    have hmono := (@target_strictMono rule)
      (Int.lt_succ (startMonth rule date))
    have hnext : nextMonthlyBusinessTarget rule (date - 64 * dayMs) =
        .error .invalidMonthlySchedule := by
      rw [next_eq]
      exact (if_neg (by
        show ¬ date - 64 * dayMs < target rule (startMonth rule date)
        omega)).trans (if_neg hpast)
    rw [latestMonthlyBusinessTarget, hnext] at hfound
    cases hfound
  obtain ⟨month, hnext, -, hbegin, hle, hfirst⟩ := next_start hstart
  refine ⟨hstart, fun m hm hlt hdate => ?_⟩
  by_contra hout
  obtain ⟨fault, hfault⟩ := (latest_of_start hnext hbegin hle).2
    ⟨m, hfirst m hm hlt, hdate, hout⟩
  rw [hfault] at hfound
  cases hfound

/-- Exactly when the start and the targets of the search are regular. -/
theorem latest_target_iff (rule : MonthlyScheduleRule) (date : ℤ) :
    Meets rule date ↔ Regular rule date :=
  ⟨regular_of_meets, meets_of_regular⟩

/-- The clocks change by whole minutes, and at most once within two days. -/
structure Zone.Apart (zone : Zone) : Prop where
  minutes : ∀ date, minuteMs ∣ zone.offset date
  once : ∀ a b c, a ≤ b → b ≤ c → c < a + 2 * dayMs →
    zone.offset a = zone.offset b ∨ zone.offset b = zone.offset c

theorem Zone.Apart.timeZoneOffset_eq {zone : Zone} (h : zone.Apart) {date : ℤ}
    (hdate : minuteMs ∣ date) :
    timeZoneOffset date zone = zone.offset date := by
  have hwall : zone.wall date % minuteMs = 0 :=
    Int.emod_eq_zero_of_dvd (dvd_add hdate (h.minutes date))
  rw [MonthlyTarget.timeZoneOffset_eq, hwall, sub_zero]

/-- There the clocks never show less than they should. -/
theorem wallTime_le (h : rule.timezone.Apart) (month : ℤ) :
    wallTime rule month ≤ rule.timezone.wall (moment rule month) := by
  have hguess := @wallTime_minutes rule month
  have hfirst := dvd_sub hguess (h.minutes (wallTime rule month))
  have hsecond := dvd_sub hguess (h.minutes
    (wallTime rule month - rule.timezone.offset (wallTime rule month)))
  simp only [moment, zonedTimeToUtc, utc_partsOf, h.timeZoneOffset_eq hguess,
    h.timeZoneOffset_eq hfirst, h.timeZoneOffset_eq hsecond]
  have hbound := rule.timezone.bounded (wallTime rule month)
  have hbound' := rule.timezone.bounded
    (wallTime rule month - rule.timezone.offset (wallTime rule month))
  have honce := h.once
  generalize wallTime rule month = guess at *
  split
  · rename_i hsame
    rw [Zone.wall]
    omega
  rename_i hdiffers
  rw [Zone.wall]
  generalize hfirst' : guess - rule.timezone.offset guess = first at *
  generalize hsecond' : guess - rule.timezone.offset first = second at *
  rcases le_total second first with hle | hle
  · rw [max_eq_left hle]
    omega
  rw [max_eq_right hle]
  have hequal : first = second →
      rule.timezone.offset first = rule.timezone.offset second :=
    congrArg rule.timezone.offset
  -- the three instants, in each order that they can have
  have hbefore := honce guess first second
  have hbetween := honce first guess second
  have hlast := honce first second guess
  omega

theorem inMonth_of_apart (h : rule.timezone.Apart) (month : ℤ) :
    InMonth rule month := by
  have hwall := wallTime_le h month
  have hwithin := (@wallTime_within rule month).1
  have hshown :=
    (monthOf_spec (rule.timezone.wall (moment rule month) / dayMs)).2
  rw [Int.ediv_lt_iff_lt_mul (by decide)] at hshown
  rw [InMonth, Zone.month]
  by_contra hout
  have hle := monthStart_strictMono.monotone
    (show monthOf (rule.timezone.wall (moment rule month) / dayMs) + 1 ≤ month
      by omega)
  simp only [dayMs] at *
  omega

/-- Then the latest target is found if the clocks were not put back in the two
days before the search begins. -/
theorem latest_target_of_apart (h : rule.timezone.Apart) {date : ℤ}
    (hforward : ∀ earlier,
      earlier ≤ date - 64 * dayMs - rule.second * 1000 →
      date - 64 * dayMs - rule.second * 1000 < earlier + 2 * dayMs →
        rule.timezone.offset earlier ≤
          rule.timezone.offset (date - 64 * dayMs - rule.second * 1000)) :
    Meets rule date := by
  refine meets_of_regular ⟨?_, fun month _ _ _ => inMonth_of_apart h month⟩
  by_contra hpast
  rw [startMonth, target] at hpast
  generalize hbegin : date - 64 * dayMs - rule.second * 1000 = opening at *
  have hwall := wallTime_le h (rule.timezone.month opening + 1)
  have hwithin :=
    (@wallTime_within rule (rule.timezone.month opening + 1)).1
  have hshown := (monthOf_spec (rule.timezone.wall opening / dayMs)).2
  rw [Int.ediv_lt_iff_lt_mul (by decide)] at hshown
  have hmoment := hforward (moment rule (rule.timezone.month opening + 1))
    (by omega)
  have hbound := rule.timezone.bounded opening
  have hbound' := rule.timezone.bounded
    (moment rule (rule.timezone.month opening + 1))
  rw [Zone.month] at *
  simp only [Zone.wall, dayMs] at *
  omega

/-- A zone whose clocks are put back by an hour, one minute after the first of
November 2009 has begun. -/
def putBack : Zone where
  offset date := if date < 1257042660000 then -9000000 else -12600000
  bounded date := by
    simp only [dayMs]
    split <;> omega

def firstOfMonth : MonthlyScheduleRule where
  monthDay := 1
  hour := 0
  minute := 0
  second := 0
  timezone := putBack
  dayRange := by decide
  hourRange := by decide
  minuteRange := by decide
  secondRange := by decide

theorem putBack_apart : putBack.Apart where
  minutes := by
    intro date
    simp only [putBack, minuteMs]
    split <;> decide
  once := by
    intro a b c hab hbc _
    simp only [putBack]
    split_ifs <;> omega

/-- The clocks are put back during the first search, and two days before the
second one begins. -/
theorem latest_target_of_apart_back :
    Meets firstOfMonth 1259971200000 ∧ Meets firstOfMonth 1262745060000 := by
  constructor
  · apply latest_target_of_apart putBack_apart
    intro earlier hle _
    simp only [firstOfMonth, putBack, dayMs] at *
    split_ifs <;> omega
  · apply latest_target_of_apart putBack_apart
    intro earlier _ hlt
    simp only [firstOfMonth, putBack, dayMs] at *
    split_ifs <;> omega

/-- 64 days behind the repeated hour no target is found. -/
theorem no_target_behind_repeated_hour :
    ¬ Meets firstOfMonth 1262573100000 := by
  intro h
  have hstart := (regular_of_meets h).start
  have hmonth : startMonth firstOfMonth 1262573100000 = 24117 := by
    decide +kernel
  have htarget : target firstOfMonth (24117 + 1) = 1257042600000 := by
    decide +kernel
  rw [hmonth, htarget] at hstart
  norm_num [dayMs] at hstart

end Allrice.MonthlyTarget
