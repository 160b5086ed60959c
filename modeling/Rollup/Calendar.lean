/-!
# The calendar

Civil dates of the Gregorian calendar, run backwards without a break (year 0 is a leap year), and
their day numbers. Day 0 is 1970-01-01. A date outside the years of `firstYear` to `lastYear` cannot
be the start of a bucket.
-/

namespace Rollup.Calendar

/-- Leap years: each fourth, but of the full centuries only each fourth. -/
def isLeap (year : Int) : Bool :=
  year % 4 == 0 && (year % 100 != 0 || year % 400 == 0)

def daysInMonth (year : Int) : Nat → Nat
  | 2 => if isLeap year then 29 else 28
  | 4 | 6 | 9 | 11 => 30
  | _ => 31

/-- The days of a year that lie before the first of `month`. -/
def daysBeforeMonth (year : Int) : Nat → Nat
  | 0 | 1 => 0
  | month + 2 => daysBeforeMonth year (month + 1) + daysInMonth year (month + 1)

/-- The days from 0000-01-01 to the first day of `year`. -/
def daysBeforeYear (year : Int) : Int :=
  365 * year + (year + 3) / 4 - (year + 99) / 100 + (year + 399) / 400

/-- The day number of 0000-01-01, negated. -/
def epochOffset : Int := 719528

/-- A day that exists. -/
structure Date where
  year : Int
  month : Nat
  day : Nat
  month_pos : 1 ≤ month
  month_le : month ≤ 12
  day_pos : 1 ≤ day
  day_le : day ≤ daysInMonth year month
  deriving DecidableEq

/-- The date with these fields, if there is one. -/
def Date.of? (year : Int) (month day : Nat) : Option Date :=
  if h : 1 ≤ month ∧ month ≤ 12 ∧ 1 ≤ day ∧ day ≤ daysInMonth year month then
    some ⟨year, month, day, h.1, h.2.1, h.2.2.1, h.2.2.2⟩
  else none

/-! ## From a date to its day number -/

/-- Days since 1970-01-01. -/
def Date.toDays (date : Date) : Int :=
  daysBeforeYear date.year + daysBeforeMonth date.year date.month + (date.day - 1) - epochOffset

/-! ## From a day number to its date -/

/-- The year of the day that lies `days` after 0000-01-01. Within an era of 400 years the quotient
by 365 is at most one too large. -/
def yearOf (days : Int) : Int :=
  let era := days / 146097
  let rest := days % 146097
  let guess := rest / 365
  400 * era + (if daysBeforeYear guess ≤ rest then guess else guess - 1)

/-- The greatest month up to `month` that has begun on the given day of the year, counted from 0. -/
def monthOf (year : Int) (dayOfYear : Nat) : Nat → Nat
  | 0 | 1 => 1
  | month + 2 =>
    if daysBeforeMonth year (month + 2) ≤ dayOfYear then month + 2
    else monthOf year dayOfYear (month + 1)

theorem daysBeforeYear_era (era year : Int) :
    daysBeforeYear (400 * era + year) = 146097 * era + daysBeforeYear year := by
  unfold daysBeforeYear
  omega

theorem daysBeforeYear_yearOf_le (days : Int) : daysBeforeYear (yearOf days) ≤ days := by
  unfold yearOf
  simp only [daysBeforeYear_era]
  unfold daysBeforeYear
  split <;> omega

theorem lt_daysBeforeYear_succ_yearOf (days : Int) : days < daysBeforeYear (yearOf days + 1) := by
  unfold yearOf
  simp only [Int.add_assoc, daysBeforeYear_era]
  split
  · unfold daysBeforeYear
    omega
  · rw [Int.sub_add_cancel]
    omega

theorem daysBeforeYear_succ (year : Int) :
    daysBeforeYear (year + 1) = daysBeforeYear year + if isLeap year then 366 else 365 := by
  unfold daysBeforeYear
  by_cases h : isLeap year <;> simp only [h, if_true, Bool.false_eq_true, if_false] <;>
    simp [isLeap] at h <;> omega

theorem daysBeforeMonth_succ {year : Int} {month : Nat} (h : 1 ≤ month) :
    daysBeforeMonth year (month + 1) = daysBeforeMonth year month + daysInMonth year month := by
  match month, h with
  | _ + 1, _ => rfl

theorem daysBeforeMonth_thirteen (year : Int) :
    daysBeforeMonth year 13 = if isLeap year then 366 else 365 := by
  by_cases h : isLeap year <;> simp [daysBeforeMonth, daysInMonth, h]

theorem one_le_monthOf (year : Int) (dayOfYear : Nat) :
    ∀ month, 1 ≤ monthOf year dayOfYear month
  | 0 | 1 => Nat.le_refl 1
  | month + 2 => by
    unfold monthOf
    split
    · omega
    · exact one_le_monthOf year dayOfYear (month + 1)

theorem monthOf_le (year : Int) (dayOfYear : Nat) :
    ∀ month, 1 ≤ month → monthOf year dayOfYear month ≤ month
  | 1, _ => Nat.le_refl 1
  | month + 2, _ => by
    unfold monthOf
    split
    · omega
    · have := monthOf_le year dayOfYear (month + 1) (by omega)
      omega

theorem daysBeforeMonth_monthOf_le (year : Int) (dayOfYear : Nat) :
    ∀ month, daysBeforeMonth year (monthOf year dayOfYear month) ≤ dayOfYear
  | 0 | 1 => Nat.zero_le _
  | month + 2 => by
    unfold monthOf
    split
    · assumption
    · exact daysBeforeMonth_monthOf_le year dayOfYear (month + 1)

theorem lt_daysBeforeMonth_succ_monthOf (year : Int) (dayOfYear : Nat) :
    ∀ month, 1 ≤ month → dayOfYear < daysBeforeMonth year (month + 1) →
      dayOfYear < daysBeforeMonth year (monthOf year dayOfYear month + 1)
  | 1, _, h => h
  | month + 2, _, h => by
    unfold monthOf
    split
    · exact h
    · exact lt_daysBeforeMonth_succ_monthOf year dayOfYear (month + 1) (by omega)
        (Nat.lt_of_not_le ‹_›)

/-- The day of its year, counted from 0, of the day that lies `days` after 0000-01-01. -/
def dayOfYear (days : Int) : Nat :=
  (days - daysBeforeYear (yearOf days)).toNat

theorem dayOfYear_lt (days : Int) :
    dayOfYear days < daysBeforeMonth (yearOf days) 13 := by
  have low := daysBeforeYear_yearOf_le days
  have high := lt_daysBeforeYear_succ_yearOf days
  rw [daysBeforeYear_succ] at high
  rw [daysBeforeMonth_thirteen]
  unfold dayOfYear
  split <;> simp_all <;> omega

/-- The date of a day number. -/
def Date.ofDays (number : Int) : Date :=
  let days := number + epochOffset
  let year := yearOf days
  let within := dayOfYear days
  let month := monthOf year within 12
  { year, month
    day := within - daysBeforeMonth year month + 1
    month_pos := one_le_monthOf _ _ _
    month_le := monthOf_le _ _ _ (by omega)
    day_pos := by omega
    day_le := by
      have low : daysBeforeMonth year month ≤ within := daysBeforeMonth_monthOf_le _ _ _
      have high : within < daysBeforeMonth year month + daysInMonth year month := by
        rw [← daysBeforeMonth_succ (one_le_monthOf _ _ _)]
        exact lt_daysBeforeMonth_succ_monthOf year within 12 (by omega) (dayOfYear_lt days)
      omega }

/-! ## Moving on -/

theorem one_le_daysInMonth (year : Int) (month : Nat) : 1 ≤ daysInMonth year month := by
  unfold daysInMonth
  split <;> (try split) <;> omega

/-- The first of the month that follows. -/
def Date.nextMonth (date : Date) : Date :=
  if h : date.month < 12 then
    { year := date.year, month := date.month + 1, day := 1
      month_pos := by omega
      month_le := by omega
      day_pos := Nat.le_refl 1
      day_le := one_le_daysInMonth _ _ }
  else
    { year := date.year + 1, month := 1, day := 1
      month_pos := Nat.le_refl 1
      month_le := by omega
      day_pos := Nat.le_refl 1
      day_le := one_le_daysInMonth _ _ }

/-- The day that follows. -/
def Date.next (date : Date) : Date :=
  if h : date.day < daysInMonth date.year date.month then
    { date with day := date.day + 1, day_pos := by omega, day_le := h }
  else date.nextMonth

/-- The first of the same month. -/
def Date.monthStart (date : Date) : Date :=
  { date with day := 1, day_pos := Nat.le_refl 1, day_le := Nat.le_trans date.day_pos date.day_le }

/-! ## The years that count -/

def firstYear : Int := -262143

def lastYear : Int := 262142

def Date.inRange (date : Date) : Bool :=
  firstYear ≤ date.year && date.year ≤ lastYear

end Rollup.Calendar
