import Rollup.TimeBucket

/-!
# Dates in their order

The number of a day says which date it is, and dates follow one another as their numbers do. So it is
with the minutes since the epoch and the moments they count.
-/

namespace Rollup

namespace Calendar

/-! ## The days before a year and before a month -/

theorem daysBeforeYear_mono {a b : Int} (h : a ≤ b) : daysBeforeYear a ≤ daysBeforeYear b := by
  unfold daysBeforeYear
  omega

theorem daysBeforeMonth_mono {year : Int} {a b : Nat} (ha : 1 ≤ a) (h : a ≤ b) :
    daysBeforeMonth year a ≤ daysBeforeMonth year b := by
  induction h with
  | refl => exact Nat.le_refl _
  | step h ih =>
    rw [daysBeforeMonth_succ (Nat.le_trans ha h)]
    omega

theorem daysInMonth_le (year : Int) (month : Nat) : daysInMonth year month ≤ 31 := by
  unfold daysInMonth
  split <;> (try split) <;> omega

theorem daysBeforeYear_succ_eq (year : Int) :
    daysBeforeYear (year + 1) = daysBeforeYear year + daysBeforeMonth year 13 := by
  rw [daysBeforeYear_succ, daysBeforeMonth_thirteen]
  split <;> rfl

namespace Date

/-! ## Earlier dates -/

/-- The date comes before another: by the year, then by the month, then by the day. -/
def Before (a b : Date) : Prop :=
  a.year < b.year ∨
    a.year = b.year ∧ (a.month < b.month ∨ a.month = b.month ∧ a.day < b.day)

theorem eq_iff_fields {a b : Date} :
    a = b ↔ a.year = b.year ∧ a.month = b.month ∧ a.day = b.day := by
  obtain ⟨ya, ma, da, _, _, _, _⟩ := a
  obtain ⟨yb, mb, db, _, _, _, _⟩ := b
  simp

theorem before_trichotomy (a b : Date) : a.Before b ∨ a = b ∨ b.Before a := by
  rw [eq_iff_fields]
  unfold Before
  omega

theorem daysBeforeMonth_add_day_le (date : Date) {month : Nat} (h : date.month < month) :
    daysBeforeMonth date.year date.month + date.day ≤ daysBeforeMonth date.year month := by
  have hmonth : daysBeforeMonth date.year (date.month + 1) = _ := daysBeforeMonth_succ date.month_pos
  have hmono : daysBeforeMonth date.year (date.month + 1) ≤ _ := daysBeforeMonth_mono (by omega) h
  have hday := date.day_le
  omega

theorem toDays_lt_of_before {a b : Date} (h : a.Before b) : a.toDays < b.toDays := by
  have hpos := b.day_pos
  unfold toDays
  rcases h with hyear | ⟨hyear, hmonth | ⟨hmonth, hday⟩⟩
  · have hlast : a.month < 13 := Nat.lt_succ_of_le a.month_le
    have hin := a.daysBeforeMonth_add_day_le hlast
    have hnext := daysBeforeYear_succ_eq a.year
    have hmono := daysBeforeYear_mono (show a.year + 1 ≤ b.year by omega)
    omega
  · have hin := a.daysBeforeMonth_add_day_le hmonth
    rw [← hyear]
    omega
  · rw [← hyear, ← hmonth]
    omega

theorem toDays_lt_iff {a b : Date} : a.toDays < b.toDays ↔ a.Before b := by
  refine ⟨fun h => ?_, toDays_lt_of_before⟩
  rcases before_trichotomy a b with hbefore | rfl | hbefore
  · exact hbefore
  · omega
  · have := toDays_lt_of_before hbefore
    omega

theorem toDays_inj {a b : Date} (h : a.toDays = b.toDays) : a = b := by
  rcases before_trichotomy a b with hbefore | hsame | hbefore
  · have := toDays_lt_of_before hbefore
    omega
  · exact hsame
  · have := toDays_lt_of_before hbefore
    omega

/-! ## Dates of numbers -/

@[simp]
theorem toDays_ofDays (number : Int) : (ofDays number).toDays = number := by
  have hyear := daysBeforeYear_yearOf_le (number + epochOffset)
  have hmonth := daysBeforeMonth_monthOf_le (yearOf (number + epochOffset))
    (dayOfYear (number + epochOffset)) 12
  have hday : (dayOfYear (number + epochOffset) : Int) =
      number + epochOffset - daysBeforeYear (yearOf (number + epochOffset)) := by
    unfold dayOfYear
    omega
  unfold toDays ofDays
  simp only
  omega

/-! ## Dates that follow -/

theorem toDays_monthStart (date : Date) :
    date.monthStart.toDays = date.toDays - (date.day - 1) := by
  unfold toDays monthStart
  simp only
  omega

theorem toDays_nextMonth (date : Date) :
    date.nextMonth.toDays = date.monthStart.toDays + daysInMonth date.year date.month := by
  have hmonth : daysBeforeMonth date.year (date.month + 1) = _ := daysBeforeMonth_succ date.month_pos
  unfold nextMonth
  split
  · unfold toDays monthStart
    simp only
    omega
  · have hlast : date.month = 12 := by
      have := date.month_le
      omega
    simp only [hlast, Nat.reduceAdd] at hmonth
    have hyear := daysBeforeYear_succ_eq date.year
    have hfirst : daysBeforeMonth (date.year + 1) 1 = 0 := rfl
    unfold toDays monthStart
    simp only [hlast, hfirst]
    omega

theorem toDays_next (date : Date) : date.next.toDays = date.toDays + 1 := by
  unfold next
  split
  · unfold toDays
    simp only
    omega
  · have hday := date.day_le
    have hpos := date.day_pos
    rw [toDays_nextMonth, toDays_monthStart]
    omega

theorem inRange_iff {date : Date} :
    date.inRange = true ↔ firstYear ≤ date.year ∧ date.year ≤ lastYear := by
  simp [inRange]

theorem of?_eq_some_iff {year : Int} {month day : Nat} {date : Date} :
    of? year month day = some date ↔
      date.year = year ∧ date.month = month ∧ date.day = day := by
  unfold of?
  constructor
  · intro h
    split at h
    · cases h
      exact ⟨rfl, rfl, rfl⟩
    · cases h
  · rintro ⟨rfl, rfl, rfl⟩
    rw [dif_pos ⟨date.month_pos, date.month_le, date.day_pos, date.day_le⟩]

end Date

end Calendar

/-! ## Moments -/

namespace Moment

open Calendar

@[simp]
theorem toMinutes_midnight (date : Date) : (midnight date).toMinutes = date.toDays * 1440 := by
  simp [toMinutes, midnight]

@[simp]
theorem toMinutes_ofMinutes (minutes : Int) : (ofMinutes minutes).toMinutes = minutes := by
  simp only [toMinutes, ofMinutes, Date.toDays_ofDays]
  omega

theorem toMinutes_inj {a b : Moment} (h : a.toMinutes = b.toMinutes) : a = b := by
  obtain ⟨dateA, minuteA, hA⟩ := a
  obtain ⟨dateB, minuteB, hB⟩ := b
  simp only [toMinutes] at h
  obtain rfl := Date.toDays_inj (show dateA.toDays = dateB.toDays by omega)
  obtain rfl : minuteA = minuteB := by omega
  rfl

theorem toMinutes_lt_iff {a b : Moment} :
    a.toMinutes < b.toMinutes ↔ a.date.Before b.date ∨ a.date = b.date ∧ a.minute < b.minute := by
  have hA := a.minute_lt
  have hB := b.minute_lt
  rw [← Date.toDays_lt_iff]
  unfold toMinutes
  by_cases hdate : a.date = b.date
  · simp only [hdate, true_and]
    omega
  · have hdays : a.date.toDays ≠ b.date.toDays := mt Date.toDays_inj hdate
    simp only [hdate, false_and, or_false]
    omega

end Moment

end Rollup
