import Rollup.Proofs.Tiling

/-!
# Readings of clocks

The bucket of an instant is found from its timestamp in milliseconds, or from the reading of a clock.
Both go by one calendar, which has a first and a last millisecond. From the one to the other they find
the same bucket. Beyond, a timestamp is refused with an error, and a reading breaks the call off.
-/

namespace Rollup

open Calendar

/-! ## The days of the calendar -/

namespace Calendar

/-- The number of the first day of the calendar. -/
def firstDay : Int := -96465292

/-- The number of the last one. -/
def lastDay : Int := 95026236

namespace Date

theorem toDays_lt_daysBeforeYear_iff (date : Date) (year : Int) :
    date.toDays < daysBeforeYear year - epochOffset ↔ date.year < year := by
  obtain ⟨start, hyear, hmonth, hday⟩ : ∃ start : Date,
      start.year = year ∧ start.month = 1 ∧ start.day = 1 :=
    ⟨⟨year, 1, 1, by decide, by decide, by decide, one_le_daysInMonth year 1⟩, rfl, rfl, rfl⟩
  have hstart : start.toDays = daysBeforeYear year - epochOffset := by
    rw [toDays, hyear, hmonth, hday, daysBeforeMonth]
    omega
  have hpos := date.month_pos
  have hfirst := date.day_pos
  rw [← hstart, toDays_lt_iff, Before]
  omega

theorem inRange_iff_toDays {date : Date} :
    date.inRange = true ↔ firstDay ≤ date.toDays ∧ date.toDays ≤ lastDay := by
  have hfirst := date.toDays_lt_daysBeforeYear_iff firstYear
  have hlast := date.toDays_lt_daysBeforeYear_iff (lastYear + 1)
  rw [show daysBeforeYear firstYear - epochOffset = firstDay by decide] at hfirst
  rw [show daysBeforeYear (lastYear + 1) - epochOffset = lastDay + 1 by decide] at hlast
  rw [inRange_iff]
  omega

end Date

end Calendar

namespace TimeBucket

/-- The first millisecond of the calendar. -/
def firstMillis : Int := -8334601228800000

/-- The last one. -/
def lastMillis : Int := 8210266876799999

theorem inRange_ofMinutes_iff {millis : Int} :
    (Moment.ofMinutes (millis / 60000)).date.inRange = true ↔
      firstMillis ≤ millis ∧ millis ≤ lastMillis := by
  rw [Date.inRange_iff_toDays, Moment.ofMinutes, Date.toDays_ofDays]
  unfold firstDay lastDay firstMillis lastMillis
  omega

/-! ## Two ways to a bucket -/

theorem ofTime?_ofReading (millis : Int) (past : Fin 1000000) (level : Level) :
    ofTime? (.ofReading (millis * 1000000 + past.val)) level = ofTime? (.ofMillis millis) level := by
  have hsecond : (WallTime.ofReading (millis * 1000000 + past.val)).second =
      (WallTime.ofMillis millis).second := by
    apply WallTime.second_eq_of_millis
    rw [WallTime.toNanos_ofReading, WallTime.toNanos_ofMillis]
    omega
  rw [ofTime?, hsecond, ofTime?]

theorem ofTime?_eq_none {millis : Int} (h : ¬ (firstMillis ≤ millis ∧ millis ≤ lastMillis))
    (level : Level) : ofTime? (.ofMillis millis) level = none := by
  rw [ofTime?_ofMillis]
  exact dif_neg (mt inRange_ofMinutes_iff.mp h)

theorem exists_ofTime?_eq_some {millis : Int} (h : firstMillis ≤ millis ∧ millis ≤ lastMillis)
    (level : Level) : ∃ bucket, ofTime? (.ofMillis millis) level = some bucket := by
  rw [ofTime?_ofMillis]
  exact ⟨_, dif_pos (inRange_ofMinutes_iff.mpr h)⟩

/-- A timestamp and any reading of a clock within its millisecond lead to the same bucket, which holds
them, wherever the calendar has one. Elsewhere the timestamp is refused, and the reading breaks off. -/
theorem readings_agree_with_timestamps (millis : Int) (past : Fin 1000000) (level : Level) :
    (firstMillis ≤ millis ∧ millis ≤ lastMillis → ∃ bucket : TimeBucket,
      ofMillis millis level = .ok bucket ∧
      ofNanos (millis * 1000000 + past.val) level = .ok (.ok bucket) ∧
      bucket.level = level ∧ bucket.startMillis ≤ millis ∧
      ∀ finish, bucket.endMillis = .ok finish → millis < finish) ∧
    (¬ (firstMillis ≤ millis ∧ millis ≤ lastMillis) →
      ofMillis millis level = .error (.outOfRange millis) ∧
      ofNanos (millis * 1000000 + past.val) level = .error .outOfRange) := by
  unfold ofNanos
  rw [ofTime?_ofReading]
  refine ⟨fun h => ?_, fun h => ?_⟩
  · obtain ⟨bucket, hbucket⟩ := exists_ofTime?_eq_some h level
    have hmillis : ofMillis millis level = .ok bucket := by rw [ofMillis, hbucket]
    obtain ⟨hlevel, hstart, hnext⟩ := ofMillis_eq_ok_iff.mp hmillis
    refine ⟨bucket, hmillis, by rw [hbucket], hlevel, hstart, fun finish hfinish => ?_⟩
    obtain ⟨_, rfl⟩ := endMillis_eq_ok_iff.mp hfinish
    rwa [hlevel]
  · have hnone := ofTime?_eq_none h level
    rw [ofMillis, hnone]
    exact ⟨rfl, rfl⟩

/-- A nanosecond before the epoch it is still 1969, and a millisecond after the last one there is no
minute any more. -/
theorem readings_agree_with_timestamps_around_the_calendar :
    (∃ bucket : TimeBucket, ofMillis (-1) .minute = .ok bucket ∧
      ofNanos (-1 * 1000000 + (999999 : Fin 1000000).val) .minute = .ok (.ok bucket) ∧
      bucket.value = 196912312359) ∧
    lastMillis < 8210266876800000 ∧
    ofMillis 8210266876800000 .minute = .error (.outOfRange 8210266876800000) ∧
    ofNanos (8210266876800000 * 1000000 + (0 : Fin 1000000).val) .minute = .error .outOfRange := by
  obtain ⟨bucket, hmillis, hreading, _⟩ :=
    (readings_agree_with_timestamps (-1) 999999 .minute).1 (by decide)
  refine ⟨⟨bucket, hmillis, hreading, ?_⟩, by decide,
    (readings_agree_with_timestamps 8210266876800000 0 .minute).2 (by decide)⟩
  have hvalue : (ofMillis (-1) .minute).map value = .ok 196912312359 := rfl
  rw [hmillis] at hvalue
  exact Except.ok.inj hvalue

/-- A reading is not always answered as its timestamp is: behind the calendar there is no answer. -/
theorem a_reading_is_not_answered : ¬ ∀ (millis : Int) (level : Level),
    ofNanos (millis * 1000000) level = .ok (ofMillis millis level) := by
  intro h
  have hbroken : ofNanos (8210266876800000 * 1000000) .day = .error .outOfRange := rfl
  cases hbroken.symm.trans (h 8210266876800000 .day)

end TimeBucket

end Rollup
