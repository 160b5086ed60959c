import Rollup.Clock
import Rollup.Proofs.ClockReadings

/-!
# Rows that expire by the day

Whether the row of a bucket is gone is computed from milliseconds, and the answer goes by days: the last
day of the bucket has to lie before the day to which storage keeps its rows.
-/

namespace Rollup

open Calendar

namespace Calendar.Date

/-! ## Days -/

/-- The day that holds an instant, given in milliseconds since the epoch. -/
def ofMillis (millis : Int) : Date := ofDays (millis / Retention.dayMillis)

/-- The date some days before. -/
def back (date : Date) (days : Nat) : Date := ofDays (date.toDays - days)

@[simp]
theorem toDays_ofMillis (millis : Int) : (ofMillis millis).toDays = millis / Retention.dayMillis :=
  toDays_ofDays _

@[simp]
theorem toDays_back (date : Date) (days : Nat) : (date.back days).toDays = date.toDays - days :=
  toDays_ofDays _

end Calendar.Date

namespace TimeBucket

/-- The last day that a bucket reaches into. -/
def lastDate (bucket : TimeBucket) : Date :=
  match bucket.level with
  | .minute | .hour | .day => bucket.start.date
  | .month => bucket.start.date.nextMonth.back 1

variable {bucket : TimeBucket} {finish : Int}

theorem ofMillis_last (h : bucket.endMillis = .ok finish) :
    Date.ofMillis (finish - 1) = bucket.lastDate := by
  -- The last millisecond of a bucket lies on its last day. A bucket that ends at midnight does not
  -- reach into the day that begins there.
  obtain ⟨_, rfl⟩ := endMillis_eq_ok_iff.mp h
  have hbegins := bucket.begins
  have hnext := Moment.toMinutes_next hbegins
  have hminute := bucket.start.minute_lt
  apply Date.toDays_inj
  rw [Date.toDays_ofMillis, hnext]
  unfold lastDate Retention.dayMillis
  cases hlevel : bucket.level with
  | minute =>
    simp only [Moment.toMinutes, Moment.span]
    omega
  | hour =>
    have hhour := Moment.begins_hour_iff.mp (hlevel ▸ hbegins)
    simp only [Moment.toMinutes, Moment.span]
    omega
  | day =>
    have hday := Moment.begins_day_iff.mp (hlevel ▸ hbegins)
    simp only [Moment.toMinutes, Moment.span]
    omega
  | month =>
    obtain ⟨hmidnight, hfirst⟩ := Moment.begins_month_iff.mp (hlevel ▸ hbegins)
    simp only [Moment.toMinutes, Moment.span, Date.toDays_back, Date.toDays_nextMonth,
      Date.toDays_monthStart]
    omega

theorem finish_bounds (h : bucket.endMillis = .ok finish) :
    Timestamp.least ≤ finish ∧ finish ≤ Timestamp.greatest := by
  obtain ⟨hin, rfl⟩ := endMillis_eq_ok_iff.mp h
  have hdays := Date.inRange_iff_toDays.mp hin
  have hminute := (bucket.start.next bucket.level).minute_lt
  unfold firstDay lastDay at hdays
  unfold Timestamp.least Timestamp.greatest Moment.toMinutes
  omega

end TimeBucket

namespace Retention

variable {bucket : TimeBucket} {finish now : Int} {ttlDays : Nat}

/-! ## The day of the cutoff -/

theorem ttl_bounds (httl : ttlDays < UInt32.size) : ttlDays * dayMillis ≤ Timestamp.greatest := by
  have hsize : ttlDays < 4294967296 := httl
  unfold dayMillis Timestamp.greatest
  omega

theorem minus_ttl (hpast : 0 ≤ now) (hnow : now ≤ Timestamp.greatest) (httl : ttlDays < UInt32.size) :
    Timestamp.minus now (ttlDays * dayMillis) = now - ttlDays * dayMillis := by
  have hbounds := ttl_bounds httl
  unfold dayMillis at *
  unfold Timestamp.greatest at hnow hbounds
  unfold Timestamp.minus Timestamp.least Timestamp.greatest
  omega

theorem cutoff_eq (hpast : 0 ≤ now) (hnow : now ≤ Timestamp.greatest) (httl : ttlDays < UInt32.size) :
    cutoff now ttlDays = .ok (((Date.ofMillis now).back ttlDays).toDays * dayMillis) := by
  have hbounds := ttl_bounds httl
  unfold cutoff
  rw [minus_ttl hpast hnow httl, Date.toDays_back, Date.toDays_ofMillis]
  have hday : now - ttlDays * dayMillis - (now - ttlDays * dayMillis) % dayMillis =
      (now / dayMillis - ttlDays) * dayMillis := by
    unfold dayMillis
    omega
  have hleast : Timestamp.least ≤ (now / dayMillis - ttlDays) * dayMillis := by
    unfold dayMillis at *
    unfold Timestamp.greatest at hbounds
    unfold Timestamp.least
    omega
  dsimp only
  rw [hday, if_pos hleast]

theorem isExpired_eq (hfinish : bucket.endMillis = .ok finish) {day : Int}
    (hday : cutoff now ttlDays = .ok day) :
    isExpired bucket now ttlDays = .ok (decide (finish ≤ day)) := by
  rw [isExpired, hday, hfinish]
  rfl

theorem le_firstMilli_iff (finish : Int) (date : Date) :
    finish ≤ date.toDays * dayMillis ↔ (Date.ofMillis (finish - 1)).Before date := by
  rw [← Date.toDays_lt_iff, Date.toDays_ofMillis]
  unfold dayMillis
  omega

theorem isExpired_iff (hfinish : bucket.endMillis = .ok finish) (hpast : 0 ≤ now)
    (hnow : now ≤ Timestamp.greatest) (httl : ttlDays < UInt32.size) :
    isExpired bucket now ttlDays = .ok true ↔
      (Date.ofMillis (finish - 1)).Before ((Date.ofMillis now).back ttlDays) := by
  rw [isExpired_eq hfinish (cutoff_eq hpast hnow httl), Except.ok.injEq, decide_eq_true_iff,
    le_firstMilli_iff]

theorem back_mono {later : Int} {fewer : Nat} (hlater : now ≤ later) (hfewer : fewer ≤ ttlDays) :
    ((Date.ofMillis now).back ttlDays).toDays ≤ ((Date.ofMillis later).back fewer).toDays := by
  simp only [Date.toDays_back, Date.toDays_ofMillis]
  unfold dayMillis
  omega

/-- A row is gone exactly if the last day of its bucket lies before the day that is the time to live
before now. No number on the way leaves its range, and what is gone stays so: later, and with a shorter
time to live. -/
theorem rows_expire_by_days (hfinish : bucket.endMillis = .ok finish) (hpast : 0 ≤ now)
    (hnow : now ≤ Timestamp.greatest) (httl : ttlDays < UInt32.size) :
    (ttlDays * dayMillis ≤ Timestamp.greatest ∧
      Timestamp.minus now (ttlDays * dayMillis) = now - ttlDays * dayMillis ∧
      cutoff now ttlDays = .ok (((Date.ofMillis now).back ttlDays).toDays * dayMillis) ∧
      Timestamp.least ≤ finish ∧ finish ≤ Timestamp.greatest) ∧
    (∃ expired, isExpired bucket now ttlDays = .ok expired ∧
      (expired = true ↔ (Date.ofMillis (finish - 1)).Before ((Date.ofMillis now).back ttlDays))) ∧
    Date.ofMillis (finish - 1) = bucket.lastDate ∧
    (isExpired bucket now ttlDays = .ok true → ∀ later fewer, now ≤ later →
      later ≤ Timestamp.greatest → fewer ≤ ttlDays → isExpired bucket later fewer = .ok true) := by
  have hcutoff := cutoff_eq hpast hnow httl
  refine ⟨⟨ttl_bounds httl, minus_ttl hpast hnow httl, hcutoff, TimeBucket.finish_bounds hfinish⟩,
    ⟨_, isExpired_eq hfinish hcutoff, ?_⟩, TimeBucket.ofMillis_last hfinish, ?_⟩
  · rw [decide_eq_true_iff, le_firstMilli_iff]
  · intro hexpired later fewer hlater hgreatest hfewer
    have hbefore := (isExpired_iff hfinish hpast hnow httl).mp hexpired
    rw [isExpired_iff hfinish (Int.le_trans hpast hlater) hgreatest (Nat.lt_of_le_of_lt hfewer httl)]
    rw [← Date.toDays_lt_iff] at hbefore ⊢
    exact Int.lt_of_lt_of_le hbefore (back_mono hlater hfewer)

/-- At noon of 2024-01-10 the days before 2024-01-03 are gone that storage keeps for 7 days. December is
one of them, which ended at midnight, and January is not. -/
theorem rows_expire_by_days_of_months : ∃ december january : TimeBucket,
    TimeBucket.ofValue 202312 .month = .ok december ∧ december.endMillis = .ok 1704067200000 ∧
    TimeBucket.ofValue 202401 .month = .ok january ∧ january.endMillis = .ok 1706745600000 ∧
    Date.ofMillis (1704067200000 - 1) = december.lastDate ∧
    isExpired december 1704888000000 7 = .ok true ∧ isExpired december 1704888000001 6 = .ok true ∧
    isExpired january 1704888000000 7 = .ok false := by
  obtain ⟨december, hdecember, hends, hgone⟩ : ∃ december : TimeBucket,
      TimeBucket.ofValue 202312 .month = .ok december ∧ december.endMillis = .ok 1704067200000 ∧
      isExpired december 1704888000000 7 = .ok true := ⟨_, rfl, rfl, rfl⟩
  obtain ⟨january, hjanuary, hgoesOn, hthere⟩ : ∃ january : TimeBucket,
      TimeBucket.ofValue 202401 .month = .ok january ∧ january.endMillis = .ok 1706745600000 ∧
      isExpired january 1704888000000 7 = .ok false := ⟨_, rfl, rfl, rfl⟩
  obtain ⟨_, _, hlast, hstays⟩ :=
    rows_expire_by_days hends (show (0 : Int) ≤ 1704888000000 by decide) (by decide)
      (show 7 < UInt32.size by decide)
  exact ⟨december, january, hdecember, hends, hjanuary, hgoesOn, hlast, hgone,
    hstays hgone 1704888000001 6 (by decide) (by decide) (by decide), hthere⟩

end Retention

end Rollup
