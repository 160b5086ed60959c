import Rollup.Proofs.Dates

/-!
# Buckets tile the timeline

The start of a bucket is found by rounding down and its end by going on from there. An instant belongs
to the bucket of a level exactly if it lies between the two, so that the buckets of a level follow one
another without a gap, and those of a finer level lie inside them.
-/

namespace Rollup

open Calendar

/-! ## Rounding down and going on -/

namespace Moment

/-- A bucket of this level begins at the moment. -/
def Begins (moment : Moment) (level : Level) : Prop := moment.floor level = moment

/-- The minutes of the bucket that begins at a moment. -/
def span (moment : Moment) : Level → Nat
  | .minute => 1
  | .hour => 60
  | .day => 1440
  | .month => 1440 * daysInMonth moment.date.year moment.date.month

theorem span_pos (moment : Moment) (level : Level) : 0 < moment.span level := by
  have hmonth := one_le_daysInMonth moment.date.year moment.date.month
  cases level <;> simp only [span] <;> omega

theorem begins_floor (moment : Moment) (level : Level) : (moment.floor level).Begins level :=
  moment.floor_floor level

theorem begins_hour_iff {moment : Moment} : moment.Begins .hour ↔ moment.minute % 60 = 0 := by
  obtain ⟨date, minute, hminute⟩ := moment
  simp only [Begins, floor, Moment.mk.injEq, true_and]
  omega

theorem begins_day_iff {moment : Moment} : moment.Begins .day ↔ moment.minute = 0 := by
  obtain ⟨date, minute, hminute⟩ := moment
  simp only [Begins, floor, midnight, Moment.mk.injEq, true_and]
  omega

theorem begins_month_iff {moment : Moment} :
    moment.Begins .month ↔ moment.minute = 0 ∧ moment.date.day = 1 := by
  obtain ⟨⟨year, month, day, _, _, _, _⟩, minute, hminute⟩ := moment
  simp only [Begins, floor, midnight, Date.monthStart, Moment.mk.injEq, Date.mk.injEq, true_and]
  omega

theorem floor_toMinutes_le (moment : Moment) (level : Level) :
    (moment.floor level).toMinutes ≤ moment.toMinutes := by
  cases level with
  | minute => exact Int.le_refl _
  | hour =>
    simp only [toMinutes, floor]
    omega
  | day =>
    simp only [toMinutes, floor, midnight]
    omega
  | month =>
    have hday := moment.date.day_pos
    simp only [toMinutes, floor, midnight, Date.toDays_monthStart]
    omega

theorem toMinutes_later {moment : Moment} {step : Nat} (h : moment.minute + step ≤ 1440) :
    (moment.later step).toMinutes = moment.toMinutes + step := by
  unfold later
  split
  · simp only [toMinutes]
    omega
  · rw [toMinutes_midnight, Date.toDays_next]
    simp only [toMinutes]
    omega

theorem toMinutes_next {moment : Moment} {level : Level} (h : moment.Begins level) :
    (moment.next level).toMinutes = moment.toMinutes + moment.span level := by
  have hminute := moment.minute_lt
  cases level with
  | minute => exact toMinutes_later (by omega)
  | hour =>
    have := begins_hour_iff.mp h
    exact toMinutes_later (by omega)
  | day =>
    have := begins_day_iff.mp h
    simp only [next, toMinutes_midnight, Date.toDays_next]
    simp only [toMinutes, span]
    omega
  | month =>
    obtain ⟨hfirst, hday⟩ := begins_month_iff.mp h
    simp only [next, toMinutes_midnight, Date.toDays_nextMonth, Date.toDays_monthStart]
    simp only [toMinutes, span]
    omega

theorem begins_next {moment : Moment} {level : Level} (h : moment.Begins level) :
    (moment.next level).Begins level := by
  cases level with
  | minute => rfl
  | hour =>
    have hminute := begins_hour_iff.mp h
    rw [begins_hour_iff]
    show (moment.later 60).minute % 60 = 0
    unfold later
    split
    · simp only
      omega
    · rfl
  | day => rfl
  | month =>
    rw [begins_month_iff]
    refine ⟨rfl, ?_⟩
    simp only [next, midnight, Date.nextMonth]
    split <;> rfl

theorem lt_next_floor (moment : Moment) (level : Level) :
    moment.toMinutes < ((moment.floor level).next level).toMinutes := by
  rw [toMinutes_next (moment.begins_floor level)]
  have hminute := moment.minute_lt
  cases level with
  | minute =>
    simp only [floor, span]
    omega
  | hour =>
    simp only [toMinutes, floor, span]
    omega
  | day =>
    simp only [toMinutes, floor, midnight, span]
    omega
  | month =>
    have hday := moment.date.day_le
    simp only [toMinutes, floor, midnight, Date.toDays_monthStart, span]
    simp only [Date.monthStart]
    omega

theorem next_le_of_lt {a b : Moment} {level : Level} (ha : a.Begins level) (hb : b.Begins level)
    (h : a.toMinutes < b.toMinutes) : (a.next level).toMinutes ≤ b.toMinutes := by
  cases level with
  | minute =>
    rw [toMinutes_next ha]
    simp only [span]
    omega
  | hour =>
    have hA := begins_hour_iff.mp ha
    have hB := begins_hour_iff.mp hb
    rw [toMinutes_next ha]
    simp only [toMinutes, span] at h ⊢
    omega
  | day =>
    have hA := begins_day_iff.mp ha
    have hB := begins_day_iff.mp hb
    rw [toMinutes_next ha]
    simp only [toMinutes, span] at h ⊢
    omega
  | month =>
    -- Between two months there is a month, and months are told apart by their fields.
    obtain ⟨hA, hdayA⟩ := begins_month_iff.mp ha
    obtain ⟨hB, hdayB⟩ := begins_month_iff.mp hb
    have hmonthA := a.date.month_le
    have hmonthB := b.date.month_le
    have hpos := b.date.month_pos
    refine Int.not_lt.mp fun hlt => ?_
    have hbefore := toMinutes_lt_iff.mp h
    have hafter := toMinutes_lt_iff.mp hlt
    simp only [next, midnight, Date.nextMonth, Date.Before] at hbefore hafter
    split at hafter <;> simp only at hafter <;> omega

/-- Rounding down finds the one bucket that begins at or before a moment and ends after it. -/
theorem floor_eq_iff {moment start : Moment} {level : Level} (h : start.Begins level) :
    moment.floor level = start ↔
      start.toMinutes ≤ moment.toMinutes ∧ moment.toMinutes < (start.next level).toMinutes := by
  constructor
  · rintro rfl
    exact ⟨moment.floor_toMinutes_le level, moment.lt_next_floor level⟩
  · rintro ⟨hstart, hnext⟩
    have hfloor := moment.floor_toMinutes_le level
    have hafter := moment.lt_next_floor level
    rcases Int.lt_trichotomy (moment.floor level).toMinutes start.toMinutes with hlt | heq | hgt
    · have := next_le_of_lt (moment.begins_floor level) h hlt
      omega
    · exact toMinutes_inj heq
    · have := next_le_of_lt h (moment.begins_floor level) hgt
      omega

end Moment

/-! ## The bucket of an instant -/

namespace TimeBucket

theorem ext_start {a b : TimeBucket} (hlevel : a.level = b.level) (hstart : a.start = b.start) :
    a = b := by
  obtain ⟨la, sa, _, _⟩ := a
  obtain ⟨lb, sb, _, _⟩ := b
  simp only at hlevel hstart
  subst hlevel hstart
  rfl

theorem begins (bucket : TimeBucket) : bucket.start.Begins bucket.level := bucket.aligned

theorem endMillis_eq_ok_iff {bucket : TimeBucket} {finish : Int} :
    bucket.endMillis = .ok finish ↔
      (bucket.start.next bucket.level).date.inRange = true ∧
        finish = (bucket.start.next bucket.level).toMinutes * 60000 := by
  unfold endMillis TimeBucket.finish
  dsimp only
  split
  · next h =>
    simp only [h, true_and]
    exact ⟨fun hfinish => (Except.ok.inj hfinish).symm, fun hfinish => congrArg _ hfinish.symm⟩
  · next h =>
    exact ⟨nofun, fun hin => absurd hin.1 h⟩

theorem spanMinutes_eq {bucket : TimeBucket} {finish : Int} (h : bucket.endMillis = .ok finish) :
    bucket.spanMinutes = .ok (bucket.start.span bucket.level) := by
  obtain ⟨hin, _⟩ := endMillis_eq_ok_iff.mp h
  unfold spanMinutes TimeBucket.finish
  simp only [hin, if_true]
  show Except.ok _ = _
  rw [Moment.toMinutes_next bucket.begins]
  congr 1
  omega

theorem ofMinutes?_eq_some_iff {minutes : Int} {level : Level} {bucket : TimeBucket} :
    ofMinutes? minutes level = some bucket ↔
      bucket.level = level ∧ (Moment.ofMinutes minutes).floor level = bucket.start := by
  unfold ofMinutes?
  dsimp only
  constructor
  · intro h
    split at h
    · cases h
      exact ⟨rfl, rfl⟩
    · cases h
  · rintro ⟨rfl, hstart⟩
    have hin : (Moment.ofMinutes minutes).date.inRange = true := by
      rw [← Moment.inRange_floor _ bucket.level, hstart]
      exact bucket.inRange
    rw [dif_pos hin]
    exact congrArg some (ext_start rfl hstart)

theorem ofMillis_eq_ok_iff {millis : Int} {level : Level} {bucket : TimeBucket} :
    ofMillis millis level = .ok bucket ↔
      bucket.level = level ∧ bucket.startMillis ≤ millis ∧
        millis < (bucket.start.next level).toMinutes * 60000 := by
  have hfound : ofMillis millis level = .ok bucket ↔
      ofMinutes? (millis / 60000) level = some bucket := by
    unfold ofMillis
    rw [ofTime?_ofMillis]
    split
    · next h =>
      rw [h]
      exact ⟨fun hbucket => congrArg some (Except.ok.inj hbucket),
        fun hbucket => congrArg _ (Option.some.inj hbucket)⟩
    · next h =>
      rw [h]
      exact ⟨nofun, nofun⟩
  rw [hfound, ofMinutes?_eq_some_iff]
  refine and_congr_right ?_
  rintro rfl
  rw [Moment.floor_eq_iff bucket.begins, Moment.toMinutes_ofMinutes, startMillis]
  omega

theorem startMillis_lt_iff {a b : TimeBucket} :
    a.startMillis < b.startMillis ↔ a.start.toMinutes < b.start.toMinutes := by
  unfold startMillis
  omega

theorem year_le_of_le {a b : Moment} (h : a.toMinutes ≤ b.toMinutes) :
    a.date.year ≤ b.date.year := by
  refine Int.not_lt.mp fun hlt => ?_
  have hbefore : b.toMinutes < a.toMinutes :=
    Moment.toMinutes_lt_iff.mpr (.inl (.inl hlt))
  omega

theorem exists_endMillis_le {a b : TimeBucket} (hlevel : a.level = b.level)
    (h : a.startMillis < b.startMillis) :
    ∃ finish, a.endMillis = .ok finish ∧ finish ≤ b.startMillis := by
  have hnext := Moment.next_le_of_lt a.begins (hlevel ▸ b.begins) (startMillis_lt_iff.mp h)
  refine ⟨_, endMillis_eq_ok_iff.mpr ⟨?_, rfl⟩, ?_⟩
  · have hspan := Moment.toMinutes_next a.begins
    have hlow : a.start.date.year ≤ (a.start.next a.level).date.year := year_le_of_le (by omega)
    have hhigh := year_le_of_le hnext
    have hA := Date.inRange_iff.mp a.inRange
    have hB := Date.inRange_iff.mp b.inRange
    exact Date.inRange_iff.mpr (by omega)
  · unfold startMillis
    omega

theorem eq_or_apart {a b : TimeBucket} (hlevel : a.level = b.level) :
    a = b ∨ (∃ finish, a.endMillis = .ok finish ∧ finish ≤ b.startMillis) ∨
      ∃ finish, b.endMillis = .ok finish ∧ finish ≤ a.startMillis := by
  rcases Int.lt_trichotomy a.startMillis b.startMillis with hlt | heq | hgt
  · exact .inr (.inl (exists_endMillis_le hlevel hlt))
  · refine .inl (ext_start hlevel (Moment.toMinutes_inj ?_))
    unfold startMillis at heq
    omega
  · exact .inr (.inr (exists_endMillis_le hlevel.symm hgt))

theorem exists_following {bucket : TimeBucket} {finish : Int} (h : bucket.endMillis = .ok finish) :
    ∃ following, ofMillis finish bucket.level = .ok following ∧ following.startMillis = finish := by
  obtain ⟨hin, rfl⟩ := endMillis_eq_ok_iff.mp h
  have hbegins := Moment.begins_next bucket.begins
  have hspan := Moment.toMinutes_next hbegins
  have hpos := (bucket.start.next bucket.level).span_pos bucket.level
  refine ⟨⟨bucket.level, bucket.start.next bucket.level, hin, hbegins⟩,
    ofMillis_eq_ok_iff.mpr ⟨rfl, ?_, ?_⟩, rfl⟩
  · exact Int.le_refl _
  · simp only
    omega

theorem coarsen_coarsen {bucket : TimeBucket} {level coarser : Level} (h : bucket.level ≤ level)
    (hcoarser : level ≤ coarser) :
    (bucket.coarsen level).bind (·.coarsen coarser) = bucket.coarsen coarser := by
  have hlevel : bucket.level ≤ coarser := Nat.le_trans h hcoarser
  unfold coarsen
  rw [if_pos h, if_pos hlevel, Option.bind_some]
  exact (if_pos hcoarser).trans
    (congrArg some (ext_start rfl (bucket.start.floor_floor_of_le hcoarser)))

theorem exists_around {millis : Int} {level coarser : Level} {bucket : TimeBucket}
    (h : ofMillis millis level = .ok bucket) (hcoarser : level ≤ coarser) :
    ∃ around, ofMillis millis coarser = .ok around ∧ bucket.coarsen coarser = some around := by
  obtain ⟨rfl, hstart, hfinish⟩ := ofMillis_eq_ok_iff.mp h
  let around := containing bucket.start coarser bucket.inRange
  have hfloor : (Moment.ofMinutes (millis / 60000)).floor bucket.level = bucket.start := by
    rw [Moment.floor_eq_iff bucket.begins, Moment.toMinutes_ofMinutes]
    unfold startMillis at hstart
    omega
  have haround : (Moment.ofMinutes (millis / 60000)).floor coarser = around.start := by
    rw [← Moment.floor_floor_of_le _ hcoarser, hfloor]
    rfl
  have hbegins : around.start.Begins coarser := around.begins
  rw [Moment.floor_eq_iff hbegins, Moment.toMinutes_ofMinutes] at haround
  refine ⟨around, ofMillis_eq_ok_iff.mpr ⟨rfl, ?_, ?_⟩, if_pos hcoarser⟩
  · unfold startMillis
    omega
  · omega

/-- The buckets of a level tile the timeline, and each lies inside one bucket of a coarser level. -/
theorem buckets_tile_and_nest {millis : Int} {level : Level} {bucket : TimeBucket}
    (h : ofMillis millis level = .ok bucket) :
    bucket.startMillis ≤ millis ∧
    ofMillis bucket.startMillis level = .ok bucket ∧
    (∀ finish, bucket.endMillis = .ok finish →
      millis < finish ∧
      (∃ span, bucket.spanMinutes = .ok span ∧ 0 < span ∧
        finish - bucket.startMillis = 60000 * span) ∧
      ∃ following, ofMillis finish level = .ok following ∧ following.startMillis = finish) ∧
    (∀ other : TimeBucket, other.level = level →
      bucket = other ∨ (∃ finish, bucket.endMillis = .ok finish ∧ finish ≤ other.startMillis) ∨
        ∃ finish, other.endMillis = .ok finish ∧ finish ≤ bucket.startMillis) ∧
    (∀ coarser, level ≤ coarser →
      (∃ around, ofMillis millis coarser = .ok around ∧ bucket.coarsen coarser = some around) ∧
      ∀ coarsest, coarser ≤ coarsest →
        (bucket.coarsen coarser).bind (·.coarsen coarsest) = bucket.coarsen coarsest) ∧
    ∀ finer, finer < level → bucket.coarsen finer = none := by
  obtain ⟨rfl, hstart, hnext⟩ := ofMillis_eq_ok_iff.mp h
  have hspan := Moment.toMinutes_next bucket.begins
  have hpos := bucket.start.span_pos bucket.level
  refine ⟨hstart, ?_, fun finish hfinish => ⟨?_, ?_, exists_following hfinish⟩,
    fun other hother => eq_or_apart hother.symm,
    fun coarser hcoarser => ⟨exists_around h hcoarser, fun _ => coarsen_coarsen hcoarser⟩, ?_⟩
  · refine ofMillis_eq_ok_iff.mpr ⟨rfl, Int.le_refl _, ?_⟩
    unfold startMillis
    omega
  · obtain ⟨_, rfl⟩ := endMillis_eq_ok_iff.mp hfinish
    exact hnext
  · obtain ⟨_, rfl⟩ := endMillis_eq_ok_iff.mp hfinish
    refine ⟨_, spanMinutes_eq hfinish, by omega, ?_⟩
    unfold startMillis
    omega
  · intro finer hfiner
    exact if_neg (Nat.not_le_of_lt hfiner)

/-- The last millisecond before the epoch lies in December 1969, which ends at the epoch. -/
theorem buckets_tile_and_nest_before_the_epoch : ∃ bucket,
    ofMillis (-1) .month = .ok bucket ∧ bucket.value = 196912 ∧ bucket.endMillis = .ok 0 ∧
      bucket.startMillis ≤ -1 ∧ (-1 : Int) < 0 ∧
      ∃ following, ofMillis 0 .month = .ok following ∧ following.startMillis = 0 := by
  obtain ⟨bucket, hbucket, hvalue, hfinish⟩ : ∃ bucket, ofMillis (-1) .month = .ok bucket ∧
      bucket.value = 196912 ∧ bucket.endMillis = .ok 0 := ⟨_, rfl, by decide, rfl⟩
  obtain ⟨hstart, _, hrest, _⟩ := buckets_tile_and_nest hbucket
  obtain ⟨hlast, _, hfollowing⟩ := hrest 0 hfinish
  exact ⟨bucket, hbucket, hvalue, hfinish, hstart, hlast, hfollowing⟩

end TimeBucket

end Rollup
