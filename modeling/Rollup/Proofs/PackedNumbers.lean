import Rollup.Proofs.Tiling

/-!
# Packed numbers

A bucket is written as a decimal number of its fields. A number is read exactly if its fields say a
date and a time that exist, and reading it undoes writing: from year 0 on, buckets and their numbers go
with each other, in the same order.
-/

namespace Rollup

open Calendar

/-! ## Numbers that name a time -/

/-- The day exists, and lies between year 0 and the end of the calendar. -/
def DayExists (year month day : Nat) : Prop :=
  year ≤ lastYear ∧ 1 ≤ month ∧ month ≤ 12 ∧ 1 ≤ day ∧ day ≤ daysInMonth year month

instance (year month day : Nat) : Decidable (DayExists year month day) :=
  inferInstanceAs (Decidable (_ ∧ _))

/-- The decimal fields of the number are those of a time that exists: yyyyMM for a month, yyyyMMdd for
a day, and two more digits each for the hour and the minute. -/
inductive NamesTime : Nat → Level → Prop where
  | month {year month : Nat} : DayExists year month 1 → NamesTime (year * 100 + month) .month
  | day {year month day : Nat} : DayExists year month day →
      NamesTime (year * 10000 + month * 100 + day) .day
  | hour {year month day hour : Nat} : DayExists year month day → hour < 24 →
      NamesTime (year * 1000000 + month * 10000 + day * 100 + hour) .hour
  | minute {year month day hour minute : Nat} : DayExists year month day → hour < 24 →
      minute < 60 →
      NamesTime (year * 100000000 + month * 1000000 + day * 10000 + hour * 100 + minute) .minute

theorem NamesTime.of_eq {a b : Nat} {level : Level} (h : NamesTime a level) (hab : a = b) :
    NamesTime b level := hab ▸ h

namespace TimeBucket

/-! ## Reading and writing -/

theorem momentOf?_eq_some_iff {date hour minute : Nat} {moment : Moment} :
    momentOf? date hour minute = some moment ↔
      (moment.date.year = date / 10000 ∧ moment.date.month = date / 100 % 100 ∧
        moment.date.day = date % 100) ∧ hour < 24 ∧ minute < 60 ∧
        moment.minute = hour * 60 + minute := by
  obtain ⟨own, ownMinute, hown⟩ := moment
  unfold momentOf?
  constructor
  · intro h
    split at h
    · next found hfound =>
      split at h
      · next htime =>
        cases h
        exact ⟨Date.of?_eq_some_iff.mp hfound, htime.1, htime.2, rfl⟩
      · cases h
    · cases h
  · rintro ⟨hdate, hhour, hminute, htime⟩
    rw [Date.of?_eq_some_iff.mpr hdate]
    simp only [hhour, hminute, and_self, dif_pos]
    simp only at htime
    subst htime
    rfl

theorem month_lt (date : Date) : date.month < 100 := by
  have := date.month_le
  omega

theorem day_lt (date : Date) : date.day < 100 := by
  have := date.day_le
  have := daysInMonth_le date.year date.month
  omega

theorem fields?_value {bucket : TimeBucket} (h : 0 ≤ bucket.start.date.year) :
    fields? bucket.value bucket.level = some bucket.start := by
  have hbegins := bucket.begins
  have hmonth := month_lt bucket.start.date
  have hday := day_lt bucket.start.date
  have hminute := bucket.start.minute_lt
  unfold value
  cases hlevel : bucket.level with
  | minute =>
    refine momentOf?_eq_some_iff.mpr ?_
    dsimp only
    omega
  | hour =>
    have := Moment.begins_hour_iff.mp (hlevel ▸ hbegins)
    refine momentOf?_eq_some_iff.mpr ?_
    dsimp only
    omega
  | day =>
    have := Moment.begins_day_iff.mp (hlevel ▸ hbegins)
    refine momentOf?_eq_some_iff.mpr ?_
    dsimp only
    omega
  | month =>
    have := Moment.begins_month_iff.mp (hlevel ▸ hbegins)
    refine momentOf?_eq_some_iff.mpr ?_
    dsimp only
    omega

theorem value_containing {value : Nat} {level : Level} {moment : Moment}
    (h : fields? value level = some moment) (hin : moment.date.inRange = true) :
    0 ≤ moment.date.year ∧ (containing moment level hin).value = value := by
  cases level with
  | minute =>
    have hfields := momentOf?_eq_some_iff.mp h
    simp only [TimeBucket.value, containing, Moment.floor]
    omega
  | hour =>
    have hfields := momentOf?_eq_some_iff.mp h
    simp only [TimeBucket.value, containing, Moment.floor]
    omega
  | day =>
    have hfields := momentOf?_eq_some_iff.mp h
    simp only [TimeBucket.value, containing, Moment.floor, Moment.midnight]
    omega
  | month =>
    have hfields := momentOf?_eq_some_iff.mp h
    simp only [TimeBucket.value, containing, Moment.floor, Moment.midnight, Date.monthStart]
    omega

theorem ofValue_eq_ok_iff {value : Nat} {level : Level} {bucket : TimeBucket} :
    ofValue value level = .ok bucket ↔
      bucket.level = level ∧ 0 ≤ bucket.start.date.year ∧ bucket.value = value := by
  unfold ofValue
  constructor
  · intro h
    unfold ofFields at h
    split at h
    · next moment hmoment =>
      split at h
      · next hin =>
        cases h
        obtain ⟨hyear, hvalue⟩ := value_containing hmoment hin
        refine ⟨rfl, ?_, hvalue⟩
        cases level <;> exact hyear
      · cases h
    · cases h
  · rintro ⟨rfl, hyear, rfl⟩
    rw [fields?_value hyear]
    exact (dif_pos bucket.inRange).trans (congrArg Except.ok (ext_start rfl bucket.aligned))

/-! ## Numbers of 64 bits -/

theorem increment_month {value : UInt64} (h : value.toNat * 100 < UInt64.size) :
    ∃ date, increment (value * 100) = .ok date ∧ date.toNat = value.toNat * 100 + 1 := by
  -- A product within the 64 bits is a multiple of 100, and so leaves room for one more.
  have hsize : UInt64.size = 18446744073709551616 := rfl
  have hproduct : (value * 100).toNat = value.toNat * 100 := by
    rw [UInt64.toNat_mul]
    exact Nat.mod_eq_of_lt h
  refine ⟨value * 100 + 1, if_pos (by omega), ?_⟩
  rw [UInt64.toNat_add, hproduct]
  exact Nat.mod_eq_of_lt (by simp; omega)

theorem ofFields_month_of_le {value : Nat} (h : UInt64.size ≤ value * 100) :
    ofFields value .month (fields? value .month) = .error (.malformed value .month) := by
  -- A month whose product leaves the 64 bits has no year that counts.
  have hsize : UInt64.size = 18446744073709551616 := rfl
  unfold ofFields
  split
  · next moment hmoment =>
    have hfields := momentOf?_eq_some_iff.mp hmoment
    refine dif_neg fun hin => ?_
    have hyear := (Date.inRange_iff.mp hin).2
    unfold lastYear at hyear
    omega
  · rfl

theorem ofWord_eq (value : UInt64) (level : Level) :
    ofWord value level = .ok (ofValue value.toNat level) := by
  have hfields : level ≠ .month →
      wordFields? value level = .ok (fields? value.toNat level) := by
    intro hlevel
    cases level with
    | minute | hour =>
      simp only [wordFields?, fields?, UInt64.toNat_div, UInt64.toNat_mod]
      rfl
    | day => rfl
    | month => exact absurd rfl hlevel
  unfold ofWord ofValue
  by_cases hlevel : level = .month
  · subst hlevel
    by_cases hproduct : value.toNat * 100 < UInt64.size
    · obtain ⟨date, hdate, hnumber⟩ := increment_month hproduct
      have hread : wordFields? value .month = .ok (fields? value.toNat .month) := by
        show (if _ then _ else _) = _
        rw [if_pos hproduct, hdate]
        show Except.ok (momentOf? date.toNat 0 0) = _
        rw [hnumber]
        rfl
      rw [hread]
      rfl
    · have hread : wordFields? value .month = .ok none := if_neg hproduct
      rw [hread, ofFields_month_of_le (Nat.le_of_not_lt hproduct)]
      rfl
  · rw [hfields hlevel]
    rfl

/-! ## Numbers that are read -/

theorem dayExists_of_date {date : Date} (hyear : 0 ≤ date.year) (hin : date.inRange = true) :
    DayExists date.year.toNat date.month date.day := by
  have hlast := (Date.inRange_iff.mp hin).2
  have hcast : (date.year.toNat : Int) = date.year := Int.toNat_of_nonneg hyear
  refine ⟨by omega, date.month_pos, date.month_le, date.day_pos, ?_⟩
  rw [hcast]
  exact date.day_le

theorem namesTime_value {bucket : TimeBucket} (h : 0 ≤ bucket.start.date.year) :
    NamesTime bucket.value bucket.level := by
  have hexists := dayExists_of_date h bucket.inRange
  have hminute := bucket.start.minute_lt
  unfold value
  cases hlevel : bucket.level with
  | minute =>
    have hhour : bucket.start.minute / 60 < 24 := by omega
    have hrest : bucket.start.minute % 60 < 60 := by omega
    exact (NamesTime.minute hexists hhour hrest).of_eq (by dsimp only; omega)
  | hour =>
    have hhour : bucket.start.minute / 60 < 24 := by omega
    exact (NamesTime.hour hexists hhour).of_eq (by dsimp only; omega)
  | day =>
    exact (NamesTime.day hexists).of_eq (by dsimp only; omega)
  | month =>
    obtain ⟨hyear, hpos, hle, _⟩ := hexists
    exact .month ⟨hyear, hpos, hle, Nat.le_refl _, one_le_daysInMonth _ _⟩

theorem exists_ofValue {value : Nat} {level : Level} {moment : Moment}
    (h : fields? value level = some moment) (hyear : moment.date.year ≤ lastYear) :
    ∃ bucket, ofValue value level = .ok bucket := by
  have hin : moment.date.inRange = true := by
    have hpos : 0 ≤ moment.date.year := by
      cases level with
      | minute | hour | day | month =>
        have := momentOf?_eq_some_iff.mp h
        omega
    refine Date.inRange_iff.mpr ⟨?_, hyear⟩
    unfold firstYear
    omega
  refine ⟨containing moment level hin, ?_⟩
  unfold ofValue
  rw [h]
  exact dif_pos hin

theorem exists_of_namesTime {value : Nat} {level : Level} (h : NamesTime value level) :
    ∃ bucket, ofValue value level = .ok bucket := by
  cases h with
  | @month year month hday =>
    obtain ⟨hyear, hpos, hle, hone, hin⟩ := hday
    let moment : Moment := ⟨⟨year, month, 1, hpos, hle, hone, hin⟩, 0, by omega⟩
    have hmoment : fields? (year * 100 + month) .month = some moment :=
      momentOf?_eq_some_iff.mpr ⟨by simp only [moment]; omega, by omega, by omega, rfl⟩
    exact exists_ofValue hmoment hyear
  | @day year month day hday =>
    obtain ⟨hyear, hpos, hle, hone, hin⟩ := hday
    let moment : Moment := ⟨⟨year, month, day, hpos, hle, hone, hin⟩, 0, by omega⟩
    have hless := day_lt moment.date
    have hmoment : fields? (year * 10000 + month * 100 + day) .day = some moment :=
      momentOf?_eq_some_iff.mpr ⟨by simp only [moment] at hless ⊢; omega, by omega, by omega, rfl⟩
    exact exists_ofValue hmoment hyear
  | @hour year month day hour hday hhour =>
    obtain ⟨hyear, hpos, hle, hone, hin⟩ := hday
    let moment : Moment := ⟨⟨year, month, day, hpos, hle, hone, hin⟩, hour * 60, by omega⟩
    have hless := day_lt moment.date
    have hmoment :
        fields? (year * 1000000 + month * 10000 + day * 100 + hour) .hour = some moment :=
      momentOf?_eq_some_iff.mpr (by simp only [moment] at hless ⊢; omega)
    exact exists_ofValue hmoment hyear
  | @minute year month day hour minute hday hhour hminute =>
    obtain ⟨hyear, hpos, hle, hone, hin⟩ := hday
    let moment : Moment :=
      ⟨⟨year, month, day, hpos, hle, hone, hin⟩, hour * 60 + minute, by omega⟩
    have hless := day_lt moment.date
    have hmoment : fields? (year * 100000000 + month * 1000000 + day * 10000 + hour * 100 + minute)
        .minute = some moment :=
      momentOf?_eq_some_iff.mpr (by simp only [moment] at hless ⊢; omega)
    exact exists_ofValue hmoment hyear

theorem exists_ofValue_iff {value : Nat} {level : Level} :
    (∃ bucket, ofValue value level = .ok bucket) ↔ NamesTime value level := by
  refine ⟨?_, exists_of_namesTime⟩
  rintro ⟨bucket, hbucket⟩
  obtain ⟨rfl, hyear, rfl⟩ := ofValue_eq_ok_iff.mp hbucket
  exact namesTime_value hyear

/-! ## The order of numbers -/

theorem value_lt_size (bucket : TimeBucket) : bucket.value < UInt64.size := by
  have hsize : UInt64.size = 18446744073709551616 := rfl
  have hyear := (Date.inRange_iff.mp bucket.inRange).2
  have hmonth := month_lt bucket.start.date
  have hday := day_lt bucket.start.date
  have hminute := bucket.start.minute_lt
  unfold lastYear at hyear
  unfold value
  cases bucket.level <;> dsimp only <;> omega

theorem value_lt_iff {a b : TimeBucket} (hlevel : a.level = b.level)
    (ha : 0 ≤ a.start.date.year) (hb : 0 ≤ b.start.date.year) :
    a.value < b.value ↔ a.startMillis < b.startMillis := by
  have hmonthA := month_lt a.start.date
  have hmonthB := month_lt b.start.date
  have hdayA := day_lt a.start.date
  have hdayB := day_lt b.start.date
  have hminuteA := a.start.minute_lt
  have hminuteB := b.start.minute_lt
  have hA := a.begins
  have hB := b.begins
  rw [startMillis_lt_iff, Moment.toMinutes_lt_iff, Date.eq_iff_fields]
  unfold value Date.Before
  rw [hlevel] at hA ⊢
  cases hb : b.level with
  | minute =>
    dsimp only
    omega
  | hour =>
    have := Moment.begins_hour_iff.mp (hb ▸ hA)
    have := Moment.begins_hour_iff.mp (hb ▸ hB)
    dsimp only
    omega
  | day =>
    have := Moment.begins_day_iff.mp (hb ▸ hA)
    have := Moment.begins_day_iff.mp (hb ▸ hB)
    dsimp only
    omega
  | month =>
    have := Moment.begins_month_iff.mp (hb ▸ hA)
    have := Moment.begins_month_iff.mp (hb ▸ hB)
    dsimp only
    omega

/-- A number of 64 bits is read exactly if its decimal fields name a time, and as the bucket that is
written so. From year 0 on each bucket is read back from its number, and the numbers of a level follow
one another as the buckets do. -/
theorem packed_numbers_name_buckets :
    (∀ (value : UInt64) (level : Level), ∃ answer, ofWord value level = .ok answer ∧
      ((∃ bucket, answer = .ok bucket) ↔ NamesTime value.toNat level) ∧
      ∀ bucket, answer = .ok bucket → bucket.value = value.toNat ∧ bucket.level = level) ∧
    (∀ bucket : TimeBucket, 0 ≤ bucket.start.date.year →
      bucket.value < UInt64.size ∧
        ofWord (UInt64.ofNat bucket.value) bucket.level = .ok (.ok bucket)) ∧
    ∀ a b : TimeBucket, a.level = b.level → 0 ≤ a.start.date.year → 0 ≤ b.start.date.year →
      (a.startMillis < b.startMillis ↔ a.value < b.value) := by
  refine ⟨fun value level => ⟨_, ofWord_eq value level, exists_ofValue_iff, ?_⟩, ?_, ?_⟩
  · intro bucket hbucket
    obtain ⟨hlevel, _, hvalue⟩ := ofValue_eq_ok_iff.mp hbucket
    exact ⟨hvalue, hlevel⟩
  · intro bucket hyear
    have hsize := bucket.value_lt_size
    refine ⟨hsize, ?_⟩
    rw [ofWord_eq, UInt64.toNat_ofNat_of_lt' hsize]
    exact congrArg Except.ok (ofValue_eq_ok_iff.mpr ⟨rfl, hyear, rfl⟩)
  · intro a b hlevel ha hb
    exact (value_lt_iff hlevel ha hb).symm

theorem packed_numbers_name_buckets_of_a_leap_day : ∃ bucket,
    ofWord 202402291345 .minute = .ok (.ok bucket) ∧ bucket.value = 202402291345 ∧
      bucket.level = .minute := by
  obtain ⟨answer, hanswer, hnames, hok⟩ := packed_numbers_name_buckets.1 202402291345 .minute
  have hday : DayExists 2024 2 29 := by decide
  obtain ⟨bucket, hbucket⟩ :=
    hnames.mpr (NamesTime.minute hday (show 13 < 24 by decide) (show 45 < 60 by decide))
  exact ⟨bucket, hbucket ▸ hanswer, hok bucket hbucket⟩

end TimeBucket

end Rollup
