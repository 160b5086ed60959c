import Rollup.Calendar
import Rollup.Fault
import Rollup.Level
import Rollup.WallTime
import Std.Data.ExtTreeMap

/-!
# Time buckets

A bucket is one minute, hour, day or month of UTC. It is written as a decimal number of its fields,
such as 202402291345 for a minute and 202402 for a month. Buckets of one level tile the calendar, and
a bucket lies inside exactly one bucket of each coarser level.
-/

namespace Rollup

open Calendar

/-! ## Minutes of the calendar -/

/-- A minute of a day. -/
structure Moment where
  date : Date
  minute : Nat
  minute_lt : minute < 1440
  deriving DecidableEq

namespace Moment

/-- The first minute of a day. -/
def midnight (date : Date) : Moment := ⟨date, 0, by omega⟩

/-- Minutes since 1970-01-01T00:00. -/
def toMinutes (moment : Moment) : Int := moment.date.toDays * 1440 + moment.minute

def ofMinutes (minutes : Int) : Moment :=
  ⟨.ofDays (minutes / 1440), (minutes % 1440).toNat, by omega⟩

theorem hourStart_lt (moment : Moment) : moment.minute / 60 * 60 < 1440 := by
  have := moment.minute_lt
  omega

/-- The first minute of the bucket of this level that holds the moment. -/
def floor (moment : Moment) : Level → Moment
  | .minute => moment
  | .hour => ⟨moment.date, moment.minute / 60 * 60, moment.hourStart_lt⟩
  | .day => midnight moment.date
  | .month => midnight moment.date.monthStart

/-- The moment `step` minutes later, if that is on the same day, and else the next midnight. -/
def later (moment : Moment) (step : Nat) : Moment :=
  if h : moment.minute + step < 1440 then ⟨moment.date, moment.minute + step, h⟩
  else midnight moment.date.next

/-- Where the next bucket of this level begins, for a moment at which one begins. -/
def next (moment : Moment) : Level → Moment
  | .minute => moment.later 1
  | .hour => moment.later 60
  | .day => midnight moment.date.next
  | .month => midnight moment.date.nextMonth

theorem floor_floor_of_le (moment : Moment) {a b : Level} (h : a ≤ b) :
    (moment.floor a).floor b = moment.floor b := by
  cases b with
  | minute => cases a with
    | minute => rfl
    | hour | day | month => exact absurd h (by decide)
  | hour => cases a with
    | minute => rfl
    | hour =>
      simp only [floor, Moment.mk.injEq, true_and]
      omega
    | day | month => exact absurd h (by decide)
  | day => cases a with
    | minute | hour | day => rfl
    | month => exact absurd h (by decide)
  | month => cases a <;> rfl

theorem floor_floor (moment : Moment) (level : Level) :
    (moment.floor level).floor level = moment.floor level :=
  moment.floor_floor_of_le (Nat.le_refl _)

theorem inRange_floor (moment : Moment) (level : Level) :
    (moment.floor level).date.inRange = moment.date.inRange := by
  cases level <;> rfl

end Moment

/-! ## Buckets -/

structure TimeBucket where
  level : Level
  start : Moment
  inRange : start.date.inRange = true
  aligned : start.floor level = start
  deriving DecidableEq

inductive BucketError where
  | malformed (value : Nat) (level : Level)
  | outOfRange (millis : Int)
  deriving DecidableEq, Repr

def BucketError.message : BucketError → String
  | malformed value level => toString value ++ " is not a valid " ++ level.name ++ " time bucket"
  | outOfRange millis => "timestamp " ++ toString millis ++ "ms is out of range"

namespace TimeBucket

/-- The bucket that holds a moment. -/
def containing (moment : Moment) (level : Level) (h : moment.date.inRange = true) : TimeBucket :=
  ⟨level, moment.floor level, by rw [moment.inRange_floor, h], moment.floor_floor level⟩

/-- The moment of a date, given as one number of its decimal fields, an hour and a minute. -/
def momentOf? (date hour minute : Nat) : Option Moment :=
  match Date.of? (date / 10000) (date / 100 % 100) (date % 100) with
  | some date =>
    if h : hour < 24 ∧ minute < 60 then some ⟨date, hour * 60 + minute, by omega⟩ else none
  | none => none

/-- The moment whose decimal fields stand in a packed number of this level. -/
def fields? (value : Nat) : Level → Option Moment
  | .minute => momentOf? (value / 10000) (value / 100 % 100) (value % 100)
  | .hour => momentOf? (value / 100) (value % 100) 0
  | .day => momentOf? value 0 0
  | .month => momentOf? (value * 100 + 1) 0 0

/-- The bucket of the moment that a packed number was found to name. -/
def ofFields (value : Nat) (level : Level) : Option Moment → Except BucketError TimeBucket
  | some moment =>
    if h : moment.date.inRange = true then .ok (containing moment level h)
    else .error (.malformed value level)
  | none => .error (.malformed value level)

/-- Reads a packed number, of any length. -/
def ofValue (value : Nat) (level : Level) : Except BucketError TimeBucket :=
  ofFields value level (fields? value level)

/-- One more, if that does not leave the 64 bits. -/
def increment (word : UInt64) : Except Fault UInt64 :=
  if word.toNat + 1 < UInt64.size then .ok (word + 1) else .error .outOfRange

/-- The moment in a packed number of 64 bits. A month has one if the number of its first day does not
leave the 64 bits. -/
def wordFields? (value : UInt64) : Level → Except Fault (Option Moment)
  | .minute => return momentOf? (value / 10000).toNat (value / 100 % 100).toNat (value % 100).toNat
  | .hour => return momentOf? (value / 100).toNat (value % 100).toNat 0
  | .day => return momentOf? value.toNat 0 0
  | .month => do
    if value.toNat * 100 < UInt64.size then
      let date ← increment (value * 100)
      return momentOf? date.toNat 0 0
    else return none

/-- Reads a packed number of 64 bits. -/
def ofWord (value : UInt64) (level : Level) : Except Fault (Except BucketError TimeBucket) := do
  return ofFields value.toNat level (← wordFields? value level)

/-- The bucket that holds an instant, given in minutes since the epoch, if the calendar does. -/
def ofMinutes? (minutes : Int) (level : Level) : Option TimeBucket :=
  let moment := Moment.ofMinutes minutes
  if h : moment.date.inRange = true then some (containing moment level h) else none

/-- The bucket that holds a point in time. What is past the minute does not count. -/
def ofTime? (time : WallTime) (level : Level) : Option TimeBucket :=
  ofMinutes? (time.second / 60) level

/-- The bucket that holds an instant, given in milliseconds since the epoch. -/
def ofMillis (millis : Int) (level : Level) : Except BucketError TimeBucket :=
  match ofTime? (.ofMillis millis) level with
  | some bucket => .ok bucket
  | none => .error (.outOfRange millis)

/-- The bucket that holds a reading of a clock, given in nanoseconds since the epoch. A reading that
the calendar does not hold breaks the call off, so that it never answers with an error. -/
def ofNanos (nanos : Int) (level : Level) : Except Fault (Except BucketError TimeBucket) :=
  match ofTime? (.ofReading nanos) level with
  | some bucket => .ok (.ok bucket)
  | none => .error .outOfRange

theorem ofTime?_ofMillis (millis : Int) (level : Level) :
    ofTime? (.ofMillis millis) level = ofMinutes? (millis / 60000) level := by
  have hminutes : (WallTime.ofMillis millis).second / 60 = millis / 60000 := by
    simp only [WallTime.ofMillis]
    omega
  rw [ofTime?, hminutes]

/-- The packed number. Years before 0 are written as 0. -/
def value (bucket : TimeBucket) : Nat :=
  let date := bucket.start.date
  let month := date.year.toNat * 100 + date.month
  let day := month * 100 + date.day
  let hour := day * 100 + bucket.start.minute / 60
  match bucket.level with
  | .month => month
  | .day => day
  | .hour => hour
  | .minute => hour * 100 + bucket.start.minute % 60

def render (bucket : TimeBucket) : String := toString bucket.value

def startMillis (bucket : TimeBucket) : Int := bucket.start.toMinutes * 60000

/-- Where the next bucket begins. The last bucket of the calendar has no end. -/
def finish (bucket : TimeBucket) : Except Fault Moment :=
  let after := bucket.start.next bucket.level
  if after.date.inRange then .ok after else .error .outOfRange

def endMillis (bucket : TimeBucket) : Except Fault Int :=
  return (← bucket.finish).toMinutes * 60000

def spanMinutes (bucket : TimeBucket) : Except Fault Int :=
  return (← bucket.finish).toMinutes - bucket.start.toMinutes

/-- The bucket of a level that is not finer, around this one. -/
def coarsen (bucket : TimeBucket) (level : Level) : Option TimeBucket :=
  if bucket.level ≤ level then some (containing bucket.start level bucket.inRange) else none

/-! ## Order -/

/-- Earlier starts first, and of two with one start the finer level first. -/
def sortKey (bucket : TimeBucket) : List Int :=
  [bucket.start.date.year, bucket.start.date.month, bucket.start.date.day, bucket.start.minute,
    bucket.level.rank]

theorem sortKey_injective {a b : TimeBucket} (h : a.sortKey = b.sortKey) : a = b := by
  obtain ⟨la, ⟨⟨ya, ma, da, _, _, _, _⟩, na, _⟩, _, _⟩ := a
  obtain ⟨lb, ⟨⟨yb, mb, db, _, _, _, _⟩, nb, _⟩, _, _⟩ := b
  simp only [sortKey, List.cons.injEq, Int.natCast_inj, and_true] at h
  obtain ⟨rfl, rfl, rfl, rfl, hl⟩ := h
  obtain rfl := Level.rank_injective hl
  rfl

instance : Ord TimeBucket := ⟨compareOn sortKey⟩

instance : Std.TransOrd TimeBucket := inferInstanceAs (Std.TransCmp (compareOn sortKey))

instance : Std.LawfulEqOrd TimeBucket where
  eq_of_compare {_ _} h := sortKey_injective (Std.LawfulEqOrd.eq_of_compare h)

end TimeBucket

end Rollup
