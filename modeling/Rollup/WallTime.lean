/-!
# Wall times

A point in time as the calendar wants it: whole seconds since the epoch, and the nanoseconds past them.
Seconds before the epoch are negative, and nanoseconds never are.
-/

namespace Rollup

structure WallTime where
  second : Int
  nanos : Nat
  nanos_lt : nanos < 1000000000
  deriving DecidableEq

namespace WallTime

/-- Of milliseconds since the epoch. -/
def ofMillis (millis : Int) : WallTime :=
  ⟨millis / 1000, (millis % 1000).toNat * 1000000, by omega⟩

theorem rest_lt {rest : Nat} (h : rest ≠ 0) : 1000000000 - rest < 1000000000 := by omega

/-- Of nanoseconds since the epoch, as a clock is read: by how far it lies from the epoch, and on which
side. Before the epoch, what goes beyond whole seconds is counted from the second before. -/
def ofReading (reading : Int) : WallTime :=
  let seconds := reading.natAbs / 1000000000
  let rest := reading.natAbs % 1000000000
  if 0 ≤ reading then ⟨seconds, rest, Nat.mod_lt _ (by decide)⟩
  else if h : rest = 0 then ⟨-seconds, 0, by decide⟩
  else ⟨-seconds - 1, 1000000000 - rest, rest_lt h⟩

/-- Nanoseconds since the epoch. -/
def toNanos (time : WallTime) : Int := time.second * 1000000000 + time.nanos

@[simp]
theorem toNanos_ofMillis (millis : Int) : (ofMillis millis).toNanos = millis * 1000000 := by
  simp only [toNanos, ofMillis]
  omega

@[simp]
theorem toNanos_ofReading (reading : Int) : (ofReading reading).toNanos = reading := by
  unfold ofReading
  dsimp only
  split
  · simp only [toNanos]
    omega
  · split
    · simp only [toNanos]
      omega
    · simp only [toNanos]
      omega

/-- Points in time within one millisecond lie within one second. -/
theorem second_eq_of_millis {a b : WallTime} (h : a.toNanos / 1000000 = b.toNanos / 1000000) :
    a.second = b.second := by
  have hA := a.nanos_lt
  have hB := b.nanos_lt
  unfold toNanos at h
  omega

end WallTime

end Rollup
