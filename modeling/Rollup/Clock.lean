import Rollup.Duration
import Rollup.TimeBucket

/-!
# Clocks

A clock shows a wall time, which may be set at will, and an instant, which only ever moves on with
the time that passes. How long rows are kept and how often a call site may act goes by such times.
-/

namespace Rollup

structure Clock where
  /-- Nanoseconds since the epoch. -/
  wall : Int
  /-- Nanoseconds that passed since the clock was made. -/
  elapsed : Nat := 0
  deriving DecidableEq, Repr

namespace Clock

/-- A clock that shows a time in milliseconds since the epoch. -/
def ofMillis (millis : Int) : Clock := { wall := millis * 1000000 }

/-- Sets the wall time alone. -/
def setNanos (clock : Clock) (nanos : Int) : Clock := { clock with wall := nanos }

def setMillis (clock : Clock) (millis : Int) : Clock := clock.setNanos (millis * 1000000)

def setSecs (clock : Clock) (secs : Int) : Clock := clock.setNanos (secs * 1000000000)

/-- Lets time pass. The whole seconds of the wall time stay within the range of a timestamp. -/
def advance (clock : Clock) (d : Duration) : Except Fault Clock :=
  let wall := clock.wall + d.nanos
  if wall / 1000000000 ≤ Timestamp.greatest then .ok { wall, elapsed := clock.elapsed + d.nanos }
  else .error .outOfRange

/-- Milliseconds since the epoch: 0 before it, and never beyond the greatest timestamp. -/
def nowMillis (clock : Clock) : Int :=
  if clock.wall < 0 then 0 else min (clock.wall / 1000000) Timestamp.greatest

/-- Whole milliseconds that passed. -/
def elapsedMillis (clock : Clock) : Nat := clock.elapsed / 1000000

/-- The bucket that holds the wall time. -/
def bucket (clock : Clock) (level : Level) : Except Fault (Except BucketError TimeBucket) :=
  TimeBucket.ofNanos clock.wall level

end Clock

/-! ## Retention

Storage keeps a row for a number of days and then deletes it. Days are those of UTC. -/

namespace Retention

def dayMillis : Int := 86400000

/-- The first millisecond of the day that lies `ttlDays` before `now`. Rows that end by then are
gone. -/
def cutoff (now : Int) (ttlDays : Nat) : Except Fault Int :=
  let limit := Timestamp.minus now (ttlDays * dayMillis)
  let day := limit - limit % dayMillis
  if Timestamp.least ≤ day then .ok day else .error .outOfRange

/-- Whether the row of a bucket is gone. -/
def isExpired (bucket : TimeBucket) (now : Int) (ttlDays : Nat) : Except Fault Bool := do
  let day ← cutoff now ttlDays
  let finish ← bucket.endMillis
  return finish ≤ day

end Retention

/-! ## Rate limits

A call site that may act at most once per interval remembers when it may act next, in milliseconds
since the start. 0 means at once. -/

namespace RateLimit

/-- The greatest time there is. A site that has to wait for it never acts again. -/
def never : Nat := UInt64.size - 1

/-- Asks to act at `now`. Says whether it may, and when it may next. -/
def acquire (nextAllowed now : Nat) (interval : Duration) : Bool × Nat :=
  if now < nextAllowed then (false, nextAllowed)
  else (true, max (min (now + min interval.millis never) never) 1)

/-- Asks several times at one time. -/
def acquireAll (nextAllowed now : Nat) : List Duration → List Bool × Nat
  | [] => ([], nextAllowed)
  | interval :: rest =>
    let (allowed, next) := acquire nextAllowed now interval
    let (others, last) := acquireAll next now rest
    (allowed :: others, last)

end RateLimit

end Rollup
