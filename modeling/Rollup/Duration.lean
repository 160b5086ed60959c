import Rollup.Fault

/-!
# Lengths of time

A length is a whole number of nanoseconds, less than 2^64 seconds. A timestamp is a signed 64-bit
number of milliseconds since the epoch, and differences of timestamps stay in that range.
-/

namespace Rollup

structure Duration where
  nanos : Nat
  deriving DecidableEq, Repr

namespace Duration

def zero : Duration := ⟨0⟩

def ofMillis (millis : Nat) : Duration := ⟨millis * 1000000⟩

def ofSecs (secs : Nat) : Duration := ⟨secs * 1000000000⟩

/-- Whole milliseconds. -/
def millis (d : Duration) : Nat := d.nanos / 1000000

/-- Whole seconds. -/
def secs (d : Duration) : Nat := d.nanos / 1000000000

/-- Nanoseconds past the last whole second. -/
def subsecNanos (d : Duration) : Nat := d.nanos % 1000000000

/-- The longest there is. -/
def longest : Duration := ⟨UInt64.size * 1000000000 - 1⟩

/-- What has 2^64 seconds or more is no length. -/
def check (d : Duration) : Except Fault Duration :=
  if d.secs < UInt64.size then .ok d else .error .outOfRange

/-- A length taken several times. -/
def times (d : Duration) (factor : Nat) : Except Fault Duration := check ⟨d.nanos * factor⟩

def plus (a b : Duration) : Except Fault Duration := check ⟨a.nanos + b.nanos⟩

end Duration

/-! ## Timestamps -/

namespace Timestamp

def least : Int := -0x8000000000000000

def greatest : Int := 0x7fffffffffffffff

/-- The difference, kept within the range. -/
def minus (a b : Int) : Int := max least (min (a - b) greatest)

/-- The milliseconds of a length, kept within the range. -/
def ofDuration (d : Duration) : Int := min (d.millis : Int) greatest

end Timestamp

end Rollup
