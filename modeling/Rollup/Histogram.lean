import Rollup.Accumulator
import Rollup.Fault
import Std.Data.ExtTreeMap

/-!
# Histograms

How many observations fell into each numbered bucket. Counts are words, and sums of counts wrap.
A percentile is by nearest rank: the smallest bucket that covers the wanted share of observations.
-/

namespace Rollup

structure Histogram where
  counts : Std.ExtTreeMap UInt64 UInt64 := {}
  deriving DecidableEq

namespace Histogram

/-- No observation yet. -/
def empty : Histogram := {}

/-- The buckets with their counts, in ascending order. -/
def pairs (histogram : Histogram) : List (UInt64 × UInt64) := histogram.counts.toList

def count (histogram : Histogram) (bucket : UInt64) : UInt64 := histogram.counts.getD bucket 0

/-- Adds to one bucket, wrapping around. -/
def addBucket (histogram : Histogram) (bucket count : UInt64) : Histogram :=
  ⟨histogram.counts.insert bucket (histogram.count bucket + count)⟩

def addPairs (histogram : Histogram) (pairs : List (UInt64 × UInt64)) : Histogram :=
  pairs.foldl (fun held pair => held.addBucket pair.1 pair.2) histogram

def ofPairs (pairs : List (UInt64 × UInt64)) : Histogram := empty.addPairs pairs

/-- The bucket that an observation falls into. Precision 0 reads as 1. -/
def bucketOf (value precision : UInt64) : UInt64 := value / max precision 1

/-- The greatest word. -/
def limit : Nat := UInt64.size - 1

/-- Counts one observation. A bucket that is full breaks the call off. -/
def record (histogram : Histogram) (value precision : UInt64) : Except Fault Histogram :=
  let bucket := bucketOf value precision
  if histogram.count bucket = UInt64.ofNat limit then .error .outOfRange
  else .ok (histogram.addBucket bucket 1)

/-- Adds bucket by bucket, wrapping around. -/
def merge (held incoming : Histogram) : Histogram := held.addPairs incoming.pairs

instance : Add Histogram := ⟨merge⟩

def total (histogram : Histogram) : UInt64 :=
  histogram.pairs.foldl (fun sum pair => sum + pair.2) 0

/-- How many observations a rank wants covered: its share of the total, rounded up, at least one. -/
def target (total : UInt64) (rank : Nat) : Nat :=
  max ((min (total.toNat * min rank 100) limit + 99) / 100) 1

/-- The first bucket at which the running count reaches the target. -/
def firstCovering (target : Nat) : (seen : Nat) → List (UInt64 × UInt64) → Option UInt64
  | _, [] => none
  | seen, (bucket, count) :: rest =>
    let seen := min (seen + count.toNat) limit
    if target ≤ seen then some bucket else firstCovering target seen rest

/-- The lower edge of a bucket. An edge beyond the words breaks the call off. -/
def edge (bucket precision : UInt64) : Except Fault UInt64 :=
  let product := bucket.toNat * (max precision 1).toNat
  if product ≤ limit then .ok (UInt64.ofNat product) else .error .outOfRange

/-- The value at a rank in percent, and 0 when nothing was observed. -/
def percentile (histogram : Histogram) (rank : Nat) (precision : UInt64) : Except Fault UInt64 :=
  if histogram.total = 0 then .ok 0
  else match firstCovering (target histogram.total rank) 0 histogram.pairs with
    | some bucket => edge bucket precision
    | none => .ok 0

end Histogram

end Rollup
