import Rollup.Record.Basic

/-!
# Percentiles

A histogram of observations in steps of a fixed precision. Records of different precision do not
combine. The derived members are the values at five ranks, and there are none before the first
calculation.
-/

namespace Rollup

structure PercentileRecord where
  id : MetricId
  precision : Accumulator .keep UInt64
  dataset : Accumulator .add Histogram
  percentiles : List UInt64 := []
  deriving DecidableEq

namespace PercentileRecord

/-- The ranks that are stored, in percent. -/
def ranks : List Nat := [50, 75, 90, 95, 99]

/-- No observation yet. Precision 0 reads as 1. -/
def new (id : MetricId) (precision : UInt64) : PercentileRecord :=
  { id, precision := ⟨max precision 1⟩, dataset := ⟨.empty⟩ }

/-- Takes in one observation. -/
def observe (record : PercentileRecord) (value : UInt64) : PercentileRecord :=
  let single := Histogram.empty.addBucket (Histogram.bucketOf value record.precision.value) 1
  { record with dataset := record.dataset.record single }

/-- The value at a stored rank, once calculated. -/
def percentile? (record : PercentileRecord) (rank : Nat) : Option UInt64 :=
  (ranks.zip record.percentiles).lookup rank

def combine (held incoming : PercentileRecord) : Bool × PercentileRecord :=
  if incoming.precision.value = held.precision.value then
    (true, { held with
      precision := held.precision.merge incoming.precision
      dataset := held.dataset.merge incoming.dataset })
  else (false, held)

def calculate (record : PercentileRecord) : Except Fault PercentileRecord := do
  let percentiles ← ranks.mapM (record.dataset.value.percentile · record.precision.value)
  return { record with percentiles }

/-- The column of a rank. -/
def column (rank : Nat) : String := "p" ++ toString rank

def toFields (record : PercentileRecord) : Fields :=
  let base := Fields.empty
    |>.insert "precision" (.long record.precision.value.toInt64)
    |>.insert "dataset" (.buckets record.dataset.value.pairs)
  (ranks.zip record.percentiles).foldl
    (fun fields (rank, value) => fields.insert (column rank) (.long value.toInt64)) base

/-- A stored precision below 0 reads as 1. -/
def precisionOf (stored : Int64) : UInt64 := if stored < 0 then 1 else stored.toUInt64

/-- The percentiles are not read but calculated again. -/
def ofFields (id : MetricId) (fields : Fields) : Except Fault (Except FieldError PercentileRecord) :=
  let raw : Except FieldError PercentileRecord := do
    let precision ← fields.long "precision"
    let dataset ← fields.buckets "dataset"
    return { new id (precisionOf precision) with dataset := ⟨dataset⟩ }
  match raw with
  | .ok record => .ok <$> record.calculate
  | .error error => .ok (.error error)

instance : Record PercentileRecord where
  id := id
  combine := combine
  calculate := calculate
  coarsen record level :=
    (record.id.coarsen level).map ({ record with id := ·, percentiles := [] })
  toFields := toFields
  ofFields := ofFields

end PercentileRecord

end Rollup
