import Rollup.Record.Basic

/-!
# Averages

The derived value is the summation over the count, rounded toward zero. With a count of 0 it stays
what it was.
-/

namespace Rollup

structure AverageRecord where
  id : MetricId
  summation : Accumulator .add Int64
  count : Accumulator .add Int64
  value : Int64 := 0
  deriving DecidableEq

namespace AverageRecord

def withCount (id : MetricId) (summation count : Int64) : AverageRecord :=
  { id, summation := ⟨summation⟩, count := ⟨count⟩ }

/-- One observation. -/
def new (id : MetricId) (observation : Int64) : AverageRecord := withCount id observation 1

/-- The least word over -1 is no word, and breaks the call off. -/
def calculate (record : AverageRecord) : Except Fault AverageRecord :=
  if record.count.value = 0 then .ok record
  else if record.summation.value = Int64.minValue ∧ record.count.value = -1 then .error .outOfRange
  else .ok { record with value := record.summation.value / record.count.value }

instance : Record AverageRecord where
  id := id
  combine held incoming :=
    (true, { held with
      summation := held.summation.merge incoming.summation
      count := held.count.merge incoming.count })
  calculate := calculate
  coarsen record level := (record.id.coarsen level).map ({ record with id := ·, value := 0 })
  toFields record :=
    Fields.empty |>.insert "summation" (.long record.summation.value)
      |>.insert "count" (.long record.count.value) |>.insert "value" (.long record.value)
  ofFields id fields := .ok do
    let value ← fields.long "value"
    let summation ← fields.long "summation"
    let count ← fields.long "count"
    return { withCount id summation count with value }

end AverageRecord

end Rollup
