import Rollup.Record.Basic

/-!
# Calls per minute

The derived value is the total over the length of the bucket in minutes, rounded toward zero.
-/

namespace Rollup

structure RateRecord where
  id : MetricId
  total : Accumulator .add Int64
  value : Int64 := 0
  deriving DecidableEq

namespace RateRecord

def new (id : MetricId) (calls : Int64) : RateRecord := { id, total := ⟨calls⟩ }

/-- A bucket without an end has no length, and asking for it breaks the call off. -/
def calculate (record : RateRecord) : Except Fault RateRecord := do
  let span ← record.id.bucket.spanMinutes
  return { record with value := record.total.value / Int64.ofInt (max span 1) }

instance : Record RateRecord where
  id := id
  combine held incoming := (true, { held with total := held.total.merge incoming.total })
  calculate := calculate
  coarsen record level := (record.id.coarsen level).map ({ record with id := ·, value := 0 })
  toFields record :=
    Fields.empty |>.insert "total" (.long record.total.value) |>.insert "value" (.long record.value)
  ofFields id fields := .ok do
    let total ← fields.long "total"
    let value ← fields.long "value"
    return { new id total with value }

end RateRecord

end Rollup
