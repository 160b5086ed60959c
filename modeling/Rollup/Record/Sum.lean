import Rollup.Record.Basic

/-!
# Sums
-/

namespace Rollup

structure SumRecord where
  id : MetricId
  value : Accumulator .add Int64
  deriving DecidableEq

namespace SumRecord

def new (id : MetricId) (value : Int64) : SumRecord := ⟨id, ⟨value⟩⟩

instance : Record SumRecord where
  id := id
  combine held incoming := (true, { held with value := held.value.merge incoming.value })
  calculate record := .ok record
  coarsen record level := (record.id.coarsen level).map ({ record with id := · })
  toFields record := Fields.empty.insert "value" (.long record.value.value)
  ofFields id fields := .ok do return new id (← fields.long "value")

end SumRecord

end Rollup
