import Rollup.Record.Basic

/-!
# Greatest values
-/

namespace Rollup

structure PeakRecord where
  id : MetricId
  value : Accumulator .max Int64
  deriving DecidableEq

namespace PeakRecord

def new (id : MetricId) (value : Int64) : PeakRecord := ⟨id, ⟨value⟩⟩

instance : Record PeakRecord where
  id := id
  combine held incoming := (true, { held with value := held.value.merge incoming.value })
  calculate record := .ok record
  coarsen record level := (record.id.coarsen level).map ({ record with id := · })
  toFields record := Fields.empty.insert "value" (.long record.value.value)
  ofFields id fields := .ok do return new id (← fields.long "value")

end PeakRecord

end Rollup
