import Rollup.Record.Basic

/-!
# Latest values

Of two records the one observed later stands. An earlier one is not taken in.
-/

namespace Rollup

structure LatestRecord where
  id : MetricId
  value : Accumulator .latest Int64
  observedAt : Accumulator .latest Int64
  deriving DecidableEq

namespace LatestRecord

def new (id : MetricId) (value observedAt : Int64) : LatestRecord := ⟨id, ⟨value⟩, ⟨observedAt⟩⟩

def combine (held incoming : LatestRecord) : Bool × LatestRecord :=
  if incoming.observedAt.value < held.observedAt.value then (false, held)
  else (true, { held with
    value := held.value.merge incoming.value
    observedAt := held.observedAt.merge incoming.observedAt })

instance : Record LatestRecord where
  id := id
  combine := combine
  calculate record := .ok record
  coarsen record level := (record.id.coarsen level).map ({ record with id := · })
  toFields record :=
    Fields.empty |>.insert "value" (.long record.value.value)
      |>.insert "observed_at" (.long record.observedAt.value)
  ofFields id fields := .ok do
    let value ← fields.long "value"
    let observedAt ← fields.long "observed_at"
    return new id value observedAt

end LatestRecord

end Rollup
