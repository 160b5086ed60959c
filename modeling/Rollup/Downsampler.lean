import Rollup.Record.Basic

/-!
# Downsampling

A downsampler has targets, each with the level it wants. It copies every record for each target whose
level is not finer than the record's own.
-/

namespace Rollup

/-- Where copies go. `τ` names a receiver. -/
structure Downsampler (τ : Type) where
  targets : List (Level × τ) := []
  deriving DecidableEq, Repr

namespace Downsampler

variable {τ : Type}

def withTarget (sampler : Downsampler τ) (level : Level) (target : τ) : Downsampler τ :=
  ⟨sampler.targets ++ [(level, target)]⟩

def levels (sampler : Downsampler τ) : List Level := sampler.targets.map (·.1)

/-- The copies of a record, in the order of the targets. -/
def copies {M : Type} [Record M] (sampler : Downsampler τ) (record : M) : List (τ × M) :=
  sampler.targets.filterMap fun (level, target) => (Record.coarsen record level).map (target, ·)

end Downsampler

end Rollup
