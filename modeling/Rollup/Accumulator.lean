/-!
# Accumulators

A value tagged with the rule by which two partial values become one. Sums of words wrap around.
-/

namespace Rollup

/-- The rules by which an incoming value changes the one that is held. -/
inductive Merge where
  | add
  | min
  | max
  | latest
  | keep
  deriving DecidableEq, Repr

/-- Values that can be merged by a rule. -/
class Mergeable (rule : Merge) (α : Type) where
  /-- The value that is held once the second one has come in. -/
  merge : α → α → α

namespace Mergeable

variable {α : Type}

instance [Add α] : Mergeable .add α := ⟨fun held incoming => held + incoming⟩

/-- Of two values that are neither less nor greater, the held one stays. -/
instance [LT α] [DecidableLT α] : Mergeable .min α :=
  ⟨fun held incoming => if incoming < held then incoming else held⟩

/-- Of two values that are neither less nor greater, the held one stays. -/
instance [LT α] [DecidableLT α] : Mergeable .max α :=
  ⟨fun held incoming => if held < incoming then incoming else held⟩

instance : Mergeable .latest α := ⟨fun _ incoming => incoming⟩

instance : Mergeable .keep α := ⟨fun held _ => held⟩

/-- What every rule does to numbers. -/
@[reducible] def ofRule [Add α] [LT α] [DecidableLT α] : (rule : Merge) → Mergeable rule α
  | .add => inferInstance
  | .min => inferInstance
  | .max => inferInstance
  | .latest => inferInstance
  | .keep => inferInstance

/-- What the rules do to values without an order. The two that compare do not apply. -/
def ofRule? [Add α] : (rule : Merge) → Option (Mergeable rule α)
  | .add => some inferInstance
  | .latest => some inferInstance
  | .keep => some inferInstance
  | .min | .max => none

end Mergeable

/-- A value that merges by `rule`. -/
structure Accumulator (rule : Merge) (α : Type) where
  value : α
  deriving DecidableEq, Repr

namespace Accumulator

variable {rule : Merge} {α : Type}

/-- Takes in one more value. -/
def record [Mergeable rule α] (held : Accumulator rule α) (incoming : α) : Accumulator rule α :=
  ⟨Mergeable.merge rule held.value incoming⟩

/-- Takes in another accumulator. -/
def merge [Mergeable rule α] (held incoming : Accumulator rule α) : Accumulator rule α :=
  held.record incoming.value

/-- What is held at first, and after each of the values that come in. -/
def trace [Mergeable rule α] (held : Accumulator rule α) : List α → List (Accumulator rule α)
  | [] => [held]
  | incoming :: rest => held :: trace (held.record incoming) rest

/-- Forgets what was taken in. -/
def set (_held : Accumulator rule α) (value : α) : Accumulator rule α := ⟨value⟩

end Accumulator

end Rollup
