import Rollup.Graph.Output

/-!
# Relays

A relay notes down its input and sends it on, scaled and shifted. Numbers are words and wrap around.
-/

namespace Rollup

structure Relay where
  name : String
  /-- Where it sends to. -/
  output : Option Nat := none
  factor : Int64 := 1
  offset : Int64 := 0
  deriving DecidableEq, Repr

/-- What relays noted down, by their names. -/
abbrev RelayLog := List (String × Int64)

/-- What a relay does with an input. -/
def Relay.react : Reaction RelayLog Relay Int64 := fun relay input => do
  modify (· ++ [(relay.name, input)])
  return (relay.output.map (·, input * relay.factor + relay.offset)).toList

end Rollup
