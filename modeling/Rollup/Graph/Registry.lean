import Rollup.Graph.Builder

/-!
# Registries

Graphs by name, each with the kind of inputs it takes.
-/

namespace Rollup

/-- `κ` is a kind of inputs. -/
structure Registry (κ ν : Type) where
  graphs : Std.ExtTreeMap String (κ × Graph ν) := {}

namespace Registry

variable {κ ν : Type}

def contains (registry : Registry κ ν) (id : String) : Bool := registry.graphs.contains id

/-- The names, in their order as texts. -/
def ids (registry : Registry κ ν) : List String := registry.graphs.keys

/-- Registers a graph under its name, which must not be taken. -/
def register (registry : Registry κ ν) (inputs : κ) (graph : Graph ν) :
    Except GraphError (Registry κ ν) :=
  if registry.contains graph.id then .error (.duplicateGraph graph.id)
  else .ok ⟨registry.graphs.insert graph.id (inputs, graph)⟩

/-- Looks up a graph that takes inputs of a kind. -/
def get [DecidableEq κ] (registry : Registry κ ν) (inputs : κ) (id : String) :
    Except GraphError (Graph ν) :=
  match registry.graphs[id]? with
  | none => .error (.unknownGraph id)
  | some (taken, graph) => if taken = inputs then .ok graph else .error (.inputMismatch id)

end Registry

end Rollup
