import Rollup.Graph.Output
import Std.Data.ExtTreeMap
import Std.Data.ExtTreeSet

/-!
# Graph builders

A builder takes the stages of a graph, the outputs made for them, and the edges between them. Building
checks that everything that was named is there and that the edges run in no circle, and freezes the
outputs.
-/

namespace Rollup

inductive GraphError where
  /-- Two stages have one name. -/
  | duplicateStage (stage : String)
  /-- An output or an edge names a stage that is not there. -/
  | unknownStage (stage : String)
  /-- The edges lead from the stage back to it. -/
  | cycle (stage : String)
  | missingRoot
  /-- The name of the graph is taken. -/
  | duplicateGraph (id : String)
  | unknownGraph (id : String)
  /-- The graph is there, and takes other inputs. -/
  | inputMismatch (id : String)
  deriving DecidableEq, Repr

namespace GraphError

def message : GraphError → String
  | duplicateStage stage => "stage `" ++ stage ++ "` is registered twice"
  | unknownStage stage => "stage `" ++ stage ++ "` is not registered"
  | cycle stage => "stage `" ++ stage ++ "` is part of a cycle"
  | missingRoot => "graph has no root stage"
  | duplicateGraph id => "graph `" ++ id ++ "` is already registered"
  | unknownGraph id => "graph `" ++ id ++ "` is not registered"
  | inputMismatch id => "graph `" ++ id ++ "` takes a different input type"

end GraphError

/-- A stage under its name. -/
structure Node (ν : Type) where
  name : String
  stage : ν
  deriving DecidableEq, Repr

/-- A built graph. -/
structure Graph (ν : Type) where
  id : String
  /-- Gets the inputs of the graph. -/
  root : ν
  /-- The names of the stages, in their order as texts. -/
  stages : List String
  deriving DecidableEq, Repr

structure GraphBuilder (ν : Type) where
  id : String
  stages : Std.ExtTreeSet String := {}
  edges : Std.ExtTreeMap String (Std.ExtTreeSet String) := {}
  /-- The outputs made here, by the name of their stage and their handle. -/
  outputs : List (String × Nat) := []
  root : Option ν := none

namespace GraphBuilder

variable {ν : Type}

/-- Takes in a stage, under a name that is not taken. -/
def node (builder : GraphBuilder ν) (name : String) (stage : ν) :
    Except GraphError (Node ν × GraphBuilder ν) :=
  if builder.stages.contains name then .error (.duplicateStage name)
  else .ok (⟨name, stage⟩, { builder with stages := builder.stages.insert name })

/-- Records that `source` feeds `target`. -/
def edge (builder : GraphBuilder ν) (source target : String) : GraphBuilder ν :=
  { builder with
    edges := builder.edges.insert source ((builder.edges.getD source {}).insert target) }

/-- Makes an output for a stage, which may be taken in later. The handle is the next free one. -/
def output (builder : GraphBuilder ν) (outputs : Outputs ν) (stage : String) :
    GraphBuilder ν × Outputs ν :=
  ({ builder with outputs := builder.outputs ++ [(stage, outputs.length)] }, outputs.create stage)

/-- Lets an output feed a stage. -/
def connect (builder : GraphBuilder ν) (outputs : Outputs ν) (handle : Nat) (target : Node ν) :
    GraphBuilder ν × Outputs ν :=
  (match outputs[handle]? with
    | some output => builder.edge output.stage target.name
    | none => builder,
    outputs.connect handle target.stage)

/-- Chooses the stage that gets the inputs of the graph. -/
def withRoot (builder : GraphBuilder ν) (root : Node ν) : GraphBuilder ν :=
  { builder with root := some root.stage }

/-! ## Checking -/

/-- The stages that a stage feeds. -/
def successors (builder : GraphBuilder ν) (stage : String) : List String :=
  (builder.edges.getD stage {}).toList

/-- Every stage that is named by an output, and then every one named by an edge. -/
def mentioned (builder : GraphBuilder ν) : List String :=
  builder.outputs.map (·.1) ++
    builder.edges.toList.flatMap fun (source, targets) => source :: targets.toList

/-- Follows the edges from a stage that was reached along `path`. Answers with the stages from which
no circle can be reached, those `done` before among them. -/
def visitWithin (builder : GraphBuilder ν) :
    (depth : Nat) → (path : List String) → (done : Std.ExtTreeSet String) → (stage : String) →
      Except GraphError (Std.ExtTreeSet String)
  | depth, path, done, stage =>
    if done.contains stage then .ok done
    else if path.contains stage then .error (.cycle stage)
    else
      match depth with
      | 0 => .ok done
      | depth + 1 => do
        let done ← (builder.successors stage).foldlM (visitWithin builder depth (stage :: path)) done
        return done.insert stage

/-- Refuses edges that run in a circle. A path is never longer than there are stages. -/
def checkAcyclic (builder : GraphBuilder ν) : Except GraphError Unit := do
  let _ ← builder.stages.toList.foldlM (builder.visitWithin builder.stages.size []) {}

/-- Builds the graph, and freezes its outputs. -/
def build (builder : GraphBuilder ν) (outputs : Outputs ν) :
    Except GraphError (Graph ν × Outputs ν) := do
  match builder.root with
  | none => throw .missingRoot
  | some root =>
    match builder.mentioned.find? (!builder.stages.contains ·) with
    | some stage => throw (.unknownStage stage)
    | none => pure ()
    builder.checkAcyclic
    return ({ id := builder.id, root, stages := builder.stages.toList },
      outputs.freezeAll (builder.outputs.map (·.2)))

end GraphBuilder

end Rollup
