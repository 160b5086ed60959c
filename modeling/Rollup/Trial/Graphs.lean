import Rollup.Graph.Registry
import Rollup.Trial.Basic
import Rollup.Trial.Relay

/-!
# Graphs on trial

Builders, outputs, stages and built graphs under names, and a registry. The stages are relays.
-/

namespace Rollup

/-- What a graph takes. Relays take numbers. -/
inductive InputKind where
  | number
  | text
  deriving DecidableEq, Repr

structure GraphTrial where
  builders : Named (GraphBuilder Relay) := {}
  outputs : Outputs Relay := []
  /-- The handles of the outputs. -/
  handles : Named Nat := {}
  nodes : Named (Node Relay) := {}
  graphs : Named (Graph Relay) := {}
  registry : Registry InputKind Relay := {}
  log : RelayLog := []

namespace GraphTrial

abbrev Wiring (α : Type) := Call GraphTrial GraphError α

def builder (graph : String) : Wiring (GraphBuilder Relay) := do
  Call.find (← get).builders[graph]?

def handle (name : String) : Wiring Nat := do Call.find (← get).handles[name]?

def node (name : String) : Wiring (Node Relay) := do Call.find (← get).nodes[name]?

/-! ## Building -/

def put (graph : String) (builder : GraphBuilder Relay) : Wiring Unit :=
  modify fun trial => { trial with builders := trial.builders.insert graph builder }

def begin (graph : String) : Wiring Unit := put graph { id := graph }

/-- Makes an output for a stage. -/
def output (graph stage name : String) : Wiring Unit := do
  let trial ← get
  let (builder, outputs) := (← builder graph).output trial.outputs stage
  put graph builder
  modify ({ · with outputs, handles := trial.handles.insert name trial.outputs.length })

/-- Takes in a relay. -/
def addNode (graph name : String) (relay : Relay) : Wiring Unit := do
  let (node, builder) ← Call.valid ((← builder graph).node relay.name relay)
  put graph builder
  modify fun trial => { trial with nodes := trial.nodes.insert name node }

def connect (graph source target : String) : Wiring Unit := do
  let (builder, outputs) :=
    (← builder graph).connect (← get).outputs (← handle source) (← node target)
  put graph builder
  modify ({ · with outputs })

def edge (graph source target : String) : Wiring Unit := do
  put graph ((← builder graph).edge source target)

def root (graph name : String) : Wiring Unit := do
  put graph ((← builder graph).withRoot (← node name))

/-- Builds a graph. Its builder is gone afterwards. -/
def build (name : String) : Wiring (Graph Relay) := do
  let builder ← builder name
  modify fun trial => { trial with builders := trial.builders.erase name }
  let (graph, outputs) ← Call.valid (builder.build (← get).outputs)
  modify fun trial => { trial with outputs, graphs := trial.graphs.insert name graph }
  return graph

/-! ## Registering -/

def register (inputs : InputKind) (graph : Graph Relay) : Wiring Unit := do
  let registry ← Call.valid ((← get).registry.register inputs graph)
  modify ({ · with registry })

/-- Moves a built graph into the registry. -/
def registerBuilt (name : String) : Wiring Unit := do
  let graph ← Call.find (← get).graphs[name]?
  modify fun trial => { trial with graphs := trial.graphs.erase name }
  register .number graph

/-- Registers a graph of one stage that takes texts. -/
def registerText (name : String) : Wiring Unit :=
  register .text { id := name, root := { name }, stages := [name] }

def registered (inputs : InputKind) (name : String) : Wiring (Graph Relay) := do
  Call.valid ((← get).registry.get inputs name)

/-! ## Running -/

def logPart : Part GraphTrial RelayLog := ⟨log, fun trial log => { trial with log }⟩

/-- Hands an input to a relay. -/
def deliver (relay : Relay) (input : Int64) : Wiring Unit := do
  Call.act (logPart.act ((← get).outputs.deliver Relay.react relay input))

/-- Sends a value to an output. -/
def send (name : String) (value : Int64) : Wiring Unit := do
  Call.act (logPart.act ((← get).outputs.send Relay.react (← handle name) value))

/-- Hands an input to a built graph, or to a registered one. -/
def start (name : String) (input : Int64) : Wiring Unit := do
  let trial ← get
  let graph ← Call.find (trial.graphs[name]?.or (trial.registry.get .number name).toOption)
  deliver graph.root input

/-- The number of stages that an output feeds, once it is frozen. -/
def targets (name : String) : Wiring (Option Nat) := do
  let output := (← get).outputs[← handle name]?
  return output.bind fun output => output.targets.map List.length

/-- The log so far, and the trial without it. -/
def takeLog (trial : GraphTrial) : RelayLog × GraphTrial := (trial.log, { trial with log := [] })

end GraphTrial

end Rollup
