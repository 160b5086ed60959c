import Rollup.Config
import Rollup.Engine.Round
import Rollup.Graph.Registry

/-!
# Pipelines

A pipeline is an engine that is put together model by model. Each model gets a front, a station of its
own level that takes part in every round, and one station for each coarser level that sits most rounds
out. What the model's own station drains is copied for the coarser ones. A graph of these stages is
registered under the name of the model.
-/

namespace Rollup

/-- A stage of a pipeline's graph. -/
inductive Stage where
  | front (index : Nat)
  | station (index : Nat)
  /-- Copies what a station drains. -/
  | sampler (station : Nat)
  deriving DecidableEq, Repr

/-- `κ` is a kind of records, as far as the registry tells them apart. -/
structure Pipeline (κ M : Type) where
  config : Config
  engine : Engine M
  registry : Registry κ Stage := {}
  /-- The graphs in the order of their creation. -/
  graphs : List (Graph Stage) := []
  /-- The number of coarser stations so far. -/
  coarser : Nat := 0
  ticker : Option Ticker := none

namespace Pipeline

variable {κ M : Type}

def enginePart : Part (Pipeline κ M) (Engine M) :=
  ⟨engine, fun pipeline engine => { pipeline with engine }⟩

/-! ## Settings -/

def poolSettings (config : Config) : PoolSettings where
  name := "strata-l1"
  threads := config.pool.threads
  batchSize := config.pool.batchSize
  consumeCycle := .ofMillis config.pool.consumeCycleMs

def queueSettings (config : Config) (model : Model) : QueueSettings M where
  name := FirstLevel.queueName model
  channels := config.carrier.channels
  channelSize := config.carrier.channelSize
  overflow := config.carrier.overflowRule

/-- A station's settings, but for how often it drains and how long its sessions last. -/
def persisterSettings (config : Config) : PersisterSettings where
  sessionTimeout := config.sessionTimeout
  loadBatch := config.maxBatchGetSize
  ttlDays := config.metricsDataTtlDays

/-- A pipeline without models. -/
def ofConfig (config : Config) (clock : Clock) :
    Except ConfigError (Except Fault (Pipeline κ M)) := do
  config.validate
  return do
    Rounds.checkThreads config.prepareThreads
    let pool := poolSettings config
    pool.check
    return { config, engine := { clock, pool, threads := config.prepareThreads } }

/-! ## The graph of a model -/

/-- Takes in a stage of each coarser level. -/
def coarserNodes (base : Level) (station : Nat) (builder : GraphBuilder Stage) :
    Except GraphError (List (Node Stage) × GraphBuilder Stage) :=
  base.coarser.zipIdx.foldlM (fun (nodes, builder) (level, index) => do
    let (node, builder) ← builder.node level.name (.station (station + 1 + index))
    return (nodes ++ [node], builder)) ([], builder)

/-- Lets the model's own station feed the coarser ones. -/
def wireCoarser (base : Level) (station : Nat) (coarser : List (Node Stage))
    (builder : GraphBuilder Stage) (outputs : Outputs Stage) :
    Except GraphError (GraphBuilder Stage × Outputs Stage) := do
  if coarser.isEmpty then return (builder, outputs)
  let handle := outputs.length
  let (builder, outputs) := builder.output outputs base.name
  let (sampler, builder) ← builder.node "trans" (.sampler station)
  let (builder, outputs) := builder.connect outputs handle sampler
  return (coarser.foldl (fun builder node => builder.edge sampler.name node.name) builder, outputs)

/-- The graph of a model, whose own station and front have these numbers. The coarser stations come
right after its own, the finest first. -/
def wire (model : Model) (station front : Nat) : Except GraphError (Graph Stage) := do
  let (coarser, builder) ← coarserNodes model.level station { id := model.name }
  let (own, builder) ← builder.node model.level.name (.station station)
  let (builder, outputs) ← wireCoarser model.level station coarser builder []
  let handle := outputs.length
  let (builder, outputs) := builder.output outputs "l1"
  let (first, builder) ← builder.node "l1" (.front front)
  let (builder, outputs) := builder.connect outputs handle own
  return (← (builder.withRoot first).build outputs).1

/-! ## Creating -/

/-- Counts one more coarser station. Their number has 32 bits. -/
def countCoarser (count : Nat) : Except Fault Nat :=
  if count + 1 < UInt32.size then .ok (count + 1) else .error .outOfRange

/-- The settings of the next coarser station. -/
def nextCoarser : Action (Pipeline κ M) PersisterSettings := do
  let pipeline ← get
  let sessionTimeout ← liftM (pipeline.config.downsamplingSessionTimeout pipeline.coarser)
  let coarser ← liftM (countCoarser pipeline.coarser)
  set { pipeline with coarser }
  let settings := { persisterSettings pipeline.config with
    sessionTimeout, drainEvery := pipeline.config.downsamplingPersistentMod }
  liftM settings.check
  return settings

/-- Puts the stages of a model into the engine. The coarser stations have these settings. -/
def install (engine : Engine M) (config : Config) (model : Model) (queue : Queue M)
    (consumers : List (Option EventKind)) (coarser : List (Level × PersisterSettings)) :
    Engine M :=
  let station := engine.stations.length
  let shown : Fanout Nat := .group <|
    consumers.zipIdx.map fun (only, index) => .leaf (engine.exports.length + index) only
  let sampler : Downsampler Nat := ⟨coarser.zipIdx.map fun ((level, _), index) =>
    (level, station + 1 + index)⟩
  let own : Station M := {
    persister := { model, settings := persisterSettings config }
    consumers := shown
    target := if coarser.isEmpty then .nowhere else .copies sampler }
  let others : List (Station M) := coarser.map fun (level, settings) => {
    persister := { model := model.atLevel level, settings }
    consumers := shown }
  let front : Front M := {
    stage := .build model config.l1FlushPeriod engine.clock.nowMillis
    queue
    target := .station station }
  { engine with
    stations := engine.stations ++ own :: others
    fronts := engine.fronts ++ [front]
    exports := engine.exports ++ consumers.map fun only => { only }
    inlets := engine.inlets ++ [.front engine.fronts.length] }

/-- Puts a model in, and answers with its graph. Each consumer may want one kind of events alone. -/
def create (inputs : κ) (model : Model) (consumers : List (Option EventKind)) :
    Action (Pipeline κ M) (Except GraphError (Graph Stage)) := do
  if (← get).registry.contains model.name then return .error (.duplicateGraph model.name)
  let coarser ← model.level.coarser.mapM fun level => return (level, ← nextCoarser)
  let pipeline ← get
  let engine := pipeline.engine
  liftM (persisterSettings pipeline.config).check
  let queue ← liftM (Queue.build (queueSettings (M := M) pipeline.config model))
  let registered : Except GraphError (Graph Stage × Registry κ Stage) := do
    let graph ← wire model engine.stations.length engine.fronts.length
    return (graph, ← pipeline.registry.register inputs graph)
  match registered with
  | .error error => return .error error
  | .ok (graph, registry) =>
    set { pipeline with
      engine := install engine pipeline.config model queue consumers coarser
      registry
      graphs := pipeline.graphs ++ [graph] }
    return .ok graph

/-! ## Running -/

variable [Record M]

/-- Hands a record to a stage. -/
def enter (stage : Stage) (record : M) : StateM (Engine M) Unit := do
  match stage with
  | .front index =>
    let _ ← Engine.acceptFront index record
  | .station index =>
    let _ ← Engine.acceptAt index record
  | .sampler station =>
    match (← get).stations[station]? with
    | some station => Engine.deliver station.target record
    | none => pure ()

/-- Hands a record to a graph. -/
def send (graph : Graph Stage) (record : M) : StateM (Pipeline κ M) Unit := do
  enginePart.run (enter graph.root record)

/-- Lets time pass for the timer, which is started if it does not run. -/
def runTimer (millis : Nat) : StateM (Pipeline κ M) Unit := do
  let pipeline ← get
  let ticker := pipeline.ticker.getD { period := pipeline.config.persistentPeriodMs }
  set { pipeline with ticker := some (ticker.pass millis) }
  enginePart.run (Engine.rounds (ticker.ticks millis))

/-- Stops the timer, with the round that is due by then, and the pool, and runs one last round. -/
def shutDown : StateM (Pipeline κ M) Unit := do
  let due := (← get).ticker.elim 0 Ticker.due
  modify ({ · with ticker := none })
  enginePart.run do
    Engine.rounds due
    Pooled.stop
    let _ ← Engine.round

end Pipeline

end Rollup
