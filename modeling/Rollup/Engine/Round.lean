import Rollup.Counters
import Rollup.Engine.Basic
import Rollup.Engine.Flow

/-!
# Rounds of an engine

All stations of an engine take part in its rounds, in order. Their writes go to the store in one flush,
and each outcome is told to the station that prepared the write.
-/

namespace Rollup.Engine

variable {M : Type} [Record M]

/-- What is told of the outcome of a write, and the number of the station that it is told to. -/
abbrev Callback (M : Type) := Nat × SessionCallback M

abbrev Prepared (M : Type) := Request (Callback M)

/-- Tells a station what became of a write. -/
def settle (outcome : Option (Callback M × Verdict)) : StateM (Engine M) Unit := do
  match outcome with
  | none => pure ()
  | some ((index, callback), verdict) => modify (modifyPersister index (·.settle callback verdict))

/-- Executes writes. -/
def flush : Flush (Engine M) (Prepared M) := fun writes => do
  let (answer, told, store) := (← get).store.flush writes
  modify ({ · with store })
  told.forM fun outcome => settle (some outcome)
  return answer

/-! ## One station -/

/-- Shows a record to the exports of a station. -/
def dispatch (station : Station M) (record : M) (kind : EventKind) : StateM (Engine M) Unit :=
  let receivers := Fanout.dispatch kind station.consumers.members
  modify fun engine => { engine with
    exports := engine.exports.hand engine.pool engine.phase receivers record kind }

/-- The engine as a station sees it. -/
def surroundings (station : Station M) : Surroundings (Engine M) M where
  load model ids := storePart.act (RowStore.load model.storageName ids)
  prepare _ _ _ := return (← get).store.prepare
  dispatch record kind := liftM (dispatch station record kind)
  forward record := liftM (deliver station.target record)

/-- Prepares the writes of a station. -/
def build (index : Nat) : Action (Engine M) (List (Prepared M)) := do
  let engine ← get
  match engine.stations[index]? with
  | none => return []
  | some station =>
    let call := Persister.build (surroundings station) engine.clock.nowMillis
    let (result, persister, engine) := call.run.run (station.persister, engine)
    set (modifyPersister index (fun _ => persister) engine)
    let writes ← liftM (result : Except Fault (List (Write M)))
    return writes.map (·.map (index, ·))

/-- Ends the round of a station. -/
def endRound (index : Nat) : StateM (Engine M) Unit := do
  let now := (← get).clock.nowMillis
  modify (modifyPersister index (·.endRound now))

def roundWorker (index : Nat) (station : Station M) : RoundWorker (Engine M) (Prepared M) where
  name := station.persister.model.storageName
  build := build index
  finish := endRound index

/-- Runs a round of one station. -/
def runStation (index : Nat) (station : Station M) :
    Action (Engine M) (Except StorageError Nat) := Rounds.runAlone flush (roundWorker index station)

/-! ## All stations -/

def roundWorkers (engine : Engine M) : List (RoundWorker (Engine M) (Prepared M)) :=
  engine.stations.zipIdx.map fun (station, index) => roundWorker index station

/-- Runs a round of all stations. -/
def round : StateM (Engine M) RoundSummary := do
  let engine ← get
  let summary ← Rounds.run flush engine.threads engine.roundWorkers
  modify fun engine => { engine with totals := engine.totals.add summary }
  return summary

/-- Runs rounds one after another. -/
def rounds : (count : Nat) → StateM (Engine M) Unit
  | 0 => pure ()
  | count + 1 => do
    let _ ← round
    rounds count

/-! ## Published counts -/

/-- The key under which a stage reports the records it took in. -/
def aggregationKey (model : Model) (stage : String) : String :=
  Counters.key "strata_metrics_aggregation"
    [("dimensionality", model.level.name), ("level", stage), ("metric", model.name)]

/-- What the queue of an inlet publishes. -/
def queueCounts (engine : Engine M) : Inlet → List (String × Nat)
  | .front index => ((frontQueue index).get engine).counts
  | .station index => ((stationQueue index).get engine).counts
  | .exporter index => (((engine.exports[index]?).bind (·.queue)).map Queue.counts).getD []

/-- What an engine publishes. -/
def counters (engine : Engine M) : Counters :=
  .ofList <|
    (engine.fronts.map fun front => (aggregationKey front.stage.model "1", front.stage.reported)) ++
    (engine.stations.map fun station =>
      (aggregationKey station.persister.model "2", station.persister.reported)) ++
    engine.inlets.flatMap engine.queueCounts ++
    engine.totals.counts

end Rollup.Engine
