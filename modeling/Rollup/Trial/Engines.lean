import Rollup.Engine.Round
import Rollup.Trial.Basic

/-!
# Engines on trial

Calls on the stations of an engine by number, and a plan from which an engine of persisters is put
together.
-/

namespace Rollup.Engine

variable {M : Type} [Record M] {ε : Type}

/-! ## Calls -/

def stationAt (index : Nat) : Call (Engine M) ε (Station M) := do
  Call.find (← get).stations[index]?

/-- Hands a record to a station. -/
def hand (index : Nat) (record : M) : Call (Engine M) (Refused M) Unit := do
  let _ ← stationAt index
  Call.attempt (acceptAt index record)

/-- Runs a round of a station. -/
def roundAt (index : Nat) : Call (Engine M) StorageError Nat := do
  Call.valid (← Call.act (runStation index (← stationAt index)))

/-- Prepares the writes of a station. -/
def buildAt (index : Nat) : Call (Engine M) Empty (List (Prepared M)) := do
  let _ ← stationAt index
  Call.act (build index)

/-- Removes a session of a station. Answers whether it was there. -/
def forget (index : Nat) (id : MetricId) : Call (Engine M) Empty Bool := do
  let sessions := (← stationAt index).persister.sessions
  modify (modifyPersister index fun persister => { persister with sessions := sessions.remove id })
  return sessions.contains id

/-! ## Putting together -/

/-- Where a planned station hands drained records on to. -/
inductive PlannedTarget where
  | nowhere
  | sink
  | copies (targets : List (Level × Nat))
  deriving DecidableEq, Repr

/-- What a station is put together from. -/
structure StationPlan (M : Type) where
  model : Model
  settings : PersisterSettings
  /-- The one kind of events that each export wants. -/
  exports : List (Option EventKind)
  /-- The same, of exports behind queues. -/
  queuedExports : List (Option EventKind)
  queue : Option (QueueSettings M)
  target : PlannedTarget

/-- The queue in front of an export. -/
def exportQueue : Except Fault (Queue (M × EventKind)) := Queue.build { name := "export" }

/-- Puts a station in front of those that are there. It will have this number. -/
def addStation (plan : StationPlan M) (index : Nat) (engine : Engine M) :
    Except Fault (Engine M) := do
  plan.settings.check
  let behind ← exportQueue
  let queue ← plan.queue.mapM Queue.build
  let first := engine.exports.length
  let kinds := plan.exports ++ plan.queuedExports
  let target : Target := match plan.target with
    | .nowhere => .nowhere
    | .sink => .sink index
    | .copies targets => .copies ⟨targets⟩
  let station : Station M := {
    persister := { model := plan.model, settings := plan.settings }
    consumers := .group (kinds.zipIdx.map fun (only, number) => .leaf (first + number) only)
    target
    queue }
  let exports : Exports M := plan.exports.map ({ only := · }) ++
    plan.queuedExports.map ({ only := ·, queue := some behind })
  return { engine with
    stations := station :: engine.stations
    exports := engine.exports ++ exports
    sinks := [] :: engine.sinks
    inlets := engine.inlets ++
      (List.range' first kinds.length).map .exporter ++ [.station index] }

/-- Whether a target leads from the station of this number to later ones only. -/
def PlannedTarget.leadsOn (target : PlannedTarget) (index count : Nat) : Bool :=
  match target with
  | .nowhere | .sink => true
  | .copies targets => targets.all fun (_, station) => index < station && station < count

/-- An engine of planned stations, put together from the last to the first. -/
def ofPlans (clock : Clock) (threads : Nat) (plans : List (StationPlan M)) :
    Except (Halt Empty) (Engine M) := do
  let engine ← plans.zipIdx.foldrM (fun (plan, index) engine => do
    if !plan.target.leadsOn index plans.length then throw .missing
    (addStation plan index engine).mapError .broke) { clock, threads }
  (Rounds.checkThreads threads).mapError .broke
  return engine

/-- An engine of one front that hands records on to a sink. -/
def ofFront (clock : Clock) (model : Model) (flushPeriod : Duration)
    (queue : Option (QueueSettings M)) (pool : PoolSettings) : Except Fault (Engine M) := do
  pool.check
  let queue ← Queue.build (queue.getD { name := FirstLevel.queueName model, channelSize := 1000 })
  let stage : FirstLevel M := .build model flushPeriod clock.nowMillis
  return {
    clock, pool
    fronts := [{ stage, queue, target := .sink 0 }]
    sinks := [[]]
    inlets := [.front 0] }

/-! ## Reading -/

/-- For each station, the events that reached its exports. -/
def stationEvents (engine : Engine M) (events : List (List (M × EventKind))) :
    List (List (List (M × EventKind))) :=
  engine.stations.map fun station =>
    station.consumers.leaves.map (events.getD · [])

/-- What reached the sinks of those stations that have one. -/
def stationSinks (engine : Engine M) (sinks : List (List M)) : List (List M) :=
  engine.stations.filterMap fun station =>
    match station.target with
    | .sink index => sinks[index]?
    | _ => none

end Rollup.Engine
