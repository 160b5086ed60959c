import Rollup.Clock
import Rollup.Downsampler
import Rollup.Export
import Rollup.Fanout
import Rollup.FirstLevel
import Rollup.Persister
import Rollup.Rounds
import Rollup.RowStore

/-!
# Engines

An engine has one store and one clock. Fronts merge raw records behind a queue, stations persist them,
and exports get what was persisted. Stations and fronts hand records on to stations and to sinks. One
pool drains all queues.
-/

namespace Rollup

/-- Where records are handed on to. -/
inductive Target where
  | nowhere
  /-- A sink keeps what it gets. -/
  | sink (index : Nat)
  | station (index : Nat)
  /-- Copies for stations of coarser levels. -/
  | copies (sampler : Downsampler Nat)
  deriving DecidableEq, Repr

/-- A persister in its place. -/
structure Station (M : Type) where
  persister : Persister M
  /-- The exports that are shown what it persists. -/
  consumers : Fanout Nat := .empty
  /-- Where drained records go. -/
  target : Target := .nowhere
  /-- The queue in front of it, if there is one. -/
  queue : Option (Queue M) := none

/-- A first aggregation in its place. -/
structure Front (M : Type) where
  stage : FirstLevel M
  queue : Queue M
  target : Target

/-- Where records wait for the pool: the queue of a front, of a station or of an export. -/
inductive Inlet where
  | front (index : Nat)
  | station (index : Nat)
  | exporter (index : Nat)
  deriving DecidableEq, Repr

structure Engine (M : Type) where
  clock : Clock
  store : RowStore := {}
  stations : List (Station M) := []
  fronts : List (Front M) := []
  exports : Exports M := []
  sinks : List (List M) := []
  /-- What is attached to the pool, in order. -/
  inlets : List Inlet := []
  pool : PoolSettings := {}
  phase : PoolPhase := .idle
  /-- The threads that prepare rounds. -/
  threads : Nat := 2
  totals : RoundTotals := {}

namespace Engine

variable {M : Type}

def storePart : Part (Engine M) RowStore := ⟨store, fun engine store => { engine with store }⟩

def exportsPart : Part (Engine M) (Exports M) :=
  ⟨exports, fun engine exports => { engine with exports }⟩

def modifyStation (index : Nat) (change : Station M → Station M) (engine : Engine M) : Engine M :=
  { engine with stations := engine.stations.modify index change }

def modifyPersister (index : Nat) (change : Persister M → Persister M) : Engine M → Engine M :=
  modifyStation index fun station => { station with persister := change station.persister }

def modifyFront (index : Nat) (change : Front M → Front M) (engine : Engine M) : Engine M :=
  { engine with fronts := engine.fronts.modify index change }

def modifyStage (index : Nat) (change : FirstLevel M → FirstLevel M) : Engine M → Engine M :=
  modifyFront index fun front => { front with stage := change front.stage }

/-- The queue in front of a station. -/
def stationQueue (index : Nat) : Part (Engine M) (Queue M) where
  get engine := ((engine.stations[index]?).bind (·.queue)).getD .absent
  set engine queue := engine.modifyStation index ({ · with queue := some queue })

/-- The queue of a front. -/
def frontQueue (index : Nat) : Part (Engine M) (Queue M) where
  get engine := ((engine.fronts[index]?).map (·.queue)).getD .absent
  set engine queue := engine.modifyFront index ({ · with queue })

/-! ## Time -/

/-- Lets time pass. -/
def advance (d : Duration) : Action (Engine M) Unit := do
  let clock ← liftM ((← get).clock.advance d)
  modify ({ · with clock })

/-- Sets the wall time, in milliseconds since the epoch. -/
def setClock (millis : Int) : StateM (Engine M) Unit :=
  modify fun engine => { engine with clock := engine.clock.setMillis millis }

/-! ## Reading -/

/-- Records that a station has not drained yet. -/
def pending (engine : Engine M) (index : Nat) : Nat :=
  ((engine.stations[index]?).map (·.persister.pending)).getD 0

/-- The exports' events so far, and the engine without them. -/
def takeEvents (engine : Engine M) : List (List (M × EventKind)) × Engine M :=
  (engine.exports.map (·.events),
    { engine with exports := engine.exports.map fun target => target.takeEvents.2 })

/-- The writes executed so far, and the engine without them. -/
def takeExecuted (engine : Engine M) : List ExecutedWrite × Engine M :=
  let (executed, store) := engine.store.takeExecuted
  (executed, { engine with store })

/-- What the sinks got so far, and the engine without it. -/
def takeSunk (engine : Engine M) : List (List M) × Engine M :=
  (engine.sinks, { engine with sinks := engine.sinks.map fun _ => [] })

end Engine

end Rollup
