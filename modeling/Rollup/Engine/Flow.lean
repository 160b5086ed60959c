import Rollup.Engine.Basic

/-!
# The flow of records

How records get into an engine and on through its queues. A record that a queue hands back on the way is
lost.
-/

namespace Rollup.Engine

variable {M : Type} [Record M]

/-! ## Stations -/

/-- The queue in front of a station, with the station at its end. -/
def stationLine (index : Nat) : Line (Engine M) M where
  queue := stationQueue index
  consumer := {
    consume := fun _ batch => do
      modify (modifyPersister index fun persister => batch.foldl .write persister)
      return ([], none) }

/-- Hands a record to a station. -/
def acceptAt (index : Nat) (record : M) : StateM (Engine M) (Except (Refused M) Unit) := do
  let engine ← get
  match engine.stations[index]? with
  | none => return .ok ()
  | some station =>
    let answer ←
      if station.queue.isSome then
        Pool.produce engine.pool engine.phase (stationLine index) record
      else do
        modify (modifyPersister index (·.write record))
        pure (.ok ())
    if answer.isOk then modify (modifyPersister index (·.countAccepted))
    return answer

/-- Hands a record on. -/
def deliver (target : Target) (record : M) : StateM (Engine M) Unit := do
  match target with
  | .nowhere => pure ()
  | .sink index =>
    modify fun engine => { engine with sinks := engine.sinks.modify index (· ++ [record]) }
  | .station index =>
    let _ ← acceptAt index record
  | .copies sampler => (sampler.copies record).forM fun (index, copy) => do
    let _ ← acceptAt index copy

/-! ## Fronts -/

/-- Hands on what a front gives out. -/
def giveOut (index : Nat) (flush : FirstLevel M → List M × FirstLevel M) :
    StateM (Engine M) Unit := do
  match (← get).fronts[index]? with
  | none => pure ()
  | some front =>
    let (records, stage) := flush front.stage
    modify (modifyStage index fun _ => stage)
    records.forM (deliver front.target)

def flushFront (index : Nat) : StateM (Engine M) Unit := giveOut index FirstLevel.flush

def flushFrontIfDue (index : Nat) : StateM (Engine M) Unit := do
  let now := (← get).clock.nowMillis
  giveOut index (·.flushIfDue now)

/-- The queue of a front, with the front at its end. -/
def frontLine (index : Nat) : Line (Engine M) M where
  queue := frontQueue index
  consumer := {
    consume := fun _ batch => do
      modify (modifyStage index (·.absorb batch))
      flushFrontIfDue index
      return ([], none)
    idle := flushFrontIfDue index
    exit := flushFront index }

/-- Hands a record to a front. -/
def acceptFront (index : Nat) (record : M) : StateM (Engine M) (Except (Refused M) Unit) := do
  let engine ← get
  let answer ← Pool.produce engine.pool engine.phase (frontLine index) record
  if answer.isOk then modify (modifyStage index (·.countAccepted))
  return answer

/-! ## The pool -/

/-- What the pool drains at an inlet. -/
def attachment? (engine : Engine M) : Inlet → Option (Attachment (Engine M))
  | .front index => (engine.fronts[index]?).map fun front =>
    (frontLine index).attachment front.queue.channels.length
  | .station index => ((engine.stations[index]?).bind (·.queue)).map fun queue =>
    (stationLine index).attachment queue.channels.length
  | .exporter index => (engine.exports.attachment? index).map (·.within exportsPart)

instance : Pooled (Engine M) where
  settings := pool
  attachments engine := engine.inlets.filterMap engine.attachment?
  phase := ⟨phase, fun engine phase => { engine with phase }⟩

end Rollup.Engine
