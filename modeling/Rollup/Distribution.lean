import Rollup.Export
import Rollup.Fanout

/-!
# Distributions

A fan-out over numbered exports, some of which stand behind queues that one pool drains. While events
are sent the pool works only where a producer waits for room.
-/

namespace Rollup

/-- What a fan-out is put together from. -/
inductive ConsumerPlan where
  /-- An export that may want one kind of events alone, and may stand behind a queue with channels of
  this size and this overflow rule. -/
  | leaf (only : Option EventKind) (queue : Option (Nat × Overflow))
  | group (members : List ConsumerPlan)

structure Distribution (α : Type) where
  fanout : Fanout Nat
  exports : Exports α := []
  pool : PoolSettings := {}
  phase : PoolPhase := .idle

namespace Distribution

variable {α : Type}

/-! ## Putting together -/

mutual

/-- Adds what a plan asks for to the exports that are there. Exports are numbered in reading order. -/
def build (exports : Exports α) : ConsumerPlan → Except Fault (Fanout Nat × Exports α)
  | .leaf only queue => do
    let queue ← queue.mapM fun (channelSize, overflow) =>
      Queue.build { name := "export", channelSize, overflow }
    return (.leaf exports.length only, exports ++ [{ only, queue }])
  | .group members => do
    let (fanouts, exports) ← buildAll exports members
    return (.group fanouts, exports)

def buildAll (exports : Exports α) :
    List ConsumerPlan → Except Fault (List (Fanout Nat) × Exports α)
  | [] => return ([], exports)
  | plan :: rest => do
    let (fanout, exports) ← build exports plan
    let (others, exports) ← buildAll exports rest
    return (fanout :: others, exports)

end

def ofPlan (plan : ConsumerPlan) : Except Fault (Distribution α) := do
  let (fanout, exports) ← build [] plan
  return { fanout, exports }

/-! ## Running -/

instance : Pooled (Distribution α) where
  settings := pool
  attachments dist := (List.range dist.exports.length).filterMap fun index =>
    (dist.exports.attachment? index).map
      (·.within ⟨exports, fun dist exports => { dist with exports }⟩)
  phase := ⟨phase, fun dist phase => { dist with phase }⟩

/-- Sends an event to every export that is interested in its kind. -/
def dispatch (item : α) (kind : EventKind) : StateM (Distribution α) Unit :=
  modify fun dist =>
    let receivers := Fanout.dispatch kind dist.fanout.members
    { dist with exports := dist.exports.hand dist.pool dist.phase receivers item kind }

end Distribution

end Rollup
