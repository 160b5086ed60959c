import Rollup.Fanout
import Rollup.Queue.Pool

/-!
# Exports

An export keeps the events that reach it. It may stand behind a queue, and then events reach it when
the queue is drained; an event the queue does not take is lost.
-/

namespace Rollup

structure Export (α : Type) where
  /-- The one kind it wants. -/
  only : Option EventKind := none
  events : List (α × EventKind) := []
  queue : Option (Queue (α × EventKind)) := none

namespace Export

variable {α : Type}

def record (target : Export α) (events : List (α × EventKind)) : Export α :=
  { target with events := target.events ++ events }

/-- Takes the whole batch. -/
def consumer : Consumer (Export α) (α × EventKind) where
  consume _ batch := do
    modify (·.record batch)
    return ([], none)

def line : Line (Export α) (α × EventKind) where
  queue := {
    get := fun target => target.queue.getD .absent
    set := fun target queue => { target with queue := some queue } }
  consumer := consumer

/-- Takes an event, or puts it into the queue, which the pool drains. -/
def accept (pool : PoolSettings) (phase : PoolPhase) (target : Export α) (item : α)
    (kind : EventKind) : Export α :=
  match target.queue with
  | none => target.record [(item, kind)]
  | some _ => (Pool.produce pool phase line (item, kind)).run target |>.2

/-- The queue as a pool sees it. -/
def attachment (queue : Queue (α × EventKind)) : Attachment (Export α) :=
  line.attachment queue.channels.length

/-- The events so far, and the export without them. -/
def takeEvents (target : Export α) : List (α × EventKind) × Export α :=
  (target.events, { target with events := [] })

end Export

/-! ## Many exports -/

/-- Exports by number. -/
abbrev Exports (α : Type) := List (Export α)

namespace Exports

variable {α : Type}

/-- Hands an event to some of them, one after another. -/
def hand (pool : PoolSettings) (phase : PoolPhase) (exports : Exports α) (receivers : List Nat)
    (item : α) (kind : EventKind) : Exports α :=
  receivers.foldl (fun exports index =>
    List.modify exports index (Export.accept pool phase · item kind)) exports

/-- One of them. -/
def part (index : Nat) : Part (Exports α) (Export α) := Part.whole.element {} index

/-- The queue of one of them as a pool sees it, if it has one. -/
def attachment? (exports : Exports α) (index : Nat) : Option (Attachment (Exports α)) :=
  ((exports[index]?).bind (·.queue)).map fun queue => (Export.attachment queue).within (part index)

end Exports

end Rollup
