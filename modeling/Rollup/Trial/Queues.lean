import Rollup.Queue.Pool
import Rollup.Trial.Basic

/-!
# Queues on trial

Queues on one pool whose consumers follow a script and write down what happens to them. A thread of the
pool can be held up with an item in its hands; until it is released the pool drains nothing.
-/

namespace Rollup

inductive QueueEvent where
  /-- A queue's consumer got a batch of this size and took items from it. -/
  | batch (queue size : Nat) (handled : List Int)
  /-- It was shown what was left of a failed batch. -/
  | failed (queue : Nat) (error : ConsumeError) (left : List Int)
  /-- The pool let it go. -/
  | exited (queue : Nat)
  deriving DecidableEq, Repr

/-- The items an event says were taken. -/
def QueueEvent.handled : QueueEvent → List Int
  | batch _ _ items => items
  | _ => []

/-- What a scripted consumer does at an item. -/
abbrev Script := Int → Option ConsumeError

/-- A batch of one that a thread is held up with. -/
structure HeldBatch where
  queue : Nat
  channel : Nat
  batch : List Int

structure QueueTrial where
  settings : PoolSettings
  queues : List (Queue Int)
  scripts : List Script
  log : List (Runner × QueueEvent) := []
  phase : PoolPhase := .idle
  held : Option HeldBatch := none
  /-- Whether there still is a second pool to start. -/
  spare : Bool := true

namespace QueueTrial

def write (runner : Runner) (event : QueueEvent) : StateM QueueTrial Unit :=
  modify fun trial => { trial with log := trial.log ++ [(runner, event)] }

/-- Takes items until the script stops it. The item it stops at stays in the batch. -/
def consumer (index : Nat) (script : Script) : Consumer QueueTrial Int where
  consume runner batch := do
    let handled := batch.takeWhile fun item => (script item).isNone
    let left := batch.drop handled.length
    write runner (.batch index batch.length handled)
    return (left, left.head?.bind script)
  onError runner left error := write runner (.failed index error left)
  exit := write .caller (.exited index)

def queuePart (index : Nat) : Part QueueTrial (Queue Int) :=
  Part.element ⟨queues, fun trial queues => { trial with queues }⟩ .absent index

def line (trial : QueueTrial) (index : Nat) : Line QueueTrial Int :=
  ⟨queuePart index, consumer index (trial.scripts.getD index fun _ => none)⟩

instance : Pooled QueueTrial where
  settings := settings
  attachments trial := trial.queues.zipIdx.map fun (queue, index) =>
    (trial.line index).attachment queue.channels.length
  phase := ⟨phase, fun trial phase => { trial with phase }⟩

/-- A call that may hand an item back. -/
abbrev Offering (α : Type) := Call QueueTrial (Refused Int) α

def queue (index : Nat) : Offering (Queue Int) := do Call.find (← get).queues[index]?

/-- Lets the pool come to rest, unless it is held up. -/
def rest : StateM QueueTrial Unit := do
  if (← get).held.isNone then Pooled.rest

/-- Offers an item to a queue. -/
def offer (index : Nat) (item : Int) (wait : Wait := .timesOut) : Offering Unit := do
  let _ ← queue index
  let trial ← get
  Call.attempt ((trial.line index).produce item wait)

def produce (index : Nat) (item : Int) : Offering Unit := do
  offer index item
  rest

/-- Offers items in quick succession, up to the first that is handed back. -/
def burst (index : Nat) : List Int → Offering Unit
  | [] => rest
  | item :: others => do
    if (← queue index).waitsFor item then rest
    offer index item
    burst index others

def start : Offering Unit := do
  Call.startPool
  rest

/-- Starts the second pool with one of the queues, and stops it again. Its consumer writes under a
number of its own. -/
def startSecond (index number : Nat) : Offering Unit := do
  let line : Line QueueTrial Int := ⟨queuePart index, consumer number fun _ => none⟩
  let attachments := [line.attachment (← queue index).channels.length]
  Call.require (← get).spare
  modify ({ · with spare := false })
  let settings := (← get).settings
  Call.act (Pool.start settings attachments)
  Pool.stop settings attachments

/-- Offers an item and holds the one thread of the pool up with it. -/
def hold (index : Nat) (item : Int) : Offering Unit := do
  let trial ← get
  Call.require (trial.phase ≠ .idle ∧ trial.held.isNone ∧ trial.settings.threads = 1)
  let channel := (← queue index).target item
  offer index item
  let batch ← Call.plain ((queuePart index).modifyGet (·.popBatch channel 1))
  modify ({ · with held := some { queue := index, channel, batch } })

/-- Lets a thread go on that is held up. -/
def letGo : StateM QueueTrial Unit := do
  let trial ← get
  match trial.held with
  | none => pure ()
  | some held =>
    set { trial with held := none }
    let line := trial.line held.queue
    line.finish (.thread 0) held.batch
    if trial.settings.batchSize ≤ held.batch.length then
      let _ ← line.drain (.thread 0) held.channel trial.settings.batchSize
    Pool.resume trial.settings (Pooled.attachments trial) 0 (held.queue, held.channel)

def release : Offering Unit := do
  Call.require (← get).held.isSome
  letGo
  rest

def stop : Offering Unit := do
  Call.requireRunning
  letGo
  Call.stopPool

/-- Stops the pool while a producer waits for room. -/
def stopBlocked (index : Nat) (item : Int) : Offering (Except (Halt (Refused Int)) Unit) := do
  Call.require (← get).held.isSome
  let answer ← Call.plain (offer index item .closes).run
  stop
  return answer

/-- The name of who wrote an event. A thread that is not named like one of a pool counts as a caller. -/
def writer (trial : QueueTrial) (runner : Runner) : String :=
  let name := trial.settings.threadName runner
  if "pool-".isPrefixOf name then name else trial.settings.threadName .caller

/-- The events so far with their writers, and the trial without them. -/
def takeLog (trial : QueueTrial) : List (String × QueueEvent) × QueueTrial :=
  (trial.log.map fun (runner, event) => (trial.writer runner, event), { trial with log := [] })

end QueueTrial

end Rollup
