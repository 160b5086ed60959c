import Rollup.Duration
import Rollup.Partitioner

/-!
# Queues

A queue is split into channels of one capacity. A partitioner picks the channel of an item, and an
overflow rule says what happens when that channel is full. The queue counts what it took in, what it
evicted and handed back, what went through the consumer, and what is still on its way there.
-/

namespace Rollup

/-- What happens to an item that finds its channel full. -/
inductive Overflow where
  /-- The producer waits for room, and gives up after a time. -/
  | block (timeout : Duration)
  /-- The oldest item of the channel makes room. -/
  | dropOldest
  /-- The producer runs the consumer on the item itself. -/
  | runOnCaller
  deriving DecidableEq, Repr

/-- A producer waits for up to a second. -/
def Overflow.standard : Overflow := .block (.ofSecs 1)

/-- Why an item is handed back. -/
inductive Refusal where
  /-- The channel stayed full. -/
  | timeout
  /-- The pool that drains the queue has shut down. -/
  | closed
  /-- The producer has to run the consumer, and there is none. -/
  | noConsumer
  deriving DecidableEq, Repr

def Refusal.message : Refusal → String
  | timeout => "carrier channel stayed full until timeout"
  | closed => "carrier is closed"
  | noConsumer => "carrier channel is full and no consumer is attached"

/-- An item that is handed back. -/
structure Refused (α : Type) where
  reason : Refusal
  item : α
  deriving DecidableEq, Repr

/-- What becomes of an item that is offered to a queue. -/
inductive Offer (α : Type) where
  | queued
  /-- It is queued, and the oldest item of its channel made room. -/
  | evicting (oldest : α)
  /-- The producer has to run the consumer on it. -/
  | onCaller (item : α)
  | refused (refused : Refused α)
  deriving DecidableEq, Repr

/-- How a wait for room comes to its end, when nobody makes room. -/
inductive Wait where
  | timesOut
  | closes
  deriving DecidableEq, Repr

structure QueueStats where
  /-- Items taken in. -/
  produced : Nat := 0
  /-- Items evicted. -/
  dropped : Nat := 0
  /-- Items handed back after a wait. -/
  rejected : Nat := 0
  /-- Items that went through the consumer, whatever came of it. -/
  consumed : Nat := 0
  /-- Items queued, or in a batch that the consumer has not come back from. -/
  pending : Nat := 0
  deriving DecidableEq, Repr

structure Queue (α : Type) where
  name : String
  /-- The greatest length of a channel. -/
  capacity : Nat
  overflow : Overflow
  partitioner : Partitioner α
  /-- The items of each channel, the oldest first. -/
  channels : List (List α)
  /-- How many items the partitioner has seen. -/
  turn : Nat := 0
  /-- The thread that drains each channel, once a pool has started. -/
  owners : Option (List Nat) := none
  closed : Bool := false
  stats : QueueStats := {}
  /-- Batches that the consumer failed on. -/
  failures : Nat := 0

/-- A queue without channels, which takes nothing in. -/
def Queue.absent {α : Type} : Queue α where
  name := ""
  capacity := 0
  overflow := .standard
  partitioner := .rolling
  channels := []

/-! ## Building -/

structure QueueSettings (α : Type) where
  name : String := "strata-carrier"
  channels : Nat := 1
  channelSize : Nat := 2000
  overflow : Overflow := .standard
  partitioner : Partitioner α := .rolling

namespace Queue

variable {α : Type}

/-- An empty queue, with room for all that it may come to hold. -/
def build (settings : QueueSettings α) : Except Fault (Queue α) := do
  Setting.name.check (settings.name ≠ "")
  Setting.channels.check (0 < settings.channels)
  Setting.channelSize.check (0 < settings.channelSize)
  checkRoom (settings.channels * settings.channelSize)
  return {
    name := settings.name
    capacity := settings.channelSize
    overflow := settings.overflow
    partitioner := settings.partitioner
    channels := List.replicate settings.channels [] }

/-! ## Reading -/

/-- The items of a channel. -/
def channel (queue : Queue α) (index : Nat) : List α := queue.channels.getD index []

/-- The number of queued items. -/
def length (queue : Queue α) : Nat := queue.channels.flatten.length

def isEmpty (queue : Queue α) : Bool := queue.channels.all List.isEmpty

/-- Whether every item that was taken in has been through the consumer. -/
def isIdle (queue : Queue α) : Bool := queue.stats.pending == 0

/-- The channel of the next item. -/
def target (queue : Queue α) (item : α) : Nat :=
  queue.partitioner queue.turn item queue.channels.length % queue.channels.length

def setChannel (queue : Queue α) (index : Nat) (items : List α) : Queue α :=
  { queue with channels := queue.channels.set index items }

/-- The thread that drains a channel. -/
def owner (queue : Queue α) (channel : Nat) : Nat := (queue.owners.getD []).getD channel 0

/-- Whether the next item finds its channel full. -/
def isFullFor (queue : Queue α) (item : α) : Bool :=
  queue.capacity ≤ (queue.channel (queue.target item)).length

/-- Whether the producer of the next item waits for room. With no time to wait in, it does not. -/
def waitsFor (queue : Queue α) (item : α) : Bool :=
  match queue.overflow with
  | .block timeout => 0 < timeout.nanos && queue.isFullFor item
  | _ => false

/-! ## Producing -/

/-- Offers an item. A wait for room ends as `wait` says. -/
def offer (queue : Queue α) (item : α) (wait : Wait := .timesOut) : Offer α × Queue α :=
  if queue.closed then (.refused ⟨.closed, item⟩, queue)
  else
    let index := queue.target item
    let items := queue.channel index
    let stats := queue.stats
    let queue := { queue with turn := queue.turn + 1 }
    if items.length < queue.capacity then
      (.queued, { queue.setChannel index (items ++ [item]) with
        stats := { stats with produced := stats.produced + 1, pending := stats.pending + 1 } })
    else
      match queue.overflow, wait with
      | .dropOldest, _ =>
        match items with
        | oldest :: rest =>
          (.evicting oldest, { queue.setChannel index (rest ++ [item]) with
            stats := { stats with produced := stats.produced + 1, dropped := stats.dropped + 1 } })
        | [] => (.queued, queue)
      | .block _, .timesOut =>
        (.refused ⟨.timeout, item⟩,
          { queue with stats := { stats with rejected := stats.rejected + 1 } })
      | .block _, .closes => (.refused ⟨.closed, item⟩, queue)
      | .runOnCaller, _ =>
        if queue.owners.isSome then
          (.onCaller item, { queue with stats := { stats with produced := stats.produced + 1 } })
        else (.refused ⟨.noConsumer, item⟩, queue)

/-- The producer has run the consumer on an item. -/
def finishOnCaller (queue : Queue α) : Queue α :=
  { queue with stats := { queue.stats with consumed := queue.stats.consumed + 1 } }

/-! ## Draining -/

/-- Ties the queue to a pool. The owners are the threads of its channels. -/
def bind (queue : Queue α) (owners : List Nat) : Except Fault (Queue α) :=
  match queue.owners with
  | some _ => .error (.alreadyAttached queue.name)
  | none => .ok { queue with owners := some owners }

/-- Takes no more items in. -/
def close (queue : Queue α) : Queue α := { queue with closed := true }

/-- Takes up to `limit` of the oldest items of a channel out. -/
def popBatch (queue : Queue α) (index limit : Nat) : List α × Queue α :=
  let items := queue.channel index
  (items.take limit, queue.setChannel index (items.drop limit))

/-- A batch has been through the consumer. -/
def finishBatch (queue : Queue α) (count : Nat) : Queue α :=
  { queue with stats := { queue.stats with
      pending := queue.stats.pending - count, consumed := queue.stats.consumed + count } }

/-- The consumer failed on a batch. -/
def countFailure (queue : Queue α) : Queue α := { queue with failures := queue.failures + 1 }

end Queue

end Rollup
