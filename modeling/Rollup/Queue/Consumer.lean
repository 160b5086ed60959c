import Rollup.Part
import Rollup.Queue.Basic

/-!
# Consumers

A consumer works through batches of items, on a state that it shares with others. It may fail, or break
off; it is then shown what it left of the batch, and the next batch comes all the same.
-/

namespace Rollup

/-- Why a batch failed. -/
inductive ConsumeError where
  | failed (reason : String)
  /-- The consumer broke off, with this message. -/
  | brokeOff (message : String)
  deriving DecidableEq, Repr

namespace ConsumeError

def message : ConsumeError → String
  | failed reason => "consumer failed: " ++ reason
  | brokeOff reason => "consumer panicked: " ++ reason

/-- The text of the error underneath, if there is one. -/
def cause? : ConsumeError → Option String
  | failed reason => some reason
  | brokeOff _ => none

/-- What is reported of a break-off whose message is no text. -/
def unknown : ConsumeError := brokeOff "non-string panic payload"

end ConsumeError

/-- Who runs a consumer. -/
inductive Runner where
  /-- A thread of the pool. -/
  | thread (index : Nat)
  /-- Any other thread. -/
  | caller
  deriving DecidableEq, Repr

structure Consumer (σ α : Type) where
  /-- Works on a batch. Answers with what it left of the batch, and with the failure, if there was
  one. -/
  consume : Runner → List α → StateM σ (List α × Option ConsumeError)
  /-- Is shown what was left of a failed batch. -/
  onError : Runner → List α → ConsumeError → StateM σ Unit := fun _ _ _ => pure ()
  /-- Runs when a thread found its channels empty. -/
  idle : StateM σ Unit := pure ()
  /-- Runs once, when the pool has stopped. -/
  exit : StateM σ Unit := pure ()

/-- A queue inside a system, with the consumer at its end. -/
structure Line (σ α : Type) where
  queue : Part σ (Queue α)
  consumer : Consumer σ α

namespace Line

variable {σ α : Type}

/-- Runs the consumer on a batch. A failure stays with the batch. -/
def runBatch (line : Line σ α) (runner : Runner) (batch : List α) : StateM σ Unit := do
  let (left, error) ← line.consumer.consume runner batch
  match error with
  | none => pure ()
  | some error =>
    line.queue.modify Queue.countFailure
    line.consumer.onError runner left error

/-- Works through a batch that was taken out of the queue. -/
def finish (line : Line σ α) (runner : Runner) (batch : List α) : StateM σ Unit := do
  line.runBatch runner batch
  line.queue.modify (·.finishBatch batch.length)

/-- Offers an item to the queue, and runs the consumer on it if the queue says so. -/
def produce (line : Line σ α) (item : α) (wait : Wait := .timesOut) :
    StateM σ (Except (Refused α) Unit) := do
  match ← line.queue.modifyGet (·.offer item wait) with
  | .queued | .evicting _ => return .ok ()
  | .refused refused => return .error refused
  | .onCaller item =>
    line.runBatch .caller [item]
    line.queue.modify Queue.finishOnCaller
    return .ok ()

/-- Drains a channel in at most `count` batches, until one is not full. Answers with the number of
items. -/
def drainBatches (line : Line σ α) (runner : Runner) (channel batchSize : Nat) :
    (count : Nat) → StateM σ Nat
  | 0 => return 0
  | count + 1 => do
    let batch ← line.queue.modifyGet (·.popBatch channel batchSize)
    if batch.isEmpty then return 0
    line.finish runner batch
    if batch.length < batchSize then return batch.length
    return batch.length + (← drainBatches line runner channel batchSize count)

/-- Drains a channel of what is in it. -/
def drain (line : Line σ α) (runner : Runner) (channel batchSize : Nat) : StateM σ Nat := do
  let queued := ((line.queue.get (← get)).channel channel).length
  line.drainBatches runner channel batchSize (queued / batchSize + 1)

end Line

end Rollup
