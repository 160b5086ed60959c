import Rollup.Chunks
import Rollup.Duration
import Rollup.Request

/-!
# Rounds

A round asks every worker for the writes it has prepared, flushes all of them in one go, and then ends
the round on every worker. A worker that breaks off while it prepares has no writes in that round, and
the others go on. Workers are dealt out to preparing threads in groups of neighbours; the writes come
in the order of the workers whatever their number.
-/

namespace Rollup

/-- What takes part in rounds. `ρ` is a prepared write. -/
structure RoundWorker (σ ρ : Type) where
  name : String
  build : Action σ (List ρ)
  finish : StateM σ Unit

/-- What executes the writes of a round. -/
abbrev Flush (σ ρ : Type) := List ρ → StateM σ (Except StorageError Unit)

structure RoundSummary where
  /-- Writes prepared by all workers. -/
  requests : Nat
  /-- Whether the flush went well, or there was nothing to flush. -/
  flushed : Bool
  deriving DecidableEq, Repr

/-- What was counted over all rounds. -/
structure RoundTotals where
  requests : Nat := 0
  /-- Rounds whose flush failed. -/
  failures : Nat := 0
  deriving DecidableEq, Repr

def RoundTotals.add (totals : RoundTotals) (summary : RoundSummary) : RoundTotals where
  requests := totals.requests + summary.requests
  failures := totals.failures + if summary.flushed then 0 else 1

namespace Rounds

variable {σ ρ : Type}

def checkThreads (threads : Nat) : Except Fault Unit := Setting.prepareThreads.check (0 < threads)

/-- The workers of each preparing thread. -/
def groups {α : Type} (threads : Nat) (workers : List α) : List (List α) :=
  if threads = 1 ∨ workers.length ≤ 1 then [workers]
  else chunks ((workers.length + threads - 1) / threads) workers

/-- The writes of a worker: none, if it breaks off. -/
def buildOrNone (worker : RoundWorker σ ρ) : StateM σ (List ρ) := do
  match ← worker.build.run with
  | .ok requests => return requests
  | .error _ => return []

/-- The writes of all workers. -/
def prepare (threads : Nat) (workers : List (RoundWorker σ ρ)) : StateM σ (List ρ) := do
  let prepared ← (groups threads workers).mapM fun group => group.mapM buildOrNone
  return prepared.flatten.flatten

/-- Flushes writes, if there are any. -/
def flushAny (flush : Flush σ ρ) (requests : List ρ) : StateM σ (Except StorageError Unit) :=
  if requests.isEmpty then return .ok () else flush requests

/-- Runs a round of all workers. -/
def run (flush : Flush σ ρ) (threads : Nat) (workers : List (RoundWorker σ ρ)) :
    StateM σ RoundSummary := do
  let requests ← prepare threads workers
  let flushed ← flushAny flush requests
  workers.forM (·.finish)
  return { requests := requests.length, flushed := flushed.isOk }

/-- Runs a round of one worker, which ends also when the flush fails. A worker that breaks off breaks
the round off. -/
def runAlone (flush : Flush σ ρ) (worker : RoundWorker σ ρ) :
    Action σ (Except StorageError Nat) := do
  let requests ← worker.build
  let flushed ← flushAny flush requests
  worker.finish
  return flushed.map fun () => requests.length

end Rounds

/-! ## Periodic rounds -/

/-- A running timer, with the time since it was started in milliseconds. -/
structure Ticker where
  period : Nat
  elapsed : Nat := 0
  deriving DecidableEq, Repr

namespace Ticker

/-- How many multiples of the period come before a moment, the start left out. A period of 0 never
comes. -/
def before (ticker : Ticker) (moment : Nat) : Nat := (moment - 1) / ticker.period

/-- How often the timer goes off in the next `millis`. It goes off at each multiple of its period, and
one that falls on the very end is left for the time that comes then. -/
def ticks (ticker : Ticker) (millis : Nat) : Nat :=
  ticker.before (ticker.elapsed + millis) - ticker.before ticker.elapsed

/-- How often the timer still has to go off at this moment: once, if it has just come to a multiple of
its period. -/
def due (ticker : Ticker) : Nat := ticker.ticks 1

def pass (ticker : Ticker) (millis : Nat) : Ticker :=
  { ticker with elapsed := ticker.elapsed + millis }

end Ticker

end Rollup
