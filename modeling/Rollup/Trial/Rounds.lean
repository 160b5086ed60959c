import Rollup.Rounds
import Rollup.Trial.Basic

/-!
# Rounds on trial

Rounds over workers that follow a script, with a flush that only takes down whose writes came.
-/

namespace Rollup

structure ScriptedWorker where
  name : String
  /-- How many writes each build prepares, over and over. A build may break off instead. -/
  script : List (Option Nat)
  builds : Nat := 0
  finishes : Nat := 0
  deriving DecidableEq, Repr

/-- What the script says of the next build. -/
def ScriptedWorker.next (worker : ScriptedWorker) : Option Nat :=
  (worker.script[worker.builds % worker.script.length]?).getD (some 0)

structure RoundTrial where
  workers : List ScriptedWorker
  threads : Nat := 2
  failing : Bool := false
  /-- The names of the workers whose writes came, for each flush. -/
  flushes : List (List String) := []
  totals : RoundTotals := {}
  ticker : Option Ticker := none
  /-- Rounds that were due when a timer was let go of. -/
  late : Nat := 0
  deriving DecidableEq, Repr

namespace RoundTrial

def modifyWorker (trial : RoundTrial) (index : Nat) (change : ScriptedWorker → ScriptedWorker) :
    RoundTrial :=
  { trial with workers := trial.workers.modify index change }

/-- A build of a worker. The writes stand for their worker's name. -/
def build (index : Nat) (name : String) : Action RoundTrial (List String) := do
  let planned := (((← get).workers[index]?).bind ScriptedWorker.next)
  modify (·.modifyWorker index fun worker => { worker with builds := worker.builds + 1 })
  match planned with
  | some count => return List.replicate count name
  | none => throw (.foreign "scripted panic")

def roundWorker (index : Nat) (worker : ScriptedWorker) : RoundWorker RoundTrial String where
  name := worker.name
  build := build index worker.name
  finish := modify (·.modifyWorker index fun worker =>
    { worker with finishes := worker.finishes + 1 })

def roundWorkers (trial : RoundTrial) : List (RoundWorker RoundTrial String) :=
  trial.workers.zipIdx.map fun (worker, index) => roundWorker index worker

def flush : Flush RoundTrial String := fun names => do
  modify fun trial => { trial with flushes := trial.flushes ++ [names] }
  return if (← get).failing then .error (.unavailable "scripted") else .ok ()

/-- Runs a round. -/
def round : StateM RoundTrial RoundSummary := do
  let trial ← get
  let summary ← Rounds.run flush trial.threads trial.roundWorkers
  modify fun trial => { trial with totals := trial.totals.add summary }
  return summary

/-- Runs rounds one after another. -/
def rounds : (count : Nat) → StateM RoundTrial Unit
  | 0 => pure ()
  | count + 1 => do
    let _ ← round
    rounds count

/-- Runs a round of one worker. -/
def runAlone (index : Nat) : Call RoundTrial StorageError Nat := do
  let worker ← Call.find (← get).workers[index]?
  Call.valid (← Call.act (Rounds.runAlone flush (roundWorker index worker)))

/-- Starts the timer. -/
def start (period : Nat) : Call RoundTrial StorageError Unit := do
  Call.require (← get).ticker.isNone
  modify ({ · with ticker := some { period } })

/-- How many rounds of the timer are due, if it runs. -/
def due (trial : RoundTrial) : Nat := trial.ticker.elim 0 Ticker.due

/-- Lets go of the timer, which stops it, if it runs. A round that is due comes late. -/
def drop : StateM RoundTrial Unit :=
  modify fun trial => { trial with ticker := none, late := trial.late + trial.due }

/-- Stops the timer, and waits for a round that is due. -/
def shutDown : Call RoundTrial StorageError Unit := do
  let trial ← get
  Call.require trial.ticker.isSome
  set { trial with ticker := none }
  Call.plain (rounds trial.due)

/-- Lets time pass, for the timer if it runs. The rounds that are late come first. -/
def sleep (millis : Nat) : StateM RoundTrial Unit := do
  let trial ← get
  if 0 < millis then
    set { trial with late := 0, ticker := trial.ticker.map (Ticker.pass · millis) }
    rounds (trial.late + trial.ticker.elim 0 (Ticker.ticks · millis))

/-- The flushes so far, and the trial without them. -/
def takeFlushes (trial : RoundTrial) : List (List String) × RoundTrial :=
  (trial.flushes, { trial with flushes := [] })

end RoundTrial

end Rollup
