import Rollup.Pipeline
import Rollup.Trial.Basic

/-!
# Pipelines on trial

A pipeline is put together, then it runs, and then it is gone. Each call belongs to one of these times.
-/

namespace Rollup.Pipeline

variable {κ M : Type}

/-- A call on a pipeline. -/
abbrev Calling (κ M α : Type) := Call (Pipeline κ M) GraphError α

def phase (pipeline : Pipeline κ M) : PoolPhase := pipeline.engine.phase

def requireRunning : Calling κ M Unit := do Call.require ((← get).phase = .running)

/-- Puts a model in, before the start. -/
def createAt (inputs : κ) (model : Model) (consumers : List (Option EventKind)) :
    Calling κ M (Graph Stage) := do
  Call.require ((← get).phase = .idle)
  Call.valid (← Call.act (create inputs model consumers))

/-- Looks up a graph while the pipeline runs. -/
def lookUp [DecidableEq κ] (inputs : κ) (id : String) :
    Calling κ M (Except GraphError (Graph Stage)) := do
  requireRunning
  return (← get).registry.get inputs id

/-- A graph that has to be there, while the pipeline runs. -/
def runningGraph [DecidableEq κ] (inputs : κ) (id : String) : Calling κ M (Graph Stage) := do
  Call.valid (← lookUp inputs id)

/-- Looks up a graph by the order of creation. -/
def graphAt (index : Nat) : Calling κ M (Graph Stage) := do Call.find (← get).graphs[index]?

variable [Record M]

def start : Calling κ M Unit := do
  Call.require ((← get).phase = .idle)
  Call.act (enginePart.act Pooled.start)

/-- Runs a round now. -/
def roundNow : Calling κ M RoundSummary := do
  requireRunning
  Call.plain (enginePart.run Engine.round)

def passTime (millis : Nat) : Calling κ M Unit := do
  requireRunning
  Call.plain (runTimer millis)

def finish : Calling κ M Unit := do
  requireRunning
  Call.plain shutDown

end Rollup.Pipeline
