import Rollup.Queue.Pool
import Std.Data.ExtTreeMap

/-!
# Trials

A trial puts components together under names and numbers and lets them be called one by one. A call
stops when what it needs is not there, and when the component breaks off or answers with an error; what
was done until then stays done.
-/

namespace Rollup

/-- Why a call on a trial stops. -/
inductive Halt (ε : Type) where
  /-- Something that the call needs is not there, or not in the state for it. -/
  | missing
  | broke (fault : Fault)
  | failed (error : ε)
  deriving DecidableEq, Repr

/-- A call on a trial. -/
abbrev Call (σ ε α : Type) := ExceptT (Halt ε) (StateM σ) α

/-- Things by name. -/
abbrev Named (α : Type) := Std.ExtTreeMap String α

namespace Call

variable {σ τ ε α : Type}

def find (thing : Option α) : Call σ ε α :=
  match thing with
  | some thing => return thing
  | none => throw .missing

def require (holds : Bool) : Call σ ε Unit := if holds then return () else throw .missing

/-- A value that may be a fault. -/
def sound (value : Except Fault α) : Call σ ε α :=
  match value with
  | .ok value => return value
  | .error fault => throw (.broke fault)

/-- A value that may be an error. -/
def valid (value : Except ε α) : Call σ ε α :=
  match value with
  | .ok value => return value
  | .error error => throw (.failed error)

/-- A call of a component that always comes back. -/
def plain (call : StateM σ α) : Call σ ε α := ExceptT.lift call

/-- A call of a component that may break off. -/
def act (call : Action σ α) : Call σ ε α := do sound (← plain call.run)

/-- A call of a component that may answer with an error. -/
def attempt (call : StateM σ (Except ε α)) : Call σ ε α := do valid (← plain call)

/-! ## Pools -/

variable [Pooled σ]

def requireRunning : Call σ ε Unit := do require (Pooled.phase.get (← get) = .running)

/-- Starts the pool. It drains nothing until it is let come to rest. -/
def startPool : Call σ ε Unit := do
  require (Pooled.phase.get (← get) = .idle)
  act Pooled.start

def stopPool : Call σ ε Unit := do
  requireRunning
  plain Pooled.stop

end Call

end Rollup
