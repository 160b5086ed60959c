import Rollup.Fault

/-!
# Outputs

A stage sends what it has for others to an output, and the output hands it to each stage it is
connected to, in the order of the connections. An output is open until its graph is built, and cannot
be used before.
-/

namespace Rollup

/-- `ν` is a stage. -/
structure Output (ν : Type) where
  /-- The name of the stage whose output it is. -/
  stage : String
  /-- The stages connected while it was open. -/
  connected : List ν := []
  /-- The stages it feeds, once it is frozen. -/
  targets : Option (List ν) := none
  deriving DecidableEq, Repr

namespace Output

variable {ν : Type}

def connect (output : Output ν) (node : ν) : Output ν :=
  { output with connected := output.connected ++ [node] }

def freeze (output : Output ν) : Output ν := { output with targets := some output.connected }

end Output

/-- Outputs by handle, a number each. -/
abbrev Outputs (ν : Type) := List (Output ν)

namespace Outputs

variable {ν : Type}

/-- One more output. Its handle is the number of those before. -/
def create (outputs : Outputs ν) (stage : String) : Outputs ν := outputs ++ [{ stage := stage }]

def connect (outputs : Outputs ν) (handle : Nat) (node : ν) : Outputs ν :=
  List.modify outputs handle (·.connect node)

def freezeAll (outputs : Outputs ν) (handles : List Nat) : Outputs ν :=
  handles.foldl (fun outputs handle => List.modify outputs handle Output.freeze) outputs

end Outputs

/-! ## Delivery -/

/-- What a stage does with an input: it answers with what it sends, and to which outputs. -/
abbrev Reaction (σ ν ι : Type) := ν → ι → Action σ (List (Nat × ι))

namespace Outputs

variable {σ ν ι : Type}

/-- Sends a value to an output, and on from there. The way leads through at most `depth` outputs. -/
def sendWithin (outputs : Outputs ν) (react : Reaction σ ν ι) :
    (depth : Nat) → (handle : Nat) → ι → Action σ Unit
  | 0, _, _ => throw .endlessDelivery
  | depth + 1, handle, value =>
    match outputs[handle]? with
    | none => pure ()
    | some output =>
      match output.targets with
      | none => throw (.openOutput output.stage)
      | some targets => targets.forM fun node => do
        (← react node value).forM fun (next, sent) => sendWithin outputs react depth next sent

/-- Sends a value to an output. A way that leads through more outputs than there are runs in a
circle. -/
def send (outputs : Outputs ν) (react : Reaction σ ν ι) (handle : Nat) (value : ι) :
    Action σ Unit := outputs.sendWithin react outputs.length handle value

/-- Hands a value to a stage. -/
def deliver (outputs : Outputs ν) (react : Reaction σ ν ι) (node : ν) (value : ι) :
    Action σ Unit := do
  (← react node value).forM fun (next, sent) => outputs.send react next sent

end Outputs

end Rollup
