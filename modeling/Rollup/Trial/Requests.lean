import Rollup.Request
import Rollup.Sessions
import Rollup.Trial.Basic

/-!
# Requests and sessions on trial

Requests under names, each with a text that is told of its outcome, and a session cache with writes
prepared under names.
-/

namespace Rollup

structure RequestTrial where
  held : Named (Request String) := {}
  /-- Who was told, and of what. -/
  log : List (String × Verdict) := []

namespace RequestTrial

/-- Writes down who is told. -/
def tell (outcome : Option (String × Verdict)) : StateM RequestTrial Unit :=
  modify fun trial => { trial with log := trial.log ++ outcome.toList }

/-- Holds a request under a name. One that was held under it is given up. -/
def hold (name : String) (request : Request String) : StateM RequestTrial Unit := do
  let replaced := (← get).held[name]?
  modify fun trial => { trial with held := trial.held.insert name request }
  tell (replaced.bind Request.drop)

/-- Brings a request to its end. -/
def conclude (name : String) (how : Request String → Option (String × Verdict)) :
    Call RequestTrial Empty Unit := do
  let request ← Call.find (← get).held[name]?
  modify fun trial => { trial with held := trial.held.erase name }
  tell (how request)

/-- The log so far, and the trial without it. -/
def takeLog (trial : RequestTrial) : List (String × Verdict) × RequestTrial :=
  (trial.log, { trial with log := [] })

end RequestTrial

structure SessionTrial (M : Type) where
  cache : Sessions M := .empty
  prepared : Named (SessionCallback M) := {}

namespace SessionTrial

variable {M : Type}

def prepare (name : String) (callback : SessionCallback M) : StateM (SessionTrial M) Unit :=
  modify fun trial => { trial with prepared := trial.prepared.insert name callback }

/-- Settles a prepared write. -/
def fire [Record M] (name : String) (verdict : Verdict) : Call (SessionTrial M) Empty Unit := do
  let callback ← Call.find (← get).prepared[name]?
  modify fun trial => {
    cache := trial.cache.settle callback verdict
    prepared := trial.prepared.erase name }

end SessionTrial

end Rollup
