import Rollup.Queue.Basic
import Rollup.Rounds
import Std.Data.ExtTreeMap

/-!
# Counters

What the components counted since they were made, by the name and the labels under which it is
published.
-/

namespace Rollup

/-- Published totals, by key. None of them is 0. -/
structure Counters where
  totals : Std.ExtTreeMap String Nat := {}

namespace Counters

def empty : Counters := {}

/-- The key of a counter: its name, and its labels in the order given. -/
def key (name : String) (labels : List (String × String)) : String :=
  let pairs := labels.map fun (label, text) => label ++ "=" ++ text
  name ++ "\x7b" ++ String.intercalate "," pairs ++ "\x7d"

def add (counters : Counters) (key : String) (count : Nat) : Counters :=
  if count = 0 then counters
  else ⟨counters.totals.insert key (counters.totals.getD key 0 + count)⟩

def addAll (counters : Counters) (counts : List (String × Nat)) : Counters :=
  counts.foldl (fun counters (key, count) => counters.add key count) counters

def ofList (counts : List (String × Nat)) : Counters := empty.addAll counts

/-- By ascending key. -/
def toList (counters : Counters) : List (String × Nat) := counters.totals.toList

end Counters

/-- What a queue publishes. -/
def Queue.counts {α : Type} (queue : Queue α) : List (String × Nat) :=
  let labels := [("carrier", queue.name)]
  [(Counters.key "strata_carrier_dropped" labels, queue.stats.dropped),
    (Counters.key "strata_carrier_rejected" labels, queue.stats.rejected),
    (Counters.key "strata_consumer_errors" labels, queue.failures)]

/-- What is published of rounds. -/
def RoundTotals.counts (totals : RoundTotals) : List (String × Nat) :=
  [(Counters.key "strata_persistence_prepare_requests" [], totals.requests),
    (Counters.key "strata_persistence_round_failures" [], totals.failures)]

end Rollup
