/-!
# Fan-out

A fan-out sends a record to every consumer that is interested in its kind of event. A consumer may be
a fan-out itself; it is interested in what one of its own consumers is interested in.
-/

namespace Rollup

/-- What a record stands for that is sent to consumers. -/
inductive EventKind where
  /-- What came in since the round before. -/
  | increment
  /-- The row as it is now. -/
  | total
  deriving DecidableEq, Repr

def EventKind.name : EventKind → String
  | increment => "increment"
  | total => "total"

/-- Which kinds of events a consumer is interested in. -/
structure Interest where
  increments : Bool
  totals : Bool
  deriving DecidableEq, Repr

/-- Interest in one kind alone, or in every kind. -/
def Interest.only (kind : Option EventKind) : Interest where
  increments := kind.all (· == .increment)
  totals := kind.all (· == .total)

/-- Consumers in the order of their registration. `ι` names a consumer that is no fan-out. -/
inductive Fanout (ι : Type) where
  | single (consumer : ι) (interest : Interest)
  | group (members : List (Fanout ι))

namespace Fanout

variable {ι : Type}

/-- A fan-out without consumers. -/
def empty : Fanout ι := .group []

/-- A consumer that may want one kind of events alone. -/
def leaf (consumer : ι) (only : Option EventKind) : Fanout ι := .single consumer (.only only)

/-- Whether an interest lets a kind through. -/
def takes (interest : Interest) : EventKind → Bool
  | .increment => interest.increments
  | .total => interest.totals

mutual

def interested (kind : EventKind) : Fanout ι → Bool
  | .single _ interest => takes interest kind
  | .group members => anyInterested kind members

def anyInterested (kind : EventKind) : List (Fanout ι) → Bool
  | [] => false
  | member :: rest => interested kind member || anyInterested kind rest

end

mutual

/-- Who gets a record that this consumer accepts, in order. One that is no fan-out takes what it is
handed. -/
def receivers (kind : EventKind) : Fanout ι → List ι
  | .single consumer _ => [consumer]
  | .group members => dispatch kind members

/-- Who gets a record that is sent to these consumers: those that are interested hand it on. -/
def dispatch (kind : EventKind) : List (Fanout ι) → List ι
  | [] => []
  | member :: rest =>
    (if interested kind member then receivers kind member else []) ++ dispatch kind rest

end

mutual

/-- The consumers that are no fan-outs, in reading order. -/
def leaves : Fanout ι → List ι
  | .single consumer _ => [consumer]
  | .group members => allLeaves members

def allLeaves : List (Fanout ι) → List ι
  | [] => []
  | member :: rest => leaves member ++ allLeaves rest

end

/-- The members of a group. -/
def members : Fanout ι → List (Fanout ι)
  | .single consumer interest => [.single consumer interest]
  | .group members => members

/-- Registers one more consumer. -/
def register (fanout : Fanout ι) (consumer : Fanout ι) : Fanout ι :=
  .group (fanout.members ++ [consumer])

/-- Another fan-out with the same consumers. -/
def copy (fanout : Fanout ι) : Fanout ι := .group fanout.members

end Fanout

end Rollup
