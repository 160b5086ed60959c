import Rollup.Buffer

/-!
# Windows

A window has two buffers. Records are written into the active one. A drain swaps the two and gives
access to the buffer that was active; while it is open, records go to the other. Ending the drain
clears the drained buffer.
-/

namespace Rollup

structure Window (M : Type) where
  /-- Takes the writes. -/
  active : Buffer M := .empty
  /-- Belongs to the drain, if one is open. -/
  inactive : Buffer M := .empty
  draining : Bool := false

namespace Window

variable {M : Type}

def empty : Window M := {}

def write [Record M] (window : Window M) (record : M) : Window M :=
  { window with active := window.active.accept record }

/-- The number of records written since the last drain began. -/
def pending (window : Window M) : Nat := window.active.size

/-- Opens a drain. Only one can be open. -/
def beginDrain (window : Window M) : Except Fault (Window M) :=
  if window.draining then .error .overlappingDrain
  else .ok { active := window.inactive, inactive := window.active, draining := true }

/-- The drained records, left where they are. -/
def drained (window : Window M) : List M := window.inactive.toList

/-- Moves the drained records out. -/
def take (window : Window M) : List M × Window M :=
  let (records, rest) := window.inactive.drain
  (records, { window with inactive := rest })

/-- Ends the drain, and clears what was not taken. -/
def endDrain (window : Window M) : Window M :=
  { window with inactive := .empty, draining := false }

/-- A drain that only looks at the records. It ends also when the visitor breaks off. -/
def drainVisiting (visit : M → Except Fault Unit) : Action (Window M) Nat := do
  let window ← get
  let opened ← liftM window.beginDrain
  set opened.endDrain
  liftM (opened.drained.forM visit)
  return opened.drained.length

end Window

end Rollup
