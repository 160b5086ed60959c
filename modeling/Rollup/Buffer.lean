import Rollup.Record.Basic

/-!
# Buffers

A map from identity to the record collected for it. A record for an identity that is already there is
combined into the held one.
-/

namespace Rollup

structure Buffer (M : Type) where
  records : Std.ExtTreeMap MetricId M := {}

namespace Buffer

variable {M : Type}

def empty : Buffer M := {}

def get? (buffer : Buffer M) (id : MetricId) : Option M := buffer.records[id]?

/-- The held records, one per identity. -/
def toList (buffer : Buffer M) : List M := buffer.records.toList.map (·.2)

def size (buffer : Buffer M) : Nat := buffer.records.size

def isEmpty (buffer : Buffer M) : Bool := buffer.records.isEmpty

/-- Takes in a record. A record that the held one does not combine with leaves it as it was. -/
def accept [Record M] (buffer : Buffer M) (record : M) : Buffer M :=
  let id := Record.id record
  match buffer.get? id with
  | some held => ⟨buffer.records.insert id (Record.absorb held record)⟩
  | none => ⟨buffer.records.insert id record⟩

/-- Takes in records one by one. -/
def acceptAll [Record M] (buffer : Buffer M) (records : List M) : Buffer M :=
  records.foldl accept buffer

/-- Takes every record out. -/
def drain (buffer : Buffer M) : List M × Buffer M := (buffer.toList, empty)

end Buffer

end Rollup
