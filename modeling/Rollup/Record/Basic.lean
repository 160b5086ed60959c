import Rollup.Fields
import Rollup.Identity

/-!
# Records

A record is what was observed of one identity so far. Two records of one identity combine to one, and
the members that are derived from the rest are recomputed only on demand. A record is stored as a row
of columns and read back from it.
-/

namespace Rollup

class Record (M : Type) where
  id : M → MetricId
  /-- Takes the second record into the first. The flag says whether it was taken in; if it was not,
  the first record stays as it is. -/
  combine : M → M → Bool × M
  /-- Recomputes the derived members. -/
  calculate : M → Except Fault M
  /-- A copy for the enclosing bucket of a level that is not finer, its derived members forgotten. -/
  coarsen : M → Level → Option M
  toFields : M → Fields
  /-- Reads a row back. The row may lack a column, and recomputing may break off. -/
  ofFields : MetricId → Fields → Except Fault (Except FieldError M)

namespace Record

/-- The record held after another one came in. -/
def absorb {M : Type} [Record M] (held incoming : M) : M := (combine held incoming).2

end Record

end Rollup
