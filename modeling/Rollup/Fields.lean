import Rollup.Double
import Rollup.Histogram

/-!
# Columns

A stored row is a map from column names to typed values. Readers ask for a column by name and type,
and the answer to a missing or differently typed column is an error that names it.
-/

namespace Rollup

inductive FieldValue where
  | long (value : Int64)
  | double (value : Double)
  | text (value : String)
  | buckets (pairs : List (UInt64 × UInt64))
  deriving DecidableEq, Repr

namespace FieldValue

/-- The name of the type. -/
def kind : FieldValue → String
  | long _ => "long"
  | double _ => "double"
  | text _ => "text"
  | buckets _ => "buckets"

/-- Equality in which doubles are compared as numbers. -/
def same : FieldValue → FieldValue → Bool
  | double x, double y => x.sameNumber y
  | x, y => x == y

end FieldValue

inductive FieldError where
  | missing (field : String)
  | mismatch (field expected found : String)
  deriving DecidableEq, Repr

def FieldError.message : FieldError → String
  | missing field => "missing field `" ++ field ++ "`"
  | mismatch field expected found =>
    "field `" ++ field ++ "` is " ++ found ++ ", expected " ++ expected

structure Fields where
  columns : Std.ExtTreeMap String FieldValue := {}
  deriving DecidableEq

namespace Fields

def empty : Fields := {}

/-- Sets a column. -/
def insert (fields : Fields) (name : String) (value : FieldValue) : Fields :=
  ⟨fields.columns.insert name value⟩

def get? (fields : Fields) (name : String) : Option FieldValue := fields.columns[name]?

/-- The columns by ascending name. -/
def toList (fields : Fields) : List (String × FieldValue) := fields.columns.toList

def ofList (columns : List (String × FieldValue)) : Fields :=
  columns.foldl (fun fields column => fields.insert column.1 column.2) empty

def size (fields : Fields) : Nat := fields.columns.size

/-- The same columns with the same values. -/
def same (a b : Fields) : Bool :=
  let xs := a.toList
  let ys := b.toList
  xs.length == ys.length &&
    (xs.zip ys).all fun (x, y) => x.1 == y.1 && x.2.same y.2

/-- A column that has to be there. -/
def required (fields : Fields) (name : String) : Except FieldError FieldValue :=
  match fields.get? name with
  | some value => .ok value
  | none => .error (.missing name)

def long (fields : Fields) (name : String) : Except FieldError Int64 := do
  match ← fields.required name with
  | .long value => pure value
  | other => throw (.mismatch name "long" other.kind)

/-- A whole number is widened. -/
def double (fields : Fields) (name : String) : Except FieldError Double := do
  match ← fields.required name with
  | .double value => pure value
  | .long value => pure (.ofInt64 value)
  | other => throw (.mismatch name "double" other.kind)

def text (fields : Fields) (name : String) : Except FieldError String := do
  match ← fields.required name with
  | .text value => pure value
  | other => throw (.mismatch name "text" other.kind)

/-- Pairs with one bucket are added up. -/
def buckets (fields : Fields) (name : String) : Except FieldError Histogram := do
  match ← fields.required name with
  | .buckets pairs => pure (.ofPairs pairs)
  | other => throw (.mismatch name "buckets" other.kind)

end Fields

end Rollup
