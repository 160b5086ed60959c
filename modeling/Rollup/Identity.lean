import Rollup.TimeBucket

/-!
# Identities

What a record is about: an entity, given by its dimensions, and a bucket of time. The text of an
identity is the key of its stored row, and the model's text is the name of the table.
-/

namespace Rollup

/-! ## Entities -/

structure Entity where
  dimensions : List String
  deriving DecidableEq, Repr

namespace Entity

def single (dimension : String) : Entity := ⟨[dimension]⟩

/-- A point and a backslash inside a dimension are written with a backslash before them. -/
def escape : List Char → List Char
  | [] => []
  | c :: rest =>
    if c = '.' ∨ c = '\\' then '\\' :: c :: escape rest else c :: escape rest

/-- The dimensions with points between them. -/
def renderChars : List String → List Char
  | [] => []
  | [dimension] => escape dimension.toList
  | dimension :: rest => escape dimension.toList ++ '.' :: renderChars rest

def render (entity : Entity) : String := String.ofList (renderChars entity.dimensions)

instance : Ord Entity := ⟨compareOn dimensions⟩

instance : Std.TransOrd Entity := inferInstanceAs (Std.TransCmp (compareOn dimensions))

instance : Std.LawfulEqOrd Entity where
  eq_of_compare {a b} h := by
    cases a; cases b
    exact congrArg mk (Std.LawfulEqOrd.eq_of_compare h)

end Entity

/-! ## Metric identities -/

structure MetricId where
  entity : Entity
  bucket : TimeBucket
  deriving DecidableEq

namespace MetricId

/-- The same entity in the bucket of a coarser level around this one. -/
def coarsen (id : MetricId) (level : Level) : Option MetricId :=
  (id.bucket.coarsen level).map (⟨id.entity, ·⟩)

/-- The key of the stored row. -/
def storageId (id : MetricId) : String := id.bucket.render ++ "_" ++ id.entity.render

/-- By entity, then by bucket. -/
instance : Ord MetricId := ⟨compareLex (compareOn entity) (compareOn bucket)⟩

instance : Std.TransOrd MetricId :=
  inferInstanceAs (Std.TransCmp (compareLex (compareOn entity) (compareOn bucket)))

instance : Std.LawfulEqOrd MetricId where
  eq_of_compare {a b} h := by
    obtain ⟨he, hb⟩ := compareLex_eq_eq.1 h
    cases a; cases b
    exact congr (congrArg mk (Std.LawfulEqOrd.eq_of_compare he)) (Std.LawfulEqOrd.eq_of_compare hb)

end MetricId

/-! ## Models -/

/-- How the records of one metric are stored at one level. -/
structure Model where
  name : String
  level : Level
  /-- A stored row may be overwritten. -/
  supportUpdate : Bool := true
  /-- The identity already says when a row falls out of retention. -/
  timeRelativeId : Bool := true
  deriving DecidableEq, Repr

namespace Model

/-- The same metric at another level. -/
def atLevel (model : Model) (level : Level) : Model := { model with level }

/-- The name of the table. -/
def storageName (model : Model) : String := model.name ++ "_" ++ model.level.name

end Model

/-- Where a row stands: the table and the identity. -/
structure RowKey where
  table : String
  id : MetricId
  deriving DecidableEq

namespace RowKey

instance : Ord RowKey := ⟨compareLex (compareOn table) (compareOn id)⟩

instance : Std.TransOrd RowKey :=
  inferInstanceAs (Std.TransCmp (compareLex (compareOn table) (compareOn id)))

instance : Std.LawfulEqOrd RowKey where
  eq_of_compare {a b} h := by
    obtain ⟨ht, hi⟩ := compareLex_eq_eq.1 h
    cases a; cases b
    exact congr (congrArg mk (Std.LawfulEqOrd.eq_of_compare ht)) (Std.LawfulEqOrd.eq_of_compare hi)

end RowKey

end Rollup
