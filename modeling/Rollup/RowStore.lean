import Rollup.Request

/-!
# Row stores

A store of rows in memory, with a primary key: an insert of a row that is there and an update of a row
that is not are refused. It can be told to fail.
-/

namespace Rollup

/-- A write that was executed. -/
structure ExecutedWrite where
  kind : RequestKind
  table : String
  id : MetricId
  fields : Fields

/-- The failures a store was told to have. -/
structure StoreFailures where
  loads : Bool := false
  writes : Bool := false
  prepares : Bool := false
  /-- The table whose loads break off. -/
  brokenTable : Option String := none
  deriving DecidableEq, Repr

structure RowStore where
  rows : Std.ExtTreeMap RowKey Fields := {}
  /-- In the order of execution. -/
  executed : List ExecutedWrite := []
  /-- The number of loads. -/
  loads : Nat := 0
  failures : StoreFailures := {}

namespace RowStore

def row? (store : RowStore) (key : RowKey) : Option Fields := store.rows[key]?

/-- Sets a row, whether or not it is there. -/
def seed (store : RowStore) (key : RowKey) (fields : Fields) : RowStore :=
  { store with rows := store.rows.insert key fields }

/-- Deletes a row, as retention does. -/
def delete (store : RowStore) (key : RowKey) : RowStore :=
  { store with rows := store.rows.erase key }

/-- The writes executed so far, and the store without them. -/
def takeExecuted (store : RowStore) : List ExecutedWrite × RowStore :=
  (store.executed, { store with executed := [] })

/-! ## Loading -/

/-- Reads the rows of those ids that have one. The first row that does not read back fails the whole. -/
def readRows {M : Type} [Record M] (store : RowStore) (table : String) :
    List MetricId → Except Fault (Except StorageError (List M))
  | [] => .ok (.ok [])
  | id :: rest => do
    match store.row? ⟨table, id⟩ with
    | none => readRows store table rest
    | some fields =>
      match ← Record.ofFields (M := M) id fields with
      | .error cause => return .error (.schema cause)
      | .ok record => return (← readRows store table rest).map (record :: ·)

/-- Loads rows. -/
def load {M : Type} [Record M] (table : String) (ids : List MetricId) :
    Action RowStore (Except StorageError (List M)) := do
  let store ← get
  if store.failures.brokenTable = some table then throw (.foreign "scripted panic")
  set { store with loads := store.loads + 1 }
  if store.failures.loads then return .error (.unavailable "injected load failure")
  liftM (store.readRows table ids : Except Fault (Except StorageError (List M)))

/-- Whether a write can be prepared. -/
def prepare (store : RowStore) : Except StorageError Unit :=
  if store.failures.prepares then .error (.backend "injected prepare failure") else .ok ()

/-! ## Writing -/

/-- Whether a write fits what is stored. -/
def fits (store : RowStore) (kind : RequestKind) (key : RowKey) : Bool :=
  match kind with
  | .insert => !store.rows.contains key
  | .update => store.rows.contains key

/-- Executes one write that fits. -/
def write {κ : Type} (store : RowStore) (request : Request κ) : RowStore :=
  { store with
    rows := store.rows.insert request.key request.fields
    executed := store.executed ++
      [⟨request.kind, request.model.storageName, request.id, request.fields⟩] }

/-- Executes the writes that fit and refuses the others. Answers with what is told of the outcomes. -/
def apply {κ : Type} (store : RowStore) : List (Request κ) → List (κ × Verdict) × RowStore
  | [] => ([], store)
  | request :: rest =>
    if store.fits request.kind request.key then
      let (told, last) := (store.write request).apply rest
      (request.confirm.toList ++ told, last)
    else
      let (told, last) := store.apply rest
      (request.reject.toList ++ told, last)

/-- Executes requests, or refuses them all when it was told to fail. -/
def flush {κ : Type} (store : RowStore) (requests : List (Request κ)) :
    Except StorageError Unit × List (κ × Verdict) × RowStore :=
  if store.failures.writes then
    (.error (.unavailable "injected write failure"), requests.flatMap (·.reject.toList), store)
  else
    let (told, store) := store.apply requests
    (.ok (), told, store)

end RowStore

end Rollup
