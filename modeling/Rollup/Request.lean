import Rollup.Record.Basic

/-!
# Requests to storage

A prepared write waits for its outcome, and whoever asked for it is told once: it was executed, or it
was not. A request that is given up counts as not executed.
-/

namespace Rollup

inductive RequestKind where
  /-- Creates a row. -/
  | insert
  /-- Overwrites a row. -/
  | update
  deriving DecidableEq, Repr

def RequestKind.name : RequestKind → String
  | insert => "insert"
  | update => "update"

inductive Verdict where
  | executed
  | failed
  deriving DecidableEq, Repr

/-- A write of one row. `κ` is what is told of the outcome. -/
structure Request (κ : Type) where
  kind : RequestKind
  model : Model
  id : MetricId
  fields : Fields
  callback : Option κ := none

namespace Request

variable {κ : Type}

/-- Attaches what is told of the outcome. It takes the place of what was attached before. -/
def withCallback (request : Request κ) (callback : κ) : Request κ :=
  { request with callback := some callback }

/-- The same request, with something else told. -/
def map {κ' : Type} (f : κ → κ') (request : Request κ) : Request κ' :=
  { request with callback := request.callback.map f }

/-- What is told when the request comes to its end. -/
def conclude (request : Request κ) (verdict : Verdict) : Option (κ × Verdict) :=
  request.callback.map (·, verdict)

def confirm (request : Request κ) : Option (κ × Verdict) := request.conclude .executed

def reject (request : Request κ) : Option (κ × Verdict) := request.conclude .failed

/-- Gives the request up. -/
def drop (request : Request κ) : Option (κ × Verdict) := request.conclude .failed

/-- The row it writes. -/
def key (request : Request κ) : RowKey := ⟨request.model.storageName, request.id⟩

end Request

/-! ## Storage errors -/

inductive StorageError where
  /-- A row does not read back as a record. -/
  | schema (cause : FieldError)
  /-- The backend refused or failed a call. -/
  | backend (reason : String)
  /-- The backend could not be reached. -/
  | unavailable (reason : String)
  deriving DecidableEq, Repr

namespace StorageError

def message : StorageError → String
  | schema cause => "stored row does not match its schema: " ++ cause.message
  | backend reason => "storage backend error: " ++ reason
  | unavailable reason => "storage unavailable: " ++ reason

/-- The text of the error underneath, if there is one. -/
def cause? : StorageError → Option String
  | schema cause => some cause.message
  | backend reason => some reason
  | unavailable _ => none

end StorageError

end Rollup
