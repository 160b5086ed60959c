import Rollup.Chunks
import Rollup.Clock
import Rollup.Fanout
import Rollup.Request
import Rollup.Sessions
import Rollup.Window

/-!
# Persistence

A persister collects records of one model in a window and writes them in rounds. A round drains the
window, finds out for each record whether its row is there, and prepares an insert or an update. The
session cache spares it the loads, and learns what became of the writes. Some persisters sit most
rounds out.

Records are worked on in batches, one load each. A storage error gives up the rest of its batch, but
every drained record is forwarded.
-/

namespace Rollup

structure PersisterSettings where
  /-- How long an identity stays cached without being touched. -/
  sessionTimeout : Duration := .ofSecs 70
  /-- Only every so many rounds are taken part in. -/
  drainEvery : Nat := 1
  /-- The greatest number of records in a batch. -/
  loadBatch : Nat := 2000
  /-- How long storage keeps a row. -/
  ttlDays : Nat := 7
  deriving DecidableEq, Repr

def PersisterSettings.check (settings : PersisterSettings) : Except Fault Unit := do
  Setting.drainEvery.check (0 < settings.drainEvery)
  Setting.loadBatch.check (0 < settings.loadBatch)

structure Persister (M : Type) where
  model : Model
  settings : PersisterSettings := {}
  window : Window M := .empty
  sessions : Sessions M := .empty
  /-- Rounds so far, those sat out included. -/
  rounds : Nat := 0
  /-- Records accepted and not reported yet. -/
  accepted : Nat := 0
  /-- Records reported. -/
  reported : Nat := 0

/-- A write, and what it owes the session cache. -/
abbrev Write (M : Type) := Request (SessionCallback M)

/-- What a persister works with that is not its own. -/
structure Surroundings (σ M : Type) where
  /-- Loads the rows of those identities that have one. -/
  load : Model → List MetricId → Action σ (Except StorageError (List M))
  /-- Prepares a write. -/
  prepare : RequestKind → Model → M → Action σ (Except StorageError Unit)
  /-- Shows a record to the consumers. -/
  dispatch : M → EventKind → Action σ Unit
  /-- Hands a drained record on. -/
  forward : M → Action σ Unit

/-- A round that is being prepared. -/
structure Preparation (σ M : Type) where
  persister : Persister M
  outside : σ
  /-- In the order of their preparation. -/
  writes : List (Write M) := []

namespace Preparation

variable {σ M : Type}

/-- A call on the surroundings. -/
def calling {α : Type} (call : Action σ α) : Action (Preparation σ M) α := fun round =>
  let (result, outside) := call.run.run round.outside
  (result, { round with outside })

def changeSessions (change : Sessions M → Sessions M) : Action (Preparation σ M) Unit :=
  modify fun round =>
    { round with persister := { round.persister with sessions := change round.persister.sessions } }

def push (write : Write M) : Action (Preparation σ M) Unit :=
  modify fun round => { round with writes := round.writes ++ [write] }

variable [Record M] (env : Surroundings σ M) (now : Int)

/-! ## Loading -/

/-- Whether the row of an identity has to be loaded. A cached record whose row retention has deleted
is forgotten. Only rows that can be written again and outlive their bucket are asked for that. -/
def isMissing (id : MetricId) : Action (Preparation σ M) Bool := do
  let persister := (← get).persister
  match persister.sessions.get? id with
  | none => return true
  | some cached =>
    if persister.model.timeRelativeId || !persister.model.supportUpdate then return false
    let bucket := (Record.id cached).bucket
    let expired ← liftM (Retention.isExpired bucket now persister.settings.ttlDays)
    if expired then changeSessions (·.remove id)
    return expired

/-- Loads what is not cached. -/
def loadMissing (batch : List M) : Action (Preparation σ M) (Except StorageError Unit) := do
  let missing ← (batch.map Record.id).filterM (isMissing now)
  if missing.isEmpty then return .ok ()
  match ← calling (env.load (← get).persister.model missing) with
  | .error error => return .error error
  | .ok loaded =>
    changeSessions (loaded.foldl (·.put · now))
    return .ok ()

/-! ## Preparing -/

/-- Prepares the write of a whole record, and shows the record. -/
def prepareWrite (kind : RequestKind) (whole : M) :
    Action (Preparation σ M) (Except StorageError Unit) := do
  let model := (← get).persister.model
  match ← calling (env.prepare kind model whole) with
  | .error error => return .error error
  | .ok () =>
    push {
      kind, model, id := Record.id whole, fields := Record.toFields whole
      callback := some ⟨kind, whole, now⟩ }
    calling (env.dispatch whole .total)
    return .ok ()

/-- Prepares the write for a drained record, if there is one to be made. -/
def prepareRecord (drained : M) : Action (Preparation σ M) (Except StorageError Bool) := do
  let persister := (← get).persister
  match persister.sessions.get? (Record.id drained) with
  | none =>
    let whole ← liftM (Record.calculate drained)
    return (← prepareWrite env now .insert whole).map fun () => true
  | some cached =>
    let (combined, merged) := Record.combine cached drained
    if !persister.model.supportUpdate || !combined then return .ok false
    let whole ← liftM (Record.calculate merged)
    match ← prepareWrite env now .update whole with
    | .error error => return .error error
    | .ok () =>
      changeSessions (·.put whole now)
      return .ok true

/-- Prepares the writes of a batch. Once the batch has `failed`, its records are only forwarded. -/
def prepareRecords : (failed : Bool) → List M → Action (Preparation σ M) Unit
  | _, [] => pure ()
  | true, drained :: rest => do
    calling (env.forward drained)
    prepareRecords true rest
  | false, drained :: rest => do
    let failed ← match ← prepareRecord env now drained with
      | .ok true => do
        calling (env.dispatch drained .increment)
        pure false
      | .ok false => pure false
      | .error _ => pure true
    calling (env.forward drained)
    prepareRecords failed rest

/-- Loads and prepares a batch. -/
def prepareBatch (batch : List M) : Action (Preparation σ M) Unit := do
  match ← loadMissing env now batch with
  | .ok () => prepareRecords env now false batch
  | .error _ => prepareRecords env now true batch

end Preparation

namespace Persister

variable {σ M : Type}

/-- Takes in a record. -/
def write [Record M] (persister : Persister M) (record : M) : Persister M :=
  { persister with window := persister.window.write record }

/-- One more record was accepted. -/
def countAccepted (persister : Persister M) : Persister M :=
  { persister with accepted := persister.accepted + 1 }

/-- Records not drained yet. -/
def pending (persister : Persister M) : Nat := persister.window.pending

/-- Learns what became of a write. -/
def settle [Record M] (persister : Persister M) (callback : SessionCallback M) (verdict : Verdict) :
    Persister M :=
  { persister with sessions := persister.sessions.settle callback verdict }

/-- Rejects writes one after another, and tells what has become of each. -/
def rejectAll {m : Type → Type} [Monad m] (tell : SessionCallback M → Verdict → m PUnit)
    (writes : List (Write M)) : m PUnit :=
  (writes.filterMap Request.reject).forM fun (callback, verdict) => tell callback verdict

/-- Gives writes up. -/
def abandon [Record M] (persister : Persister M) (writes : List (Write M)) : Persister M :=
  let settling : StateM (Persister M) PUnit := rejectAll (fun callback verdict =>
    modify (·.settle callback verdict)) writes
  (settling.run persister).2

def endDrain (persister : Persister M) : Persister M :=
  { persister with window := persister.window.endDrain }

/-- Whether the next round is taken part in. -/
def isDue (persister : Persister M) : Bool := persister.rounds % persister.settings.drainEvery == 0

/-- Prepares the writes of a round. A round that breaks off gives up its writes and its records. -/
def build [Record M] (env : Surroundings σ M) (now : Int) :
    Action (Persister M × σ) (List (Write M)) := do
  let (persister, outside) ← get
  let next := { persister with rounds := persister.rounds + 1 }
  set (next, outside)
  if !persister.isDue then return []
  let (drained, window) := (← liftM next.window.beginDrain).take
  let batches := chunks persister.settings.loadBatch drained
  let start : Preparation σ M := { persister := { next with window }, outside }
  match (batches.forM (Preparation.prepareBatch env now)).run.run start with
  | (.ok (), round) =>
    set (round.persister.endDrain, round.outside)
    return round.writes
  | (.error fault, round) =>
    set ((round.persister.abandon round.writes).endDrain, round.outside)
    throw fault

/-- Ends a round: forgets the sessions that were not touched for a while, and reports. -/
def endRound (persister : Persister M) (now : Int) : Persister M :=
  { persister with
    sessions := persister.sessions.evict now persister.settings.sessionTimeout
    accepted := 0
    reported := persister.reported + persister.accepted }

end Persister

end Rollup
