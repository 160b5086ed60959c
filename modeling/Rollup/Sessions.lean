import Rollup.Duration
import Rollup.Request

/-!
# Sessions

The session cache holds, for identities written lately, the record that storage is thought to hold and
the time of the round that touched it last. Entries not touched for a while are evicted.

A write that was prepared under a stamp settles against the entry when its outcome is known. An
executed insert puts the record, a failed update removes the entry, and neither touches an entry with
a later stamp.
-/

namespace Rollup

structure Session (M : Type) where
  record : M
  /-- The time of the round that touched it last. -/
  lastUpdate : Int
  deriving DecidableEq

structure Sessions (M : Type) where
  entries : Std.ExtTreeMap MetricId (Session M) := {}

namespace Sessions

variable {M : Type}

def empty : Sessions M := {}

def session? (cache : Sessions M) (id : MetricId) : Option (Session M) := cache.entries[id]?

def get? (cache : Sessions M) (id : MetricId) : Option M := (cache.session? id).map (·.record)

def lastUpdate? (cache : Sessions M) (id : MetricId) : Option Int :=
  (cache.session? id).map (·.lastUpdate)

def contains (cache : Sessions M) (id : MetricId) : Bool := cache.entries.contains id

def size (cache : Sessions M) : Nat := cache.entries.size

def isEmpty (cache : Sessions M) : Bool := cache.entries.isEmpty

/-- Caches a record as of `now`, unless a later entry is there. -/
def put [Record M] (cache : Sessions M) (record : M) (now : Int) : Sessions M :=
  let id := Record.id record
  match cache.session? id with
  | some held =>
    if held.lastUpdate ≤ now then ⟨cache.entries.insert id ⟨record, now⟩⟩ else cache
  | none => ⟨cache.entries.insert id ⟨record, now⟩⟩

/-- Removes an entry, whatever its stamp. -/
def remove (cache : Sessions M) (id : MetricId) : Sessions M := ⟨cache.entries.erase id⟩

/-- Whether the entry exists and was not touched after `stamp`. -/
def isNotNewer (cache : Sessions M) (id : MetricId) (stamp : Int) : Bool :=
  match cache.session? id with
  | some held => held.lastUpdate ≤ stamp
  | none => false

/-- Removes an entry that was not touched after `stamp`. -/
def removeIfNotNewer (cache : Sessions M) (id : MetricId) (stamp : Int) : Sessions M :=
  if cache.isNotNewer id stamp then cache.remove id else cache

/-- Whether an entry last touched at `lastUpdate` is kept at `now`. -/
def isFresh (now lastUpdate : Int) (timeout : Duration) : Bool :=
  Timestamp.minus now lastUpdate ≤ Timestamp.ofDuration timeout

/-- Keeps the entries touched within `timeout` of `now`. -/
def evict (cache : Sessions M) (now : Int) (timeout : Duration) : Sessions M :=
  ⟨cache.entries.filter fun _ held => isFresh now held.lastUpdate timeout⟩

/-- How many entries an eviction removes. -/
def evicted (cache : Sessions M) (now : Int) (timeout : Duration) : Nat :=
  cache.size - (cache.evict now timeout).size

end Sessions

/-- What a write owes the session cache: its record, and the stamp of the round that prepared it. -/
structure SessionCallback (M : Type) where
  kind : RequestKind
  record : M
  stamp : Int
  deriving DecidableEq

/-- Settles a write whose outcome is known. -/
def Sessions.settle {M : Type} [Record M] (cache : Sessions M) (callback : SessionCallback M)
    (verdict : Verdict) : Sessions M :=
  match callback.kind, verdict with
  | .insert, .executed => cache.put callback.record callback.stamp
  | .update, .failed => cache.removeIfNotNewer (Record.id callback.record) callback.stamp
  | _, _ => cache

end Rollup
