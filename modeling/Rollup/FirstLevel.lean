import Rollup.Buffer
import Rollup.Duration

/-!
# First aggregation

Raw records are merged in memory, and one merged record per identity is forwarded every flush period.
-/

namespace Rollup

structure FirstLevel (M : Type) where
  model : Model
  /-- In milliseconds. -/
  flushPeriod : Int
  /-- What the wall clock showed at the last flush. -/
  lastFlush : Int
  buffer : Buffer M := .empty
  /-- Records accepted and not reported yet. -/
  accepted : Nat := 0
  /-- Records reported. -/
  reported : Nat := 0

namespace FirstLevel

variable {M : Type}

/-- Merged records are forwarded twice a second. -/
def standardPeriod : Duration := .ofMillis 500

/-- The name under which it queues records. -/
def queueName (model : Model) : String := model.storageName ++ "_l1"

def build (model : Model) (flushPeriod : Duration) (now : Int) : FirstLevel M :=
  { model, flushPeriod := Timestamp.ofDuration flushPeriod, lastFlush := now }

/-- Takes in a batch. -/
def absorb [Record M] (stage : FirstLevel M) (batch : List M) : FirstLevel M :=
  { stage with buffer := stage.buffer.acceptAll batch }

/-- One more record was accepted by the queue. -/
def countAccepted (stage : FirstLevel M) : FirstLevel M :=
  { stage with accepted := stage.accepted + 1 }

/-- Gives out every merged record, and reports. -/
def flush (stage : FirstLevel M) : List M × FirstLevel M :=
  let (records, buffer) := stage.buffer.drain
  (records, { stage with
    buffer, accepted := 0, reported := stage.reported + stage.accepted })

def isDue (stage : FirstLevel M) (now : Int) : Bool :=
  stage.flushPeriod ≤ Timestamp.minus now stage.lastFlush

/-- Gives out every merged record if the flush period has passed. -/
def flushIfDue (stage : FirstLevel M) (now : Int) : List M × FirstLevel M :=
  if stage.isDue now then { stage with lastFlush := now }.flush else ([], stage)

/-- Merged records not given out yet. -/
def pending (stage : FirstLevel M) : Nat := stage.buffer.size

end FirstLevel

end Rollup
