/-!
# Faults

A fault breaks a call off half way. Unlike an error value it is never an answer the caller planned
for: a setting no component can work with, a drain that overlaps another, a number that leaves its
range. A call that breaks off keeps what it had done to the state until then.
-/

namespace Rollup

/-- The settings that are checked when a component is built. -/
inductive Setting where
  | channels
  | channelSize
  | poolThreads
  | batchSize
  | consumeCycle
  | shutdownTimeout
  | drainEvery
  | loadBatch
  | prepareThreads
  | name
  deriving DecidableEq, Repr

/-- What is said of a setting that is zero. A name is refused without a word. -/
def Setting.complaint : Setting → Option String
  | channels => some "a carrier needs at least one channel"
  | channelSize => some "channel_size must not be zero"
  | poolThreads => some "a consumer pool needs at least one thread"
  | batchSize => some "batch_size must not be zero"
  | consumeCycle => some "consume_cycle must not be zero"
  | shutdownTimeout => some "shutdown_timeout must not be zero"
  | drainEvery => some "persistent_mod must be positive"
  | loadBatch => some "max_batch_get_size must be positive"
  | prepareThreads => some "prepare_threads must be positive"
  | name => none

inductive Fault where
  /-- A component was built with a setting it cannot work with. -/
  | badSetting (setting : Setting)
  /-- A window was asked for a second drain before the first had ended. -/
  | overlappingDrain
  /-- A stage's output was used, and its graph is not built. -/
  | openOutput (stage : String)
  /-- A queue was bound to a second pool. -/
  | alreadyAttached (queue : String)
  /-- A delivery runs in a circle. -/
  | endlessDelivery
  /-- A date, a length of time, a count or a quotient left its range. -/
  | outOfRange
  /-- More was to be held than fits into any memory. -/
  | outOfMemory
  /-- Somebody outside the library broke off, with this message. -/
  | foreign (message : String)
  deriving DecidableEq, Repr

/-- The text that comes with a fault, if any does. -/
def Fault.message : Fault → Option String
  | badSetting setting => setting.complaint
  | overlappingDrain => some "concurrent drain of the same aggregation window"
  | openOutput stage => some ("output of stage `" ++ stage ++ "` used before its graph was built")
  | alreadyAttached queue => some ("carrier `" ++ queue ++ "` is already attached to a consumer pool")
  | endlessDelivery => none
  | outOfRange => none
  | outOfMemory => none
  | foreign message => some message

/-- A call on a state that may break off. The state it left is kept either way. -/
abbrev Action (σ α : Type) := ExceptT Fault (StateM σ) α

/-- Refuses a zero. -/
def Setting.check (setting : Setting) (ok : Bool) : Except Fault Unit :=
  if ok then pure () else throw (.badSetting setting)

/-- The number of bytes that a program can address. -/
def addressable : Nat := 140737488355328

/-- Refuses to hold more items than fit into any memory, were each of them one byte. -/
def checkRoom (items : Nat) : Except Fault Unit :=
  if items ≤ addressable then pure () else throw .outOfMemory

end Rollup
