import Rollup.Queue.Basic
import Rollup.Settings.Reader

/-!
# Configuration

The settings of a pipeline. Every one has a default, and a settings text names those that differ. A
text that does not read, or names a setting that there is not, is refused as a whole.
-/

namespace Rollup

/-! ## Settings -/

/-- An overflow rule as it is named in a settings text. -/
inductive OverflowChoice where
  | block
  | dropOldest
  | runOnCaller
  deriving DecidableEq, Repr

def OverflowChoice.name : OverflowChoice → String
  | block => "block"
  | dropOldest => "drop_oldest"
  | runOnCaller => "run_on_caller"

def OverflowChoice.ofName? (name : String) : Option OverflowChoice :=
  [block, dropOldest, runOnCaller].find? (·.name == name)

/-- The queues in front of the first aggregation. -/
structure QueueConfig where
  channelSize : Nat := 2000
  channels : Nat := 1
  overflow : OverflowChoice := .block
  blockTimeoutMs : Nat := 1000
  deriving DecidableEq, Repr

/-- The numbers by their keys. -/
def QueueConfig.numbers (config : QueueConfig) : List (String × Nat) := [
  ("channel_size", config.channelSize), ("channels", config.channels),
  ("block_timeout_ms", config.blockTimeoutMs)]

def QueueConfig.overflowRule (config : QueueConfig) : Overflow :=
  match config.overflow with
  | .block => .block (.ofMillis config.blockTimeoutMs)
  | .dropOldest => .dropOldest
  | .runOnCaller => .runOnCaller

/-- The pool that drains the queues. -/
structure PoolConfig where
  threads : Nat := 1
  batchSize : Nat := 1000
  consumeCycleMs : Nat := 20
  deriving DecidableEq, Repr

/-- The numbers by their keys. -/
def PoolConfig.numbers (config : PoolConfig) : List (String × Nat) := [
  ("threads", config.threads), ("batch_size", config.batchSize),
  ("consume_cycle_ms", config.consumeCycleMs)]

structure Config where
  persistentPeriodMs : Nat := 25000
  storageSessionTimeoutMs : Nat := 70000
  metricsDataTtlDays : Nat := 7
  maxBatchGetSize : Nat := 2000
  downsamplingPersistentMod : Nat := 4
  downsamplingSessionFactor : Nat := 4
  sessionOffsetStepMs : Nat := 200
  l1FlushPeriodMs : Nat := 500
  prepareThreads : Nat := 2
  carrier : QueueConfig := {}
  pool : PoolConfig := {}
  deriving DecidableEq, Repr

/-- The numbers by their keys, but for those of the groups. -/
def Config.numbers (config : Config) : List (String × Nat) := [
  ("persistent_period_ms", config.persistentPeriodMs),
  ("storage_session_timeout_ms", config.storageSessionTimeoutMs),
  ("metrics_data_ttl_days", config.metricsDataTtlDays),
  ("max_batch_get_size", config.maxBatchGetSize),
  ("downsampling_persistent_mod", config.downsamplingPersistentMod),
  ("downsampling_session_factor", config.downsamplingSessionFactor),
  ("session_offset_step_ms", config.sessionOffsetStepMs),
  ("l1_flush_period_ms", config.l1FlushPeriodMs),
  ("prepare_threads", config.prepareThreads)]

inductive ConfigError where
  /-- The text is no settings text. -/
  | parse
  /-- A setting has a value that no pipeline can run with. -/
  | invalid (key : String)
  deriving DecidableEq, Repr

/-- What is said of an error. Nothing is said of a text that does not read. -/
def ConfigError.message : ConfigError → Option String
  | parse => none
  | invalid key => some ("invalid `" ++ key ++ "`: must be positive")

namespace Config

/-! ## Reading -/

open Settings

/-- Reads a number that is at most `greatest` and not negative. -/
def number? (greatest : Nat) : Value → Option Nat
  | .integer n => if 0 ≤ n ∧ n ≤ greatest then some n.toNat else none
  | _ => none

def word64? : Value → Option Nat := number? (UInt64.size - 1)

def word32? : Value → Option Nat := number? (UInt32.size - 1)

/-- An overflow rule is named by a string, or by a table with the name as its one key and nothing in
it. -/
def overflow? : Value → Option OverflowChoice
  | .text name => OverflowChoice.ofName? name
  | .table _ [(name, .table _ [])] => OverflowChoice.ofName? name
  | .table _ [(name, .array [])] => OverflowChoice.ofName? name
  | _ => none

/-- A group of settings: what each key sets, in the order in which a plain list gives the values. -/
abbrev Group (α : Type) := List (String × (α → Value → Option α))

/-- Reads the settings of a group on top of their defaults. An unknown key refuses the whole. -/
def Group.read {α : Type} (group : Group α) (defaults : α) : Value → Option α
  | .table _ entries => entries.foldlM (fun held (key, value) => do
      (← group.lookup key) held value) defaults
  | .array items => (group.zip items).foldlM (fun held (setting, value) =>
      setting.2 held value) defaults
  | _ => none

def queueGroup : Group QueueConfig := [
  ("channel_size", fun c v => return { c with channelSize := ← word64? v }),
  ("channels", fun c v => return { c with channels := ← word64? v }),
  ("overflow", fun c v => return { c with overflow := ← overflow? v }),
  ("block_timeout_ms", fun c v => return { c with blockTimeoutMs := ← word64? v })]

def poolGroup : Group PoolConfig := [
  ("threads", fun c v => return { c with threads := ← word64? v }),
  ("batch_size", fun c v => return { c with batchSize := ← word64? v }),
  ("consume_cycle_ms", fun c v => return { c with consumeCycleMs := ← word64? v })]

def group : Group Config := [
  ("persistent_period_ms", fun c v => return { c with persistentPeriodMs := ← word64? v }),
  ("storage_session_timeout_ms", fun c v => return { c with storageSessionTimeoutMs := ← word64? v }),
  ("metrics_data_ttl_days", fun c v => return { c with metricsDataTtlDays := ← word32? v }),
  ("max_batch_get_size", fun c v => return { c with maxBatchGetSize := ← word64? v }),
  ("downsampling_persistent_mod",
    fun c v => return { c with downsamplingPersistentMod := ← word64? v }),
  ("downsampling_session_factor",
    fun c v => return { c with downsamplingSessionFactor := ← word32? v }),
  ("session_offset_step_ms", fun c v => return { c with sessionOffsetStepMs := ← word64? v }),
  ("l1_flush_period_ms", fun c v => return { c with l1FlushPeriodMs := ← word64? v }),
  ("prepare_threads", fun c v => return { c with prepareThreads := ← word64? v }),
  ("carrier", fun c v => return { c with carrier := ← queueGroup.read {} v }),
  ("pool", fun c v => return { c with pool := ← poolGroup.read {} v })]

/-! ## Checking -/

/-- The settings that have to be positive, in the order in which they are looked at. -/
def positives (config : Config) : List (String × Nat) := [
  ("persistent_period_ms", config.persistentPeriodMs),
  ("max_batch_get_size", config.maxBatchGetSize),
  ("downsampling_persistent_mod", config.downsamplingPersistentMod),
  ("downsampling_session_factor", config.downsamplingSessionFactor),
  ("prepare_threads", config.prepareThreads),
  ("carrier.channel_size", config.carrier.channelSize),
  ("carrier.channels", config.carrier.channels),
  ("pool.threads", config.pool.threads),
  ("pool.batch_size", config.pool.batchSize)]

/-- Refuses a configuration for the first setting that is zero and may not be. -/
def validate (config : Config) : Except ConfigError Unit :=
  match config.positives.find? (·.2 == 0) with
  | some (key, _) => .error (.invalid key)
  | none => .ok ()

/-- Reads and checks a settings text. -/
def ofText (text : String) : Except ConfigError Config := do
  match (read? text).bind fun entries => group.read {} (.table .header entries) with
  | some config =>
    config.validate
    return config
  | none => throw .parse

/-! ## Lengths of time -/

def persistentPeriod (config : Config) : Duration := .ofMillis config.persistentPeriodMs

/-- How long sessions of the finest level last. -/
def sessionTimeout (config : Config) : Duration := .ofMillis config.storageSessionTimeoutMs

/-- How long sessions of the coarser stations last. Each station's last a step longer than those of the
station before it, so that they do not all end at once. -/
def downsamplingSessionTimeout (config : Config) (index : Nat) : Except Fault Duration := do
  let base ← config.sessionTimeout.times config.downsamplingSessionFactor
  let offset ← (Duration.ofMillis config.sessionOffsetStepMs).times index
  base.plus offset

def l1FlushPeriod (config : Config) : Duration := .ofMillis config.l1FlushPeriodMs

end Config

end Rollup
