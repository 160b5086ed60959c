import Rollup.Queue.Consumer

/-!
# Pools

A pool of threads drains the queues that are attached to it. Each channel of each queue belongs to one
thread; the channels are dealt out in turn over all queues. Threads are taken one after another here,
and a pass lets each of them drain what it owns.
-/

namespace Rollup

structure PoolSettings where
  name : String := "strata-consumer"
  threads : Nat := 1
  batchSize : Nat := 1000
  consumeCycle : Duration := .ofMillis 20
  shutdownTimeout : Duration := .ofSecs 30
  deriving DecidableEq, Repr

/-- The name of who runs a consumer. -/
def PoolSettings.threadName (settings : PoolSettings) : Runner → String
  | .thread index => settings.name ++ "-" ++ toString index
  | .caller => "caller"

/-- Whether threads can be named after the pool. The name of a thread has no NUL in it. -/
def PoolSettings.canNameThreads (settings : PoolSettings) : Bool :=
  !(settings.name.toList.contains '\x00')

def PoolSettings.check (settings : PoolSettings) : Except Fault Unit := do
  Setting.name.check (settings.name ≠ "")
  Setting.poolThreads.check (0 < settings.threads)
  Setting.batchSize.check (0 < settings.batchSize)
  Setting.consumeCycle.check (0 < settings.consumeCycle.nanos)
  Setting.shutdownTimeout.check (0 < settings.shutdownTimeout.nanos)

inductive PoolPhase where
  | idle
  | running
  /-- It was stopped, or its start broke off. -/
  | gone
  deriving DecidableEq, Repr

/-- What a pool needs to know of a queue and its consumer, whatever the items are. -/
structure Attachment (σ : Type) where
  channels : Nat
  bind : (owners : List Nat) → Action σ Unit
  drain : Runner → (channel : Nat) → (batchSize : Nat) → StateM σ Nat
  idle : StateM σ Unit
  close : StateM σ Unit
  exit : StateM σ Unit

/-- Attaches a queue with its consumer. -/
def Line.attachment {σ α : Type} (line : Line σ α) (channels : Nat) : Attachment σ where
  channels
  bind owners := do
    let s ← get
    set (line.queue.set s (← liftM ((line.queue.get s).bind owners)))
  drain := line.drain
  idle := line.consumer.idle
  close := line.queue.modify Queue.close
  exit := line.consumer.exit

/-- Attaches to a state what is attached to a part of it. -/
def Attachment.within {σ τ : Type} (part : Part σ τ) (attachment : Attachment τ) : Attachment σ where
  channels := attachment.channels
  bind owners := part.act (attachment.bind owners)
  drain runner channel batchSize := part.run (attachment.drain runner channel batchSize)
  idle := part.run attachment.idle
  close := part.run attachment.close
  exit := part.run attachment.exit

namespace Pool

/-! ## Dealing out the channels -/

/-- How far the channels of a pool are dealt out. -/
structure Deal where
  /-- The number of channels that are dealt. -/
  next : Nat := 0
  /-- The channels of each thread, each as attachment and channel. -/
  owned : List (List (Nat × Nat))
  deriving DecidableEq, Repr

/-- Deals a channel to the thread whose turn it is, and answers with that thread. -/
def dealChannel (threads attachment channel : Nat) : StateM Deal Nat := do
  let deal ← get
  let thread := deal.next % threads
  set { next := deal.next + 1, owned := deal.owned.modify thread (· ++ [(attachment, channel)]) : Deal }
  return thread

/-- Deals the channels of an attachment out, and answers with their threads. -/
def dealAttachment (threads attachment count : Nat) : StateM Deal (List Nat) :=
  (List.range count).mapM (dealChannel threads attachment)

/-- Deals the channels of all attachments out, one after another. Answers with the threads of the
channels of each attachment. -/
def deal (threads : Nat) (channels : List Nat) : List (List Nat) × Deal :=
  let dealing := channels.zipIdx.mapM fun (count, attachment) =>
    dealAttachment threads attachment count
  dealing.run { owned := List.replicate threads [] }

/-- The channels of a thread. -/
def owned (threads : Nat) (channels : List Nat) (thread : Nat) : List (Nat × Nat) :=
  (deal threads channels).2.owned.getD thread []

/-- The threads of the channels of an attachment. -/
def ownersOf (threads : Nat) (channels : List Nat) (attachment : Nat) : List Nat :=
  (deal threads channels).1.getD attachment []

/-! ## Running -/

variable {σ : Type}

/-- Binds every queue. -/
def bind (settings : PoolSettings) (attachments : List (Attachment σ)) : Action σ Unit := do
  let channels := attachments.map (·.channels)
  attachments.zipIdx.forM fun (attachment, index) =>
    attachment.bind (ownersOf settings.threads channels index)

/-- Starts a pool. A queue that cannot be bound breaks the start off, and those before it stay bound.
A name that no thread can have breaks it off when all are bound: the pool shuts down before any of its
threads has run, and what is queued stays where it is. -/
def start (settings : PoolSettings) (attachments : List (Attachment σ)) : Action σ Unit := do
  liftM (checkRoom settings.threads)
  bind settings attachments
  if !settings.canNameThreads then
    attachments.forM fun attachment => liftM attachment.close
    attachments.forM fun attachment => liftM attachment.exit
    throw (.badSetting .name)

/-- Lets a thread drain some of its channels. -/
def drainSlots (settings : PoolSettings) (attachments : List (Attachment σ)) (thread : Nat) :
    List (Nat × Nat) → StateM σ Nat
  | [] => return 0
  | (index, channel) :: rest => do
    let drained ← match attachments[index]? with
      | some attachment => attachment.drain (.thread thread) channel settings.batchSize
      | none => pure 0
    return drained + (← drainSlots settings attachments thread rest)

/-- Lets some threads, one after another, drain what they own. -/
def passThreads (settings : PoolSettings) (attachments : List (Attachment σ)) :
    List Nat → StateM σ Nat
  | [] => return 0
  | thread :: rest => do
    let channels := attachments.map (·.channels)
    let drained ← drainSlots settings attachments thread (owned settings.threads channels thread)
    return drained + (← passThreads settings attachments rest)

/-- Lets each thread drain what it owns. -/
def pass (settings : PoolSettings) (attachments : List (Attachment σ)) : StateM σ Nat :=
  passThreads settings attachments (List.range settings.threads)

/-- Passes until one drains nothing, at most `count`. -/
def passes (settings : PoolSettings) (attachments : List (Attachment σ)) :
    (count : Nat) → StateM σ Unit
  | 0 => pure ()
  | count + 1 => do
    if (← pass settings attachments) ≠ 0 then passes settings attachments count

/-- Passes until all is drained. A queue may feed those it was attached with, and an item goes through
each at most once. -/
def settle (settings : PoolSettings) (attachments : List (Attachment σ)) : StateM σ Unit :=
  passes settings attachments (attachments.length + 1)

/-- Tells the consumers of a thread that there is nothing to do, each once. -/
def idleThread (attachments : List (Attachment σ)) (slots : List (Nat × Nat)) : StateM σ Unit :=
  attachments.zipIdx.forM fun (attachment, index) =>
    if slots.any (·.1 == index) then attachment.idle else pure ()

/-- Lets every thread find its channels empty. -/
def idle (settings : PoolSettings) (attachments : List (Attachment σ)) : StateM σ Unit := do
  let channels := attachments.map (·.channels)
  (List.range settings.threads).forM fun thread =>
    idleThread attachments (owned settings.threads channels thread)

/-- Lets a running pool come to rest: all is drained, and the consumers know of it. -/
def rest (settings : PoolSettings) (attachments : List (Attachment σ)) : StateM σ Unit := do
  settle settings attachments
  idle settings attachments
  settle settings attachments

/-- Shuts a pool down: closes the queues, drains what is left, and lets the consumers go. -/
def stop (settings : PoolSettings) (attachments : List (Attachment σ)) : StateM σ Unit := do
  attachments.forM (·.close)
  settle settings attachments
  attachments.forM (·.exit)

/-- Goes on with the pass of a thread that was held up at a slot, behind that slot. -/
def resume (settings : PoolSettings) (attachments : List (Attachment σ)) (thread : Nat)
    (slot : Nat × Nat) : StateM σ Unit := do
  let channels := attachments.map (·.channels)
  let behind := (owned settings.threads channels thread).dropWhile (· ≠ slot) |>.drop 1
  let _ ← drainSlots settings attachments thread behind
  settle settings attachments

/-! ## Producing -/

/-- Offers an item. While the producer waits for room, a running pool drains the channel. -/
def produce {α : Type} (settings : PoolSettings) (phase : PoolPhase) (line : Line σ α) (item : α) :
    StateM σ (Except (Refused α) Unit) := do
  let queue := line.queue.get (← get)
  if phase = .running ∧ queue.waitsFor item then
    let channel := queue.target item
    let _ ← line.drain (.thread (queue.owner channel)) channel settings.batchSize
  line.produce item

end Pool

/-! ## Systems with a pool -/

/-- A state with a pool and what is attached to it. -/
class Pooled (σ : Type) where
  settings : σ → PoolSettings
  attachments : σ → List (Attachment σ)
  phase : Part σ PoolPhase

namespace Pooled

variable {σ : Type} [Pooled σ]

/-- Lets the pool come to rest, if it runs. -/
def rest : StateM σ Unit := do
  let s ← get
  if phase.get s = .running then Pool.rest (settings s) (attachments s)

/-- Starts the pool. -/
def start : Action σ Unit := do
  let s ← get
  set (phase.set s .gone)
  Pool.start (settings s) (attachments s)
  modify (phase.set · .running)

/-- Stops the pool. -/
def stop : StateM σ Unit := do
  let s ← get
  Pool.stop (settings s) (attachments s)
  phase.modify fun _ => .gone

end Pooled

end Rollup
