import Rollup.Proofs.QueueAccounts

/-!
# Reports of failed batches

A thread takes batches out of a channel until one is not full. Whatever its consumer does with them, it
comes to an end with the channel empty: each item is in one batch, in the order of the channel, and each
failed batch is shown to the consumer once more, with what it left of it.
-/

namespace Rollup

variable {σ τ α : Type}

/-! ## The loop of a thread -/

namespace Line

/-- A loop over a channel that goes on for as long as its batches are full. It ends with the number of
items. -/
inductive Loops (line : Line σ α) (runner : Runner) (channel batchSize : Nat) :
    σ → Nat → σ → Prop where
  | empty {s popped : σ} :
      (line.queue.modifyGet (·.popBatch channel batchSize)).run s = ([], popped) →
      Loops line runner channel batchSize s 0 popped
  | short {s popped : σ} {batch : List α} :
      (line.queue.modifyGet (·.popBatch channel batchSize)).run s = (batch, popped) →
      batch ≠ [] → batch.length < batchSize →
      Loops line runner channel batchSize s batch.length ((line.finish runner batch).run popped).2
  | full {s popped last : σ} {batch : List α} {count : Nat} :
      (line.queue.modifyGet (·.popBatch channel batchSize)).run s = (batch, popped) →
      batch ≠ [] → batchSize ≤ batch.length →
      Loops line runner channel batchSize ((line.finish runner batch).run popped).2 count last →
      Loops line runner channel batchSize s (batch.length + count) last

theorem Loops.unique {line : Line σ α} {runner : Runner} {channel batchSize : Nat} {s last last' : σ}
    {count count' : Nat} (h : line.Loops runner channel batchSize s count last)
    (hother : line.Loops runner channel batchSize s count' last') :
    count = count' ∧ last = last' := by
  induction h generalizing count' with
  | empty hpop =>
    cases hother with
    | empty hpop' =>
      cases hpop.symm.trans hpop'
      exact ⟨rfl, rfl⟩
    | short hpop' hsome | full hpop' hsome =>
      cases hpop.symm.trans hpop'
      exact absurd rfl hsome
  | short hpop hsome hshort =>
    cases hother with
    | empty hpop' =>
      cases hpop.symm.trans hpop'
      exact absurd rfl hsome
    | short hpop' =>
      cases hpop.symm.trans hpop'
      exact ⟨rfl, rfl⟩
    | full hpop' _ hfull =>
      cases hpop.symm.trans hpop'
      omega
  | full hpop hsome hfull _ ih =>
    cases hother with
    | empty hpop' =>
      cases hpop.symm.trans hpop'
      exact absurd rfl hsome
    | short hpop' _ hshort =>
      cases hpop.symm.trans hpop'
      omega
    | full hpop' _ _ hrest =>
      cases hpop.symm.trans hpop'
      obtain ⟨rfl, rfl⟩ := ih hrest
      exact ⟨rfl, rfl⟩

end Line

namespace ServedQueue

theorem drainBatches_loops (consumer : Consumer τ α) (runner : Runner) {channel batchSize count : Nat}
    {served : ServedQueue τ α} (henough : (served.queue.channel channel).length < count * batchSize) :
    let last := ((line consumer).drainBatches runner channel batchSize count).run served
    (line consumer).Loops runner channel batchSize served last.1 last.2 := by
  induction count generalizing served with
  | zero => omega
  | succ count ih =>
    have hpop := pop_run consumer channel batchSize served
    have hdrains := Drains.batch consumer runner served channel batchSize
    have hown := congrArg List.length hdrains.own
    have hfinish : ((line consumer).finish runner (served.queue.popBatch channel batchSize).1).run
        { served with queue := (served.queue.popBatch channel batchSize).2 } = ((), _) := rfl
    dsimp only
    rw [Line.drainBatches, run_bind_of_eq hpop]
    split
    · next hempty =>
      rw [List.isEmpty_iff.mp hempty] at hpop
      exact .empty hpop
    · next hsome =>
      have hsome : (served.queue.popBatch channel batchSize).1 ≠ [] := fun h => hsome (by rw [h]; rfl)
      rw [run_bind_of_eq hfinish]
      split
      · next hshort => exact .short hpop hsome hshort
      · next hfull =>
        rw [List.length_append] at hown
        rw [Nat.succ_mul] at henough
        exact .full hpop hsome (Nat.le_of_not_lt hfull) (ih (by omega))

theorem drain_loops (consumer : Consumer τ α) (runner : Runner) (channel : Nat) {batchSize : Nat}
    (hbatch : 0 < batchSize) (served : ServedQueue τ α) :
    let last := ((line consumer).drain runner channel batchSize).run served
    (line consumer).Loops runner channel batchSize served last.1 last.2 := by
  refine drainBatches_loops consumer runner ?_
  rw [Nat.mul_comm]
  exact Nat.lt_mul_div_succ _ hbatch

end ServedQueue

/-! ## Consumers whose calls are noted -/

/-- A call on a consumer, with its answer. -/
inductive BatchCall (α : Type) where
  | consumed (batch left : List α) (error : Option ConsumeError)
  | told (left : List α) (error : ConsumeError)
  deriving DecidableEq, Repr

/-- What a consumer works on, and the calls that were made on it. -/
structure ConsumerLog (τ α : Type) where
  others : τ
  calls : List (BatchCall α) := []

/-- What became of a batch. -/
structure Attempt (α : Type) where
  batch : List α
  left : List α
  error : Option ConsumeError

/-- The calls that a batch takes: it is shown again only if it failed. -/
def Attempt.calls (attempt : Attempt α) : List (BatchCall α) :=
  .consumed attempt.batch attempt.left attempt.error :: (attempt.error.map (.told attempt.left)).toList

namespace ConsumerLog

def othersPart : Part (ConsumerLog τ α) τ := ⟨others, fun log others => { log with others }⟩

def add (log : ConsumerLog τ α) (call : BatchCall α) : ConsumerLog τ α :=
  { log with calls := log.calls ++ [call] }

/-- The same consumer, with its calls noted. -/
def consumer (consumer : Consumer τ α) : Consumer (ConsumerLog τ α) α where
  consume runner batch := do
    let (left, error) ← othersPart.run (consumer.consume runner batch)
    modify (·.add (.consumed batch left error))
    return (left, error)
  onError runner left error := do
    modify (·.add (.told left error))
    othersPart.run (consumer.onError runner left error)
  idle := othersPart.run consumer.idle
  exit := othersPart.run consumer.exit

theorem consume_run {inner : Consumer τ α} {runner : Runner} {batch left : List α}
    {error : Option ConsumeError} {log : ConsumerLog τ α} {others : τ}
    (h : (inner.consume runner batch).run log.others = ((left, error), others)) :
    ((consumer inner).consume runner batch).run log =
      ((left, error), { others, calls := log.calls ++ [.consumed batch left error] }) := by
  have hinner := Part.run_of_eq othersPart log h
  show (othersPart.run (inner.consume runner batch) >>= _).run log = _
  rw [run_bind_of_eq hinner]
  rfl

theorem finish_calls (inner : Consumer τ α) (runner : Runner) (batch : List α)
    (served : ServedQueue (ConsumerLog τ α) α) :
    ∃ attempt : Attempt α, attempt.batch = batch ∧
      let worked := (((ServedQueue.line (consumer inner)).finish runner batch).run served).2
      worked.others.calls = served.others.calls ++ attempt.calls ∧
      worked.queue.failures = served.queue.failures + attempt.error.toList.length := by
  rcases hconsume : (inner.consume runner batch).run served.others.others with ⟨⟨left, error⟩, others⟩
  have hlogged : ((ServedQueue.line (consumer inner)).consumer.consume runner batch).run served =
      ((left, error), { served with
        others := { others, calls := served.others.calls ++ [.consumed batch left error] }
        handed := served.handed ++ batch }) :=
    Part.run_of_eq ServedQueue.othersPart { served with handed := served.handed ++ batch }
      (consume_run hconsume)
  refine ⟨⟨batch, left, error⟩, rfl, ?_⟩
  rw [Line.finish, Line.runBatch, bind_assoc, run_bind_of_eq hlogged]
  cases error with
  | none => exact ⟨rfl, rfl⟩
  | some error => exact ⟨List.append_assoc _ [_] [_], rfl⟩

end ConsumerLog

/-! ## What a drain does -/

/-- Some batches were taken out of a channel and worked through, one after the other. -/
structure Worked (channel batchSize : Nat) (attempts : List (Attempt α))
    (before after : ServedQueue (ConsumerLog τ α) α) : Prop where
  drains : ServedQueue.Drains channel (attempts.flatMap (·.batch)) before after
  sizes : ∀ attempt ∈ attempts, 0 < attempt.batch.length ∧ attempt.batch.length ≤ batchSize
  calls : after.others.calls = before.others.calls ++ attempts.flatMap Attempt.calls
  failures : after.queue.failures = before.queue.failures + (attempts.filterMap (·.error)).length

namespace Worked

variable {channel batchSize : Nat} {attempts more : List (Attempt α)}
  {before middle after served last : ServedQueue (ConsumerLog τ α) α} {consumer : Consumer τ α}
  {runner : Runner}

theorem refl (served : ServedQueue (ConsumerLog τ α) α) (channel batchSize : Nat) :
    Worked channel batchSize [] served served :=
  ⟨.refl served channel, by simp, (List.append_nil _).symm, rfl⟩

theorem trans (h : Worked channel batchSize attempts before middle)
    (h' : Worked channel batchSize more middle after) :
    Worked channel batchSize (attempts ++ more) before after where
  drains := List.flatMap_append ▸ h.drains.trans h'.drains
  sizes attempt hattempt := (List.mem_append.mp hattempt).elim (h.sizes attempt) (h'.sizes attempt)
  calls := by rw [h'.calls, h.calls, List.flatMap_append, List.append_assoc]
  failures := by rw [h'.failures, h.failures, List.filterMap_append, List.length_append, Nat.add_assoc]

theorem batch (consumer : Consumer τ α) (runner : Runner) (served : ServedQueue (ConsumerLog τ α) α)
    (hsome : (served.queue.popBatch channel batchSize).1 ≠ []) :
    ∃ attempt : Attempt α, attempt.batch = (served.queue.popBatch channel batchSize).1 ∧
      Worked channel batchSize [attempt] served
        (((ServedQueue.line (ConsumerLog.consumer consumer)).finish runner
          (served.queue.popBatch channel batchSize).1).run
            { served with queue := (served.queue.popBatch channel batchSize).2 }).2 := by
  obtain ⟨attempt, hbatch, hcalls, hfailures⟩ := ConsumerLog.finish_calls consumer runner
    (served.queue.popBatch channel batchSize).1
    { served with queue := (served.queue.popBatch channel batchSize).2 }
  refine ⟨attempt, hbatch, ?_, ?_, ?_, ?_⟩
  · rw [List.flatMap_singleton, hbatch]
    exact .batch (ConsumerLog.consumer consumer) runner served channel batchSize
  · rw [List.forall_mem_singleton, hbatch]
    exact ⟨List.length_pos_iff.mpr hsome, List.length_take_le _ _⟩
  · rw [List.flatMap_singleton]
    exact hcalls
  · rw [hfailures]
    cases herror : attempt.error <;> simp [herror, Queue.popBatch, Queue.setChannel]

theorem of_loops (hbatch : 0 < batchSize) {count : Nat}
    (h : (ServedQueue.line (ConsumerLog.consumer consumer)).Loops runner channel batchSize served count
      last) :
    ∃ attempts : List (Attempt α), Worked channel batchSize attempts served last ∧
      count = (attempts.flatMap (·.batch)).length ∧ last.queue.channel channel = [] := by
  induction h with
  | @empty served popped hpop =>
    rw [ServedQueue.pop_run] at hpop
    obtain ⟨hnone, rfl⟩ := Prod.mk.inj hpop
    rw [Queue.popBatch_of_isEmpty hnone]
    refine ⟨[], .refl served channel batchSize, rfl, ?_⟩
    exact (List.take_eq_nil_iff.mp hnone).resolve_left (Nat.ne_of_gt hbatch)
  | @short served popped batch hpop hsome hshort =>
    rw [ServedQueue.pop_run] at hpop
    obtain ⟨rfl, rfl⟩ := Prod.mk.inj hpop
    obtain ⟨attempt, hattempt, hworked⟩ := Worked.batch consumer runner served hsome
    refine ⟨[attempt], hworked, by rw [List.flatMap_singleton, hattempt], ?_⟩
    -- A batch that is not full is all that was there.
    have hown := congrArg List.length hworked.drains.own
    have htaken : (served.queue.popBatch channel batchSize).1.length =
        min batchSize (served.queue.channel channel).length := List.length_take
    rw [List.flatMap_singleton, hattempt, List.length_append] at hown
    exact List.eq_nil_of_length_eq_zero (by omega)
  | @full served popped last batch count hpop hsome hfull _ ih =>
    rw [ServedQueue.pop_run] at hpop
    obtain ⟨rfl, rfl⟩ := Prod.mk.inj hpop
    obtain ⟨attempt, hattempt, hworked⟩ := Worked.batch consumer runner served hsome
    obtain ⟨more, hmore, hcount, hempty⟩ := ih
    refine ⟨[attempt] ++ more, hworked.trans hmore, ?_, hempty⟩
    rw [List.flatMap_append, List.flatMap_singleton, List.length_append, hattempt, hcount]

end Worked

/-- A channel was drained, and this became of its batches. Each item was in one of them, and each failed
batch was shown to the consumer once more. -/
structure DrainedIn (attempts : List (Attempt α)) (channel batchSize count : Nat)
    (before after : ServedQueue (ConsumerLog τ α) α) : Prop where
  empty : after.queue.channel channel = []
  others : ∀ other, other ≠ channel → after.queue.channel other = before.queue.channel other
  content : attempts.flatMap (·.batch) = before.queue.channel channel
  sizes : ∀ attempt ∈ attempts, 0 < attempt.batch.length ∧ attempt.batch.length ≤ batchSize
  calls : after.others.calls = before.others.calls ++ attempts.flatMap Attempt.calls
  failures : after.queue.failures = before.queue.failures + (attempts.filterMap (·.error)).length
  counted : count = (before.queue.channel channel).length
  pending : after.queue.stats.pending + count = before.queue.stats.pending
  consumed : after.queue.stats.consumed = before.queue.stats.consumed + count

namespace ConsumerLog

/-- However a queue came to be filled, and whatever a consumer makes of its batches: the loop over a
channel comes to an end, with nothing left in it. -/
theorem failed_batches_do_not_stop_a_drain {settings : QueueSettings α} {queue : Queue α}
    (hqueue : Queue.build settings = .ok queue) (inner : Consumer τ α) (others : τ)
    (steps : List (QueueStep α)) (runner : Runner) (channel : Nat) {batchSize : Nat}
    (hbatch : 0 < batchSize) :
    let line := ServedQueue.line (consumer inner)
    let served := (QueueRun.after (consumer inner) steps (.start queue { others })).served
    let last := (line.drain runner channel batchSize).run served
    (∀ count after, line.Loops runner channel batchSize served count after ↔ last = (count, after)) ∧
      ∃ attempts, DrainedIn attempts channel batchSize last.1 served last.2 := by
  intro line served last
  have hloops : line.Loops runner channel batchSize served last.1 last.2 :=
    ServedQueue.drain_loops (consumer inner) runner channel hbatch served
  obtain ⟨attempts, hworked, hcount, hempty⟩ := Worked.of_loops hbatch hloops
  have hcontent : served.queue.channel channel = attempts.flatMap (·.batch) := by
    rw [hworked.drains.own, hempty, List.append_nil]
  have hpending : served.queue.stats.pending = served.queue.length :=
    ((QueueRun.Balanced.start hqueue _).after (consumer inner) steps).pending
  have hle : last.1 ≤ served.queue.length := by
    rw [hcount, Queue.length, ← Queue.waiting, ← hworked.drains.waiting.length_eq, List.length_append]
    exact Nat.le_add_right _ _
  refine ⟨fun count after => ⟨fun h => ?_, fun h => ?_⟩, attempts, ?_⟩
  · obtain ⟨hcount, hafter⟩ := hloops.unique h
    exact Prod.ext hcount hafter
  · rwa [h] at hloops
  exact {
    empty := hempty
    others := hworked.drains.others
    content := hcontent.symm
    sizes := hworked.sizes
    calls := hworked.calls
    failures := hworked.failures
    counted := hcount.trans (congrArg List.length hcontent.symm)
    pending := by
      rw [hworked.drains.pending, ← hcount, hpending, Nat.sub_add_cancel hle]
    consumed := by rw [hworked.drains.consumed, ← hcount] }

/-- Of three batches of two the first breaks off with one item left, the second goes through, and the
third fails as a whole. -/
theorem failed_batches_do_not_stop_a_drain_of_six :
    let inner : Consumer Nat Nat := {
      consume := fun _ batch => do
        let before ← modifyGet fun count => (count, count + 1)
        return match before with
          | 0 => (batch.drop 1, some (.brokeOff "boom"))
          | 1 => ([], none)
          | _ => (batch, some (.failed "no room")) }
    let steps : List (QueueStep Nat) := (List.range 6).map (.produce · .timesOut)
    let settings : QueueSettings Nat := { channelSize := 6 }
    ∃ queue, Queue.build settings = .ok queue ∧
      let served := (QueueRun.after (consumer inner) steps (.start queue { others := 0 })).served
      let last := ((ServedQueue.line (consumer inner)).drain (.thread 0) 0 2).run served
      (∃ attempts, DrainedIn attempts 0 2 last.1 served last.2) ∧
      last.2.others.calls = [.consumed [0, 1] [1] (some (.brokeOff "boom")),
        .told [1] (.brokeOff "boom"), .consumed [2, 3] [] none,
        .consumed [4, 5] [4, 5] (some (.failed "no room")), .told [4, 5] (.failed "no room")] := by
  intro inner steps settings
  have hqueue : Queue.build settings = .ok _ := rfl
  exact ⟨_, hqueue,
    (failed_batches_do_not_stop_a_drain hqueue inner 0 steps (.thread 0) 0 (by decide)).2,
    by decide +kernel⟩

end ConsumerLog

end Rollup
