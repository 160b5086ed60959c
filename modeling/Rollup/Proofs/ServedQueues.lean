import Rollup.Proofs.QueueFlow

/-!
# Queues with a consumer

A queue with a consumer at its end that fails or breaks off as it likes, and never touches the queue.
It is written down which items the consumer was handed.
-/

namespace Rollup

variable {τ α : Type}

/-- A queue, what its consumer works on, and the items that the consumer was handed. -/
structure ServedQueue (τ α : Type) where
  queue : Queue α
  others : τ
  handed : List α := []

namespace ServedQueue

def queuePart : Part (ServedQueue τ α) (Queue α) := ⟨queue, fun served queue => { served with queue }⟩

def othersPart : Part (ServedQueue τ α) τ := ⟨others, fun served others => { served with others }⟩

/-- A consumer of which it is written down what it is handed. -/
def logged (consumer : Consumer τ α) : Consumer (ServedQueue τ α) α where
  consume runner batch := do
    modify fun served => { served with handed := served.handed ++ batch }
    othersPart.run (consumer.consume runner batch)
  onError runner left error := othersPart.run (consumer.onError runner left error)
  idle := othersPart.run consumer.idle
  exit := othersPart.run consumer.exit

def line (consumer : Consumer τ α) : Line (ServedQueue τ α) α := ⟨queuePart, logged consumer⟩

/-- A consumer that takes in one item after the other, and all of them. -/
def folding (take : τ → α → τ) : Consumer τ α where
  consume _ batch := do
    modify fun others => batch.foldl take others
    return ([], none)

theorem folding_respects (take : τ → α → τ) (start : τ) :
    (line (folding take)).Respects fun served => served.others = served.handed.foldl take start where
  queue _ _ h := h
  consume runner batch served h := by
    show batch.foldl take served.others = (served.handed ++ batch).foldl take start
    rw [h, List.foldl_append]
  onError _ _ _ := .pure _

variable {consumer : Consumer τ α} {served : ServedQueue τ α}

/-! ## Batches -/

theorem runBatch_run (consumer : Consumer τ α) (runner : Runner) (batch : List α)
    (served : ServedQueue τ α) : ∃ failures others, ((line consumer).runBatch runner batch).run served =
      ((), { queue := { served.queue with failures }, others, handed := served.handed ++ batch }) := by
  rcases hconsume : (consumer.consume runner batch).run served.others with ⟨⟨left, error⟩, others⟩
  have hlogged : ((line consumer).consumer.consume runner batch).run served =
      ((left, error), { served with others, handed := served.handed ++ batch }) :=
    Part.run_of_eq othersPart { served with handed := served.handed ++ batch } hconsume
  rw [Line.runBatch, run_bind_of_eq hlogged]
  cases error with
  | none => exact ⟨served.queue.failures, others, rfl⟩
  | some error => exact ⟨served.queue.failures + 1, _, rfl⟩

theorem finish_run (consumer : Consumer τ α) (runner : Runner) (batch : List α)
    (served : ServedQueue τ α) : ∃ failures others, ((line consumer).finish runner batch).run served =
      ((), { queue := { served.queue.finishBatch batch.length with failures }, others,
             handed := served.handed ++ batch }) := by
  obtain ⟨failures, others, hrun⟩ := runBatch_run consumer runner batch served
  refine ⟨failures, others, ?_⟩
  rw [Line.finish, run_bind_of_eq hrun]
  rfl

theorem pop_run (consumer : Consumer τ α) (channel batchSize : Nat) (served : ServedQueue τ α) :
    ((line consumer).queue.modifyGet (·.popBatch channel batchSize)).run served =
      ((served.queue.popBatch channel batchSize).1,
        { served with queue := (served.queue.popBatch channel batchSize).2 }) := rfl

/-- The oldest items of a channel go through the consumer, in their order. Nothing else is moved. -/
structure Drains (channel : Nat) (taken : List α) (before after : ServedQueue τ α) : Prop where
  rules : Queue.SameRules before.queue after.queue ∧ after.queue.overflow = before.queue.overflow
  own : before.queue.channel channel = taken ++ after.queue.channel channel
  others : ∀ other, other ≠ channel → after.queue.channel other = before.queue.channel other
  waiting : (taken ++ after.queue.waiting).Perm before.queue.waiting
  produced : after.queue.stats.produced = before.queue.stats.produced
  consumed : after.queue.stats.consumed = before.queue.stats.consumed + taken.length
  dropped : after.queue.stats.dropped = before.queue.stats.dropped
  pending : after.queue.stats.pending = before.queue.stats.pending - taken.length
  handed : after.handed = before.handed ++ taken

namespace Drains

variable {channel : Nat} {taken more : List α} {before middle after : ServedQueue τ α}

theorem refl (served : ServedQueue τ α) (channel : Nat) : Drains channel [] served served where
  rules := ⟨.refl _, rfl⟩
  own := rfl
  others _ _ := rfl
  waiting := .refl _
  produced := rfl
  consumed := rfl
  dropped := rfl
  pending := rfl
  handed := (List.append_nil _).symm

theorem trans (h : Drains channel taken before middle) (h' : Drains channel more middle after) :
    Drains channel (taken ++ more) before after where
  rules := ⟨h.rules.1.trans h'.rules.1, h'.rules.2.trans h.rules.2⟩
  own := by rw [h.own, h'.own, List.append_assoc]
  others other hother := (h'.others other hother).trans (h.others other hother)
  waiting := by
    rw [List.append_assoc]
    exact (h'.waiting.append_left taken).trans h.waiting
  produced := h'.produced.trans h.produced
  consumed := by rw [h'.consumed, h.consumed, List.length_append, Nat.add_assoc]
  dropped := h'.dropped.trans h.dropped
  pending := by rw [h'.pending, h.pending, List.length_append, Nat.sub_sub]
  handed := by rw [h'.handed, h.handed, List.append_assoc]

theorem batch (consumer : Consumer τ α) (runner : Runner) (served : ServedQueue τ α)
    (channel limit : Nat) :
    Drains channel (served.queue.popBatch channel limit).1 served
      (((line consumer).finish runner (served.queue.popBatch channel limit).1).run
        { served with queue := (served.queue.popBatch channel limit).2 }).2 := by
  obtain ⟨failures, others, hrun⟩ := finish_run consumer runner
    (served.queue.popBatch channel limit).1
    { served with queue := (served.queue.popBatch channel limit).2 }
  rw [hrun]
  refine ⟨⟨⟨rfl, List.length_set⟩, rfl⟩, ?_, fun other hother => ?_,
    served.queue.popBatch_perm channel limit, rfl, rfl, rfl, rfl, rfl⟩
  · have hleft := served.queue.channel_popBatch channel limit channel
    rw [if_pos rfl] at hleft
    show _ = _ ++ (served.queue.popBatch channel limit).2.channel channel
    rw [hleft]
    exact (List.take_append_drop limit _).symm
  · have hleft := served.queue.channel_popBatch channel limit other
    rwa [if_neg hother] at hleft

theorem drainBatches (consumer : Consumer τ α) (runner : Runner) (channel batchSize batches : Nat)
    (served : ServedQueue τ α) : ∃ taken,
      Drains channel taken served
        (((line consumer).drainBatches runner channel batchSize batches).run served).2 := by
  induction batches generalizing served with
  | zero => exact ⟨[], refl served channel⟩
  | succ batches ih =>
    have hpop := pop_run consumer channel batchSize served
    have hbatch := batch consumer runner served channel batchSize
    have hfinish : ((line consumer).finish runner (served.queue.popBatch channel batchSize).1).run
        { served with queue := (served.queue.popBatch channel batchSize).2 } = ((), _) := rfl
    rw [Line.drainBatches, run_bind_of_eq hpop]
    split
    · next hempty =>
      have hsame := Queue.popBatch_of_isEmpty (List.isEmpty_iff.mp hempty)
      refine ⟨[], ?_⟩
      rw [hsame]
      exact refl served channel
    · rw [run_bind_of_eq hfinish]
      split
      · exact ⟨_, hbatch⟩
      · obtain ⟨more, hmore⟩ := ih _
        exact ⟨_, hbatch.trans hmore⟩

theorem drain (consumer : Consumer τ α) (runner : Runner) (channel batchSize : Nat)
    (served : ServedQueue τ α) : ∃ taken,
      Drains channel taken served (((line consumer).drain runner channel batchSize).run served).2 :=
  drainBatches consumer runner channel batchSize _ served

end Drains

/-- Some items are handed to the consumer without having been queued. Nothing is moved. -/
structure Bypassed (given : List α) (before after : ServedQueue τ α) : Prop where
  channels : after.queue.channels = before.queue.channels
  capacity : after.queue.capacity = before.queue.capacity
  overflow : after.queue.overflow = before.queue.overflow
  produced : after.queue.stats.produced = before.queue.stats.produced + given.length
  consumed : after.queue.stats.consumed = before.queue.stats.consumed + given.length
  dropped : after.queue.stats.dropped = before.queue.stats.dropped
  pending : after.queue.stats.pending = before.queue.stats.pending
  handed : after.handed = before.handed ++ given

theorem Bypassed.channel {given : List α} {before after : ServedQueue τ α}
    (h : Bypassed given before after) (channel : Nat) :
    after.queue.channel channel = before.queue.channel channel := by
  rw [Queue.channel, h.channels, Queue.channel]

theorem Bypassed.waiting {given : List α} {before after : ServedQueue τ α}
    (h : Bypassed given before after) : after.queue.waiting = before.queue.waiting :=
  congrArg List.flatten h.channels

theorem bind_run (consumer : Consumer τ α) (served : ServedQueue τ α) (channels : Nat)
    (owners : List Nat) :
    ∃ owners', ((((line consumer).attachment channels).bind owners).run.run served).2 =
      { served with queue := { served.queue with owners := owners' } } := by
  refine (Action.ends_state fun after : ServedQueue τ α => ∃ owners', after =
    { served with queue := { served.queue with owners := owners' } }).mp ?_
  rw [Line.attachment, Action.ends_bind, Action.ends_get, Action.ends_bind, Action.ends_liftM]
  refine ⟨fun queue hqueue => ?_, fun _ _ => ⟨served.queue.owners, rfl⟩⟩
  rw [Action.ends_set]
  unfold Queue.bind at hqueue
  split at hqueue
  · cases hqueue
  · cases hqueue
    exact ⟨some owners, rfl⟩

theorem bypassed_bind (served : ServedQueue τ α) (owners : List Nat) : Bypassed [] served
    ((((line consumer).attachment served.queue.channels.length).bind owners).run.run served).2 := by
  obtain ⟨_, hrun⟩ := bind_run consumer served served.queue.channels.length owners
  rw [hrun]
  exact ⟨rfl, rfl, rfl, rfl, rfl, rfl, rfl, (List.append_nil _).symm⟩

/-! ## Offers -/

section Offers

variable {item : α} {wait : Wait} {queue : Queue α}

theorem offer_run {answer : Offer α} (h : served.queue.offer item wait = (answer, queue)) :
    ((line consumer).queue.modifyGet (·.offer item wait)).run served =
      (answer, { served with queue }) := by
  show ((served.queue.offer item wait).1, { served with queue := (served.queue.offer item wait).2 }) = _
  rw [h]

theorem produce_queued (h : served.queue.offer item wait = (.queued, queue)) :
    ((line consumer).produce item wait).run served = (.ok (), { served with queue }) := by
  rw [Line.produce, run_bind_of_eq (offer_run h)]
  rfl

theorem produce_evicting {oldest : α} (h : served.queue.offer item wait = (.evicting oldest, queue)) :
    ((line consumer).produce item wait).run served = (.ok (), { served with queue }) := by
  rw [Line.produce, run_bind_of_eq (offer_run h)]
  rfl

theorem produce_refused {refused : Refused α}
    (h : served.queue.offer item wait = (.refused refused, queue)) :
    ((line consumer).produce item wait).run served = (.error refused, { served with queue }) := by
  rw [Line.produce, run_bind_of_eq (offer_run h)]
  rfl

theorem produce_onCaller (consumer : Consumer τ α)
    (h : served.queue.offer item wait = (.onCaller item, queue)) :
    ∃ failures others, ((line consumer).produce item wait).run served =
      (.ok (), { queue := { queue.finishOnCaller with failures }, others,
                 handed := served.handed ++ [item] }) := by
  obtain ⟨failures, others, hbatch⟩ := runBatch_run consumer .caller [item] { served with queue }
  refine ⟨failures, others, ?_⟩
  rw [Line.produce, run_bind_of_eq (offer_run h)]
  show (((line consumer).runBatch .caller [item] >>= fun _ => _).run { served with queue }) = _
  rw [run_bind_of_eq hbatch]
  rfl

end Offers

end ServedQueue

end Rollup
