import Rollup.Proofs.QueueAccounts

/-!
# The order of items with one key

Items with one key share a channel, and a channel hands its items on in the order in which they came.
So the consumer sees them in that order, whatever was evicted or handed back on the way. A producer that
runs the consumer itself does so at once, ahead of what is queued.
-/

namespace Rollup

variable {τ α κ : Type}

/-! ## What is fixed when a queue is built -/

namespace Queue

/-- The same queue but for its items and what is counted of them. -/
def SameSetup (queue queue' : Queue α) : Prop :=
  ∃ channels turn stats failures, queue' = { queue with channels, turn, stats, failures }

theorem SameSetup.refl (queue : Queue α) : SameSetup queue queue := ⟨_, _, _, _, rfl⟩

theorem SameSetup.trans {queue queue' queue'' : Queue α} (h : SameSetup queue queue')
    (h' : SameSetup queue' queue'') : SameSetup queue queue'' := by
  obtain ⟨_, _, _, _, rfl⟩ := h
  obtain ⟨_, _, _, _, rfl⟩ := h'
  exact ⟨_, _, _, _, rfl⟩

theorem channel_of_build {settings : QueueSettings α} {queue : Queue α}
    (h : build settings = .ok queue) (channel : Nat) : queue.channel channel = [] := by
  obtain ⟨_, _, rfl⟩ := build_eq_ok h
  simp only [Queue.channel, List.getD_eq_getElem?_getD, List.getElem?_replicate]
  split <;> rfl

theorem offer_onCaller_iff {queue : Queue α} {item : α} {wait : Wait} :
    (queue.offer item wait).1 = .onCaller item ↔
      queue.overflow = .runOnCaller ∧ queue.closed = false ∧ queue.owners.isSome = true ∧
        queue.isFullFor item = true := by
  unfold offer isFullFor
  split
  · next hclosed => simp [hclosed]
  · next hopen =>
    dsimp only
    split
    · next hroom => simp [hroom]
    · next hfull =>
      split
      · next hrule => split <;> simp [hrule]
      · next hrule => simp [hrule]
      · next hrule => simp [hrule]
      · next hrule =>
        have hfull' := Nat.le_of_not_lt hfull
        split <;> simp_all

theorem channels_of_onCaller {queue : Queue α} (hready : queue.Ready) {item : α} {wait : Wait}
    (h : (queue.offer item wait).1 = .onCaller item) :
    (queue.offer item wait).2.channels = queue.channels := by
  rcases offer_cases hready item wait with ⟨_, hoffer⟩ | ⟨_, _, _, _, hoffer⟩ | ⟨_, hoffer⟩ |
    ⟨_, _, _, hoffer⟩
  · rw [hoffer] at h
    cases h
  · rw [hoffer] at h
    cases h
  · rw [hoffer]
  · rw [hoffer]

end Queue

namespace ServedQueue

variable (consumer : Consumer τ α)

theorem drainBatches_sameSetup (runner : Runner) (channel batchSize batches : Nat)
    (served : ServedQueue τ α) : Queue.SameSetup served.queue
      (((line consumer).drainBatches runner channel batchSize batches).run served).2.queue := by
  induction batches generalizing served with
  | zero => exact .refl _
  | succ batches ih =>
    have hpop : ((line consumer).queue.modifyGet (·.popBatch channel batchSize)).run served =
        ((served.queue.popBatch channel batchSize).1,
          { served with queue := (served.queue.popBatch channel batchSize).2 }) := rfl
    have hpopped : Queue.SameSetup served.queue (served.queue.popBatch channel batchSize).2 :=
      ⟨_, _, _, _, rfl⟩
    rw [Line.drainBatches, run_bind_of_eq hpop]
    split
    · exact hpopped
    · obtain ⟨failures, others, hfinish⟩ := finish_run consumer runner
        (served.queue.popBatch channel batchSize).1
        { served with queue := (served.queue.popBatch channel batchSize).2 }
      rw [run_bind_of_eq hfinish]
      have hfinished : Queue.SameSetup served.queue
          { (served.queue.popBatch channel batchSize).2.finishBatch
              (served.queue.popBatch channel batchSize).1.length with failures } := ⟨_, _, _, _, rfl⟩
      split
      · exact hfinished
      · exact hfinished.trans (ih _)

theorem drain_sameSetup (runner : Runner) (channel batchSize : Nat) (served : ServedQueue τ α) :
    Queue.SameSetup served.queue
      (((line consumer).drain runner channel batchSize).run served).2.queue :=
  drainBatches_sameSetup consumer runner channel batchSize _ served

end ServedQueue

/-! ## Lanes -/

namespace QueueRun

variable (consumer : Consumer τ α) {key : α → κ} {hash : κ → UInt64} {run : QueueRun τ α}

/-- The channel of the items with a key. -/
def lane (hash : κ → UInt64) (channels : Nat) (k : κ) : Nat :=
  (hash k).toNat % max channels 1 % channels

/-- The items of a key are meant for its lane, and leave it in the order in which they came. -/
structure InLanes (key : α → κ) (hash : κ → UInt64) (run : QueueRun τ α) : Prop where
  ready : run.served.queue.Ready
  partitioner : run.served.queue.partitioner = .keyed key hash
  placed : ∀ entry ∈ run.accepted,
    entry.1 = lane hash run.served.queue.channels.length (key entry.2)
  /-- What a producer ran itself was meant for the channel too, and never was in it. -/
  ordered : ∀ channel, (gone run.left channel ++ run.served.queue.channel channel).Sublist
    (QueueRun.meant run.accepted channel)

theorem InLanes.target (h : InLanes key hash run) (item : α) :
    run.served.queue.target item = lane hash run.served.queue.channels.length (key item) := by
  unfold Queue.target
  rw [h.partitioner]
  rfl

theorem InLanes.start {settings : QueueSettings α} {queue : Queue α}
    (h : Queue.build settings = .ok queue) (hkeyed : settings.partitioner = .keyed key hash)
    (others : τ) : InLanes key hash (start queue others) := by
  refine ⟨(Balanced.start h others).ready, ?_, by simp [QueueRun.start], fun channel => ?_⟩
  · obtain ⟨_, _, rfl⟩ := Queue.build_eq_ok h
    exact hkeyed
  · show ([] ++ queue.channel channel).Sublist _
    rw [Queue.channel_of_build h]
    exact List.Sublist.refl _

theorem InLanes.refilled (h : InLanes key hash run) {item : α} {items leaving : List α}
    {stats : QueueStats} (hitems : run.served.queue.channel (run.served.queue.target item) ++ [item] =
      leaving ++ items) : InLanes key hash {
        served := { run.served with queue := run.served.queue.refilled item items stats }
        accepted := run.accepted ++ [(run.served.queue.target item, item)]
        left := run.left ++ leaving.map (⟨run.served.queue.target item, ·, true⟩) } := by
  have hrules := Queue.sameRules_refilled run.served.queue item items stats
  refine ⟨hrules.ready h.ready, h.partitioner, ?_, fun channel => ?_⟩
  · rw [hrules.length]
    exact List.forall_mem_append.mpr ⟨h.placed, by simpa using h.target item⟩
  · have hchannel : (run.served.queue.refilled item items stats).channel channel =
        if channel = run.served.queue.target item then items else run.served.queue.channel channel :=
      Queue.channel_setChannel (Queue.target_lt h.ready item) items channel
    have hbefore := h.ordered channel
    simp only [gone_append, gone_map, meant_append, meant_singleton, hchannel]
    split
    · next hsame =>
      subst hsame
      rw [List.append_assoc, ← hitems, ← List.append_assoc]
      exact hbefore.append_right _
    · simpa using hbefore

theorem InLanes.produce (h : InLanes key hash run) (item : α) (wait : Wait) :
    InLanes key hash (run.produce consumer item wait) := by
  unfold QueueRun.produce
  rcases Queue.offer_cases h.ready item wait with ⟨_, hoffer⟩ | ⟨oldest, rest, _, hchannel, hoffer⟩ |
    ⟨_, hoffer⟩ | ⟨_, _, _, hoffer⟩
  · rw [hoffer, ServedQueue.produce_queued hoffer]
    have hitems : ∀ items : List α, items = [] ++ items := fun _ => rfl
    simpa using h.refilled (hitems _)
  · rw [hoffer, ServedQueue.produce_evicting hoffer]
    have hitems : run.served.queue.channel (run.served.queue.target item) ++ [item] =
        [oldest] ++ (rest ++ [item]) := by
      rw [hchannel]
      rfl
    exact h.refilled hitems
  · obtain ⟨failures, others, hproduce⟩ := ServedQueue.produce_onCaller consumer hoffer
    rw [hoffer, hproduce]
    -- The item is meant for its lane, but never gets into it.
    refine ⟨⟨h.ready.capacity, h.ready.channels⟩, h.partitioner, ?_, fun channel => ?_⟩
    · exact List.forall_mem_append.mpr ⟨h.placed, List.forall_mem_singleton.mpr (h.target item)⟩
    · show (gone run.left channel ++ run.served.queue.channel channel).Sublist _
      rw [meant_append]
      exact (h.ordered channel).trans (List.sublist_append_left _ _)
  · rw [hoffer, ServedQueue.produce_refused hoffer]
    exact ⟨⟨h.ready.capacity, h.ready.channels⟩, h.partitioner, h.placed, h.ordered⟩

theorem InLanes.drain (h : InLanes key hash run) (runner : Runner) (channel batchSize : Nat) :
    InLanes key hash (run.drain consumer runner channel batchSize) := by
  obtain ⟨taken, htaken⟩ := ServedQueue.Drains.drain consumer runner channel batchSize run.served
  obtain ⟨_, _, _, _, hsetup⟩ :=
    ServedQueue.drain_sameSetup consumer runner channel batchSize run.served
  unfold QueueRun.drain
  simp only [htaken.handed, List.drop_left]
  generalize (((ServedQueue.line consumer).drain runner channel batchSize).run run.served).2 = served
    at *
  refine ⟨htaken.rules.1.ready h.ready, ?_, ?_, fun other => ?_⟩
  · rw [hsetup]
    exact h.partitioner
  · rw [htaken.rules.1.length]
    exact h.placed
  · have hbefore := h.ordered other
    simp only [gone_append, gone_map]
    split
    · next hother =>
      rwa [hother, List.append_assoc, ← htaken.own, ← hother]
    · next hother =>
      rwa [List.append_nil, htaken.others other hother]

theorem InLanes.next (h : InLanes key hash run) (step : QueueStep α) :
    InLanes key hash (next consumer run step) := by
  cases step with
  | produce item wait => exact h.produce consumer item wait
  | drain runner channel batchSize => exact h.drain consumer runner channel batchSize
  | bind owners =>
    obtain ⟨_, hbound⟩ :=
      ServedQueue.bind_run consumer run.served run.served.queue.channels.length owners
    simp only [QueueRun.next, hbound]
    exact ⟨⟨h.ready.capacity, h.ready.channels⟩, h.partitioner, h.placed, h.ordered⟩
  | idle | close | exit =>
    exact ⟨⟨h.ready.capacity, h.ready.channels⟩, h.partitioner, h.placed, h.ordered⟩

theorem InLanes.after (h : InLanes key hash run) (steps : List (QueueStep α)) :
    InLanes key hash (after consumer steps run) := by
  induction steps generalizing run with
  | nil => exact h
  | cons step rest ih => exact ih (h.next consumer step)

/-! ## Keys -/

variable [DecidableEq κ]

def withKey (key : α → κ) (k : κ) (items : List α) : List α := items.filter (key · = k)

theorem InLanes.keeps_order (h : InLanes key hash run) (k : κ) :
    (withKey key k (consumed run.left)).Sublist (withKey key k (run.accepted.map (·.2))) := by
  let channel := lane hash run.served.queue.channels.length k
  -- Only its lane has had items with this key.
  have hleft : ∀ departure ∈ run.left, key departure.item = k → departure.channel = channel := by
    intro departure hdeparture hk
    have hgone : departure.item ∈ gone run.left departure.channel :=
      List.mem_map.mpr ⟨departure, by simpa using hdeparture, rfl⟩
    have hmeant := (h.ordered departure.channel).subset (List.mem_append_left _ hgone)
    obtain ⟨entry, hentry, hitem⟩ := List.mem_map.mp hmeant
    obtain ⟨hentry, hchannel⟩ := List.mem_filter.mp hentry
    rw [← of_decide_eq_true hchannel, h.placed entry hentry, hitem, hk]
  have hgone : withKey key k (run.left.map (·.item)) = withKey key k (gone run.left channel) := by
    simp only [withKey, gone, List.filter_map, List.filter_filter]
    congr 1
    apply List.filter_congr
    intro departure hdeparture
    have := hleft departure hdeparture
    by_cases hk : key departure.item = k <;> simp_all
  have hmeant : withKey key k (meant run.accepted channel) =
      withKey key k (run.accepted.map (·.2)) := by
    simp only [withKey, meant, List.filter_map, List.filter_filter]
    congr 1
    apply List.filter_congr
    intro entry hentry
    have := h.placed entry hentry
    by_cases hk : key entry.2 = k <;> simp_all [channel]
  have hall : (consumed run.left).Sublist (run.left.map (·.item)) := List.filter_sublist.map _
  rw [← hmeant]
  refine (hall.filter _).trans ?_
  show (withKey key k (run.left.map (·.item))).Sublist _
  rw [hgone]
  exact ((List.sublist_append_left _ _).trans (h.ordered channel)).filter _

/-- In which order the consumer sees items. -/
structure KeyOrdered (key : α → κ) (consumer : Consumer τ α) (settings : QueueSettings α)
    (run : QueueRun τ α) : Prop where
  handed : settings.overflow ≠ .runOnCaller → ∀ k,
    (withKey key k run.served.handed).Sublist (withKey key k (run.accepted.map (·.2)))
  /-- Under any rule, this much holds of what went through a channel. -/
  consumed : ∀ k,
    (withKey key k (consumed run.left)).Sublist (withKey key k (run.accepted.map (·.2)))
  /-- Only an item that finds its channel full goes another way, and every such item does. -/
  onCaller : ∀ item wait, (run.served.queue.offer item wait).1 = .onCaller item ↔
    settings.overflow = .runOnCaller ∧ run.served.queue.closed = false ∧
      run.served.queue.owners.isSome = true ∧
      settings.channelSize ≤ (run.served.queue.channel (run.served.queue.target item)).length
  /-- It goes at once, ahead of all that is queued. -/
  atOnce : ∀ item wait, (run.served.queue.offer item wait).1 = .onCaller item →
    (run.produce consumer item wait).served.handed = run.served.handed ++ [item] ∧
      (run.produce consumer item wait).served.queue.channels = run.served.queue.channels

/-- Where items are sent by key, the consumer sees those with one key in the order in which they were
taken in, unless producers run it themselves. -/
theorem keys_keep_their_order {settings : QueueSettings α} {queue : Queue α}
    (hqueue : Queue.build settings = .ok queue) (hkeyed : settings.partitioner = .keyed key hash)
    (others : τ) (steps : List (QueueStep α)) :
    KeyOrdered key consumer settings (after consumer steps (start queue others)) := by
  have hlanes := (InLanes.start hqueue hkeyed others).after consumer steps
  have hbalanced := (Balanced.start hqueue others).after consumer steps
  refine ⟨fun hrule k => ?_, hlanes.keeps_order, fun item wait => ?_, fun item wait hcaller => ?_⟩
  · rw [← (hbalanced.ordered hrule).1]
    exact hlanes.keeps_order k
  · rw [Queue.offer_onCaller_iff, Queue.isFullFor, hbalanced.rules.1, hbalanced.rules.2,
      decide_eq_true_iff]
  · unfold QueueRun.produce
    obtain ⟨_, _, hproduce⟩ := ServedQueue.produce_onCaller consumer (Prod.ext hcaller rfl)
    rw [hproduce]
    exact ⟨rfl, Queue.channels_of_onCaller hbalanced.ready hcaller⟩

/-- The first item waits, and makes room for the third one of its key. The second one has another key. -/
theorem keys_keep_their_order_of_eviction :
    let settings : QueueSettings (Nat × Nat) :=
      { channels := 2, channelSize := 1, overflow := .dropOldest, partitioner := .keyed Prod.fst .ofNat }
    let consumer : Consumer Unit (Nat × Nat) := ⟨fun _ _ => pure ([], none), fun _ _ _ => pure (),
      pure (), pure ()⟩
    let steps : List (QueueStep (Nat × Nat)) := [.bind [0, 0], .produce (1, 1) .timesOut,
      .produce (2, 2) .timesOut, .produce (1, 3) .timesOut, .drain (.thread 0) 0 10,
      .produce (1, 4) .timesOut, .drain (.thread 0) 1 10, .produce (1, 5) .timesOut,
      .drain (.thread 0) 1 10]
    ∃ queue, Queue.build settings = .ok queue ∧
      KeyOrdered Prod.fst consumer settings (after consumer steps (start queue ())) ∧
      (after consumer steps (start queue ())).served.handed = [(2, 2), (1, 4), (1, 5)] := by
  intro settings consumer steps
  exact ⟨_, rfl, keys_keep_their_order consumer rfl rfl () steps, by decide +kernel⟩

/-- An item that its producer runs is ahead of one of the same key that is queued. -/
theorem caller_overtakes_the_queue :
    let settings : QueueSettings Nat :=
      { channelSize := 1, overflow := .runOnCaller, partitioner := .keyed (fun _ => ()) fun _ => 0 }
    let consumer : Consumer Unit Nat := ⟨fun _ _ => pure ([], none), fun _ _ _ => pure (),
      pure (), pure ()⟩
    let steps : List (QueueStep Nat) := [.bind [0], .produce 1 .timesOut, .produce 2 .timesOut,
      .drain (.thread 0) 0 10]
    ∃ queue, Queue.build settings = .ok queue ∧
      let last := after consumer steps (start queue ())
      last.accepted.map (·.2) = [1, 2] ∧ last.served.handed = [2, 1] ∧
      ¬ (withKey (fun _ => ()) () last.served.handed).Sublist
        (withKey (fun _ => ()) () (last.accepted.map (·.2))) := by
  intro settings consumer steps
  exact ⟨_, rfl, by decide +kernel, by decide +kernel, by decide +kernel⟩

end QueueRun

end Rollup
