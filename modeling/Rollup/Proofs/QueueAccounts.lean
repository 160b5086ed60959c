import Rollup.Proofs.ServedQueues

/-!
# Queue accounts

Whatever producers and pools do to a queue, nothing that it took in is lost, and its counters say where
everything is. A run keeps beside the queue what was taken in and what has left its channel.
-/

namespace Rollup

variable {τ α : Type}

/-! ## Runs -/

/-- What may happen to a queue, one thing after another. -/
inductive QueueStep (α : Type) where
  | produce (item : α) (wait : Wait)
  /-- A thread of a pool drains a channel. -/
  | drain (runner : Runner) (channel batchSize : Nat)
  /-- A pool is started, whose threads are to own the channels. -/
  | bind (owners : List Nat)
  | idle
  | close
  | exit

/-- How an item has left its channel. -/
structure Departure (α : Type) where
  channel : Nat
  item : α
  evicted : Bool

/-- A queue with its consumer, and what has happened to it. -/
structure QueueRun (τ α : Type) where
  served : ServedQueue τ α
  /-- The items that a producer was not handed back, each with the channel it was meant for. -/
  accepted : List (Nat × α) := []
  /-- The items that have left a channel. -/
  left : List (Departure α) := []

namespace QueueRun

def start (queue : Queue α) (others : τ) : QueueRun τ α := { served := { queue, others } }

/-- A producer comes with an item. -/
def produce (consumer : Consumer τ α) (run : QueueRun τ α) (item : α) (wait : Wait) :
    QueueRun τ α :=
  let channel := run.served.queue.target item
  let produced := ((ServedQueue.line consumer).produce item wait).run run.served
  { served := produced.2
    accepted := match produced.1 with
      | .ok () => run.accepted ++ [(channel, item)]
      | .error _ => run.accepted
    left := match (run.served.queue.offer item wait).1 with
      | .evicting oldest => run.left ++ [⟨channel, oldest, true⟩]
      | _ => run.left }

/-- A thread drains a channel. What the consumer is handed meanwhile has left it. -/
def drain (consumer : Consumer τ α) (run : QueueRun τ α) (runner : Runner)
    (channel batchSize : Nat) : QueueRun τ α :=
  let served := (((ServedQueue.line consumer).drain runner channel batchSize).run run.served).2
  let handed := served.handed.drop run.served.handed.length
  { run with served, left := run.left ++ handed.map (⟨channel, ·, false⟩) }

def next (consumer : Consumer τ α) (run : QueueRun τ α) : QueueStep α → QueueRun τ α
  | .produce item wait => run.produce consumer item wait
  | .drain runner channel batchSize => run.drain consumer runner channel batchSize
  | .bind owners =>
    let pool := (ServedQueue.line consumer).attachment run.served.queue.channels.length
    { run with served := ((pool.bind owners).run.run run.served).2 }
  | .idle => { run with served := ((ServedQueue.line consumer).consumer.idle.run run.served).2 }
  | .close => { run with
      served := (((ServedQueue.line consumer).queue.modify Queue.close).run run.served).2 }
  | .exit => { run with served := ((ServedQueue.line consumer).consumer.exit.run run.served).2 }

def after (consumer : Consumer τ α) (steps : List (QueueStep α)) (run : QueueRun τ α) :
    QueueRun τ α := steps.foldl (next consumer) run

/-- The items meant for a channel. -/
def meant (accepted : List (Nat × α)) (channel : Nat) : List α :=
  (accepted.filter (·.1 = channel)).map (·.2)

/-- The items that have left a channel. -/
def gone (left : List (Departure α)) (channel : Nat) : List α :=
  (left.filter (·.channel = channel)).map (·.item)

/-- The items that made room for others. -/
def evicted (left : List (Departure α)) : List α := (left.filter (·.evicted)).map (·.item)

/-- The items that went from a channel to the consumer. -/
def consumed (left : List (Departure α)) : List α := (left.filter (!·.evicted)).map (·.item)

theorem meant_append (accepted more : List (Nat × α)) (channel : Nat) :
    meant (accepted ++ more) channel = meant accepted channel ++ meant more channel := by
  simp [meant]

theorem meant_singleton (channel : Nat) (item : α) (other : Nat) :
    meant [(channel, item)] other = if other = channel then [item] else [] := by
  by_cases h : other = channel
  · simp [meant, h]
  · simp [meant, h, Ne.symm h]

theorem gone_append (left more : List (Departure α)) (channel : Nat) :
    gone (left ++ more) channel = gone left channel ++ gone more channel := by
  simp [gone]

theorem evicted_append (left more : List (Departure α)) :
    evicted (left ++ more) = evicted left ++ evicted more := by
  simp [evicted]

theorem consumed_append (left more : List (Departure α)) :
    consumed (left ++ more) = consumed left ++ consumed more := by
  simp [consumed]

theorem evicted_handed (channel : Nat) (items : List α) :
    evicted (items.map (⟨channel, ·, false⟩)) = [] := by
  simp [evicted]

theorem consumed_handed (channel : Nat) (items : List α) :
    consumed (items.map (⟨channel, ·, false⟩)) = items := by
  unfold consumed
  rw [List.filter_eq_self.mpr (by simp), List.map_map]
  exact List.map_id items

theorem gone_map (channel : Nat) (items : List α) (way : Bool) (other : Nat) :
    gone (items.map (⟨channel, ·, way⟩)) other = if other = channel then items else [] := by
  unfold gone
  split
  · next h =>
    rw [List.filter_eq_self.mpr (by simp [h]), List.map_map]
    exact List.map_id items
  · next h => simp [Ne.symm h]

theorem evicted_evicted (channel : Nat) (items : List α) :
    evicted (items.map (⟨channel, ·, true⟩)) = items := by
  unfold evicted
  rw [List.filter_eq_self.mpr (by simp), List.map_map]
  exact List.map_id items

theorem consumed_evicted (channel : Nat) (items : List α) :
    consumed (items.map (⟨channel, ·, true⟩)) = [] := by
  simp [consumed]

/-! ## What a step moves -/

/-- What is taken in, what leaves its channel, and what the consumer is handed meanwhile. -/
structure Moves (incoming : List (Nat × α)) (leaving : List (Departure α)) (given : List α)
    (before after : QueueRun τ α) : Prop where
  rules : Queue.SameRules before.served.queue after.served.queue ∧
    after.served.queue.overflow = before.served.queue.overflow
  accepted : after.accepted = before.accepted ++ incoming
  left : after.left = before.left ++ leaving
  handed : after.served.handed = before.served.handed ++ given
  waiting : (given ++ evicted leaving ++ after.served.queue.waiting).Perm
    (before.served.queue.waiting ++ incoming.map (·.2))
  ordered : before.served.queue.overflow ≠ .runOnCaller → consumed leaving = given ∧
    ∀ channel, before.served.queue.channel channel ++ meant incoming channel =
      gone leaving channel ++ after.served.queue.channel channel
  bounded : ∀ channel,
    (before.served.queue.channel channel).length ≤ before.served.queue.capacity →
    (after.served.queue.channel channel).length ≤ before.served.queue.capacity
  produced : after.served.queue.stats.produced = before.served.queue.stats.produced + incoming.length
  consumed : after.served.queue.stats.consumed = before.served.queue.stats.consumed + given.length
  dropped : after.served.queue.stats.dropped =
    before.served.queue.stats.dropped + (evicted leaving).length
  pending : before.served.queue.stats.pending = before.served.queue.length →
    after.served.queue.stats.pending = after.served.queue.length

theorem Moves.bypassed {before : QueueRun τ α} {served : ServedQueue τ α} {incoming : List (Nat × α)}
    (h : ServedQueue.Bypassed (incoming.map (·.2)) before.served served)
    (hrule : incoming ≠ [] → before.served.queue.overflow = .runOnCaller) :
    Moves incoming [] (incoming.map (·.2)) before
      { before with served, accepted := before.accepted ++ incoming } where
  rules := ⟨⟨h.capacity, congrArg List.length h.channels⟩, h.overflow⟩
  accepted := rfl
  left := (List.append_nil _).symm
  handed := h.handed
  waiting := by
    rw [h.waiting]
    exact (List.append_nil _).symm ▸ List.perm_append_comm
  ordered hother := by
    obtain rfl : incoming = [] := by
      by_contra hsome
      exact hother (hrule hsome)
    exact ⟨rfl, fun channel => (List.append_nil _).trans (h.channel channel).symm⟩
  bounded channel hbefore := by rwa [h.channel channel]
  produced := by rw [h.produced, List.length_map]
  consumed := h.consumed
  dropped := h.dropped
  pending hpending := by
    have hlength : served.queue.length = before.served.queue.length := congrArg List.length h.waiting
    rw [h.pending, hpending, hlength]

theorem Moves.none {before : QueueRun τ α} {served : ServedQueue τ α}
    (h : ServedQueue.Bypassed [] before.served served) :
    Moves [] [] [] before { before with served } := by
  have hmoves : Moves [] [] [] before { before with served, accepted := before.accepted ++ [] } :=
    .bypassed h (absurd rfl)
  rwa [List.append_nil] at hmoves

theorem Moves.drained {before : QueueRun τ α} {served : ServedQueue τ α} {channel : Nat}
    {taken : List α} (h : ServedQueue.Drains channel taken before.served served) :
    Moves [] (taken.map (⟨channel, ·, false⟩)) taken before
      { before with served, left := before.left ++ taken.map (⟨channel, ·, false⟩) } where
  rules := h.rules
  accepted := (List.append_nil _).symm
  left := rfl
  handed := h.handed
  waiting := by
    rw [evicted_handed, List.append_nil, List.map_nil, List.append_nil]
    exact h.waiting
  ordered _ := by
    refine ⟨consumed_handed channel taken, fun other => ?_⟩
    rw [gone_map, show meant ([] : List (Nat × α)) other = [] from rfl, List.append_nil]
    split
    · next hother => rw [hother, h.own]
    · next hother => exact (h.others other hother).symm
  bounded other hbefore := by
    show (served.queue.channel other).length ≤ _
    by_cases hother : other = channel
    · rw [hother] at hbefore ⊢
      rw [h.own, List.length_append] at hbefore
      omega
    · rwa [h.others other hother]
  produced := h.produced
  consumed := h.consumed
  dropped := by
    rw [evicted_handed]
    exact h.dropped
  pending hpending := by
    have hlength : taken.length + served.queue.length = before.served.queue.length :=
      List.length_append.symm.trans h.waiting.length_eq
    rw [h.pending, hpending, ← hlength, Nat.add_sub_cancel_left]

theorem Moves.refilled {before : QueueRun τ α} {item : α} {items leaving : List α}
    {stats : QueueStats} (hready : before.served.queue.Ready)
    (hitems : before.served.queue.channel (before.served.queue.target item) ++ [item] =
      leaving ++ items) (hroom : items.length ≤ before.served.queue.capacity)
    (hproduced : stats.produced = before.served.queue.stats.produced + 1)
    (hconsumed : stats.consumed = before.served.queue.stats.consumed)
    (hdropped : stats.dropped = before.served.queue.stats.dropped + leaving.length)
    (hpending : stats.pending + leaving.length = before.served.queue.stats.pending + 1) :
    Moves [(before.served.queue.target item, item)]
      (leaving.map (⟨before.served.queue.target item, ·, true⟩)) [] before {
        served := { before.served with queue := before.served.queue.refilled item items stats }
        accepted := before.accepted ++ [(before.served.queue.target item, item)]
        left := before.left ++ leaving.map (⟨before.served.queue.target item, ·, true⟩) } := by
  have hwaiting := Queue.waiting_refilled hready hitems stats
  have hchannel (other : Nat) : (before.served.queue.refilled item items stats).channel other =
      if other = before.served.queue.target item then items
      else before.served.queue.channel other :=
    Queue.channel_setChannel (Queue.target_lt hready item) items other
  exact {
    rules := ⟨Queue.sameRules_refilled _ item items stats, rfl⟩
    accepted := rfl
    left := rfl
    handed := (List.append_nil _).symm
    waiting := by
      rw [evicted_evicted]
      exact hwaiting.trans (List.perm_append_singleton item _).symm
    ordered := fun _ => by
      refine ⟨consumed_evicted _ leaving, fun other => ?_⟩
      rw [gone_map, meant_singleton, hchannel]
      split
      · next hother => rw [hother, hitems]
      · exact List.append_nil _
    bounded := fun other hbefore => by
      rw [hchannel]
      split
      · exact hroom
      · exact hbefore
    produced := hproduced
    consumed := hconsumed
    dropped := by
      rw [evicted_evicted]
      exact hdropped
    pending := fun hbefore => by
      have hlength : leaving.length + (before.served.queue.refilled item items stats).length =
          before.served.queue.length + 1 := List.length_append.symm.trans hwaiting.length_eq
      show stats.pending = (before.served.queue.refilled item items stats).length
      omega }

theorem Moves.produce (consumer : Consumer τ α) {run : QueueRun τ α}
    (hready : run.served.queue.Ready)
    (hbounded : ∀ channel, (run.served.queue.channel channel).length ≤ run.served.queue.capacity)
    (item : α) (wait : Wait) :
    ∃ incoming leaving given, Moves incoming leaving given run (run.produce consumer item wait) := by
  unfold QueueRun.produce
  rcases Queue.offer_cases hready item wait with ⟨hroom, hoffer⟩ |
    ⟨oldest, rest, _, hchannel, hoffer⟩ | ⟨hrule, hoffer⟩ | ⟨_, _, _, hoffer⟩
  · have hroom : (run.served.queue.channel (run.served.queue.target item) ++ [item]).length ≤
        run.served.queue.capacity := by
      rw [List.length_append]
      exact hroom
    rw [hoffer, ServedQueue.produce_queued hoffer]
    let stats : QueueStats := { run.served.queue.stats with
      produced := run.served.queue.stats.produced + 1
      pending := run.served.queue.stats.pending + 1 }
    have hproduced : stats.produced = run.served.queue.stats.produced + 1 := rfl
    have hitems : ∀ items : List α, items = [] ++ items := fun _ => rfl
    have hmoves := Moves.refilled hready (hitems _) hroom hproduced rfl rfl rfl
    rw [List.map_nil, List.append_nil] at hmoves
    exact ⟨_, _, _, hmoves⟩
  · have hitems : run.served.queue.channel (run.served.queue.target item) ++ [item] =
        [oldest] ++ (rest ++ [item]) := congrArg (· ++ [item]) hchannel
    have hroom : (rest ++ [item]).length ≤ run.served.queue.capacity := by
      have hfull := hbounded (run.served.queue.target item)
      rw [hchannel] at hfull
      rwa [List.length_append]
    rw [hoffer, ServedQueue.produce_evicting hoffer]
    exact ⟨_, _, _, .refilled hready hitems hroom rfl rfl rfl rfl⟩
  · obtain ⟨failures, others, hproduce⟩ := ServedQueue.produce_onCaller consumer hoffer
    rw [hoffer, hproduce]
    exact ⟨[_], [], _, .bypassed ⟨rfl, rfl, rfl, rfl, rfl, rfl, rfl, rfl⟩ fun _ => hrule⟩
  · rw [hoffer, ServedQueue.produce_refused hoffer]
    exact ⟨[], [], [], .none ⟨rfl, rfl, rfl, rfl, rfl, rfl, rfl, (List.append_nil _).symm⟩⟩

theorem Moves.drain (consumer : Consumer τ α) (run : QueueRun τ α) (runner : Runner)
    (channel batchSize : Nat) : ∃ leaving given,
      Moves [] leaving given run (run.drain consumer runner channel batchSize) := by
  obtain ⟨taken, htaken⟩ := ServedQueue.Drains.drain consumer runner channel batchSize run.served
  refine ⟨taken.map (⟨channel, ·, false⟩), taken, ?_⟩
  rw [QueueRun.drain, htaken.handed, List.drop_left]
  exact .drained htaken

theorem Moves.next (consumer : Consumer τ α) {run : QueueRun τ α}
    (hready : run.served.queue.Ready)
    (hbounded : ∀ channel, (run.served.queue.channel channel).length ≤ run.served.queue.capacity)
    (step : QueueStep α) :
    ∃ incoming leaving given, Moves incoming leaving given run (next consumer run step) := by
  cases step with
  | produce item wait => exact Moves.produce consumer hready hbounded item wait
  | drain runner channel batchSize =>
    obtain ⟨leaving, given, hmoves⟩ := Moves.drain consumer run runner channel batchSize
    exact ⟨[], leaving, given, hmoves⟩
  | bind owners =>
    exact ⟨[], [], [], .none (ServedQueue.bypassed_bind run.served owners)⟩
  | idle | close | exit =>
    exact ⟨[], [], [], .none ⟨rfl, rfl, rfl, rfl, rfl, rfl, rfl, (List.append_nil _).symm⟩⟩

/-! ## Accounts -/

/-- The counters add up, and every item that was taken in is in one place. -/
structure Balanced (settings : QueueSettings α) (run : QueueRun τ α) : Prop where
  ready : run.served.queue.Ready
  rules : run.served.queue.capacity = settings.channelSize ∧
    run.served.queue.overflow = settings.overflow
  produced : run.served.queue.stats.produced =
    run.served.queue.stats.consumed + run.served.queue.stats.dropped + run.served.queue.stats.pending
  pending : run.served.queue.stats.pending = run.served.queue.length
  bounded : ∀ channel, (run.served.queue.channel channel).length ≤ run.served.queue.capacity
  each : (run.served.handed ++ evicted run.left ++ run.served.queue.waiting).Perm
    (run.accepted.map (·.2))
  ordered : settings.overflow ≠ .runOnCaller → consumed run.left = run.served.handed ∧
    ∀ channel, meant run.accepted channel =
      gone run.left channel ++ run.served.queue.channel channel

theorem Balanced.moves {settings : QueueSettings α} {before after : QueueRun τ α}
    {incoming : List (Nat × α)} {leaving : List (Departure α)} {given : List α}
    (h : Balanced settings before) (hmoves : Moves incoming leaving given before after) :
    Balanced settings after := by
  have hlength := hmoves.waiting.length_eq
  have hpending := hmoves.pending h.pending
  simp only [List.length_append, List.length_map] at hlength
  refine ⟨hmoves.rules.1.ready h.ready, ?_, ?_, hpending, ?_, ?_, fun hrule => ?_⟩
  · exact ⟨hmoves.rules.1.capacity.trans h.rules.1, hmoves.rules.2.trans h.rules.2⟩
  · have hproduced := h.produced
    have hwaiting := h.pending
    unfold Queue.length at hwaiting hpending
    unfold Queue.waiting at hlength
    rw [hmoves.produced, hmoves.consumed, hmoves.dropped]
    omega
  · intro channel
    rw [hmoves.rules.1.capacity]
    exact hmoves.bounded channel (h.bounded channel)
  · rw [hmoves.accepted, hmoves.left, hmoves.handed, evicted_append, List.map_append]
    have hmoved := hmoves.waiting.append_left (before.served.handed ++ evicted before.left)
    rw [← List.append_assoc _ before.served.queue.waiting] at hmoved
    refine .trans ?_ (hmoved.trans (h.each.append_right _))
    simp only [List.append_assoc]
    exact (List.perm_append_comm_assoc _ _ _).append_left _
  · obtain ⟨hconsumed, hchannels⟩ := h.ordered hrule
    obtain ⟨hgiven, hmeant⟩ := hmoves.ordered (h.rules.2 ▸ hrule)
    refine ⟨?_, fun channel => ?_⟩
    · rw [hmoves.left, consumed_append, hconsumed, hgiven, hmoves.handed]
    · rw [hmoves.accepted, hmoves.left, meant_append, gone_append, hchannels, List.append_assoc,
        hmeant, List.append_assoc]

theorem Balanced.start {settings : QueueSettings α} {queue : Queue α}
    (h : Queue.build settings = .ok queue) (others : τ) : Balanced settings (start queue others) := by
  obtain ⟨hchannels, hsize, rfl⟩ := Queue.build_eq_ok h
  have hempty : (List.replicate settings.channels ([] : List α)).flatten = [] := by simp
  have hchannel (channel : Nat) : (List.replicate settings.channels ([] : List α)).getD channel [] =
      [] := by
    rw [List.getD_eq_getElem?_getD, List.getElem?_replicate]
    split <;> rfl
  exact {
    ready := ⟨hsize, List.length_replicate.symm ▸ hchannels⟩
    rules := ⟨rfl, rfl⟩
    produced := rfl
    pending := (congrArg List.length hempty).symm
    bounded := fun channel =>
      Nat.le_trans (Nat.le_of_eq (congrArg List.length (hchannel channel))) (Nat.zero_le _)
    each := List.Perm.of_eq hempty
    ordered := fun _ => ⟨rfl, fun channel => (hchannel channel).symm⟩ }

theorem Balanced.after {settings : QueueSettings α} {run : QueueRun τ α} (h : Balanced settings run)
    (consumer : Consumer τ α) (steps : List (QueueStep α)) :
    Balanced settings (after consumer steps run) := by
  induction steps generalizing run with
  | nil => exact h
  | cons step rest ih =>
    obtain ⟨_, _, _, hmoves⟩ := Moves.next consumer h.ready h.bounded step
    exact ih (h.moves hmoves)

/-- What holds between any two steps. -/
structure Accounted (consumer : Consumer τ α) (settings : QueueSettings α) (run : QueueRun τ α) :
    Prop where
  produced : run.served.queue.stats.produced =
    run.served.queue.stats.consumed + run.served.queue.stats.dropped + run.served.queue.stats.pending
  pending : run.served.queue.stats.pending = run.served.queue.length
  bounded : ∀ channel, (run.served.queue.channel channel).length ≤ settings.channelSize
  each : (run.served.handed ++ evicted run.left ++ run.served.queue.waiting).Perm
    (run.accepted.map (·.2))
  /-- Items leave a channel in the order in which they were taken in. -/
  ordered : settings.overflow ≠ .runOnCaller → consumed run.left = run.served.handed ∧
    ∀ channel, meant run.accepted channel =
      gone run.left channel ++ run.served.queue.channel channel
  oldest : ∀ item wait oldest, (run.served.queue.offer item wait).1 = .evicting oldest →
    ∃ rest, run.served.queue.channel (run.served.queue.target item) = oldest :: rest
  refused : ∀ item wait refused served,
    ((ServedQueue.line consumer).produce item wait).run run.served = (.error refused, served) →
    refused.item = item ∧ served.queue.channels = run.served.queue.channels ∧
    served.queue.stats = { run.served.queue.stats with rejected := served.queue.stats.rejected } ∧
    served.handed = run.served.handed ∧ served.others = run.served.others

theorem Balanced.accounted {settings : QueueSettings α} {run : QueueRun τ α}
    (h : Balanced settings run) (consumer : Consumer τ α) : Accounted consumer settings run where
  produced := h.produced
  pending := h.pending
  bounded channel := h.rules.1 ▸ h.bounded channel
  each := h.each
  ordered := h.ordered
  oldest item wait victim hvictim := by
    rcases Queue.offer_cases h.ready item wait with ⟨_, hoffer⟩ |
      ⟨oldest, rest, _, hchannel, hoffer⟩ | ⟨_, hoffer⟩ | ⟨_, _, _, hoffer⟩
    all_goals rw [hoffer] at hvictim; cases hvictim
    exact ⟨rest, hchannel⟩
  refused item wait refusal served hproduce := by
    rcases Queue.offer_cases h.ready item wait with ⟨_, hoffer⟩ | ⟨_, _, _, _, hoffer⟩ |
      ⟨_, hoffer⟩ | ⟨_, _, _, hoffer⟩
    · cases (ServedQueue.produce_queued hoffer).symm.trans hproduce
    · cases (ServedQueue.produce_evicting hoffer).symm.trans hproduce
    · obtain ⟨_, _, hrun⟩ := ServedQueue.produce_onCaller consumer hoffer
      cases hrun.symm.trans hproduce
    · cases (ServedQueue.produce_refused hoffer).symm.trans hproduce
      exact ⟨rfl, rfl, rfl, rfl, rfl⟩

/-- However a queue is filled, drained and closed, and whatever its consumer does: its counters add up,
no channel holds too much, and what it took in was handed to the consumer, was evicted or waits. -/
theorem every_item_is_accounted_for {settings : QueueSettings α} {queue : Queue α}
    (hqueue : Queue.build settings = .ok queue) (consumer : Consumer τ α) (others : τ)
    (steps : List (QueueStep α)) :
    Accounted consumer settings (after consumer steps (start queue others)) :=
  ((Balanced.start hqueue others).after consumer steps).accounted consumer

/-- The third item evicts the first one, the consumer fails on the other two, and a fourth one waits. -/
theorem every_item_is_accounted_for_of_eviction :
    let settings : QueueSettings Nat := { channelSize := 2, overflow := .dropOldest }
    let consumer : Consumer Unit Nat := ⟨fun _ batch => pure (batch, some (.failed "no")), fun _ _ _ =>
      pure (), pure (), pure ()⟩
    let steps : List (QueueStep Nat) := [.produce 1 .timesOut, .produce 2 .timesOut,
      .produce 3 .timesOut, .drain .caller 0 10, .produce 4 .timesOut]
    ∃ queue, Queue.build settings = .ok queue ∧
      Accounted consumer settings (after consumer steps (start queue ())) ∧
      evicted (after consumer steps (start queue ())).left = [1] ∧
      (after consumer steps (start queue ())).served.handed = [2, 3] ∧
      (after consumer steps (start queue ())).served.queue.waiting = [4] := by
  intro settings consumer steps
  exact ⟨_, rfl, every_item_is_accounted_for rfl consumer () steps, by decide +kernel,
    by decide +kernel, by decide +kernel⟩

end QueueRun

end Rollup
