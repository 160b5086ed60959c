import Mathlib.Data.List.Perm.Basic
import Rollup.Proofs.Delivery
import Rollup.Proofs.RecordLaws
import Rollup.Queue.Pool

/-!
# The flow through a queue

What is queued, and what becomes of it: an item that is taken in waits until a batch takes it out or a
later item evicts it.
-/

namespace Rollup

variable {σ α : Type}

namespace Queue

variable {queue : Queue α} {index : Nat}

/-- The items of all channels. -/
def waiting (queue : Queue α) : List α := queue.channels.flatten

/-- There is a channel, and room in it. -/
structure Ready (queue : Queue α) : Prop where
  capacity : 0 < queue.capacity
  channels : 0 < queue.channels.length

theorem build_eq_ok {settings : QueueSettings α} (h : build settings = .ok queue) :
    0 < settings.channels ∧ 0 < settings.channelSize ∧ queue = {
      name := settings.name, capacity := settings.channelSize, overflow := settings.overflow
      partitioner := settings.partitioner, channels := List.replicate settings.channels [] } := by
  have hpositive : ∀ {setting : Setting} {count : Nat}, setting.check (0 < count) = .ok () →
      0 < count := by
    intro setting count hcheck
    by_contra hnot
    simp [Setting.check, hnot, throw, throwThe, MonadExceptOf.throw] at hcheck
  unfold build at h
  obtain ⟨⟨⟩, _, h⟩ := bind_eq_ok_iff.mp h
  obtain ⟨⟨⟩, hchannels, h⟩ := bind_eq_ok_iff.mp h
  obtain ⟨⟨⟩, hsize, h⟩ := bind_eq_ok_iff.mp h
  obtain ⟨⟨⟩, _, h⟩ := bind_eq_ok_iff.mp h
  cases h
  exact ⟨hpositive hchannels, hpositive hsize, rfl⟩

theorem flatten_set_perm {channels : List (List α)} {index : Nat} (h : index < channels.length)
    (items : List α) :
    ((channels.set index items).flatten ++ channels.getD index []).Perm
      (channels.flatten ++ items) := by
  induction channels generalizing index with
  | nil => exact absurd h (Nat.not_lt_zero _)
  | cons first rest ih =>
    cases index with
    | zero =>
      simp only [List.set_cons_zero, List.flatten_cons, List.getD_cons_zero]
      refine List.perm_append_comm.trans ?_
      rw [List.append_assoc]
      exact List.perm_append_comm.append_left first
    | succ index =>
      have hrest := ih (Nat.lt_of_succ_lt_succ h)
      simp only [List.set_cons_succ, List.flatten_cons, List.getD_cons_succ, List.append_assoc]
      exact hrest.append_left first

theorem target_lt (h : queue.Ready) (item : α) : queue.target item < queue.channels.length :=
  Nat.mod_lt _ h.channels

theorem channel_of_le (h : queue.channels.length ≤ index) : queue.channel index = [] := by
  rw [channel, List.getD_eq_getElem?_getD, List.getElem?_eq_none h]
  rfl

theorem popBatch_of_le (h : queue.channels.length ≤ index) (limit : Nat) :
    queue.popBatch index limit = ([], queue) := by
  have hset : queue.setChannel index ((queue.channel index).drop limit) = queue := by
    unfold setChannel
    rw [List.set_eq_of_length_le h]
  rw [popBatch, hset, channel_of_le h, List.take_nil]

theorem popBatch_of_isEmpty {limit : Nat} (h : (queue.popBatch index limit).1 = []) :
    (queue.popBatch index limit).2 = queue := by
  have hdrop : (queue.channel index).drop limit = queue.channel index := by
    rcases List.take_eq_nil_iff.mp h with rfl | hnil
    · exact List.drop_zero
    · rw [hnil, List.drop_nil]
  have hset : queue.channels.set index (queue.channel index) = queue.channels := by
    by_cases hindex : index < queue.channels.length
    · rw [channel, List.getD_eq_getElem?_getD, List.getElem?_eq_getElem hindex, Option.getD_some,
        List.set_getElem_self]
    · exact List.set_eq_of_length_le (Nat.le_of_not_lt hindex)
  show queue.setChannel index ((queue.channel index).drop limit) = queue
  rw [hdrop, setChannel, hset]

theorem popBatch_perm (queue : Queue α) (index limit : Nat) :
    ((queue.popBatch index limit).1 ++ (queue.popBatch index limit).2.waiting).Perm
      queue.waiting := by
  by_cases h : index < queue.channels.length
  · have hset := flatten_set_perm h ((queue.channel index).drop limit)
    have hsplit : queue.channels.getD index [] =
        (queue.channel index).take limit ++ (queue.channel index).drop limit :=
      (List.take_append_drop _ _).symm
    rw [hsplit, ← List.append_assoc, List.perm_append_right_iff] at hset
    exact List.perm_append_comm.trans hset
  · rw [popBatch_of_le (Nat.le_of_not_lt h)]
    exact .refl _

/-- The same rules, whatever is queued. -/
structure SameRules (queue queue' : Queue α) : Prop where
  capacity : queue'.capacity = queue.capacity
  length : queue'.channels.length = queue.channels.length

theorem SameRules.refl (queue : Queue α) : SameRules queue queue := ⟨rfl, rfl⟩

theorem SameRules.trans {queue' queue'' : Queue α} (h : SameRules queue queue')
    (h' : SameRules queue' queue'') : SameRules queue queue'' :=
  ⟨h'.capacity.trans h.capacity, h'.length.trans h.length⟩

theorem SameRules.ready {queue' : Queue α} (h : SameRules queue queue') (hready : queue.Ready) :
    queue'.Ready :=
  ⟨h.capacity ▸ hready.capacity, h.length ▸ hready.channels⟩

theorem popBatch_sameRules (queue : Queue α) (index limit : Nat) :
    SameRules queue (queue.popBatch index limit).2 :=
  ⟨rfl, List.length_set⟩

/-- What an offer makes of a queue. -/
inductive Offered (queue : Queue α) (item : α) : Offer α → Queue α → Prop where
  | queued {queue' : Queue α} (waits : queue'.waiting.Perm (item :: queue.waiting)) :
      Offered queue item .queued queue'
  | evicting {oldest : α} {queue' : Queue α}
      (waits : (oldest :: queue'.waiting).Perm (item :: queue.waiting)) :
      Offered queue item (.evicting oldest) queue'
  | onCaller {queue' : Queue α} (waits : queue'.waiting = queue.waiting) :
      Offered queue item (.onCaller item) queue'
  | refused {refused : Refused α} {queue' : Queue α} (waits : queue'.waiting = queue.waiting) :
      Offered queue item (.refused refused) queue'

end Queue

/-- What is kept of some items once another one was offered. -/
def Offer.keep [BEq α] (kept : List α) (item : α) : Offer α → List α
  | .queued => kept ++ [item]
  | .evicting oldest => (kept ++ [item]).erase oldest
  | .onCaller _ => kept ++ [item]
  | .refused _ => kept

namespace Queue

variable {queue : Queue α} {index : Nat}

/-- The queue with other items in the channel of the next item, which its partitioner has seen. -/
def refilled (queue : Queue α) (item : α) (items : List α) (stats : QueueStats) : Queue α :=
  { queue.setChannel (queue.target item) items with turn := queue.turn + 1, stats }

theorem offer_cases (h : queue.Ready) (item : α) (wait : Wait) :
    ((queue.channel (queue.target item)).length < queue.capacity ∧
      queue.offer item wait =
        (.queued, queue.refilled item (queue.channel (queue.target item) ++ [item])
          { queue.stats with
            produced := queue.stats.produced + 1, pending := queue.stats.pending + 1 })) ∨
    (∃ oldest rest, queue.overflow = .dropOldest ∧
      queue.channel (queue.target item) = oldest :: rest ∧
      queue.offer item wait =
        (.evicting oldest, queue.refilled item (rest ++ [item])
          { queue.stats with
            produced := queue.stats.produced + 1, dropped := queue.stats.dropped + 1 })) ∨
    (queue.overflow = .runOnCaller ∧ queue.offer item wait =
      (.onCaller item, { queue with
        turn := queue.turn + 1, stats := { queue.stats with produced := queue.stats.produced + 1 } })) ∨
    ∃ reason turn rejected, queue.offer item wait =
      (.refused ⟨reason, item⟩, { queue with turn, stats := { queue.stats with rejected } }) := by
  unfold offer
  split
  · exact .inr (.inr (.inr ⟨_, _, _, rfl⟩))
  · dsimp only
    split
    · next hroom => exact .inl ⟨hroom, rfl⟩
    · next hfull =>
      split
      · next hrule =>
        split
        · next hitems => exact .inr (.inl ⟨_, _, hrule, hitems, rfl⟩)
        · next hitems =>
          have hcapacity := h.capacity
          rw [hitems] at hfull
          exact absurd hcapacity hfull
      · exact .inr (.inr (.inr ⟨_, _, _, rfl⟩))
      · exact .inr (.inr (.inr ⟨_, _, _, rfl⟩))
      · next hrule =>
        split
        · exact .inr (.inr (.inl ⟨hrule, rfl⟩))
        · exact .inr (.inr (.inr ⟨_, _, _, rfl⟩))

theorem waiting_refilled (h : queue.Ready) {item : α} {leaving items : List α}
    (hitems : queue.channel (queue.target item) ++ [item] = leaving ++ items) (stats : QueueStats) :
    (leaving ++ (queue.refilled item items stats).waiting).Perm (item :: queue.waiting) := by
  have hset : ((queue.refilled item items stats).waiting ++ queue.channel (queue.target item)).Perm
      (queue.waiting ++ items) := flatten_set_perm (target_lt h item) items
  have hmore := hset.append_right [item]
  rw [List.append_assoc, hitems, ← List.append_assoc] at hmore
  rw [← List.perm_append_right_iff items]
  refine (List.perm_append_comm.append_right items).trans (hmore.trans ?_)
  exact List.perm_append_singleton item _

theorem sameRules_refilled (queue : Queue α) (item : α) (items : List α) (stats : QueueStats) :
    SameRules queue (queue.refilled item items stats) := ⟨rfl, List.length_set⟩

theorem offer_offered (h : queue.Ready) (item : α) (wait : Wait) :
    Offered queue item (queue.offer item wait).1 (queue.offer item wait).2 ∧
      SameRules queue (queue.offer item wait).2 := by
  rcases offer_cases h item wait with ⟨_, hoffer⟩ | ⟨oldest, rest, _, hchannel, hoffer⟩ |
    ⟨_, hoffer⟩ | ⟨_, _, _, hoffer⟩
  · rw [hoffer]
    have hitems : ∀ items : List α, items = [] ++ items := fun _ => rfl
    exact ⟨.queued (waiting_refilled h (hitems _) _), sameRules_refilled queue item _ _⟩
  · rw [hoffer]
    have hitems : queue.channel (queue.target item) ++ [item] = [oldest] ++ (rest ++ [item]) :=
      congrArg (· ++ [item]) hchannel
    exact ⟨.evicting (waiting_refilled h hitems _), sameRules_refilled queue item _ _⟩
  · rw [hoffer]
    exact ⟨.onCaller rfl, rfl, rfl⟩
  · rw [hoffer]
    exact ⟨.refused rfl, rfl, rfl⟩

theorem channel_setChannel (h : index < queue.channels.length) (items : List α) (other : Nat) :
    (queue.setChannel index items).channel other =
      if other = index then items else queue.channel other := by
  simp only [setChannel, channel, List.getD_eq_getElem?_getD, List.getElem?_set]
  by_cases hother : other = index
  · subst hother
    simp [h]
  · rw [if_neg hother, if_neg (Ne.symm hother)]

theorem channel_popBatch (queue : Queue α) (index limit other : Nat) :
    (queue.popBatch index limit).2.channel other =
      if other = index then (queue.channel index).drop limit else queue.channel other := by
  by_cases h : index < queue.channels.length
  · exact channel_setChannel h _ other
  · have hbeyond := Nat.le_of_not_lt h
    rw [popBatch_of_le hbeyond]
    split
    · next hother => rw [hother, channel_of_le hbeyond, List.drop_nil]
    · rfl

end Queue

/-- The queue that gets the offer of an item, once its producer has waited. -/
def Pool.offeredTo (settings : PoolSettings) (phase : PoolPhase) (line : Line σ α) (item : α) (s : σ) :
    Queue α :=
  let queue := line.queue.get s
  if phase = .running ∧ queue.waitsFor item then
    let channel := queue.target item
    line.queue.get ((line.drain (.thread (queue.owner channel)) channel settings.batchSize).run s).2
  else queue

/-! ## Consumers that carry -/

/-- A consumer takes a batch into its hand and works it off. Whatever has passed the queue is carried,
whatever the queue does in the meantime. -/
structure Line.Carries (line : Line σ α) (carry : List α → List α → σ → Prop) : Prop where
  lens {hand passed : List α} {s : σ} : carry hand passed s →
    ∀ queue, line.queue.get (line.queue.set s queue) = queue
  aside {hand passed : List α} {s : σ} : carry hand passed s →
    ∀ queue, carry hand passed (line.queue.set s queue)
  pick {passed : List α} {s : σ} : carry [] passed s → ∀ batch, carry batch (passed ++ batch) s
  consume (runner : Runner) {batch passed : List α} {s : σ} : carry batch passed s →
    ((line.consumer.consume runner batch).run s).1 = ([], none) ∧
      carry [] passed ((line.consumer.consume runner batch).run s).2 ∧
      line.queue.get ((line.consumer.consume runner batch).run s).2 = line.queue.get s

/-- All that was kept waits in the queue or has passed it. -/
def Line.Keeps (line : Line σ α) (carry : List α → List α → σ → Prop) (hand kept : List α) (s : σ) :
    Prop :=
  (line.queue.get s).Ready ∧
    ∃ passed, carry hand passed s ∧ kept.Perm ((line.queue.get s).waiting ++ passed)

namespace Line.Carries

variable {line : Line σ α} {carry : List α → List α → σ → Prop} {batch hand kept : List α} {s : σ}

theorem replace (h : line.Carries carry) (hs : line.Keeps carry hand kept s) (queue : Queue α)
    (hrules : Queue.SameRules (line.queue.get s) queue)
    (hwaiting : queue.waiting = (line.queue.get s).waiting) :
    line.Keeps carry hand kept (line.queue.set s queue) := by
  obtain ⟨hready, passed, hcarry, hperm⟩ := hs
  refine ⟨?_, passed, h.aside hcarry queue, ?_⟩
  · rw [h.lens hcarry]
    exact hrules.ready hready
  · rwa [h.lens hcarry, hwaiting]

theorem runBatch (h : line.Carries carry) (hs : line.Keeps carry batch kept s) (runner : Runner) :
    line.Keeps carry [] kept ((line.runBatch runner batch).run s).2 ∧
      line.queue.get ((line.runBatch runner batch).run s).2 = line.queue.get s := by
  obtain ⟨hready, passed, hcarry, hperm⟩ := hs
  obtain ⟨hanswer, hcarried, hqueue⟩ := h.consume runner hcarry
  have hrun : (line.consumer.consume runner batch).run s =
      (([], none), ((line.consumer.consume runner batch).run s).2) := Prod.ext hanswer rfl
  have hlast : ((line.runBatch runner batch).run s).2 =
      ((line.consumer.consume runner batch).run s).2 := by
    unfold Line.runBatch
    rw [StateT.run_bind, hrun]
    rfl
  rw [hlast, hqueue]
  refine ⟨⟨?_, passed, hcarried, ?_⟩, rfl⟩
  · rwa [hqueue]
  · rwa [hqueue]

theorem finish (h : line.Carries carry) (hs : line.Keeps carry batch kept s) (runner : Runner) :
    line.Keeps carry [] kept ((line.finish runner batch).run s).2 ∧
      line.queue.get ((line.finish runner batch).run s).2 =
        (line.queue.get s).finishBatch batch.length := by
  obtain ⟨hkeeps, hqueue⟩ := h.runBatch hs runner
  let worked := ((line.runBatch runner batch).run s).2
  have hrun : ((line.finish runner batch).run s).2 =
      line.queue.set worked ((line.queue.get worked).finishBatch batch.length) := rfl
  rw [hrun]
  refine ⟨h.replace hkeeps _ ⟨rfl, rfl⟩ rfl, ?_⟩
  obtain ⟨_, _, hcarry, _⟩ := hkeeps
  rw [h.lens hcarry, hqueue]

theorem pop (h : line.Carries carry) (hs : line.Keeps carry [] kept s) (channel limit : Nat) :
    line.Keeps carry ((line.queue.get s).popBatch channel limit).1 kept
        (line.queue.set s ((line.queue.get s).popBatch channel limit).2) ∧
      line.queue.get (line.queue.set s ((line.queue.get s).popBatch channel limit).2) =
        ((line.queue.get s).popBatch channel limit).2 := by
  obtain ⟨hready, passed, hcarry, hperm⟩ := hs
  have hget := h.lens hcarry ((line.queue.get s).popBatch channel limit).2
  refine ⟨⟨?_, _, h.aside (h.pick hcarry _) _, ?_⟩, hget⟩
  · rw [hget]
    exact (Queue.popBatch_sameRules _ channel limit).ready hready
  · rw [hget]
    have hpop := (Queue.popBatch_perm (line.queue.get s) channel limit).symm.append_right passed
    refine (hperm.trans hpop).trans ?_
    rw [List.append_assoc]
    refine List.perm_append_comm.trans ?_
    rw [List.append_assoc]

/-- What is left of a channel once some of it was drained. The others are left alone. -/
structure Drained (before after : Queue α) (channel : Nat) : Prop where
  rules : Queue.SameRules before after
  left : ∃ count, after.channel channel = (before.channel channel).drop count
  others : ∀ other, other ≠ channel → after.channel other = before.channel other

theorem Drained.refl (queue : Queue α) (channel : Nat) : Drained queue queue channel :=
  ⟨.refl queue, ⟨0, rfl⟩, fun _ _ => rfl⟩

theorem Drained.trans {before queue after : Queue α} {channel : Nat}
    (h : Drained before queue channel) (hafter : Drained queue after channel) :
    Drained before after channel := by
  obtain ⟨count, hcount⟩ := h.left
  obtain ⟨more, hmore⟩ := hafter.left
  refine ⟨h.rules.trans hafter.rules, ⟨count + more, ?_⟩, fun other hother => ?_⟩
  · rw [hmore, hcount, List.drop_drop]
  · rw [hafter.others other hother, h.others other hother]

theorem Drained.popBatch (queue : Queue α) (channel limit : Nat) :
    Drained queue (queue.popBatch channel limit).2 channel := by
  refine ⟨queue.popBatch_sameRules channel limit, ⟨limit, ?_⟩, fun other hother => ?_⟩
  · rw [Queue.channel_popBatch, if_pos rfl]
  · rw [Queue.channel_popBatch, if_neg hother]

/-- What a channel is drained to, once at least this many of its items were looked at. -/
structure Emptied (line : Line σ α) (carry : List α → List α → σ → Prop) (kept : List α)
    (before : Queue α) (channel looked : Nat) (last : σ) : Prop where
  keeps : line.Keeps carry [] kept last
  drained : Drained before (line.queue.get last) channel
  empty : (before.channel channel).length < looked → (line.queue.get last).channel channel = []

theorem drainBatches (h : line.Carries carry) (hs : line.Keeps carry [] kept s) (runner : Runner)
    (channel : Nat) {batchSize : Nat} (hbatch : 0 < batchSize) (count : Nat) :
    Emptied line carry kept (line.queue.get s) channel (count * batchSize)
      ((line.drainBatches runner channel batchSize count).run s).2 := by
  induction count generalizing s with
  | zero => exact ⟨hs, .refl _ _, fun hlt => by simp at hlt⟩
  | succ count ih =>
    obtain ⟨hpopped, hget⟩ := h.pop hs channel batchSize
    have hpop := Drained.popBatch (line.queue.get s) channel batchSize
    have hchannel := Queue.channel_popBatch (line.queue.get s) channel batchSize channel
    rw [if_pos rfl] at hchannel
    generalize hqueue : line.queue.get s = queue at *
    have hrun : (line.queue.modifyGet (·.popBatch channel batchSize)).run s =
        ((queue.popBatch channel batchSize).1,
          line.queue.set s (queue.popBatch channel batchSize).2) := by
      rw [← hqueue]
      rfl
    have htake : (queue.popBatch channel batchSize).1 = (queue.channel channel).take batchSize := rfl
    rw [Line.drainBatches, run_bind_of_eq hrun]
    generalize (queue.popBatch channel batchSize).1 = batch at *
    generalize line.queue.set s (queue.popBatch channel batchSize).2 = popped at *
    split
    · next hempty =>
      obtain rfl := List.isEmpty_iff.mp hempty
      refine ⟨hpopped, ?_, fun _ => ?_⟩
      · show Drained queue (line.queue.get popped) channel
        rw [hget]
        exact hpop
      · show (line.queue.get popped).channel channel = []
        rw [hget, hchannel]
        rcases List.take_eq_nil_iff.mp htake.symm with hzero | hnil
        · omega
        · rw [hnil, List.drop_nil]
    · obtain ⟨hkeeps, hworked⟩ := h.finish hpopped runner
      have hfinish : (line.finish runner batch).run popped =
          ((), ((line.finish runner batch).run popped).2) := rfl
      rw [run_bind_of_eq hfinish]
      generalize ((line.finish runner batch).run popped).2 = worked at *
      rw [hget] at hworked
      have hdrained : Drained queue (line.queue.get worked) channel := by
        rw [hworked]
        exact hpop.trans ⟨⟨rfl, rfl⟩, ⟨0, rfl⟩, fun _ _ => rfl⟩
      have hleft : (line.queue.get worked).channel channel =
          (queue.channel channel).drop batchSize := by
        rw [hworked]
        exact hchannel
      split
      · next hshort =>
        refine ⟨hkeeps, hdrained, fun _ => ?_⟩
        rw [htake, List.length_take] at hshort
        exact hleft.trans (List.drop_eq_nil_of_le (by omega))
      · next hlong =>
        -- A full batch was taken, so there is that much less to look at.
        have hrest := ih hkeeps
        refine ⟨hrest.keeps, hdrained.trans hrest.drained, fun hlt => hrest.empty ?_⟩
        rw [htake, List.length_take] at hlong
        rw [Nat.succ_mul] at hlt
        rw [hleft, List.length_drop]
        omega

theorem drain (h : line.Carries carry) (hs : line.Keeps carry [] kept s) (runner : Runner)
    (channel : Nat) {batchSize : Nat} (hbatch : 0 < batchSize) :
    line.Keeps carry [] kept ((line.drain runner channel batchSize).run s).2 ∧
      Drained (line.queue.get s)
        (line.queue.get ((line.drain runner channel batchSize).run s).2) channel ∧
      (line.queue.get ((line.drain runner channel batchSize).run s).2).channel channel = [] := by
  have hlast := h.drainBatches hs runner channel hbatch
    (((line.queue.get s).channel channel).length / batchSize + 1)
  refine ⟨hlast.keeps, hlast.drained, hlast.empty ?_⟩
  rw [Nat.mul_comm]
  exact Nat.lt_mul_div_succ _ hbatch

theorem produce [BEq α] [LawfulBEq α] (h : line.Carries carry) (hs : line.Keeps carry [] kept s)
    (item : α) (wait : Wait) :
    line.Keeps carry [] (((line.queue.get s).offer item wait).1.keep kept item)
        ((line.produce item wait).run s).2 ∧
      Queue.SameRules (line.queue.get s) (line.queue.get ((line.produce item wait).run s).2) := by
  obtain ⟨hready, passed, hcarry, hperm⟩ := hs
  obtain ⟨hoffered, hrules⟩ := Queue.offer_offered hready item wait
  have hrun : (line.queue.modifyGet (·.offer item wait)).run s =
      (((line.queue.get s).offer item wait).1,
        line.queue.set s ((line.queue.get s).offer item wait).2) := rfl
  have hget := h.lens hcarry ((line.queue.get s).offer item wait).2
  have haside := h.aside hcarry ((line.queue.get s).offer item wait).2
  rw [Line.produce, run_bind_of_eq hrun]
  generalize line.queue.get s = queue at *
  generalize (queue.offer item wait).1 = answer at *
  generalize (queue.offer item wait).2 = queue' at *
  generalize line.queue.set s queue' = offered at *
  subst hget
  have hready' := hrules.ready hready
  cases hoffered with
  | queued waits =>
    refine ⟨⟨hready', passed, haside, ?_⟩, hrules⟩
    refine (List.perm_append_singleton item kept).trans ((hperm.cons item).trans ?_)
    exact waits.symm.append_right passed
  | @evicting oldest _ waits =>
    -- Equal items cannot be told apart: whichever copy of the oldest is no longer kept, the others are.
    refine ⟨⟨hready', passed, haside, ?_⟩, hrules⟩
    have hall : (kept ++ [item]).Perm (oldest :: ((line.queue.get offered).waiting ++ passed)) :=
      (List.perm_append_singleton item kept).trans
        ((hperm.cons item).trans (waits.symm.append_right passed))
    have herase := hall.erase oldest
    rwa [List.erase_cons_head] at herase
  | onCaller waits =>
    have hhand : line.Keeps carry [item] (kept ++ [item]) offered := by
      refine ⟨hready', passed ++ [item], h.pick haside [item], ?_⟩
      rw [waits, ← List.append_assoc]
      exact hperm.append_right [item]
    obtain ⟨hkeeps, hsame⟩ := h.runBatch hhand .caller
    let worked := ((line.runBatch .caller [item]).run offered).2
    have hlast := h.replace hkeeps (line.queue.get worked).finishOnCaller ⟨rfl, rfl⟩ rfl
    refine ⟨hlast, ?_⟩
    show Queue.SameRules queue (line.queue.get
      (line.queue.set worked (line.queue.get worked).finishOnCaller))
    obtain ⟨_, _, hcarried, _⟩ := hkeeps
    rw [h.lens hcarried, hsame]
    exact ⟨hrules.capacity, hrules.length⟩
  | refused waits =>
    refine ⟨⟨hready', passed, haside, ?_⟩, hrules⟩
    show kept.Perm ((line.queue.get offered).waiting ++ passed)
    rw [waits]
    exact hperm

theorem poolProduce [BEq α] [LawfulBEq α] (h : line.Carries carry)
    (hs : line.Keeps carry [] kept s) {settings : PoolSettings} (hbatch : 0 < settings.batchSize)
    (phase : PoolPhase) (item : α) :
    line.Keeps carry [] (((Pool.offeredTo settings phase line item s).offer item).1.keep kept item)
        ((Pool.produce settings phase line item).run s).2 ∧
      Queue.SameRules (line.queue.get s)
        (line.queue.get ((Pool.produce settings phase line item).run s).2) := by
  rw [Pool.produce, run_get_bind]
  dsimp only
  unfold Pool.offeredTo
  by_cases hwaits : phase = .running ∧ (line.queue.get s).waitsFor item
  · simp only [if_pos hwaits]
    obtain ⟨hkeeps, hdrained, _⟩ := h.drain hs
      (.thread ((line.queue.get s).owner ((line.queue.get s).target item)))
      ((line.queue.get s).target item) hbatch
    obtain ⟨hlast, hrules⟩ := h.produce hkeeps item .timesOut
    exact ⟨hlast, hdrained.rules.trans hrules⟩
  · simp only [if_neg hwaits]
    exact h.produce hs item .timesOut

end Line.Carries

end Rollup
