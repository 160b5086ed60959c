import Mathlib.Data.Int.CardIntervalMod
import Mathlib.Data.List.Nodup
import Rollup.Queue.Pool

/-!
# Dealing

A pool deals the channels of its queues out to its threads, one after another. The turn of a channel
says which thread gets it, and the same thread is told to the queue. So every channel has one owner, the
one that its queue knows of, and no thread has more than one channel more than another.
-/

namespace Rollup

theorem run_mapM_cons {σ α β : Type} {call : α → StateM σ β} {item : α} {rest : List α} {s s' s'' : σ}
    {answer : β} {answers : List β} (hfirst : (call item).run s = (answer, s'))
    (hrest : (rest.mapM call).run s' = (answers, s'')) :
    ((item :: rest).mapM call).run s = (answer :: answers, s'') := by
  rw [List.mapM_cons, StateT.run_bind, hfirst]
  show StateT.run (_ >>= _) s' = _
  rw [StateT.run_bind, hrest]
  rfl

namespace Pool

/-- The channels of the attachments from `first` on in the order of their turns, each as attachment and
channel. -/
def slots (channels : List Nat) (first : Nat := 0) : List (Nat × Nat) :=
  (channels.zipIdx first).flatMap fun (count, attachment) => (List.range count).map (attachment, ·)

/-- What a thread has of the channels that are dealt. -/
def share (threads : Nat) (dealt : List (Nat × Nat)) (thread : Nat) : List (Nat × Nat) :=
  (dealt.zipIdx.filter fun (_, turn) => turn % threads = thread).map (·.1)

/-- How far the dealing is once these channels are dealt. -/
def Deal.after (threads : Nat) (dealt : List (Nat × Nat)) : Deal where
  next := dealt.length
  owned := (List.range threads).map (share threads dealt)

/-- The channels of an attachment are dealt, and each is told the thread whose turn it was. -/
structure Told (threads : Nat) (dealt : List (Nat × Nat)) (attachment count : Nat)
    (owners : List Nat) : Prop where
  length : owners.length = count
  turn : ∀ channel < count, ∃ turn, dealt[turn]? = some (attachment, channel) ∧
    owners[channel]? = some (turn % threads)

variable {threads attachment channel count thread turn : Nat} {channels owners : List Nat}
  {dealt : List (Nat × Nat)} {slot : Nat × Nat}

/-! ## Slots -/

theorem mem_slots :
    (attachment, channel) ∈ slots channels ↔
      ∃ count, channels[attachment]? = some count ∧ channel < count := by
  unfold slots
  simp only [List.mem_flatMap, List.mem_map, List.mem_range, Prod.mk.injEq, Prod.exists,
    List.mem_zipIdx_iff_getElem?]
  constructor
  · rintro ⟨count, index, hcount, _, hlt, rfl, rfl⟩
    exact ⟨count, hcount, hlt⟩
  · rintro ⟨count, hcount, hlt⟩
    exact ⟨count, attachment, hcount, channel, hlt, rfl, rfl⟩

theorem nodup_slots (channels : List Nat) : (slots channels).Nodup := by
  unfold slots
  rw [List.nodup_flatMap]
  constructor
  · rintro ⟨count, index⟩ -
    exact List.nodup_range.map fun _ _ h => (Prod.mk.inj h).2
  · have hplaces : (channels.zipIdx.map (·.2)).Nodup := by
      rw [List.zipIdx_map_snd]
      exact List.nodup_range'
    refine (List.pairwise_map.mp hplaces).imp ?_
    rintro ⟨count, index⟩ ⟨count', index'⟩ hne slot hslot hslot'
    obtain ⟨_, -, rfl⟩ := List.mem_map.mp hslot
    obtain ⟨_, -, hsame⟩ := List.mem_map.mp hslot'
    exact hne (Prod.mk.inj hsame).1.symm

/-! ## Shares -/

theorem share_concat : share threads (dealt ++ [slot]) thread =
    if dealt.length % threads = thread then share threads dealt thread ++ [slot]
    else share threads dealt thread := by
  unfold share
  rw [List.zipIdx_append, List.filter_append, List.map_append]
  by_cases h : dealt.length % threads = thread <;> simp [h]

theorem mem_share : slot ∈ share threads dealt thread ↔
    ∃ turn, dealt[turn]? = some slot ∧ turn % threads = thread := by
  simp [share, List.mem_zipIdx_iff_getElem?]

theorem share_sublist : (share threads dealt thread).Sublist dealt := by
  have hshare : (share threads dealt thread).Sublist (dealt.zipIdx.map (·.1)) :=
    List.filter_sublist.map _
  rwa [List.zipIdx_map_fst] at hshare

theorem length_share_eq_count (hthread : thread < threads) : (share threads dealt thread).length =
    dealt.length.count (· ≡ thread [MOD threads]) := by
  induction dealt using List.reverseRecOn with
  | nil => rfl
  | append_singleton dealt slot ih =>
    rw [share_concat, List.length_append, List.length_singleton, Nat.count_succ, ← ih]
    simp only [Nat.ModEq, Nat.mod_eq_of_lt hthread]
    split
    · rw [List.length_append, List.length_singleton]
    · rfl

theorem length_share (hthread : thread < threads) : (share threads dealt thread).length =
    dealt.length / threads + if thread < dealt.length % threads then 1 else 0 := by
  rw [length_share_eq_count hthread, Nat.count_modEq_card _ (Nat.zero_lt_of_lt hthread),
    Nat.mod_eq_of_lt hthread]

/-! ## The dealing -/

theorem Told.append (h : Told threads dealt attachment count owners) (more : List (Nat × Nat)) :
    Told threads (dealt ++ more) attachment count owners := by
  refine ⟨h.length, fun channel hchannel => ?_⟩
  obtain ⟨turn, hslot, howner⟩ := h.turn channel hchannel
  refine ⟨turn, ?_, howner⟩
  rw [List.getElem?_append_left (List.getElem?_eq_some_iff.mp hslot).1, hslot]

theorem Deal.after_nil : Deal.after threads [] = { owned := List.replicate threads [] } := by
  have howned : (List.range threads).map (share threads []) =
      List.replicate (List.range threads).length [] := List.map_const' ..
  rw [after, howned, List.length_range]
  rfl

theorem Deal.after_concat : Deal.after threads (dealt ++ [slot]) =
    { next := dealt.length + 1
      owned := (Deal.after threads dealt).owned.modify (dealt.length % threads) (· ++ [slot]) } := by
  have howned : (Deal.after threads (dealt ++ [slot])).owned =
      (Deal.after threads dealt).owned.modify (dealt.length % threads) (· ++ [slot]) := by
    apply List.ext_getElem
    · simp [after]
    · intro thread _ _
      simp only [after, List.getElem_modify, List.getElem_map, List.getElem_range, share_concat]
  rw [← howned, after, List.length_append, List.length_singleton]

theorem dealChannel_run (threads attachment channel : Nat) (dealt : List (Nat × Nat)) :
    (dealChannel threads attachment channel).run (.after threads dealt) =
      (dealt.length % threads, .after threads (dealt ++ [(attachment, channel)])) := by
  rw [Deal.after_concat]
  rfl

theorem dealChannels_run (threads attachment : Nat) (channels : List Nat) (dealt : List (Nat × Nat)) :
    (channels.mapM (dealChannel threads attachment)).run (.after threads dealt) =
      ((List.range' dealt.length channels.length).map (· % threads),
        .after threads (dealt ++ channels.map (attachment, ·))) := by
  induction channels generalizing dealt with
  | nil =>
    rw [List.map_nil, List.append_nil]
    rfl
  | cons channel rest ih =>
    rw [run_mapM_cons (dealChannel_run threads attachment channel dealt) (ih _), List.append_assoc,
      List.length_append]
    rfl

theorem dealAttachment_run (threads attachment count : Nat) (dealt : List (Nat × Nat)) :
    ∃ owners, (dealAttachment threads attachment count).run (.after threads dealt) =
        (owners, .after threads (dealt ++ (List.range count).map (attachment, ·))) ∧
      Told threads (dealt ++ (List.range count).map (attachment, ·)) attachment count owners := by
  refine ⟨_, dealChannels_run threads attachment (List.range count) dealt, ?_, ?_⟩
  · simp
  · intro channel hchannel
    exact ⟨dealt.length + channel, by simp [hchannel], by simp [hchannel]⟩

theorem dealing_run (threads first : Nat) (channels : List Nat) (dealt : List (Nat × Nat)) :
    ∃ owners, ((channels.zipIdx first).mapM fun (count, attachment) =>
        dealAttachment threads attachment count).run (.after threads dealt) =
          (owners, .after threads (dealt ++ slots channels first)) ∧
      ∀ place count, channels[place]? = some count →
        Told threads (dealt ++ slots channels first) (first + place) count (owners.getD place []) := by
  -- `dealt` are the channels dealt so far. What an attachment was told stays true when more are dealt.
  induction channels generalizing first dealt with
  | nil =>
    refine ⟨[], ?_, nofun⟩
    rw [slots, List.zipIdx_nil, List.flatMap_nil, List.append_nil]
    rfl
  | cons count rest ih =>
    obtain ⟨owners, hrun, htold⟩ := dealAttachment_run threads first count dealt
    obtain ⟨others, hrest, htoldRest⟩ :=
      ih (first + 1) (dealt ++ (List.range count).map (first, ·))
    have hslots : dealt ++ slots (count :: rest) first =
        dealt ++ (List.range count).map (first, ·) ++ slots rest (first + 1) := by
      rw [slots, List.zipIdx_cons, List.flatMap_cons, List.append_assoc]
      rfl
    rw [hslots]
    refine ⟨owners :: others, ?_, ?_⟩
    · exact run_mapM_cons hrun hrest
    · rintro (_ | place) count' hcount
      · obtain rfl : count = count' := by simpa using hcount
        exact htold.append _
      · rw [← Nat.add_assoc, Nat.add_right_comm]
        exact htoldRest place count' (by simpa using hcount)

theorem deal_eq (threads : Nat) (channels : List Nat) :
    ∃ owners, deal threads channels = (owners, .after threads (slots channels)) ∧
      ∀ attachment count, channels[attachment]? = some count →
        Told threads (slots channels) attachment count (owners.getD attachment []) := by
  obtain ⟨owners, hrun, htold⟩ := dealing_run threads 0 channels []
  rw [Deal.after_nil] at hrun
  exact ⟨owners, hrun, by simpa using htold⟩

example : deal 2 [3, 1, 2] = ([[0, 1, 0], [1], [0, 1]],
    ⟨6, [[(0, 0), (0, 2), (2, 0)], [(0, 1), (1, 0), (2, 1)]]⟩) := by
  decide

/-! ## Owners -/

theorem ownersOf_told (hcount : channels[attachment]? = some count) :
    Told threads (slots channels) attachment count (ownersOf threads channels attachment) := by
  obtain ⟨owners, hdeal, htold⟩ := deal_eq threads channels
  rw [ownersOf, hdeal]
  exact htold attachment count hcount

theorem owned_eq : owned threads channels thread =
    if thread < threads then share threads (slots channels) thread else [] := by
  obtain ⟨owners, hdeal, -⟩ := deal_eq threads channels
  rw [owned, hdeal]
  split <;> simp [Deal.after, *]

theorem mem_owned (hthreads : 0 < threads) : slot ∈ owned threads channels thread ↔
    ∃ turn, (slots channels)[turn]? = some slot ∧ turn % threads = thread := by
  rw [owned_eq]
  split
  · exact mem_share
  · next hthread =>
    refine ⟨nofun, ?_⟩
    rintro ⟨turn, -, rfl⟩
    exact absurd (Nat.mod_lt turn hthreads) hthread

theorem mem_slots_of_owned (hslot : slot ∈ owned threads channels thread) :
    thread < threads ∧ slot ∈ slots channels := by
  rw [owned_eq] at hslot
  split at hslot
  · next hthread => exact ⟨hthread, share_sublist.mem hslot⟩
  · cases hslot

theorem nodup_owned : (owned threads channels thread).Nodup := by
  rw [owned_eq]
  split
  · exact (nodup_slots channels).sublist share_sublist
  · exact List.nodup_nil

theorem exists_owner (hthreads : 0 < threads) (hslot : slot ∈ slots channels) :
    ∃ thread ∈ List.range threads, slot ∈ owned threads channels thread := by
  obtain ⟨turn, hturn⟩ := List.mem_iff_getElem?.mp hslot
  exact ⟨turn % threads, List.mem_range.mpr (Nat.mod_lt _ hthreads),
    (mem_owned hthreads).mpr ⟨turn, hturn, rfl⟩⟩

/-- A channel belongs to the thread that its attachment is told, once, and to no other. -/
theorem exists_only_owner (hthreads : 0 < threads) (hcount : channels[attachment]? = some count)
    (hchannel : channel < count) :
    ∃ thread < threads, (owned threads channels thread).count (attachment, channel) = 1 ∧
      (∀ other, (attachment, channel) ∈ owned threads channels other → other = thread) ∧
      (ownersOf threads channels attachment)[channel]? = some thread := by
  obtain ⟨turn, hturn, howner⟩ := (ownersOf_told hcount).turn channel hchannel
  refine ⟨turn % threads, Nat.mod_lt _ hthreads, ?_, ?_, howner⟩
  · exact List.count_eq_one_of_mem nodup_owned ((mem_owned hthreads).mpr ⟨turn, hturn, rfl⟩)
  · intro other hother
    obtain ⟨turn', hturn', rfl⟩ := (mem_owned hthreads).mp hother
    -- A channel has one turn only.
    obtain ⟨hlt, hget⟩ := List.getElem?_eq_some_iff.mp hturn
    obtain ⟨hlt', hget'⟩ := List.getElem?_eq_some_iff.mp hturn'
    rw [((nodup_slots channels).getElem_inj_iff).mp (hget'.trans hget.symm)]

theorem length_owned_le {other : Nat} (hthread : thread < threads) (hother : other < threads) :
    (owned threads channels thread).length ≤ (owned threads channels other).length + 1 := by
  rw [owned_eq, if_pos hthread, owned_eq, if_pos hother, length_share hthread, length_share hother]
  split <;> omega

end Pool

end Rollup
