import Rollup.Proofs.Dealing
import Rollup.Proofs.FailedStarts

/-!
# Owners of channels

A start deals the channels of its queues out to its threads and ties the queues one by one. Every channel
has one owner, and once all queues are tied, each knows the owners of its channels.
-/

namespace Rollup

open Rollup.Action

namespace QueueFamily

variable {ι τ : Type} [DecidableEq ι] {α : ι → Type}

/-- The numbers of channels of these queues. -/
def widths (family : QueueFamily α τ) (pool : List (Attached α τ)) : List Nat :=
  (pool.map family.attachment).map (·.channels)

/-- What a thread of a pool with these queues owns, each channel with the place of its queue. -/
def owned (family : QueueFamily α τ) (settings : PoolSettings) (pool : List (Attached α τ)) :
    (thread : Nat) → List (Nat × Nat) :=
  Pool.owned settings.threads (family.widths pool)

/-- Deals the channels out and ties the queues. -/
def bind (family : QueueFamily α τ) (settings : PoolSettings) (pool : List (Attached α τ)) :
    Except Fault Unit × QueueFamily α τ :=
  (Pool.bind settings (pool.map family.attachment)).run.run family

variable {family : QueueFamily α τ} {settings : PoolSettings} {pool : List (Attached α τ)}
  {attached : Attached α τ} {place : Nat}

theorem getElem?_widths : (family.widths pool)[place]? =
    pool[place]?.map fun attached => (family.1 attached.which).channels.length := by
  rw [widths, List.getElem?_map, List.getElem?_map, Option.map_map]
  rfl

theorem bind_cases (family : QueueFamily α τ) (settings : PoolSettings) (pool : List (Attached α τ)) :
    (family.Attachable (pool.map (·.which)) ∧ family.bind settings pool =
        (.ok (), family.tie (family.dealt settings pool) (pool.map (·.which)))) ∨
      (¬ family.Attachable (pool.map (·.which)) ∧
        ∃ fault, (family.bind settings pool).1 = .error fault) := by
  have hnone : family.Attachable [] := ⟨List.nodup_nil, by simp⟩
  have hends : Ends (Pool.bind settings (pool.map family.attachment)) family _ _ :=
    attachments_bind_ends (family.dealt settings pool) family pool hnone
  unfold bind
  obtain ⟨_, _, hrun, hattachable, rfl⟩ | ⟨_, _, hrun, _, _, hhalts, -⟩ := hends.run_cases
  · exact .inl ⟨hattachable, hrun⟩
  · exact .inr ⟨hhalts.not_attachable, _, congrArg Prod.fst hrun⟩

theorem bind_ok_iff :
    (family.bind settings pool).1 = .ok () ↔ family.Attachable (pool.map (·.which)) := by
  obtain ⟨hattachable, hbind⟩ | ⟨htaken, fault, hfault⟩ := bind_cases family settings pool
  · rw [hbind]
    exact iff_of_true rfl hattachable
  · rw [hfault]
    exact iff_of_false nofun htaken

theorem owners_of_bind_ok (hbind : (family.bind settings pool).1 = .ok ())
    (hplace : pool[place]? = some attached) :
    ((family.bind settings pool).2.1 attached.which).owners =
      some (Pool.ownersOf settings.threads (family.widths pool) place) := by
  obtain ⟨⟨hnodup, -⟩, htied⟩ | ⟨-, fault, hfault⟩ := bind_cases family settings pool
  · have hwhich : (pool.map (·.which))[place]? = some attached.which := by
      rw [List.getElem?_map, hplace]
      rfl
    obtain ⟨hlt, hget⟩ := List.getElem?_eq_some_iff.mp hwhich
    have hmem : attached.which ∈ pool.map (·.which) := List.mem_of_getElem? hwhich
    have hidx : (pool.map (·.which)).idxOf attached.which = place := by
      rw [← hget]
      exact hnodup.idxOf_getElem place hlt
    rw [htied]
    simp only [tie, if_pos hmem, hidx]
    rfl
  · cases hbind.symm.trans hfault

/-- Each channel of a pool's queues is owned by one thread, once, and nothing else is owned. The numbers
of channels that two threads own differ by one at most. All queues are tied exactly if each of them can
be attached, and each then knows the owners of its channels. -/
theorem every_channel_has_one_owner (family : QueueFamily α τ) (settings : PoolSettings)
    (pool : List (Attached α τ)) (hthreads : 0 < settings.threads) :
    (∀ place attached channel, pool[place]? = some attached →
      channel < (family.1 attached.which).channels.length →
      ∃ thread < settings.threads,
        (family.owned settings pool thread).count (place, channel) = 1 ∧
        (∀ other, (place, channel) ∈ family.owned settings pool other → other = thread) ∧
        ((family.bind settings pool).1 = .ok () → ∃ owners,
          ((family.bind settings pool).2.1 attached.which).owners = some owners ∧
          owners.length = (family.1 attached.which).channels.length ∧
          owners[channel]? = some thread)) ∧
    (∀ thread place channel, (place, channel) ∈ family.owned settings pool thread →
      thread < settings.threads ∧ ∃ attached, pool[place]? = some attached ∧
        channel < (family.1 attached.which).channels.length) ∧
    (∀ one < settings.threads, ∀ other < settings.threads,
      (family.owned settings pool one).length ≤ (family.owned settings pool other).length + 1) ∧
    ((family.bind settings pool).1 = .ok () ↔ family.Attachable (pool.map (·.which))) := by
  refine ⟨fun place attached channel hplace hchannel => ?_, fun thread place channel hslot => ?_,
    fun one hone other hother => Pool.length_owned_le hone hother, bind_ok_iff⟩
  · have hwidth : (family.widths pool)[place]? = some (family.1 attached.which).channels.length := by
      rw [getElem?_widths, hplace]
      rfl
    obtain ⟨thread, hthread, honce, honly, howner⟩ :=
      Pool.exists_only_owner hthreads hwidth hchannel
    exact ⟨thread, hthread, honce, honly, fun hbind => ⟨_, owners_of_bind_ok hbind hplace,
      (Pool.ownersOf_told hwidth).length, howner⟩⟩
  · obtain ⟨hthread, hmem⟩ := Pool.mem_slots_of_owned hslot
    obtain ⟨width, hwidth, hchannel⟩ := Pool.mem_slots.mp hmem
    rw [getElem?_widths] at hwidth
    obtain ⟨attached, hplace, rfl⟩ := Option.map_eq_some_iff.mp hwidth
    exact ⟨hthread, attached, hplace, hchannel⟩

/-- Three queues of one channel, two and three. -/
def unevenQueues : QueueFamily (fun _ : Fin 3 => Int) Unit :=
  (fun which => { (Queue.absent : Queue Int) with
    name := toString which.val
    capacity := 1
    channels := List.replicate (which.val + 1) [] }, ())

/-- Two threads share the six channels. The last one is the second thread's. -/
theorem every_channel_has_one_owner_of_two :
    (unevenQueues.bind { threads := 2 } (inOrder [2, 0, 1])).1 = .ok () ∧
      (unevenQueues.owned { threads := 2 } (inOrder [2, 0, 1]) 1).count (2, 1) = 1 ∧
      (2, 1) ∉ unevenQueues.owned { threads := 2 } (inOrder [2, 0, 1]) 0 ∧
      ∃ owners, ((unevenQueues.bind { threads := 2 } (inOrder [2, 0, 1])).2.1 1).owners = some owners ∧
        owners.length = 2 ∧ owners[1]? = some 1 := by
  have hbind : (unevenQueues.bind { threads := 2 } (inOrder [2, 0, 1])).1 = .ok () := rfl
  have howned : (2, 1) ∈ unevenQueues.owned { threads := 2 } (inOrder [2, 0, 1]) 1 := by decide
  obtain ⟨heach, -⟩ :=
    every_channel_has_one_owner unevenQueues { threads := 2 } (inOrder [2, 0, 1]) (by decide)
  obtain ⟨thread, -, honce, honly, howners⟩ := heach 2 _ 1 rfl (by decide)
  obtain rfl : 1 = thread := honly 1 howned
  exact ⟨hbind, honce, fun hother => absurd (honly 0 hother) (by decide), howners hbind⟩

end QueueFamily

end Rollup
