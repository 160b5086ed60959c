import Rollup.Proofs.Dealing
import Rollup.Proofs.Delivery

/-!
# Passes

A pool drains any number of queues. Whatever all of them preserve, the pool preserves. Every channel of
every queue has an owner, so that a pass reaches it, and what is true of a channel once it is drained is
true when the pool has settled, if no other queue undoes it.
-/

namespace Rollup

variable {σ : Type}

namespace Pool

/-! ## What all queues preserve -/

theorem drainSlots_cons (settings : PoolSettings) (attachments : List (Attachment σ))
    (thread : Nat) (slot : Nat × Nat) (rest : List (Nat × Nat)) :
    drainSlots settings attachments thread (slot :: rest) = (do
      let drained ← (attachments[slot.1]?).elim (pure 0) fun attachment =>
        attachment.drain (.thread thread) slot.2 settings.batchSize
      return drained + (← drainSlots settings attachments thread rest)) := by
  rw [drainSlots]
  cases attachments[slot.1]? <;> rfl

section

variable {settings : PoolSettings} {attachments : List (Attachment σ)} {holds : σ → Prop}
  (h : ∀ attachment ∈ attachments, ∀ thread channel,
    Preserves (attachment.drain (.thread thread) channel settings.batchSize) holds)

include h

theorem drainSlots_preserves (thread : Nat) (slots : List (Nat × Nat)) :
    Preserves (drainSlots settings attachments thread slots) holds := by
  induction slots with
  | nil => exact .pure _
  | cons slot rest ih =>
    rw [drainSlots_cons]
    refine Preserves.bind ?_ fun _ => ih.bind fun _ => .pure _
    cases hget : attachments[slot.1]? with
    | none => exact .pure _
    | some attachment => exact h attachment (List.mem_of_getElem? hget) thread slot.2

theorem passThreads_preserves (threads : List Nat) :
    Preserves (passThreads settings attachments threads) holds := by
  induction threads with
  | nil => exact .pure _
  | cons thread rest ih =>
    exact (drainSlots_preserves h thread _).bind fun _ => ih.bind fun _ => .pure _

theorem passes_preserves (count : Nat) : Preserves (passes settings attachments count) holds := by
  induction count with
  | zero => exact .pure _
  | succ count ih =>
    refine (passThreads_preserves h _).bind fun drained => ?_
    split
    · exact ih
    · exact .pure _

theorem settle_preserves : Preserves (settle settings attachments) holds := passes_preserves h _

end

theorem idle_preserves {settings : PoolSettings} {attachments : List (Attachment σ)}
    {holds : σ → Prop} (h : ∀ attachment ∈ attachments, Preserves attachment.idle holds) :
    Preserves (idle settings attachments) holds := by
  refine Preserves.forM fun thread _ => Preserves.forM ?_
  rintro ⟨attachment, index⟩ hmem
  dsimp only
  split
  · obtain ⟨_, _, hattachment⟩ := List.mem_zipIdx hmem
    apply h
    rw [hattachment]
    exact List.getElem_mem _
  · exact .pure _

/-- What holds of the attachments' state and is respected by all that they do. -/
structure Respected (settings : PoolSettings) (attachments : List (Attachment σ)) (holds : σ → Prop) :
    Prop where
  drain : ∀ attachment ∈ attachments, ∀ thread channel,
    Preserves (attachment.drain (.thread thread) channel settings.batchSize) holds
  close : ∀ attachment ∈ attachments, Preserves attachment.close holds
  exit : ∀ attachment ∈ attachments, Preserves attachment.exit holds

namespace Respected

variable {settings : PoolSettings} {attachments : List (Attachment σ)} {holds : σ → Prop}
  (h : Respected settings attachments holds)

include h

theorem stop : Preserves (stop settings attachments) holds :=
  (Preserves.forM h.close).bind fun _ => (settle_preserves h.drain).bind fun _ =>
    Preserves.forM h.exit

end Respected

theorem respected_of_line {α : Type} {line : Line σ α} {holds : σ → Prop} (h : line.Respects holds)
    (hexit : Preserves line.consumer.exit holds) (settings : PoolSettings) (channels : Nat) :
    Respected settings [line.attachment channels] holds := by
  refine ⟨fun attachment hattachment => ?_, fun attachment hattachment => ?_,
    fun attachment hattachment => ?_⟩
  all_goals obtain rfl := List.mem_singleton.mp hattachment
  · exact fun thread channel => h.drain (.thread thread) channel settings.batchSize
  · exact .partModify h.queue
  · exact hexit

/-! ## What a pass reaches -/

section

variable {settings : PoolSettings} {attachments : List (Attachment σ)} {attachment : Attachment σ}
  {holds reached : σ → Prop} {index channel : Nat}
  (hkeeps : ∀ attachment ∈ attachments, ∀ thread channel,
    Preserves (attachment.drain (.thread thread) channel settings.batchSize) holds)
  (hstays : ∀ attachment ∈ attachments, ∀ thread channel,
    Preserves (attachment.drain (.thread thread) channel settings.batchSize)
      fun s => holds s ∧ reached s)
  (hattachment : attachments[index]? = some attachment)
  (hdrain : ∀ thread s, holds s →
    reached ((attachment.drain (.thread thread) channel settings.batchSize).run s).2)

include hkeeps hstays hattachment hdrain

theorem drainSlots_reaches {thread : Nat} {slots : List (Nat × Nat)} (hslot : (index, channel) ∈ slots)
    {s : σ} (hs : holds s) : holds ((drainSlots settings attachments thread slots).run s).2 ∧
      reached ((drainSlots settings attachments thread slots).run s).2 := by
  induction slots generalizing s with
  | nil => cases hslot
  | cons slot rest ih =>
    rw [drainSlots_cons]
    rcases List.mem_cons.mp hslot with rfl | hrest
    · have hfirst : holds ((attachment.drain (.thread thread) channel settings.batchSize).run s).2 :=
        hkeeps attachment (List.mem_of_getElem? hattachment) thread channel s hs
      simp only [hattachment]
      exact drainSlots_preserves hstays thread rest _ ⟨hfirst, hdrain thread s hs⟩
    · refine ih hrest ?_
      cases hget : attachments[slot.1]? with
      | none => exact hs
      | some other => exact hkeeps other (List.mem_of_getElem? hget) thread slot.2 s hs

theorem passThreads_reaches {threads : List Nat} {thread : Nat} (hthread : thread ∈ threads)
    (howned : (index, channel) ∈ owned settings.threads (attachments.map (·.channels)) thread) {s : σ}
    (hs : holds s) : holds ((passThreads settings attachments threads).run s).2 ∧
      reached ((passThreads settings attachments threads).run s).2 := by
  induction threads generalizing s with
  | nil => cases hthread
  | cons first rest ih =>
    rcases List.mem_cons.mp hthread with rfl | hrest
    · exact passThreads_preserves hstays rest _
        (drainSlots_reaches hkeeps hstays hattachment hdrain howned hs)
    · exact ih hrest (drainSlots_preserves hkeeps first _ s hs)

/-- What is true of a drained channel is true of it once the pool has settled. -/
theorem settle_reaches (hthreads : 0 < settings.threads) (hchannel : channel < attachment.channels)
    {s : σ} (hs : holds s) : holds ((settle settings attachments).run s).2 ∧
      reached ((settle settings attachments).run s).2 := by
  have hslot : (index, channel) ∈ slots (attachments.map (·.channels)) :=
    mem_slots.mpr ⟨attachment.channels, by simp [hattachment], hchannel⟩
  obtain ⟨thread, hthread, howned⟩ := exists_owner hthreads hslot
  have hpass := passThreads_reaches hkeeps hstays hattachment hdrain hthread howned hs
  have hrun : (pass settings attachments).run s = (_, ((pass settings attachments).run s).2) := rfl
  rw [settle, passes, run_bind_of_eq hrun]
  split
  · exact passes_preserves hstays _ _ hpass
  · exact hpass

end

end Pool

end Rollup
