import Rollup.Proofs.Passes
import Rollup.Proofs.QueueFlow

/-!
# The pool of one queue

A pool that drains one queue: its threads own every channel together, so a pass leaves nothing queued.
-/

namespace Rollup

variable {σ α : Type}

namespace Pool

/-- What some slots of the one queue were drained to. -/
structure Cleared (line : Line σ α) (carry : List α → List α → σ → Prop) (kept : List α)
    (slots : List (Nat × Nat)) (s s' : σ) : Prop where
  keeps : line.Keeps carry [] kept s'
  rules : Queue.SameRules (line.queue.get s) (line.queue.get s')
  empty : ∀ channel, (0, channel) ∈ slots ∨ (line.queue.get s).channel channel = [] →
    (line.queue.get s').channel channel = []

variable {line : Line σ α} {carry : List α → List α → σ → Prop} {kept : List α} {s s' : σ}
  {slots more : List (Nat × Nat)}

theorem Cleared.refl (hs : line.Keeps carry [] kept s) : Cleared line carry kept [] s s :=
  ⟨hs, .refl _, fun _ h => h.resolve_left List.not_mem_nil⟩

theorem Cleared.trans {s'' : σ} (h : Cleared line carry kept slots s s')
    (hmore : Cleared line carry kept more s' s'') :
    Cleared line carry kept (slots ++ more) s s'' := by
  refine ⟨hmore.keeps, h.rules.trans hmore.rules, fun channel hchannel => hmore.empty channel ?_⟩
  rw [List.mem_append] at hchannel
  rcases hchannel with (hslot | hslot) | hempty
  · exact .inr (h.empty channel (.inl hslot))
  · exact .inl hslot
  · exact .inr (h.empty channel (.inr hempty))

section

variable (h : line.Carries carry) {settings : PoolSettings} (hbatch : 0 < settings.batchSize)
  (count : Nat)

include h hbatch

theorem drain_cleared (hs : line.Keeps carry [] kept s) (runner : Runner) (channel : Nat) :
    Cleared line carry kept [(0, channel)] s
      ((line.drain runner channel settings.batchSize).run s).2 := by
  obtain ⟨hkeeps, hdrained, hempty⟩ := h.drain hs runner channel hbatch
  refine ⟨hkeeps, hdrained.rules, fun other hother => ?_⟩
  by_cases hsame : other = channel
  · rw [hsame]
    exact hempty
  · refine (hdrained.others other hsame).trans (hother.resolve_left ?_)
    simp [hsame]

theorem drainSlots_cleared (hs : line.Keeps carry [] kept s) (thread : Nat)
    (slots : List (Nat × Nat)) : Cleared line carry kept slots s
      ((drainSlots settings [line.attachment count] thread slots).run s).2 := by
  induction slots generalizing s with
  | nil => exact .refl hs
  | cons slot rest ih =>
    obtain ⟨index, channel⟩ := slot
    cases index with
    | zero =>
      have hfirst := drain_cleared h hbatch hs (.thread thread) channel
      exact hfirst.trans (ih hfirst.keeps)
    | succ index =>
      have hrest := ih hs
      refine ⟨hrest.keeps, hrest.rules, fun other hother => hrest.empty other ?_⟩
      simpa using hother

theorem passThreads_cleared (hs : line.Keeps carry [] kept s) (threads : List Nat) :
    Cleared line carry kept (threads.flatMap (owned settings.threads [count])) s
      ((passThreads settings [line.attachment count] threads).run s).2 := by
  induction threads generalizing s with
  | nil => exact .refl hs
  | cons thread rest ih =>
    have hfirst := drainSlots_cleared h hbatch count hs thread (owned settings.threads [count] thread)
    exact hfirst.trans (ih hfirst.keeps)

theorem passes_cleared (hs : line.Keeps carry [] kept s) (limit : Nat) :
    Cleared line carry kept [] s ((passes settings [line.attachment count] limit).run s).2 := by
  induction limit generalizing s with
  | zero => exact .refl hs
  | succ limit ih =>
    have hpass := passThreads_cleared h hbatch count hs (List.range settings.threads)
    have hfirst : Cleared line carry kept [] s
        ((pass settings [line.attachment count]).run s).2 :=
      ⟨hpass.keeps, hpass.rules, fun channel hchannel =>
        hpass.empty channel (.inr (hchannel.resolve_left List.not_mem_nil))⟩
    have hrun : (pass settings [line.attachment count]).run s =
        (_, ((pass settings [line.attachment count]).run s).2) := rfl
    rw [passes, run_bind_of_eq hrun]
    split
    · exact hfirst.trans (ih hfirst.keeps)
    · exact hfirst

theorem settle_empties (hs : line.Keeps carry [] kept s) (hthreads : 0 < settings.threads)
    (hcount : (line.queue.get s).channels.length = count) :
    line.Keeps carry [] kept ((settle settings [line.attachment count]).run s).2 ∧
      Queue.SameRules (line.queue.get s)
        (line.queue.get ((settle settings [line.attachment count]).run s).2) ∧
      (line.queue.get ((settle settings [line.attachment count]).run s).2).waiting = [] := by
  have hpass := passThreads_cleared h hbatch count hs (List.range settings.threads)
  have hrun : (pass settings [line.attachment count]).run s =
      (_, ((pass settings [line.attachment count]).run s).2) := rfl
  -- The first pass reaches every channel through its owner. A second one finds them empty.
  have hlast : Cleared line carry kept ((List.range settings.threads).flatMap
      (owned settings.threads [count])) s ((settle settings [line.attachment count]).run s).2 := by
    unfold settle
    rw [passes, run_bind_of_eq hrun]
    split
    · have hrest := hpass.trans (passes_cleared h hbatch count hpass.keeps 1)
      rw [List.append_nil] at hrest
      exact hrest
    · exact hpass
  refine ⟨hlast.keeps, hlast.rules, List.flatten_eq_nil_iff.mpr fun items hitems => ?_⟩
  obtain ⟨channel, hchannel, rfl⟩ := List.mem_iff_getElem.mp hitems
  rw [hlast.rules.length, hcount] at hchannel
  obtain ⟨thread, hthread, howned⟩ := exists_owner hthreads
    (mem_slots.mpr ⟨count, List.getElem?_cons_zero, hchannel⟩)
  have hempty := hlast.empty channel (.inl (List.mem_flatMap.mpr ⟨thread, hthread, howned⟩))
  rwa [Queue.channel, List.getD_eq_getElem?_getD, List.getElem?_eq_getElem, Option.getD_some] at hempty

theorem rest_preserves (hthreads : 0 < settings.threads)
    (hidle : Preserves line.consumer.idle fun s =>
      line.Keeps carry [] kept s ∧ (line.queue.get s).channels.length = count) :
    Preserves (rest settings [line.attachment count]) fun s =>
      line.Keeps carry [] kept s ∧ (line.queue.get s).channels.length = count := by
  have hsettle : Preserves (settle settings [line.attachment count]) fun s =>
      line.Keeps carry [] kept s ∧ (line.queue.get s).channels.length = count := by
    intro s hs
    obtain ⟨hkeeps, hrules, _⟩ := settle_empties h hbatch count hs.1 hthreads hs.2
    exact ⟨hkeeps, hrules.length.trans hs.2⟩
  unfold rest
  have hattached : ∀ attachment ∈ [line.attachment count], Preserves attachment.idle fun s =>
      line.Keeps carry [] kept s ∧ (line.queue.get s).channels.length = count :=
    List.forall_mem_singleton.mpr hidle
  exact hsettle.bind fun _ => (idle_preserves hattached).bind fun _ => hsettle

/-- A pool that stops drains all that is queued before its consumer goes. -/
theorem stop_empties (hs : line.Keeps carry [] kept s) (hthreads : 0 < settings.threads)
    (hcount : (line.queue.get s).channels.length = count) : ∃ settled,
      ((stop settings [line.attachment count]).run s).2 = (line.consumer.exit.run settled).2 ∧
      line.Keeps carry [] kept settled ∧ (line.queue.get settled).waiting = [] := by
  have hclosed := h.replace hs (line.queue.get s).close ⟨rfl, rfl⟩ rfl
  obtain ⟨_, _, hcarry, _⟩ := hs
  have hget := h.lens hcarry (line.queue.get s).close
  obtain ⟨hkeeps, _, hempty⟩ := settle_empties h hbatch count hclosed hthreads (by
    rw [hget]
    exact hcount)
  exact ⟨_, rfl, hkeeps, hempty⟩

end

end Pool

end Rollup
