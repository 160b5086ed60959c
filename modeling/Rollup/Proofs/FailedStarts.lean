import Mathlib.Data.List.Nodup
import Mathlib.Logic.Function.Basic
import Rollup.Proofs.Calls
import Rollup.Queue.Pool

/-!
# Starts that break off

A pool ties its queues to itself one by one, and none of them can be untied. A start that comes upon a
queue with a pool breaks off there and leaves the queues before it tied to a pool that never runs.
-/

namespace Rollup

open Rollup.Action

/-- Any queues, each with items of its own type, and everything else. -/
abbrev QueueFamily {ι : Type} (α : ι → Type) (τ : Type) := ((which : ι) → Queue (α which)) × τ

namespace QueueFamily

variable {ι τ : Type} [DecidableEq ι] {α : ι → Type}

def queue (which : ι) : Part (QueueFamily α τ) (Queue (α which)) where
  get family := family.1 which
  set family queue := (Function.update family.1 which queue, family.2)

/-- A queue that is to be attached, with its consumer. -/
structure Attached (α : ι → Type) (τ : Type) where
  which : ι
  consumer : Consumer (QueueFamily α τ) (α which)

def attachment (family : QueueFamily α τ) (attached : Attached α τ) : Attachment (QueueFamily α τ) :=
  Line.attachment ⟨queue attached.which, attached.consumer⟩
    (family.1 attached.which).channels.length

/-- Starts a pool with these queues. -/
def start (family : QueueFamily α τ) (settings : PoolSettings) (pool : List (Attached α τ)) :
    Except Fault Unit × QueueFamily α τ :=
  (Pool.start settings (pool.map family.attachment)).run.run family

/-- The threads that a pool deals to each of its queues. -/
def dealt (family : QueueFamily α τ) (settings : PoolSettings) (pool : List (Attached α τ)) :
    (place : Nat) → List Nat :=
  Pool.ownersOf settings.threads ((pool.map family.attachment).map (·.channels))

/-- The queue belongs to no pool. -/
def IsFree (family : QueueFamily α τ) (which : ι) : Prop := (family.1 which).owners = none

/-- No queue has a pool, and none is attached twice. -/
def Attachable (family : QueueFamily α τ) (queues : List ι) : Prop :=
  queues.Nodup ∧ ∀ which ∈ queues, family.IsFree which

/-- Ties queues to a pool, which deals these threads to them. -/
def tie (family : QueueFamily α τ) (owners : (place : Nat) → List Nat) (queues : List ι) :
    QueueFamily α τ :=
  (fun which =>
    if which ∈ queues then { family.1 which with owners := some (owners (queues.idxOf which)) }
    else family.1 which, family.2)

/-- The first of these queues that cannot be attached stands behind those. -/
structure HaltsBehind (family : QueueFamily α τ) (queues before : List ι) (halted : ι) : Prop where
  reached : ∃ after, queues = before ++ halted :: after
  attachable : family.Attachable before
  taken : family.IsFree halted → halted ∈ before

variable {family : QueueFamily α τ} {settings : PoolSettings} {pool : List (Attached α τ)}
  {owners : (place : Nat) → List Nat} {queues before : List ι} {which halted : ι}

/-! ## Tying queues -/

theorem isFree_tie :
    (family.tie owners queues).IsFree which ↔ family.IsFree which ∧ which ∉ queues := by
  unfold IsFree tie
  by_cases h : which ∈ queues <;> simp [h]

theorem name_tie : ((family.tie owners queues).1 which).name = (family.1 which).name := by
  unfold tie
  by_cases h : which ∈ queues <;> simp [h]

theorem set_tie (h : which ∉ queues) :
    (queue which).set (family.tie owners queues)
        { (family.tie owners queues).1 which with owners := some (owners queues.length) } =
      family.tie owners (queues ++ [which]) := by
  refine Prod.ext (funext fun other => ?_) rfl
  by_cases hother : other = which
  · subst hother
    simp [queue, tie, h, List.idxOf_append_of_notMem h]
  · by_cases hmem : other ∈ queues
    · simp [queue, tie, hother, hmem, List.idxOf_append_of_mem hmem]
    · simp [queue, tie, hother, hmem]

omit [DecidableEq ι] in
theorem attachable_concat : family.Attachable (queues ++ [which]) ↔
    family.Attachable queues ∧ which ∉ queues ∧ family.IsFree which := by
  simp only [Attachable, List.nodup_append, List.mem_append, List.mem_singleton]
  constructor
  · rintro ⟨⟨hnodup, -, hapart⟩, hfree⟩
    exact ⟨⟨hnodup, fun other h => hfree other (.inl h)⟩, fun h => hapart which h which rfl rfl,
      hfree which (.inr rfl)⟩
  · rintro ⟨⟨hnodup, hfree⟩, hnot, hwhich⟩
    refine ⟨⟨hnodup, List.nodup_singleton which, ?_⟩, ?_⟩
    · rintro other hother _ rfl rfl
      exact hnot hother
    · rintro other (hother | rfl)
      · exact hfree other hother
      · exact hwhich

omit [DecidableEq ι] in
theorem HaltsBehind.not_attachable (h : family.HaltsBehind queues before halted) :
    ¬ family.Attachable queues := by
  obtain ⟨⟨after, rfl⟩, -, htaken⟩ := h
  rintro ⟨hnodup, hfree⟩
  have hmem : halted ∈ before := htaken (hfree halted (by simp))
  exact (List.nodup_append.mp hnodup).2.2 halted hmem halted (by simp) rfl

omit [DecidableEq ι] in
theorem HaltsBehind.before_eq_nil_iff (h : family.HaltsBehind queues before halted) :
    before = [] ↔ ∀ first ∈ queues.head?, ¬ family.IsFree first := by
  obtain ⟨⟨after, rfl⟩, hattachable, htaken⟩ := h
  cases before with
  | nil => simpa using htaken
  | cons first rest => simpa using hattachable.2 first List.mem_cons_self

/-! ## The start of a pool -/

theorem attachment_bind_ends (seen : QueueFamily α τ) (attached : Attached α τ)
    (hbefore : family.Attachable before) :
    Ends ((seen.attachment attached).bind (owners before.length)) (family.tie owners before)
      (fun _ last => family.Attachable (before ++ [attached.which]) ∧
        last = family.tie owners (before ++ [attached.which]))
      (fun fault last => (family.IsFree attached.which → attached.which ∈ before) ∧
        fault = .alreadyAttached (family.1 attached.which).name ∧ last = family.tie owners before) := by
  rw [attachment, Line.attachment, ends_bind, ends_get, ends_bind, ends_liftM]
  have hfree : family.IsFree attached.which ∧ attached.which ∉ before ↔
      ((family.tie owners before).1 attached.which).owners = none := isFree_tie.symm
  constructor
  · intro bound hbound
    unfold Queue.bind at hbound
    split at hbound
    · cases hbound
    · next hnone =>
      cases hbound
      obtain ⟨hwhich, hnot⟩ := hfree.mpr hnone
      exact ⟨attachable_concat.mpr ⟨hbefore, hnot, hwhich⟩, set_tie hnot⟩
  · intro fault hfault
    unfold Queue.bind at hfault
    split at hfault
    · next hsome =>
      cases hfault
      refine ⟨fun hwhich => ?_, congrArg _ name_tie, rfl⟩
      by_contra hnot
      cases hsome.symm.trans (hfree.mp ⟨hwhich, hnot⟩)
    · cases hfault

theorem attachments_bind_ends (owners : (place : Nat) → List Nat) (seen : QueueFamily α τ)
    (rest : List (Attached α τ))
    (hbefore : family.Attachable before) :
    Ends (((rest.map seen.attachment).zipIdx before.length).forM fun (attachment, index) =>
        attachment.bind (owners index)) (family.tie owners before)
      (fun _ last => family.Attachable (before ++ rest.map (·.which)) ∧
        last = family.tie owners (before ++ rest.map (·.which)))
      (fun fault last => ∃ tied halted,
        family.HaltsBehind (before ++ rest.map (·.which)) tied halted ∧
        fault = .alreadyAttached (family.1 halted).name ∧ last = family.tie owners tied) := by
  -- `before` are the queues tied so far, and `rest` those still to come.
  induction rest generalizing before with
  | nil =>
    simp only [List.map_nil, List.append_nil]
    exact ⟨hbefore, rfl⟩
  | cons attached rest ih =>
    show Ends ((seen.attachment attached).bind (owners before.length) >>= fun _ =>
      ((rest.map seen.attachment).zipIdx (before.length + 1)).forM _) _ _ _
    rw [ends_bind]
    refine (attachment_bind_ends seen attached hbefore).mono ?_ ?_
    · rintro _ last ⟨hmore, rfl⟩
      have hrest := ih hmore
      rw [List.length_append, List.append_assoc] at hrest
      exact hrest
    · rintro fault last ⟨htaken, rfl, rfl⟩
      exact ⟨before, attached.which, ⟨⟨_, rfl⟩, hbefore, htaken⟩, rfl, rfl⟩

theorem ends_forM_state {σ β : Type} {s : σ} (items : List β) (call : β → StateM σ Unit) :
    Ends (items.forM fun item => liftM (call item)) s (fun _ _ => True) fun _ _ => False :=
  Ends.forM (fun _ _ => True) trivial fun _ _ _ _ _ _ => (ends_liftM_state _).mpr trivial

/-- How a start ends. -/
theorem start_ends (family : QueueFamily α τ) (settings : PoolSettings) (pool : List (Attached α τ)) :
    Ends (Pool.start settings (pool.map family.attachment)) family
      (fun _ last => settings.threads ≤ addressable ∧ settings.canNameThreads = true ∧
        family.Attachable (pool.map (·.which)) ∧
        last = family.tie (family.dealt settings pool) (pool.map (·.which)))
      (fun fault last =>
        settings.threads ≤ addressable ∧ (∃ before halted,
          family.HaltsBehind (pool.map (·.which)) before halted ∧
          fault = .alreadyAttached (family.1 halted).name ∧
          last = family.tie (family.dealt settings pool) before) ∨
        settings.canNameThreads = false ∧ family.Attachable (pool.map (·.which)) ∧
          fault = .badSetting .name ∨
        addressable < settings.threads ∧ fault = .outOfMemory) := by
  unfold Pool.start
  by_cases hroom : settings.threads ≤ addressable
  · have hcheck : checkRoom settings.threads = .ok () := if_pos hroom
    have hbound : Ends (Pool.bind settings (pool.map family.attachment)) family _ _ :=
      attachments_bind_ends (family.dealt settings pool) family pool ⟨List.nodup_nil, by simp⟩
    rw [hcheck, ends_bind, ends_liftM_ok, ends_bind]
    refine hbound.mono ?_ ?_
    · rintro _ last ⟨hattachable, rfl⟩
      cases hname : settings.canNameThreads with
      | true => exact (ends_pure _).mpr ⟨hroom, rfl, hattachable, rfl⟩
      | false =>
        refine (ends_bind _ _).mpr ((ends_forM_state _ _).mono (fun _ _ _ => ?_) nofun)
        refine (ends_bind _ _).mpr ((ends_forM_state _ _).mono (fun _ _ _ => ?_) nofun)
        exact (ends_throw _).mpr (.inr (.inl ⟨rfl, hattachable, rfl⟩))
    · rintro fault last ⟨tied, halted, hhalts, hfault, hlast⟩
      exact .inl ⟨hroom, tied, halted, hhalts, hfault, hlast⟩
  · have hcheck : checkRoom settings.threads = .error .outOfMemory := if_neg hroom
    rw [hcheck, ends_bind, ends_liftM_error]
    exact .inr (.inr ⟨Nat.not_le.mp hroom, rfl⟩)

theorem start_ok_iff : (family.start settings pool).1 = .ok () ↔
    settings.threads ≤ addressable ∧ settings.canNameThreads = true ∧
      family.Attachable (pool.map (·.which)) := by
  unfold start
  obtain ⟨_, _, hrun, hroom, hname, hattachable, -⟩ | ⟨_, _, hrun, hbroken⟩ :=
    (start_ends family settings pool).run_cases <;> rw [hrun]
  · exact ⟨fun _ => ⟨hroom, hname, hattachable⟩, fun _ => rfl⟩
  · refine ⟨nofun, fun ⟨hroom, hname, hattachable⟩ => ?_⟩
    obtain ⟨-, before, halted, hhalts, -⟩ | ⟨hname', -⟩ | ⟨hlt, -⟩ := hbroken
    · exact absurd hattachable hhalts.not_attachable
    · cases hname.symm.trans hname'
    · exact absurd hroom (Nat.not_le.mpr hlt)

theorem start_of_not_attachable (hroom : settings.threads ≤ addressable)
    (htaken : ¬ family.Attachable (pool.map (·.which))) :
    ∃ before halted, family.HaltsBehind (pool.map (·.which)) before halted ∧
      family.start settings pool = (.error (.alreadyAttached (family.1 halted).name),
        family.tie (family.dealt settings pool) before) := by
  unfold start
  obtain ⟨_, _, hrun, -, -, hattachable, -⟩ | ⟨_, _, hrun, hbroken⟩ :=
    (start_ends family settings pool).run_cases <;> rw [hrun]
  · exact absurd hattachable htaken
  · obtain ⟨-, before, halted, hhalts, rfl, rfl⟩ | ⟨-, hattachable, -⟩ | ⟨hlt, -⟩ := hbroken
    · exact ⟨before, halted, hhalts, rfl⟩
    · exact absurd hattachable htaken
    · exact absurd hroom (Nat.not_le.mpr hlt)

/-- A start that comes upon a queue with a pool, or upon one for the second time, breaks off there. The
queues before it stay tied, and no others: a later start succeeds with those that were free and did not
stand before it. So nothing is tied only if the first queue had a pool already. -/
theorem failed_starts_keep_the_queues_before (family : QueueFamily α τ) (settings : PoolSettings)
    (pool : List (Attached α τ)) (hroom : settings.threads ≤ addressable)
    (htaken : ¬ family.Attachable (pool.map (·.which))) :
    ∃ before halted, family.HaltsBehind (pool.map (·.which)) before halted ∧
      family.start settings pool = (.error (.alreadyAttached (family.1 halted).name),
        family.tie (family.dealt settings pool) before) ∧
      (∀ which, (family.start settings pool).2.IsFree which ↔ family.IsFree which ∧ which ∉ before) ∧
      ((∀ which, family.IsFree which → (family.start settings pool).2.IsFree which) ↔
        ∀ first ∈ (pool.map (·.which)).head?, ¬ family.IsFree first) ∧
      ∀ (other : PoolSettings) (later : List (Attached α τ)),
        ((family.start settings pool).2.start other later).1 = .ok () ↔
          other.threads ≤ addressable ∧ other.canNameThreads = true ∧
            (later.map (·.which)).Nodup ∧
            ∀ which ∈ later.map (·.which), family.IsFree which ∧ which ∉ before := by
  obtain ⟨before, halted, hhalts, hstart⟩ := start_of_not_attachable hroom htaken
  refine ⟨before, halted, hhalts, hstart, ?_, ?_, ?_⟩ <;> rw [hstart]
  · exact fun _ => isFree_tie
  · rw [← hhalts.before_eq_nil_iff]
    constructor
    · intro hfree
      refine List.eq_nil_iff_forall_not_mem.mpr fun which hmem => ?_
      exact (isFree_tie.mp (hfree which (hhalts.attachable.2 which hmem))).2 hmem
    · rintro rfl which hwhich
      exact isFree_tie.mpr ⟨hwhich, List.not_mem_nil⟩
  · intro other later
    rw [start_ok_iff]
    simp only [Attachable, isFree_tie]

/-- Three queues, the second of which belongs to a pool. -/
def threeQueues : QueueFamily (fun _ : Fin 3 => Int) Unit :=
  (fun which => { (Queue.absent : Queue Int) with
    name := toString which.val
    capacity := 1
    channels := [[]]
    owners := if which = 1 then some [0] else none }, ())

/-- Attaches them in this order, to consumers that take whatever comes. -/
def inOrder (queues : List (Fin 3)) : List (Attached (fun _ : Fin 3 => Int) Unit) :=
  queues.map fun which => ⟨which, { consume := fun _ _ => pure ([], none) }⟩

/-- The first of the three is tied, and the third can go to another pool. -/
theorem failed_starts_keep_the_queue_before_the_second :
    ∃ before halted, threeQueues.HaltsBehind [0, 1, 2] before halted ∧ 0 ∈ before ∧ 2 ∉ before ∧
      threeQueues.start {} (inOrder [0, 1, 2]) = (.error (.alreadyAttached "1"),
        threeQueues.tie (threeQueues.dealt {} (inOrder [0, 1, 2])) before) ∧
      ((threeQueues.start {} (inOrder [0, 1, 2])).2.start {} (inOrder [2])).1 = .ok () := by
  have htaken : ¬ threeQueues.Attachable ((inOrder [0, 1, 2]).map (·.which)) := fun h => by
    cases h.2 1 (by decide)
  obtain ⟨before, halted, hhalts, hstart, hfree, -, hlater⟩ :=
    failed_starts_keep_the_queues_before threeQueues {} (inOrder [0, 1, 2]) (by decide) htaken
  have hname : (threeQueues.start {} (inOrder [0, 1, 2])).1 = .error (.alreadyAttached "1") := rfl
  have hfirst : ¬ (threeQueues.start {} (inOrder [0, 1, 2])).2.IsFree 0 := nofun
  have hthird : (threeQueues.start {} (inOrder [0, 1, 2])).2.IsFree 2 := rfl
  refine ⟨before, halted, hhalts, ?_, ((hfree 2).mp hthird).2, ?_, ?_⟩
  · by_contra hnot
    exact hfirst ((hfree 0).mpr ⟨rfl, hnot⟩)
  · exact hstart.trans (Prod.ext ((congrArg Prod.fst hstart).symm.trans hname) rfl)
  · refine (hlater {} (inOrder [2])).mpr ⟨by decide, by decide, List.nodup_singleton _, ?_⟩
    intro which hwhich
    obtain rfl : which = 2 := List.mem_singleton.mp hwhich
    exact (hfree 2).mp hthird

/-- The first of the three had no pool, and after a start that broke off it has one. -/
theorem a_failed_start_ties_a_free_queue :
    ¬ ∀ (family : QueueFamily (fun _ : Fin 3 => Int) Unit) (settings : PoolSettings)
      (pool : List (Attached (fun _ : Fin 3 => Int) Unit)) (name : String),
      (family.start settings pool).1 = .error (.alreadyAttached name) →
      ∀ which, family.IsFree which → (family.start settings pool).2.IsFree which := by
  intro h
  cases h threeQueues {} (inOrder [0, 1]) "1" rfl 0 rfl

end QueueFamily

end Rollup
