import Rollup.FirstLevel
import Rollup.Proofs.MergeOrder
import Rollup.Proofs.Refinement
import Rollup.Proofs.ServedQueues

/-!
# Intakes

A first aggregation at the end of a queue, with whatever comes after it. Its records are queued, merged
in its buffer, or handed on. Whenever the buffer is given out, what was handed on comes to the same as
what came out of the queue until then.
-/

namespace Rollup

open Record

variable {τ M : Type}

/-- What a first aggregation works with that is not its own. -/
structure Outlet (τ M : Type) where
  /-- What the wall clock shows. -/
  now : τ → Int
  /-- Takes in a merged record. -/
  next : M → StateM τ Unit

/-- A first aggregation, what comes after it, and the records that it has handed on. -/
structure Intake (τ M : Type) where
  stage : FirstLevel M
  others : τ
  forwarded : List M := []

namespace Intake

def stagePart : Part (Intake τ M) (FirstLevel M) := ⟨stage, fun intake stage => { intake with stage }⟩

def othersPart : Part (Intake τ M) τ := ⟨others, fun intake others => { intake with others }⟩

def forward (outlet : Outlet τ M) (record : M) : StateM (Intake τ M) Unit := do
  modify fun intake => { intake with forwarded := intake.forwarded ++ [record] }
  othersPart.run (outlet.next record)

def giveOut (outlet : Outlet τ M) (flush : FirstLevel M → List M × FirstLevel M) :
    StateM (Intake τ M) Unit := do
  let (records, stage) := flush (← get).stage
  modify ({ · with stage })
  records.forM (forward outlet)

def flush (outlet : Outlet τ M) : StateM (Intake τ M) Unit := giveOut outlet FirstLevel.flush

def flushIfDue (outlet : Outlet τ M) : StateM (Intake τ M) Unit := do
  let now := outlet.now (← get).others
  giveOut outlet (·.flushIfDue now)

variable [Record M]

def consumer (outlet : Outlet τ M) : Consumer (Intake τ M) M where
  consume _ batch := do
    stagePart.modify (·.absorb batch)
    flushIfDue outlet
    return ([], none)
  idle := flushIfDue outlet
  exit := flush outlet

def accept (outlet : Outlet τ M) (settings : PoolSettings) (phase : PoolPhase) (record : M) :
    StateM (ServedQueue (Intake τ M) M) (Except (Refused M) Unit) := do
  let answer ← Pool.produce settings phase (ServedQueue.line (consumer outlet)) record
  if answer.isOk then ServedQueue.othersPart.run (stagePart.modify (·.countAccepted))
  return answer

/-! ## What is given out -/

omit [Record M] in
theorem forM_forward_run (outlet : Outlet τ M) (records : List M) (intake : Intake τ M) :
    (records.forM (forward outlet)).run intake = ((), { intake with
      others := ((records.forM outlet.next).run intake.others).2
      forwarded := intake.forwarded ++ records }) := by
  induction records generalizing intake with
  | nil =>
    rw [List.append_nil]
    rfl
  | cons first rest ih =>
    show (rest.forM (forward outlet)).run ((forward outlet first).run intake).2 = _
    rw [ih, List.append_cons]
    rfl

def emptied (intake : Intake τ M) (last : Int) (others : τ) : Intake τ M where
  stage := (FirstLevel.flush { intake.stage with lastFlush := last }).2
  others
  forwarded := intake.forwarded ++ intake.stage.buffer.toList

/-- What comes after an intake, once it has taken in the buffer. -/
def served (outlet : Outlet τ M) (intake : Intake τ M) : τ :=
  ((intake.stage.buffer.toList.forM outlet.next).run intake.others).2

omit [Record M] in
theorem flush_run_eq (outlet : Outlet τ M) (intake : Intake τ M) : (flush outlet).run intake =
    ((), intake.emptied intake.stage.lastFlush (intake.served outlet)) :=
  forM_forward_run outlet intake.stage.flush.1 { intake with stage := intake.stage.flush.2 }

omit [Record M] in
theorem flush_run (outlet : Outlet τ M) (intake : Intake τ M) :
    ∃ last others, (flush outlet).run intake = ((), intake.emptied last others) :=
  ⟨_, _, flush_run_eq outlet intake⟩

omit [Record M] in
theorem flushIfDue_run_of_due (outlet : Outlet τ M) (intake : Intake τ M)
    (hdue : intake.stage.isDue (outlet.now intake.others)) : (flushIfDue outlet).run intake =
      ((), intake.emptied (outlet.now intake.others) (intake.served outlet)) := by
  have hrun := forM_forward_run outlet (intake.stage.flushIfDue (outlet.now intake.others)).1
    { intake with stage := (intake.stage.flushIfDue (outlet.now intake.others)).2 }
  refine hrun.trans ?_
  simp only [FirstLevel.flushIfDue, if_pos hdue]
  rfl

omit [Record M] in
theorem flushIfDue_run_of_not_due (outlet : Outlet τ M) (intake : Intake τ M)
    (hdue : ¬ intake.stage.isDue (outlet.now intake.others)) :
    (flushIfDue outlet).run intake = ((), intake) := by
  show ((intake.stage.flushIfDue (outlet.now intake.others)).1.forM (forward outlet)).run
    { intake with stage := (intake.stage.flushIfDue (outlet.now intake.others)).2 } = _
  simp only [FirstLevel.flushIfDue, if_neg hdue]
  rfl

omit [Record M] in
theorem flushIfDue_run (outlet : Outlet τ M) (intake : Intake τ M) :
    (flushIfDue outlet).run intake = ((), intake) ∨
      ∃ last others, (flushIfDue outlet).run intake = ((), intake.emptied last others) := by
  by_cases hdue : intake.stage.isDue (outlet.now intake.others)
  · exact .inr ⟨_, _, flushIfDue_run_of_due outlet intake hdue⟩
  · exact .inl (flushIfDue_run_of_not_due outlet intake hdue)

end Intake

/-! ## Buffers -/

variable [Record M]

theorem Buffer.Keyed.about_toList {buffer : Buffer M} (h : buffer.Keyed) (id : MetricId) :
    about id buffer.toList = (buffer.get? id).toList := by
  have hnodup : (about id buffer.toList).Nodup := (h.distinct.of_map _).filter _
  have hmem : ∀ record, record ∈ about id buffer.toList ↔ buffer.get? id = some record := by
    intro record
    rw [mem_about, h.mem_toList_iff]
    constructor
    · rintro ⟨hget, rfl⟩
      exact hget
    · intro hget
      obtain rfl := h id record hget
      exact ⟨hget, rfl⟩
  cases hget : buffer.get? id with
  | none => simpa [hget, ← List.eq_nil_iff_forall_not_mem] using hmem
  | some held =>
    apply List.perm_singleton.mp
    rw [List.perm_ext_iff_of_nodup hnodup (List.nodup_singleton held)]
    simp [hmem, hget, eq_comm]

/-! ## Soundness -/

namespace Intake

variable [Accumulating M]

/-- Of what came out of the queue, the buffer holds what came since it was last given out. What was
handed on comes to the same as all before that. -/
structure Sound (handed : List M) (count : Nat) (intake : Intake τ M) : Prop where
  keyed : intake.stage.buffer.Keyed
  counted : intake.stage.reported + intake.stage.accepted = count
  merged : ∃ flushed since, handed = flushed ++ since ∧
    (∀ id, intake.stage.buffer.get? id = foldOf id since) ∧
    ∀ id scale, (∀ record ∈ about id flushed, Accumulating.scale record = scale) →
      HeldAlike (foldOf id intake.forwarded) (foldOf id flushed)

variable {handed : List M} {count : Nat} {intake : Intake τ M}

theorem Sound.start (model : Model) (period : Duration) (now : Int) (others : τ) :
    Sound [] 0 ({ stage := .build model period now, others } : Intake τ M) where
  keyed := .empty
  counted := rfl
  merged := ⟨[], [], rfl, Buffer.get?_empty, fun _ _ _ => .refl _⟩

theorem Sound.absorb [KeepsIdentity M] (h : Sound handed count intake) (batch : List M) :
    Sound (handed ++ batch) count { intake with stage := intake.stage.absorb batch } := by
  obtain ⟨flushed, since, hsplit, hbuffer, hforwarded⟩ := h.merged
  refine ⟨h.keyed.acceptAll batch, h.counted, flushed, since ++ batch, ?_, fun id => ?_, hforwarded⟩
  · rw [hsplit, List.append_assoc]
  · show (intake.stage.buffer.acceptAll batch).get? id = _
    rw [Buffer.get?_acceptAll, hbuffer, foldOf, foldOf, about_append, joinedAll_append]

theorem Sound.folds [LawfulRecord M] (h : Sound handed count intake) {id : MetricId} {scale : UInt64}
    (hscale : ∀ record ∈ about id handed, Accumulating.scale record = scale) :
    HeldAlike (foldOf id (intake.forwarded ++ intake.stage.buffer.toList)) (foldOf id handed) := by
  obtain ⟨flushed, since, hsplit, hbuffer, hforwarded⟩ := h.merged
  rw [hsplit, about_append, List.forall_mem_append] at hscale
  have hbefore := hforwarded id scale hscale.1
  rw [hsplit, foldOf_append, foldOf_append, h.keyed.about_toList, hbuffer]
  -- What came since is one record in the buffer, if there was any.
  cases hsince : foldOf id since with
  | none =>
    rw [foldOf_eq_none_iff.mp hsince]
    exact hbefore
  | some whole =>
    have hid : Record.id whole = id := h.keyed id whole ((hbuffer id).trans hsince)
    have hfolds : Folds whole (about id since) := by
      refine ⟨fun record hrecord => (mem_about.mp hrecord).2.trans hid.symm, ?_⟩
      rw [← foldOf, hsince]
      exact .refl _
    have hheld : ∀ held ∈ foldOf id flushed, Accumulating.scale held = scale :=
      scale_held (by simp) hscale.1
    exact (hbefore.joinedAll [whole]).trans (hfolds.joined_alike hheld hscale.2)

theorem Sound.emptied [LawfulRecord M] (h : Sound handed count intake) (last : Int) (others : τ) :
    Sound handed count (intake.emptied last others) where
  keyed := .empty
  counted := h.counted
  merged := ⟨handed, [], (List.append_nil _).symm, Buffer.get?_empty, fun _ _ hscale => h.folds hscale⟩

/-- What is given out is about different identities, and is all that there was. -/
structure Flushes (before after : Intake τ M) : Prop where
  forwards : ∃ records, after.forwarded = before.forwarded ++ records ∧ (records.map Record.id).Nodup
  empties : after.stage.buffer = .empty

theorem Sound.flushes (h : Sound handed count intake) (last : Int) (others : τ) :
    Flushes intake (intake.emptied last others) := ⟨⟨_, rfl, h.keyed.distinct⟩, rfl⟩

section

variable [LawfulRecord M] (outlet : Outlet τ M)

theorem Sound.flush (h : Sound handed count intake) :
    Sound handed count ((Intake.flush outlet).run intake).2 := by
  obtain ⟨last, others, hrun⟩ := flush_run outlet intake
  rw [hrun]
  exact h.emptied last others

theorem Sound.flushIfDue (h : Sound handed count intake) :
    Sound handed count ((Intake.flushIfDue outlet).run intake).2 := by
  rcases flushIfDue_run outlet intake with hrun | ⟨last, others, hrun⟩
  · rw [hrun]
    exact h
  · rw [hrun]
    exact h.emptied last others

theorem line_respects : (ServedQueue.line (consumer outlet)).Respects fun served =>
    Sound served.handed count served.others where
  queue _ _ h := h
  consume _ batch _ h := (h.absorb batch).flushIfDue outlet
  onError _ _ _ _ h := h

end

end Intake

end Rollup
