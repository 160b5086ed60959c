import Rollup.Proofs.Conservation
import Rollup.Proofs.PoolFlow

/-!
# The flow through a front

The consumer of a front's queue merges batches into the buffer of the front, and what the front gives
out is in the window of the model's own station. So the queue, the buffer and the stations together hold
what the queue has kept.
-/

namespace Rollup

open SumRecord

namespace Engine

variable {engine : Engine SumRecord} {model : Model} {config : Config} {rounds : Nat}
  {front : Front SumRecord} {drained waiting : Nat → List SumRecord}

theorem Books.frontQueue_eq (h : engine.Books model config rounds front drained waiting) :
    (frontQueue 0).get engine = front.queue := by
  show ((engine.fronts[0]?).map (·.queue)).getD .absent = _
  rw [h.first]
  rfl

theorem giveOut_run (hfirst : engine.fronts[0]? = some front)
    (flush : FirstLevel SumRecord → List SumRecord × FirstLevel SumRecord) :
    (giveOut 0 flush).run engine = ((flush front.stage).1.forM (deliver front.target)).run
      (modifyStage 0 (fun _ => (flush front.stage).2) engine) := by
  rw [Engine.giveOut, run_get_bind, hfirst]
  rfl

theorem Books.giveOut (h : engine.Books model config rounds front drained waiting)
    (flush : FirstLevel SumRecord → List SumRecord × FirstLevel SumRecord)
    (hkeyed : (flush front.stage).2.buffer.Keyed) :
    ((giveOut 0 flush).run engine).2.Books model config rounds
      { front with stage := (flush front.stage).2 } drained
      (fun index => waiting index ++ if 0 = index then (flush front.stage).1 else []) := by
  have hstage : (modifyStage 0 (fun _ => (flush front.stage).2) engine).Books model config rounds
      { front with stage := (flush front.stage).2 } drained waiting := h.modifyFront _ rfl hkeyed
  have htook : Took _ (((flush front.stage).1.forM (deliver front.target)).run
      (modifyStage 0 (fun _ => (flush front.stage).2) engine)).2 _ :=
    forM_took (fun record _ hqueue => deliver_took hqueue front.target record) hstage.queueless
  have htaken : (fun index => (flush front.stage).1.flatMap (front.target.copiesFor index ·)) =
      fun index => if 0 = index then (flush front.stage).1 else [] := by
    funext index
    rw [h.target]
    show (flush front.stage).1.flatMap (fun record => if 0 = index then [record] else []) = _
    split
    · exact List.flatMap_singleton' _
    · exact List.flatMap_eq_nil_iff.mpr fun _ _ => rfl
  rw [htaken] at htook
  rw [giveOut_run h.first]
  exact hstage.took htook fun index hindex => if_neg (Nat.ne_of_lt hindex)

/-! ## What a queue hands to its front -/

/-- The front and the stations have all that has come out of the queue, but for a batch in hand. -/
def Accounts (model : Model) (config : Config) (rounds : Nat) (hand passed : List SumRecord)
    (engine : Engine SumRecord) : Prop := ∃ front drained waiting,
  engine.Books model config rounds front drained waiting ∧ ∀ counts,
    tally counts (drained 0 ++ waiting 0 ++ front.stage.buffer.toList ++ hand) = tally counts passed

/-- A way to give out that loses nothing of the buffer. -/
def Faithful (flush : FirstLevel SumRecord → List SumRecord × FirstLevel SumRecord) : Prop :=
  ∀ stage : FirstLevel SumRecord, stage.buffer.Keyed → (flush stage).2.buffer.Keyed ∧
    ∀ counts, tally counts ((flush stage).1 ++ (flush stage).2.buffer.toList) =
      tally counts stage.buffer.toList

theorem faithful_flush : Faithful FirstLevel.flush := by
  intro stage _
  refine ⟨Buffer.Keyed.empty, fun counts => ?_⟩
  show tally counts (stage.buffer.toList ++ (Buffer.empty : Buffer SumRecord).toList) = _
  rw [Buffer.toList_empty, List.append_nil]

theorem faithful_flushIfDue (now : Int) : Faithful (·.flushIfDue now) := by
  intro stage hkeyed
  simp only [FirstLevel.flushIfDue]
  split
  · exact faithful_flush { stage with lastFlush := now } hkeyed
  · exact ⟨hkeyed, fun counts => rfl⟩

namespace Accounts

variable {hand passed : List SumRecord}

theorem giveOut (h : Accounts model config rounds hand passed engine)
    {flush : FirstLevel SumRecord → List SumRecord × FirstLevel SumRecord} (hflush : Faithful flush) :
    Accounts model config rounds hand passed ((Engine.giveOut 0 flush).run engine).2 ∧
      (frontQueue 0).get ((Engine.giveOut 0 flush).run engine).2 = (frontQueue 0).get engine := by
  obtain ⟨front, drained, waiting, hbooks, htally⟩ := h
  obtain ⟨hkeyed, hgiven⟩ := hflush front.stage hbooks.keyed
  have hnext := hbooks.giveOut flush hkeyed
  refine ⟨⟨_, _, _, hnext, fun counts => ?_⟩, hnext.frontQueue_eq.trans hbooks.frontQueue_eq.symm⟩
  have hgiven := hgiven counts
  rw [← htally counts]
  simp only [if_true, tally_append, plus_assoc] at hgiven ⊢
  rw [← hgiven, plus_assoc]

theorem absorb (h : Accounts model config rounds hand passed engine) :
    Accounts model config rounds [] passed (modifyStage 0 (·.absorb hand) engine) := by
  obtain ⟨front, drained, waiting, hbooks, htally⟩ := h
  refine ⟨_, drained, waiting, hbooks.modifyFront _ rfl (.acceptAll hbooks.keyed hand),
    fun counts => ?_⟩
  have hbuffer := Buffer.tally_acceptAll counts hbooks.keyed hand
  rw [← htally counts]
  simp only [tally_append, tally_nil, plus_none]
  rw [plus_assoc _ _ (tally counts hand), ← hbuffer]
  rfl

end Accounts

theorem frontLine_carries :
    (frontLine (M := SumRecord) 0).Carries (Accounts model config rounds) where
  lens h queue := by
    obtain ⟨front, _, _, hbooks, _⟩ := h
    exact (hbooks.modifyFront ({ · with queue }) rfl hbooks.keyed).frontQueue_eq
  aside h queue := by
    obtain ⟨front, drained, waiting, hbooks, htally⟩ := h
    exact ⟨_, drained, waiting, hbooks.modifyFront ({ · with queue }) rfl hbooks.keyed, htally⟩
  pick h batch := by
    obtain ⟨front, drained, waiting, hbooks, htally⟩ := h
    refine ⟨front, drained, waiting, hbooks, fun counts => ?_⟩
    rw [tally_append _ batch, tally_append _ batch, ← htally, List.append_nil]
  consume runner {batch} {passed} {s} h := by
    have hrun : ((frontLine 0).consumer.consume runner batch).run s =
        (([], none), ((flushFrontIfDue 0).run (modifyStage 0 (·.absorb batch) s)).2) := rfl
    have hflushed := h.absorb.giveOut (faithful_flushIfDue
      (modifyStage 0 (·.absorb batch) s).clock.nowMillis)
    rw [hrun]
    refine ⟨rfl, hflushed.1, hflushed.2.trans ?_⟩
    obtain ⟨front, _, _, hbooks, _⟩ := h
    have habsorbed := hbooks.modifyFront (fun front => { front with stage := front.stage.absorb batch })
      rfl (.acceptAll hbooks.keyed batch)
    exact habsorbed.frontQueue_eq.trans hbooks.frontQueue_eq.symm

/-! ## A running engine -/

/-- All that the queue has kept is queued, or in the front and the stations. -/
def Keeping (engine : Engine SumRecord) (model : Model) (config : Config) (rounds : Nat)
    (kept : List SumRecord) : Prop :=
  (frontLine 0).Keeps (Accounts model config rounds) [] kept engine

namespace Keeping

variable {kept : List SumRecord}

theorem attachments_eq (h : engine.Keeping model config rounds kept) :
    Pooled.attachments engine =
      [(frontLine 0).attachment ((frontQueue 0).get engine).channels.length] := by
  obtain ⟨_, _, ⟨front, _, _, hbooks, _⟩, _⟩ := h
  show engine.inlets.filterMap engine.attachment? = _
  rw [hbooks.inlets, hbooks.frontQueue_eq]
  simp only [List.filterMap_cons, List.filterMap_nil, attachment?, hbooks.first, Option.map_some]

theorem pool (h : engine.Keeping model config rounds kept) :
    0 < engine.pool.threads ∧ 0 < engine.pool.batchSize := by
  obtain ⟨_, _, ⟨_, _, _, hbooks, _⟩, _⟩ := h
  exact hbooks.pool

theorem modifyStage (h : engine.Keeping model config rounds kept)
    (change : FirstLevel SumRecord → FirstLevel SumRecord)
    (hbuffer : ∀ stage, (change stage).buffer = stage.buffer) :
    (Engine.modifyStage 0 change engine).Keeping model config rounds kept := by
  obtain ⟨hready, passed, ⟨front, drained, waiting, hbooks, htally⟩, hperm⟩ := h
  have hkeyed : (change front.stage).buffer.Keyed := by
    rw [hbuffer]
    exact hbooks.keyed
  have hnext := hbooks.modifyFront (fun front => { front with stage := change front.stage }) rfl hkeyed
  have hqueue : (frontQueue 0).get (Engine.modifyStage 0 change engine) = (frontQueue 0).get engine :=
    hnext.frontQueue_eq.trans hbooks.frontQueue_eq.symm
  refine ⟨?_, passed, ⟨_, drained, waiting, hnext, fun counts => ?_⟩, ?_⟩
  · exact hqueue ▸ hready
  · rw [← htally, hbuffer]
  · exact hqueue ▸ hperm

theorem acceptFront (h : engine.Keeping model config rounds kept) (record : SumRecord) :
    ((Engine.acceptFront 0 record).run engine).2.Keeping model config rounds
      (((Pool.offeredTo engine.pool engine.phase (frontLine 0) record engine).offer record).1.keep kept
        record) := by
  obtain ⟨hkeeps, _⟩ := frontLine_carries.poolProduce h h.pool.2 engine.phase record
  have hproduce : (Pool.produce engine.pool engine.phase (frontLine 0) record).run engine =
      (_, ((Pool.produce engine.pool engine.phase (frontLine 0) record).run engine).2) := rfl
  rw [Engine.acceptFront, run_get_bind, run_bind_of_eq hproduce]
  split
  · exact modifyStage hkeeps FirstLevel.countAccepted fun _ => rfl
  · exact hkeeps

theorem flushFrontIfDue (h : engine.Keeping model config rounds kept) :
    ((Engine.flushFrontIfDue 0).run engine).2.Keeping model config rounds kept ∧
      (frontQueue 0).get ((Engine.flushFrontIfDue 0).run engine).2 = (frontQueue 0).get engine := by
  obtain ⟨hready, passed, haccounts, hperm⟩ := h
  obtain ⟨hnext, hqueue⟩ := haccounts.giveOut (faithful_flushIfDue engine.clock.nowMillis)
  exact ⟨⟨hqueue ▸ hready, passed, hnext, hqueue ▸ hperm⟩, hqueue⟩

theorem rest (h : engine.Keeping model config rounds kept) :
    (Pooled.rest.run engine).2.Keeping model config rounds kept := by
  rw [Pooled.rest, run_get_bind]
  split
  · rw [h.attachments_eq]
    refine (Pool.rest_preserves frontLine_carries h.pool.2 _ h.pool.1 ?_ engine ⟨h, rfl⟩).1
    intro other hother
    obtain ⟨hnext, hqueue⟩ := flushFrontIfDue hother.1
    exact ⟨hnext, (congrArg (·.channels.length) hqueue).trans hother.2⟩
  · exact h

theorem later (h : engine.Keeping model config rounds kept) {clock : Clock}
    (hclock : engine.clock.nowMillis ≤ clock.nowMillis) :
    Keeping { engine with clock } model config rounds kept := by
  obtain ⟨hready, passed, ⟨front, drained, waiting, hbooks, htally⟩, hperm⟩ := h
  exact ⟨hready, passed, ⟨front, drained, waiting, hbooks.later hclock, htally⟩, hperm⟩

theorem dated {passed : List SumRecord} (hkept : Dated model kept)
    (hpassed : ∀ record ∈ passed, record ∈ kept) {records : List SumRecord}
    (htally : ∀ counts, tally counts passed = none → tally counts records = none) :
    Dated model records := by
  intro hrelative record hrecord
  have hexpires := hkept hrelative
  have hnone : tally (fun id => !id.expires) passed = none := by
    refine tally_eq_none_iff.mpr fun other hother => ?_
    rw [hexpires other (hpassed other hother)]
    rfl
  have hcount := tally_eq_none_iff.mp (htally _ hnone) record hrecord
  simpa using hcount

theorem round (h : engine.Keeping model config rounds kept) (hupdate : model.supportUpdate = true)
    (hdated : Dated model kept) :
    (Engine.round.run engine).2.Keeping model config (rounds + 1) kept := by
  obtain ⟨hready, passed, ⟨front, drained, waiting, hbooks, htally⟩, hperm⟩ := h
  have hpassed : ∀ record ∈ passed, record ∈ kept := fun record hrecord =>
    hperm.mem_iff.mpr (List.mem_append_right _ hrecord)
  have hdated' : Dated model (drained 0 ++ waiting 0) := by
    refine dated hdated hpassed fun counts hnone => ?_
    rw [← htally counts] at hnone
    simp only [tally_append, plus_eq_none_iff] at hnone ⊢
    exact hnone.1.1
  obtain ⟨drained', waiting', hnext, hdrained, hwaiting, _⟩ := hbooks.round hupdate hdated'
  have hqueue := hnext.frontQueue_eq.trans hbooks.frontQueue_eq.symm
  refine ⟨hqueue ▸ hready, passed, ⟨front, drained', waiting', hnext, fun counts => ?_⟩, hqueue ▸ hperm⟩
  rw [hdrained, hwaiting, List.append_nil (drained 0 ++ waiting 0)]
  exact htally counts

theorem roundsAfter (h : engine.Keeping model config rounds kept) (hupdate : model.supportUpdate = true)
    (hdated : Dated model kept) (count : Nat) :
    ((Engine.rounds count).run engine).2.Keeping model config (rounds + count) kept := by
  induction count generalizing engine rounds with
  | zero => exact h
  | succ count ih =>
    have hrest := ih (h.round hupdate hdated)
    rw [Nat.add_assoc, Nat.add_comm 1] at hrest
    exact hrest

theorem stop (h : engine.Keeping model config rounds kept) : ∃ front drained waiting,
    (Pooled.stop.run engine).2.Books model config rounds front drained waiting ∧
      front.queue.waiting = [] ∧ front.stage.buffer = .empty ∧
      ∀ counts, tally counts (drained 0 ++ waiting 0) = tally counts kept := by
  obtain ⟨settled, hrun, hsettled, hempty⟩ := Pool.stop_empties frontLine_carries h.pool.2
    ((frontQueue 0).get engine).channels.length h h.pool.1 rfl
  obtain ⟨_, passed, ⟨front, drained, waiting, hbooks, htally⟩, hperm⟩ := hsettled
  have hflushed := hbooks.giveOut FirstLevel.flush .empty
  have hlast : (Pooled.stop.run engine).2 =
      { ((flushFront 0).run settled).2 with phase := .gone } := by
    rw [Pooled.stop, run_get_bind]
    show { ((Pool.stop engine.pool (Pooled.attachments engine)).run engine).2 with phase := .gone } = _
    rw [h.attachments_eq, hrun]
    rfl
  rw [hlast]
  refine ⟨_, _, _, { hflushed with }, ?_, rfl, fun counts => ?_⟩
  · exact hbooks.frontQueue_eq ▸ hempty
  · rw [hempty, List.nil_append] at hperm
    rw [tally_perm hperm, ← htally counts, List.append_nil,
      List.append_assoc _ _ front.stage.buffer.toList]
    rfl

end Keeping

end Engine

end Rollup
