import Rollup.Proofs.Copies
import Rollup.Proofs.TableMatch

/-!
# Roll-up

A persister hands what it drains to a downsampler. What a target was handed over a run comes to the
same as the copies of the records that came in, however these fell into rounds, and whether or not
loads and preparations failed. Only a round that breaks off can lose a record on the way.
-/

namespace Rollup

open Record

variable {σ M : Type} [Record M]

namespace PersisterStep

/-- The records that a step takes out of the window. -/
def drains (step : PersisterStep σ M) (state : PersisterState σ M) : List M :=
  if step.isDrain state.1 then state.1.toDrain else []

/-- The step is no round that breaks off. -/
def GoesThrough : PersisterStep σ M → PersisterState σ M → Prop
  | round answers now later, state => (state.round answers now later).1.isOk = true
  | _, _ => True

end PersisterStep

namespace PersisterState

/-- No round breaks off. An error that a load or a preparation answers is no reason to. -/
def Unbroken : List (PersisterStep σ M) → PersisterState σ M → Prop
  | [], _ => True
  | step :: rest, state => step.GoesThrough state ∧ Unbroken rest (step.run state)

/-- The records that some steps take out of the window. -/
def drained : List (PersisterStep σ M) → PersisterState σ M → List M
  | [], _ => []
  | step :: rest, state => step.drains state ++ drained rest (step.run state)

/-- After these steps comes the last drain of a run. -/
def LastDrain (done steps : List (PersisterStep σ M)) (state : PersisterState σ M) : Prop :=
  ∃ drain rest, steps = done ++ drain :: rest ∧ drain.isDrain (after done state).1 = true ∧
    Quiet rest (drain.run (after done state))

/-- However records come in, and whatever the others do short of breaking a round off, each target is
handed one copy of each drained record that is not coarser than it. For each identity whose copies are
admitted, what it was handed comes to the same as the copies of all that came in before the last
drain. -/
def RollsUp (M : Type) [Record M] [Accumulating M] (admits : List M → Prop) : Prop :=
  ∀ (σ τ : Type) [DecidableEq τ] (start : PersisterState σ M) (steps : List (PersisterStep σ M))
    (sampler : Downsampler τ) (level : Level) (target : τ),
    start.Fresh → start.2.handed = [] → Unbroken steps start →
    (sampler.targets.map (·.2)).Nodup → (level, target) ∈ sampler.targets →
    CopyEach level (drained steps start) (sampler.received target (after steps start).2.handed) ∧
    ∀ done, LastDrain done steps start → ∀ id, admits (about id (copiesAt level (accepted done))) →
      ∀ copies, copies.Perm (sampler.received target (after steps start).2.handed) →
        HeldAlike (foldOf id copies) (foldOf id (copiesAt level (accepted done)))

/-! ## What is handed on -/

theorem Unbroken.split {steps more : List (PersisterStep σ M)} {state : PersisterState σ M}
    (h : Unbroken (steps ++ more) state) :
    Unbroken steps state ∧ Unbroken more (after steps state) := by
  induction steps generalizing state with
  | nil => exact ⟨trivial, h⟩
  | cons step steps ih =>
    obtain ⟨hstep, hrest⟩ := h
    obtain ⟨hsteps, hmore⟩ := ih hrest
    exact ⟨⟨hstep, hsteps⟩, hmore⟩

theorem drained_of_quiet {steps : List (PersisterStep σ M)} {state : PersisterState σ M}
    (h : Quiet steps state) : drained steps state = [] := by
  induction steps generalizing state with
  | nil => rfl
  | cons step steps ih =>
    rw [drained, PersisterStep.drains, h.1, ih h.2]
    rfl

theorem Round.handed_eq {persister persister' : Persister M} {backend backend' : Backend σ M}
    {now later : Int} (h : Round persister backend now later persister' backend') :
    backend'.handed = backend.handed ++ if persister.isDue then persister.toDrain else [] := by
  cases h with
  | satOut due =>
    rw [due]
    exact (List.append_nil _).symm
  | wrote due _ beside =>
    rw [due]
    exact beside.handed

theorem handed_run [KeepsIdentity M] {backed : MetricId → M → Prop} {state : PersisterState σ M}
    (h : state.Ready backed) {step : PersisterStep σ M} (hthrough : step.GoesThrough state) :
    (step.run state).2.handed = state.2.handed ++ step.drains state := by
  cases step with
  | accept | endRound | fail => exact (List.append_nil _).symm
  | round answers now later =>
    obtain ⟨_, ended⟩ := (round_ends h answers now later).of_isOk hthrough
    exact Round.handed_eq ended

theorem Matched.handed [KeepsIdentity M] {state : PersisterState σ M} (h : state.Matched)
    {steps : List (PersisterStep σ M)} (hunbroken : Unbroken steps state) :
    (after steps state).2.handed = state.2.handed ++ drained steps state := by
  induction steps generalizing state with
  | nil => exact (List.append_nil _).symm
  | cons step steps ih =>
    rw [drained, ← List.append_assoc, ← handed_run h hunbroken.1]
    exact ih (h.step step).1 hunbroken.2

section

variable [Accumulating M] {state start : PersisterState σ M} {came waiting : List M}
  {steps done : List (PersisterStep σ M)}

theorem merges_toDrain {persister : Persister M} (hsound : persister.Sound)
    (hwaits : persister.Waits waiting) : Merges waiting persister.toDrain := by
  refine .of_distinct hsound.keyed.distinct (fun part hpart => ?_) (fun record hrecord => ?_)
  · exact (hwaits _).symm.trans (hsound.keyed.mem_toList_iff.mp hpart)
  · have hsome : foldOf (Record.id record) waiting ≠ none := by
      rw [ne_eq, foldOf_eq_none_iff]
      exact List.ne_nil_of_mem (mem_about.mpr ⟨hrecord, rfl⟩)
    obtain ⟨whole, hwhole⟩ := Option.ne_none_iff_exists'.mp hsome
    have hheld := (hwaits _).trans hwhole
    exact List.mem_map.mpr ⟨whole, Buffer.mem_toList.mpr ⟨_, hheld⟩, hsound.keyed _ whole hheld⟩

variable [LawfulRecord M]

/-- What came in and does not wait was merged and handed on. -/
structure Relayed (state : PersisterState σ M) (came waiting : List M) : Prop where
  matched : state.Matched
  waits : state.1.Waits waiting
  merges : Merges came state.2.handed

theorem Fresh.relayed (h : start.Fresh) (hnone : start.2.handed = []) : start.Relayed [] [] := by
  refine ⟨h.matched, ?_, ?_⟩
  · obtain ⟨model, settings, hpersister⟩ := h.persister
    rw [hpersister]
    exact Buffer.get?_empty
  · rw [hnone]
    exact .nil

theorem Relayed.step (h : state.Relayed came waiting) {step : PersisterStep σ M}
    (hthrough : step.GoesThrough state) :
    if step.isDrain state.1 then (step.run state).Relayed (came ++ waiting) []
    else (step.run state).Relayed came (waiting ++ step.accepted?.toList) := by
  have hmatched := (h.matched.step step).1
  have hwaits := (step_does h.matched step).waits h.waits
  have hhanded := handed_run h.matched hthrough
  unfold PersisterStep.drains at hhanded
  split_ifs at hwaits hhanded ⊢
  · refine ⟨hmatched, hwaits, ?_⟩
    rw [hhanded]
    exact h.merges.append (merges_toDrain h.matched.toSound h.waits)
  · refine ⟨hmatched, hwaits, ?_⟩
    rw [hhanded, List.append_nil]
    exact h.merges

theorem Relayed.run (h : state.Relayed came waiting) (hunbroken : Unbroken steps state) :
    ∃ came' waiting', came' ++ waiting' = came ++ waiting ++ accepted steps ∧
      (after steps state).Relayed came' waiting' := by
  induction steps generalizing state came waiting with
  | nil => exact ⟨came, waiting, (List.append_nil _).symm, h⟩
  | cons step steps ih =>
    have hstep := h.step hunbroken.1
    split_ifs at hstep with hdrain
    · obtain ⟨came', waiting', hall, hrelayed⟩ := ih hstep hunbroken.2
      refine ⟨came', waiting', ?_, hrelayed⟩
      cases step with
      | round => rwa [List.append_nil] at hall
      | accept | endRound | fail => cases hdrain
    · obtain ⟨came', waiting', hall, hrelayed⟩ := ih hstep hunbroken.2
      refine ⟨came', waiting', ?_, hrelayed⟩
      rw [hall, accepted_cons]
      simp only [List.append_assoc]

theorem Unbroken.merges (h : Unbroken steps start) (hfresh : start.Fresh)
    (hnone : start.2.handed = []) (hlast : LastDrain done steps start) :
    Merges (accepted done) (after steps start).2.handed := by
  obtain ⟨drain, rest, rfl, hdrain, hquiet⟩ := hlast
  obtain ⟨hdone, hthrough, hrest⟩ := h.split
  obtain ⟨came, waiting, hall, hrelayed⟩ := (hfresh.relayed hnone).run hdone
  have hdrained := hrelayed.step hthrough
  rw [if_pos hdrain, hall] at hdrained
  -- What comes in after the drain is still waiting.
  have hsame : (after rest (drain.run (after done start))).2.handed =
      (drain.run (after done start)).2.handed := by
    rw [hdrained.matched.handed hrest, drained_of_quiet hquiet, List.append_nil]
  rw [after_append]
  show Merges (accepted done) (after rest (drain.run (after done start))).2.handed
  rw [hsame]
  exact hdrained.merges

theorem rollsUp_of_swappable [Rekeys M] {admits : List M → Prop}
    (hadmits : ∀ copies, admits copies → (∀ a ∈ copies, ∀ b ∈ copies, Record.id a = Record.id b) →
      copies.Pairwise Swappable) : RollsUp M admits := by
  intro σ τ _ start steps sampler level target hfresh hnone hunbroken hdistinct htarget
  rw [Downsampler.received_eq hdistinct htarget]
  refine ⟨?_, fun done hlast id hadmitted copies hcopies => ?_⟩
  · rw [hfresh.matched.handed hunbroken, hnone]
    exact copyEach_copiesAt level _
  · refine (hunbroken.merges hfresh hnone hlast).rollUp hcopies (hadmits _ hadmitted ?_)
    intro a ha b hb
    rw [(mem_about.mp ha).2, (mem_about.mp hb).2]

end

/-- What a target was handed comes to the same as the copies of what came in, for each of the stock
records: latest values of different moments, and histograms of one precision. -/
theorem copies_roll_up :
    RollsUp SumRecord (fun _ => True) ∧ RollsUp PeakRecord (fun _ => True) ∧
    RollsUp RateRecord (fun _ => True) ∧ RollsUp AverageRecord (fun _ => True) ∧
    RollsUp LatestRecord (List.Pairwise fun a b => a.observedAt.value ≠ b.observedAt.value) ∧
    RollsUp PercentileRecord fun copies =>
      ∀ a ∈ copies, ∀ b ∈ copies, a.precision.value = b.precision.value := by
  refine ⟨?_, ?_, ?_, ?_, ?_, ?_⟩
  · exact rollsUp_of_swappable fun _ _ hid => List.pairwise_of_forall_mem_list fun a ha b hb =>
      SumRecord.swappable (hid a ha b hb)
  · exact rollsUp_of_swappable fun _ _ hid => List.pairwise_of_forall_mem_list fun a ha b hb =>
      PeakRecord.swappable (hid a ha b hb)
  · exact rollsUp_of_swappable fun _ _ hid => List.pairwise_of_forall_mem_list fun a ha b hb =>
      RateRecord.swappable (hid a ha b hb)
  · exact rollsUp_of_swappable fun _ _ hid => List.pairwise_of_forall_mem_list fun a ha b hb =>
      AverageRecord.swappable (hid a ha b hb)
  · exact rollsUp_of_swappable fun _ hmoments hid => hmoments.imp_of_mem fun ha hb hmoment =>
      LatestRecord.swappable (hid _ ha _ hb) hmoment
  · exact rollsUp_of_swappable fun _ hprecision hid => List.pairwise_of_forall_mem_list fun a ha b hb =>
      PercentileRecord.swappable (hid a ha b hb) (hprecision a ha b hb)

/-- Sums of two minutes of one hour. The load of the first round fails, and the last record comes too
late for the second one. -/
theorem copies_roll_up_into_an_hour :
    let minute (number : Nat) (h : number < 1440) : MetricId :=
      ⟨.single "checkout", .containing ⟨.ofDays 0, number, h⟩ .minute rfl⟩
    let hour : MetricId := ⟨.single "checkout", .containing (.midnight (.ofDays 0)) .hour rfl⟩
    let start : PersisterState Unit SumRecord :=
      ({ model := { name := "orders", level := .minute } }, { others := () })
    let failing : OutsideAnswers Unit SumRecord
      | .load _ => pure (some (.unavailable "rows"))
      | _ => pure none
    let steps : List (PersisterStep Unit SumRecord) :=
      [.accept (.new (minute 1 (by decide)) 2), .accept (.new (minute 1 (by decide)) 3),
        .round failing 1000 1000, .accept (.new (minute 2 (by decide)) 4),
        .round (fun _ => pure none) 2000 2000, .accept (.new (minute 2 (by decide)) 9)]
    let sampler : Downsampler String := ⟨[(.hour, "hours"), (.day, "days")]⟩
    ∃ whole, foldOf hour (sampler.received "hours" (after steps start).2.handed) = some whole ∧
      whole.value.value = 9 := by
  intro minute hour start failing steps sampler
  have hfresh : start.Fresh := ⟨⟨_, _, rfl⟩, rfl⟩
  have hunbroken : Unbroken steps start := by
    simp only [Unbroken, PersisterStep.GoesThrough, steps, true_and, and_true]
    constructor <;> decide +kernel
  have hlast : LastDrain (steps.take 4) steps start :=
    ⟨_, _, rfl, by decide +kernel, by simp only [Quiet, PersisterStep.isDrain, and_self]⟩
  have hrolled := (copies_roll_up.1 Unit String start steps sampler .hour "hours" hfresh rfl hunbroken
    (by decide) (by decide)).2 _ hlast hour trivial _ (.refl _)
  have hraw : foldOf hour (copiesAt .hour (accepted (steps.take 4))) = some (.new hour 9) := by
    decide +kernel
  rw [hraw] at hrolled
  generalize foldOf hour (sampler.received "hours" (after steps start).2.handed) = held at hrolled ⊢
  cases hrolled with
  | some halike => exact ⟨_, rfl, (SumRecord.alike_iff.mp halike).2⟩

end PersisterState

end Rollup
