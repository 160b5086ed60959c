import Rollup.Engine.Flow
import Rollup.Proofs.Calls

/-!
# Delivery

Handing a record on changes the stations, fronts and sinks that it reaches and their queues. The store,
the clock and every other station stay as they are.
-/

namespace Rollup

variable {σ α β : Type}

theorem run_bind_of_eq {call : StateM σ α} {s s' : σ} {answer : α} (h : call.run s = (answer, s'))
    (next : α → StateM σ β) : (call >>= next).run s = (next answer).run s' := by
  rw [StateT.run_bind, h]
  rfl

theorem run_get_bind (next : σ → StateM σ β) (s : σ) : (get >>= next).run s = (next s).run s := rfl

theorem Part.run_of_eq (part : Part σ β) (s : σ) {call : StateM β α} {answer : α} {b : β}
    (h : call.run (part.get s) = (answer, b)) : (part.run call).run s = (answer, part.set s b) := by
  show ((call.run (part.get s)).1, part.set s (call.run (part.get s)).2) = _
  rw [h]

theorem modify_congr {items : List α} {index : Nat} {item : α} (hitem : items[index]? = some item)
    {change change' : α → α} (h : change item = change' item) :
    items.modify index change = items.modify index change' := by
  apply List.ext_getElem?
  intro other
  by_cases hindex : index = other
  · subst hindex
    simp [hitem, h]
  · simp [hindex]

/-! ## Calls that preserve -/

/-- What holds of a state still holds when the call has run. -/
def Preserves (call : StateM σ α) (holds : σ → Prop) : Prop := ∀ s, holds s → holds (call.run s).2

namespace Preserves

variable {holds : σ → Prop}

theorem pure (answer : α) : Preserves (Pure.pure answer : StateM σ α) holds := fun _ h => h

theorem bind {call : StateM σ α} {next : α → StateM σ β} (hcall : Preserves call holds)
    (hnext : ∀ answer, Preserves (next answer) holds) : Preserves (call >>= next) holds :=
  fun s h => hnext _ _ (hcall s h)

theorem get_bind {next : σ → StateM σ β} (h : ∀ s, holds s → holds ((next s).run s).2) :
    Preserves (get >>= next) holds := h

theorem modify {change : σ → σ} (h : ∀ s, holds s → holds (change s)) :
    Preserves (modify change : StateM σ PUnit) holds := h

theorem partModify {part : Part σ β} {change : β → β}
    (h : ∀ s b, holds s → holds (part.set s b)) : Preserves (part.modify change) holds :=
  fun s hs => h s _ hs

theorem partModifyGet {part : Part σ β} {change : β → α × β}
    (h : ∀ s b, holds s → holds (part.set s b)) : Preserves (part.modifyGet change) holds :=
  fun s hs => h s _ hs

theorem forM {items : List α} {call : α → StateM σ PUnit}
    (h : ∀ item ∈ items, Preserves (call item) holds) : Preserves (items.forM call) holds := by
  induction items with
  | nil => exact pure _
  | cons first rest ih =>
    exact (h first List.mem_cons_self).bind fun _ =>
      ih fun item hitem => h item (List.mem_cons_of_mem _ hitem)

end Preserves

/-! ## Queues on the way -/

/-- Neither the queue nor the consumer of a line disturbs what holds. -/
structure Line.Respects (line : Line σ α) (holds : σ → Prop) : Prop where
  queue : ∀ s queue, holds s → holds (line.queue.set s queue)
  consume : ∀ runner batch, Preserves (line.consumer.consume runner batch) holds
  onError : ∀ runner batch error, Preserves (line.consumer.onError runner batch error) holds

namespace Line.Respects

variable {holds : σ → Prop} {line : Line σ α}

theorem runBatch (h : line.Respects holds) (runner : Runner) (batch : List α) :
    Preserves (line.runBatch runner batch) holds := by
  refine (h.consume runner batch).bind ?_
  rintro ⟨left, _ | error⟩
  · exact .pure _
  · exact (Preserves.partModify h.queue).bind fun _ => h.onError runner left error

theorem finish (h : line.Respects holds) (runner : Runner) (batch : List α) :
    Preserves (line.finish runner batch) holds :=
  (h.runBatch runner batch).bind fun _ => .partModify h.queue

theorem produce (h : line.Respects holds) (item : α) (wait : Wait) :
    Preserves (line.produce item wait) holds := by
  refine (Preserves.partModifyGet h.queue).bind ?_
  rintro (_ | _ | item | _)
  · exact .pure _
  · exact .pure _
  · exact (h.runBatch .caller [item]).bind fun _ =>
      (Preserves.partModify h.queue).bind fun _ => .pure _
  · exact .pure _

theorem drainBatches (h : line.Respects holds) (runner : Runner) (channel batchSize count : Nat) :
    Preserves (line.drainBatches runner channel batchSize count) holds := by
  induction count with
  | zero => exact .pure _
  | succ count ih =>
    refine (Preserves.partModifyGet h.queue).bind fun batch => ?_
    split
    · exact .pure _
    · refine (h.finish runner batch).bind fun _ => ?_
      split
      · exact .pure _
      · exact ih.bind fun _ => .pure _

theorem drain (h : line.Respects holds) (runner : Runner) (channel batchSize : Nat) :
    Preserves (line.drain runner channel batchSize) holds :=
  fun s hs => h.drainBatches runner channel batchSize _ s hs

theorem poolProduce (h : line.Respects holds) (settings : PoolSettings) (phase : PoolPhase)
    (item : α) : Preserves (Pool.produce settings phase line item) holds := by
  apply Preserves.get_bind
  intro s hs
  dsimp only
  split
  · refine Preserves.bind ?_ (fun _ => h.produce item .timesOut) s hs
    exact h.drain _ _ _
  · exact h.produce item .timesOut s hs

end Line.Respects

/-- The target leads to no queue or window of this station. -/
def Target.Avoids (index : Nat) : Target → Prop
  | .nowhere => True
  | .sink _ => True
  | .station other => other ≠ index
  | .copies sampler => ∀ target ∈ sampler.targets, target.2 ≠ index

namespace Engine

variable {M : Type} {index : Nat} {before : Engine M}

section

variable [Record M] {holds : Engine M → Prop}
  (h : ∀ engine change, holds engine → holds (engine.modifyStation index change))

include h

theorem stationLine_respects_of : (stationLine (M := M) index).Respects holds where
  queue engine _ hengine := h engine _ hengine
  consume _ _ := (Preserves.modify fun engine => h engine _).bind fun _ => .pure _
  onError _ _ _ := .pure _

theorem acceptAt_preserves_of (record : M) : Preserves (acceptAt index record) holds := by
  apply Preserves.get_bind
  intro engine hengine
  cases engine.stations[index]? with
  | none => exact hengine
  | some station =>
    dsimp only
    have hcount : ∀ answer : Except (Refused M) Unit, Preserves (do
        if answer.isOk then modify (modifyPersister index (·.countAccepted))
        return answer) holds := by
      intro answer
      split
      · exact (Preserves.modify fun engine => h engine _).bind fun _ => .pure _
      · exact .pure _
    split
    · exact ((stationLine_respects_of h).poolProduce _ _ _).bind hcount engine hengine
    · exact ((Preserves.modify fun engine => h engine _).bind fun _ =>
        (Preserves.pure _).bind hcount) engine hengine

end

theorem deliver_preserves_of [Record M] {holds : Engine M → Prop}
    (hsinks : ∀ engine sinks, holds engine → holds { engine with sinks })
    (haccept : ∀ index record, Preserves (acceptAt index record) holds) (target : Target) (record : M) :
    Preserves (deliver target record) holds := by
  cases target with
  | nowhere => exact .pure _
  | sink index => exact .modify fun engine => hsinks engine _
  | station index => exact (haccept index record).bind fun _ => .pure _
  | copies sampler => exact Preserves.forM fun copy _ => (haccept _ _).bind fun _ => .pure _

/-! ## Stations apart -/

/-- The store, the clock and this station are those of an earlier state. -/
def Apart (index : Nat) (before engine : Engine M) : Prop :=
  engine.store = before.store ∧ engine.clock = before.clock ∧
    engine.stations[index]? = before.stations[index]?

theorem Apart.refl (index : Nat) (engine : Engine M) : Apart index engine engine := ⟨rfl, rfl, rfl⟩

theorem Apart.modifyStation {engine : Engine M} (h : Apart index before engine) {other : Nat}
    (hother : other ≠ index) (change : Station M → Station M) :
    Apart index before (engine.modifyStation other change) := by
  refine ⟨h.1, h.2.1, ?_⟩
  rw [← h.2.2]
  exact List.getElem?_modify_ne change engine.stations hother

variable [Record M]

theorem acceptAt_preserves {other : Nat} (hother : other ≠ index) (record : M) :
    Preserves (acceptAt other record) (Apart index before) :=
  acceptAt_preserves_of (fun _ change h => h.modifyStation hother change) record

theorem deliver_preserves {target : Target} (htarget : target.Avoids index) (record : M) :
    Preserves (deliver target record) (Apart index before) := by
  cases target with
  | nowhere => exact .pure _
  | sink other => exact .modify fun _ h => h
  | station other => exact (acceptAt_preserves htarget record).bind fun _ => .pure _
  | copies sampler =>
    refine Preserves.forM ?_
    rintro ⟨other, copy⟩ hcopy
    obtain ⟨⟨level, target⟩, htarget', hcopy⟩ := List.mem_filterMap.mp hcopy
    obtain ⟨_, _, hcopy⟩ := Option.map_eq_some_iff.mp hcopy
    cases hcopy
    exact (acceptAt_preserves (htarget _ htarget') _).bind fun _ => .pure _

end Engine

end Rollup
