import Rollup.Proofs.Delivery

/-!
# Mirrors

A queue with its consumer is part of some system. What happens to it there is what happens to it on its
own, as far as a relation between the two systems says. It is enough that this holds of the queue and of
the consumer: then it holds of every call that produces or drains.
-/

namespace Rollup

variable {σ τ α β γ : Type}

/-- The calls answer the same, and keep the relation up. -/
def Mirrors (holds : τ → σ → Prop) (inner : StateM τ α) (outer : StateM σ α) : Prop :=
  ∀ t s, holds t s → (outer.run s).1 = (inner.run t).1 ∧ holds (inner.run t).2 (outer.run s).2

namespace Mirrors

variable {holds : τ → σ → Prop}

theorem pure (answer : α) : Mirrors holds (Pure.pure answer) (Pure.pure answer) :=
  fun _ _ h => ⟨rfl, h⟩

theorem bind {inner : StateM τ α} {outer : StateM σ α} {next : α → StateM τ β}
    {next' : α → StateM σ β} (h : Mirrors holds inner outer)
    (hnext : ∀ answer, Mirrors holds (next answer) (next' answer)) :
    Mirrors holds (inner >>= next) (outer >>= next') := by
  intro t s hts
  obtain ⟨hanswer, hlast⟩ := h t s hts
  show ((next' (outer.run s).1).run _).1 = _ ∧ holds _ ((next' (outer.run s).1).run _).2
  rw [hanswer]
  exact hnext _ _ _ hlast

theorem get_bind {next : τ → StateM τ β} {next' : σ → StateM σ β}
    (h : ∀ t s, holds t s → Mirrors holds (next t) (next' s)) :
    Mirrors holds (get >>= next) (get >>= next') := fun t s hts => h t s hts t s hts

theorem modify {change : τ → τ} {change' : σ → σ}
    (h : ∀ t s, holds t s → holds (change t) (change' s)) :
    Mirrors holds (modify change : StateM τ PUnit) (modify change') := fun t s hts => ⟨rfl, h t s hts⟩

theorem ite {p : Prop} [Decidable p] {inner inner' : StateM τ α} {outer outer' : StateM σ α}
    (h : Mirrors holds inner outer) (h' : Mirrors holds inner' outer') :
    Mirrors holds (if p then inner else inner') (if p then outer else outer') := by
  split
  · exact h
  · exact h'

theorem onOk {ε : Type} {call : StateM τ Unit} {call' : StateM σ Unit} (h : Mirrors holds call call')
    (answer : Except ε Unit) :
    Mirrors holds
      (do
        if answer.isOk then call
        return answer)
      (do
        if answer.isOk then call'
        return answer) := by
  split
  · exact h.bind fun _ => pure _
  · exact pure _

theorem forM {items : List γ} {call : γ → StateM τ PUnit} {call' : γ → StateM σ PUnit}
    (h : ∀ item ∈ items, Mirrors holds (call item) (call' item)) :
    Mirrors holds (items.forM call) (items.forM call') := by
  induction items with
  | nil => exact pure _
  | cons first rest ih =>
    exact (h first List.mem_cons_self).bind fun _ =>
      ih fun item hitem => h item (List.mem_cons_of_mem _ hitem)

end Mirrors

/-- The queues are the same, and the consumers are mirrors. -/
structure Line.Mirrored (holds : τ → σ → Prop) (inner : Line τ α) (outer : Line σ α) : Prop where
  get : ∀ {t s}, holds t s → outer.queue.get s = inner.queue.get t
  set : ∀ {t s}, holds t s → ∀ queue, holds (inner.queue.set t queue) (outer.queue.set s queue)
  consume : ∀ runner batch,
    Mirrors holds (inner.consumer.consume runner batch) (outer.consumer.consume runner batch)
  onError : ∀ runner left error,
    Mirrors holds (inner.consumer.onError runner left error) (outer.consumer.onError runner left error)

namespace Line.Mirrored

variable {holds : τ → σ → Prop} {inner : Line τ α} {outer : Line σ α}

theorem modifyQueue (h : Mirrored holds inner outer) (change : Queue α → Queue α) :
    Mirrors holds (inner.queue.modify change) (outer.queue.modify change) := by
  intro t s hts
  refine ⟨rfl, ?_⟩
  show holds _ (outer.queue.set s (change (outer.queue.get s)))
  rw [h.get hts]
  exact h.set hts _

theorem modifyGetQueue (h : Mirrored holds inner outer) (change : Queue α → β × Queue α) :
    Mirrors holds (inner.queue.modifyGet change) (outer.queue.modifyGet change) := by
  intro t s hts
  show (change (outer.queue.get s)).1 = _ ∧ holds _ (outer.queue.set s (change (outer.queue.get s)).2)
  rw [h.get hts]
  exact ⟨rfl, h.set hts _⟩

theorem runBatch (h : Mirrored holds inner outer) (runner : Runner) (batch : List α) :
    Mirrors holds (inner.runBatch runner batch) (outer.runBatch runner batch) := by
  refine (h.consume runner batch).bind ?_
  rintro ⟨left, _ | error⟩
  · exact .pure _
  · exact (h.modifyQueue _).bind fun _ => h.onError runner left error

theorem finish (h : Mirrored holds inner outer) (runner : Runner) (batch : List α) :
    Mirrors holds (inner.finish runner batch) (outer.finish runner batch) :=
  (h.runBatch runner batch).bind fun _ => h.modifyQueue _

theorem produce (h : Mirrored holds inner outer) (item : α) (wait : Wait) :
    Mirrors holds (inner.produce item wait) (outer.produce item wait) := by
  refine (h.modifyGetQueue _).bind ?_
  rintro (_ | _ | item | _)
  · exact .pure _
  · exact .pure _
  · exact (h.runBatch .caller [item]).bind fun _ => (h.modifyQueue _).bind fun _ => .pure _
  · exact .pure _

theorem drainBatches (h : Mirrored holds inner outer) (runner : Runner)
    (channel batchSize count : Nat) : Mirrors holds (inner.drainBatches runner channel batchSize count)
      (outer.drainBatches runner channel batchSize count) := by
  induction count with
  | zero => exact .pure _
  | succ count ih =>
    refine (h.modifyGetQueue _).bind fun batch => .ite (.pure _) ?_
    exact (h.finish runner batch).bind fun _ => .ite (.pure _) (ih.bind fun _ => .pure _)

theorem drain (h : Mirrored holds inner outer) (runner : Runner) (channel batchSize : Nat) :
    Mirrors holds (inner.drain runner channel batchSize) (outer.drain runner channel batchSize) := by
  apply Mirrors.get_bind
  intro t s hts
  dsimp only
  rw [h.get hts]
  exact h.drainBatches runner channel batchSize _

theorem poolProduce (h : Mirrored holds inner outer) (settings : PoolSettings) (phase : PoolPhase)
    (item : α) : Mirrors holds (Pool.produce settings phase inner item)
      (Pool.produce settings phase outer item) := by
  apply Mirrors.get_bind
  intro t s hts
  dsimp only
  rw [h.get hts]
  refine Mirrors.ite ?_ (h.produce item .timesOut)
  exact (h.drain _ _ _).bind fun _ => h.produce item .timesOut

/-- A pool that is started finds the same queue on both sides, so both are bound or neither is. -/
theorem bind (h : Mirrored holds inner outer) {t : τ} {s : σ} (hts : holds t s) (channels : Nat)
    (owners : List Nat) : holds (((inner.attachment channels).bind owners).run.run t).2
      (((outer.attachment channels).bind owners).run.run s).2 := by
  have hrun : ∀ {ρ : Type} (line : Line ρ α) (r : ρ),
      ((((line.attachment channels).bind owners).run.run r).2 : ρ) =
        match (line.queue.get r).bind owners with
        | .ok queue => line.queue.set r queue
        | .error _ => r := by
    intro ρ line r
    refine (Action.ends_state fun after : ρ => after = match (line.queue.get r).bind owners with
      | .ok queue => line.queue.set r queue
      | .error _ => r).mp ?_
    rw [Line.attachment, Action.ends_bind, Action.ends_get, Action.ends_bind, Action.ends_liftM]
    refine ⟨fun queue hqueue => ?_, fun fault hfault => ?_⟩
    · rw [Action.ends_set, hqueue]
    · rw [hfault]
  rw [hrun, hrun, h.get hts]
  split
  · exact h.set hts _
  · exact hts

end Line.Mirrored

end Rollup
