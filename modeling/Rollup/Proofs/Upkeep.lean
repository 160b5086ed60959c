import Rollup.Proofs.SkippedRounds

/-!
# Upkeep of the session cache

A persister changes its session cache in the steps of a cache alone, each under the time of its round or
of the write it settles. So what is known of the lives of entries holds of a persister, and at the end
of a round none of its entries is older than the session timeout.
-/

namespace Rollup

open Rollup.Action

variable {σ M : Type} [Record M]

section

variable {holds : Int → Prop}

/-- The times that a turn comes with. -/
def Turn.readings : Turn σ M → List Int
  | build now | endRound now => [now]
  | settle callback _ => [callback.stamp]
  | accept _ | meanwhile _ => []

namespace PersisterRun

theorem next_tended {env : Surroundings σ M} (every : Nat) (run : PersisterRun σ M) {turn : Turn σ M}
    (hturn : ∀ reading ∈ turn.readings, holds reading) :
    run.persister.Tended holds (run.next env every turn).persister := by
  cases turn with
  | accept record => exact .of_eq rfl rfl
  | build now =>
    have hbuilt := (ends_state fun last : Persister M × Witnessed σ M =>
      run.persister.Worked holds last.1).mp (Persister.build_worked env.witnessed
        (hturn now (List.mem_singleton_self now)) run.persister run.outside)
    simp only [next, build]
    split_ifs <;> exact hbuilt.tended
  | endRound now =>
    exact .of_steps rfl [.evict now run.persister.settings.sessionTimeout]
      (List.forall_mem_singleton.mpr hturn) rfl
  | settle callback verdict =>
    exact .of_steps rfl [.settle callback verdict] (List.forall_mem_singleton.mpr hturn) rfl
  | meanwhile change => exact .refl _

theorem after_tended (env : Surroundings σ M) (model : Model) (settings : PersisterSettings)
    (outside : σ) {turns : List (Turn σ M)}
    (hturns : ∀ turn ∈ turns, ∀ reading ∈ turn.readings, holds reading) :
    Persister.Tended holds { model, settings }
      (after env model settings outside turns).persister := by
  induction turns using List.reverseRecOn with
  | nil => exact .refl _
  | append_singleton turns turn ih =>
    rw [List.forall_mem_append] at hturns
    rw [after, List.foldl_concat, ← after]
    exact (ih hturns.1).trans
      (next_tended settings.drainEvery _ (hturns.2 turn (List.mem_singleton_self turn)))

theorem age_after_endRound {now : Int} (hnow : Timestamp.InRange now) (env : Surroundings σ M)
    (model : Model) (settings : PersisterSettings) (outside : σ) {turns : List (Turn σ M)}
    (hturns : ∀ turn ∈ turns, ∀ reading ∈ turn.readings, Timestamp.InRange reading) {id : MetricId}
    {held : Session M}
    (hheld : (after env model settings outside (turns ++ [.endRound now])).persister.sessions.session?
      id = some held) : now - held.lastUpdate ≤ settings.sessionTimeout.millis := by
  obtain ⟨hsettings, steps, hsteps, hsessions⟩ := after_tended env model settings outside hturns
  rw [after, List.foldl_concat, ← after] at hheld
  obtain ⟨hbefore, hfresh⟩ := Sessions.session?_evict.mp hheld
  rw [hsessions] at hbefore
  rw [hsettings] at hfresh
  exact (Sessions.isFresh_iff hnow (Sessions.lastUpdate_of_after hsteps hbefore)).mp hfresh

end PersisterRun

end

/-- Whatever was put, settled, removed and evicted before, with times from the epoch on: an eviction
removes exactly the entries older than its timeout, and tells how many. An entry is the latest of those
with the greatest stamp that were put since it came into being, and its stamp has never gone back. When
a round of a persister has ended none of its entries is older than the session timeout. -/
theorem sessions_are_bounded_exactly {steps : List (SessionStep M)} {now : Int}
    (hsteps : ∀ step ∈ steps, ∀ stamp ∈ step.stamps, Timestamp.InRange stamp)
    (hnow : Timestamp.InRange now) :
    let cache := Sessions.after steps .empty
    (∀ timeout, cache.EvictsExactly now timeout) ∧
    (∀ id held, cache.session? id = some held →
      ∃ before first since, steps = before ++ first :: since ∧
        Lifetime id held before first since ∧
        ∀ during later entry entry', during <+: later → later <+: since →
          (Sessions.after (before ++ first :: during) .empty).session? id = some entry →
          (Sessions.after (before ++ first :: later) .empty).session? id = some entry' →
          entry.lastUpdate ≤ entry'.lastUpdate) ∧
    ∀ (env : Surroundings σ M) (model : Model) (settings : PersisterSettings) (outside : σ)
      (turns : List (Turn σ M)),
      (∀ turn ∈ turns, ∀ reading ∈ turn.readings, Timestamp.InRange reading) →
      ∀ id held, (PersisterRun.after env model settings outside
          (turns ++ [.endRound now])).persister.sessions.session? id = some held →
        now - held.lastUpdate ≤ settings.sessionTimeout.millis := by
  refine ⟨Sessions.evictsExactly hnow fun _ _ => Sessions.lastUpdate_of_after hsteps, ?_, ?_⟩
  · intro id held hheld
    obtain ⟨before, first, since, hsplit, hlife⟩ := exists_lifetime hheld
    exact ⟨before, first, since, hsplit, hlife, fun _ _ _ _ hduring hlater =>
      hlife.lastUpdate_le hduring hlater⟩
  · intro env model settings outside turns hturns _ _ hheld
    exact PersisterRun.age_after_endRound hnow env model settings outside hturns hheld

/-- A late confirmation changes nothing, and a second record of the same time takes the place of the
first. The persister caches what it loads. -/
theorem sessions_are_bounded_exactly_at_the_timeout :
    let id := MetricId.onFirstDay (.single "checkout")
    let steps : List (SessionStep SumRecord) := [.put (.new id 3) 1000,
      .settle ⟨.insert, .new id 4, 500⟩ .executed, .put (.new id 5) 1000]
    let cache := Sessions.after steps .empty
    let env : Surroundings Unit SumRecord := {
      load := fun _ _ => pure (.ok [.new id 3])
      prepare := fun _ _ _ => pure (.ok ())
      dispatch := fun _ _ => pure ()
      forward := fun _ => pure () }
    let settings : PersisterSettings := { sessionTimeout := .ofMillis 1000 }
    let ended := PersisterRun.after env { name := "orders", level := .day } settings ()
      [.accept (.new id 5), .build 1000, .endRound 2000]
    cache.session? id = some ⟨.new id 5, 1000⟩ ∧ cache.EvictsExactly 2000 (.ofMillis 999) ∧
      cache.evicted 2000 (.ofMillis 999) = 1 ∧ cache.evicted 2000 (.ofMillis 1000) = 0 ∧
      (∃ before first since, steps = before ++ first :: since ∧
        Lifetime id ⟨.new id 5, 1000⟩ before first since) ∧
      ended.persister.sessions.session? id = some ⟨.new id 8, 1000⟩ ∧
      ∀ held, ended.persister.sessions.session? id = some held →
        2000 - held.lastUpdate ≤ settings.sessionTimeout.millis := by
  intro id steps cache env settings ended
  have hcached : cache.session? id = some ⟨.new id 5, 1000⟩ := by decide +kernel
  have hsteps : ∀ step ∈ steps, ∀ stamp ∈ step.stamps, Timestamp.InRange stamp := by
    simp [steps, SessionStep.stamps, Timestamp.InRange, Timestamp.greatest]
  have hnow : Timestamp.InRange 2000 := ⟨by decide, by decide⟩
  obtain ⟨hevicts, hlives, hended⟩ := sessions_are_bounded_exactly (σ := Unit) hsteps hnow
  obtain ⟨before, first, since, hsplit, hlife, -⟩ := hlives id _ hcached
  refine ⟨hcached, hevicts _, by decide +kernel, by decide +kernel,
    ⟨before, first, since, hsplit, hlife⟩, by decide +kernel, fun held => ?_⟩
  exact hended env { name := "orders", level := .day } settings () [.accept (.new id 5), .build 1000]
    (by simp [Turn.readings, Timestamp.InRange, Timestamp.greatest]) id held

end Rollup
