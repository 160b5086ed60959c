import Rollup.Proofs.BrokenRounds
import Rollup.Proofs.Forgetting
import Rollup.Proofs.Insertions

/-!
# Retired rows

Storage deletes rows once they are old enough, and the persister is not told. Its session cache may
then have entries without a row, but they have lapsed: it behaves as if it had forgotten each of them
when its row was deleted. A persister that had would know of every entry that its row is there. So
inserts and updates fit all the same, and what was deleted is inserted again.
-/

namespace Rollup

open Rollup.Action

variable {σ M : Type} [Record M]

/-! ## Rounds of a persister that forgot -/

omit [Record M] in
theorem RowStore.mem_callback_of_told {store : RowStore} {writes : List (Write M)}
    {outcome : SessionCallback M × Verdict} (h : outcome ∈ (store.flush writes).2.1) :
    ∃ write ∈ writes, outcome.1 ∈ write.callback := by
  have htold : ∀ {write : Write M} {verdict : Verdict},
      outcome ∈ (write.conclude verdict).toList → outcome.1 ∈ write.callback := by
    intro write verdict houtcome
    obtain ⟨callback, hcallback, rfl⟩ := Option.map_eq_some_iff.mp (Option.mem_toList.mp houtcome)
    exact hcallback
  have happly : outcome ∈ (store.apply writes).1 → ∃ write ∈ writes, outcome.1 ∈ write.callback := by
    clear h
    induction writes generalizing store with
    | nil => exact fun h => absurd h List.not_mem_nil
    | cons write rest ih =>
      intro h
      rw [apply] at h
      split_ifs at h <;>
      · rcases List.mem_append.mp h with h | h
        · exact ⟨write, List.mem_cons_self, htold h⟩
        · obtain ⟨other, hother, hcallback⟩ := ih h
          exact ⟨other, List.mem_cons_of_mem _ hother, hcallback⟩
  unfold flush at h
  split_ifs at h
  · obtain ⟨write, hwrite, houtcome⟩ := List.mem_flatMap.mp h
    exact ⟨write, hwrite, htold houtcome⟩
  · exact happly h

namespace PersisterState

open Persister (Forgot)

variable {now : Int} {state shade : PersisterState σ M}

theorem forgot_flushAny {writes : List (Write M)} (h : Forgot now state shade)
    (hstamped : ∀ write ∈ writes, ∀ callback ∈ write.callback, callback.stamp = now) :
    ((Rounds.flushAny flush writes).run shade).1 = ((Rounds.flushAny flush writes).run state).1 ∧
      Forgot now ((Rounds.flushAny flush writes).run state).2
        ((Rounds.flushAny flush writes).run shade).2 := by
  obtain ⟨fewer, rfl⟩ := h.same
  obtain ⟨persister, backend⟩ := state
  unfold Rounds.flushAny
  split_ifs
  · exact ⟨rfl, h⟩
  · rw [flush_run, flush_run]
    refine ⟨rfl, ⟨_, rfl⟩, h.ages, h.forgets.settleAll fun outcome houtcome => ?_⟩
    obtain ⟨write, hwrite, hcallback⟩ := RowStore.mem_callback_of_told houtcome
    exact hstamped write hwrite _ hcallback

theorem forgot_clean (h : Forgot now state shade) : Forgot now state.clean shade.clean := by
  obtain ⟨fewer, rfl⟩ := h.same
  exact ⟨⟨fewer, rfl⟩, h.ages, h.forgets⟩

theorem forgot_round (h : Forgot now state shade) (answers : OutsideAnswers σ M) (later : Int) :
    Forgot now (state.round answers now later).2 (shade.round answers now later).2 := by
  have hclean := forgot_clean h
  obtain ⟨fewer, rfl⟩ := h.same
  have hround : Abreast
      (Rounds.runAlone flush (worker state.1.model.storageName answers now later)) state.clean
      (Rounds.runAlone flush (worker state.1.model.storageName answers now later))
      (clean ({ state.1 with sessions := fewer }, state.2)) (fun _ => Forgot now) (Forgot now) := by
    unfold Rounds.runAlone
    refine hclean.build.bind fun writes last last' ⟨hlast, hstamped⟩ => ?_
    obtain ⟨hanswer, hflushed⟩ := forgot_flushAny hlast hstamped
    simp only [abreast_state_left, abreast_state_right, hanswer, abreast_pure]
    obtain ⟨fewer, hsame⟩ := hflushed.same
    rw [hsame] at hflushed ⊢
    exact ⟨⟨_, rfl⟩, hflushed.ages, hflushed.forgets.evict later _⟩
  exact hround.states

end PersisterState

/-! ## Rows that are deleted -/

/-- What may happen to a persister over a storage that deletes old rows. -/
inductive AgingStep (σ M : Type) where
  | own (step : PersisterStep σ M)
  /-- Storage deletes the row of an identity, if it is old enough. -/
  | delete (now : Int) (id : MetricId)

namespace AgingStep

/-- What the clock shows in a step. -/
def readings : AgingStep σ M → List Int
  | own step => step.readings
  | delete now _ => [now]

def run (step : AgingStep σ M) (state : PersisterState σ M) : PersisterState σ M :=
  match step with
  | own step => step.run state
  | delete now id =>
    match Retention.isExpired id.bucket now state.1.settings.ttlDays with
    | .ok true => (state.1,
        { state.2 with store := state.2.store.delete ⟨state.1.model.storageName, id⟩ })
    | _ => state

end AgingStep

theorem RowStore.row?_delete (store : RowStore) (key other : RowKey) :
    (store.delete key).row? other = if key = other then none else store.row? other := by
  simp [row?, delete, Std.ExtTreeMap.getElem?_erase]

namespace PersisterState

open Persister (Forgot)

variable {start state shade : PersisterState σ M} {readings : List Int}

def aged (steps : List (AgingStep σ M)) (state : PersisterState σ M) : PersisterState σ M :=
  steps.foldl (fun state step => step.run state) state

theorem aged_snoc (steps : List (AgingStep σ M)) (step : AgingStep σ M) (state : PersisterState σ M) :
    aged (steps ++ [step]) state = step.run (aged steps state) := by
  simp [aged]

/-- After these readings a persister behaves like one that has forgotten what lapsed. Every entry of
that one has a row, and none is later than the readings. -/
structure Aging (readings : List Int) (state shade : PersisterState σ M) : Prop where
  forgot : ∀ now, (∀ shown ∈ readings, shown ≤ now) → Forgot now state shade
  matched : shade.Matched
  stamps : ∀ latest, (∀ shown ∈ readings, shown ≤ latest) → shade.1.sessions.Until latest

theorem Fresh.aging [KeepsIdentity M] (h : start.Fresh) (hages : start.1.model.Ages) :
    Aging [] start start :=
  ⟨fun _ _ => ⟨⟨start.1.sessions, rfl⟩, hages, .refl _⟩, h.matched, h.coherent.stamps⟩

theorem forgot_step {now : Int} (h : Forgot now state shade) (step : PersisterStep σ M)
    (hround : ∀ answers shown later, step ≠ .round answers shown later) :
    Forgot now (step.run state) (step.run shade) := by
  obtain ⟨fewer, rfl⟩ := h.same
  cases step with
  | accept record => exact ⟨⟨fewer, rfl⟩, h.ages, h.forgets⟩
  | fail failures => exact ⟨⟨fewer, rfl⟩, h.ages, h.forgets⟩
  | endRound moment => exact ⟨⟨_, rfl⟩, h.ages, h.forgets.evict moment _⟩
  | round answers shown later => exact absurd rfl (hround answers shown later)

theorem Aging.own [KeepsIdentity M] (h : Aging readings state shade) (step : PersisterStep σ M)
    (hclock : ∀ shown ∈ readings, ∀ next ∈ step.readings, shown ≤ next) :
    Aging (readings ++ step.readings) (step.run state) (step.run shade) := by
  refine ⟨fun now hnow => ?_, (h.matched.step step).1, fun latest hlatest => ?_⟩
  · obtain ⟨hbefore, hnext⟩ := List.forall_mem_append.mp hnow
    cases step with
    | accept | fail | endRound => exact forgot_step (h.forgot now hbefore) _ nofun
    | round answers shown later =>
      have hshown : shown ≤ now := hnext shown List.mem_cons_self
      have hround := forgot_round
        (h.forgot shown fun earlier hearlier => hclock earlier hearlier shown List.mem_cons_self)
        answers later
      exact ⟨hround.same, hround.ages, hround.forgets.mono hshown⟩
  · obtain ⟨hbefore, hnext⟩ := List.forall_mem_append.mp hlatest
    exact (step_does h.matched step).until h.matched.backs h.matched.sessions
      (h.stamps latest hbefore) hnext

theorem Aging.delete [KeepsIdentity M] (h : Aging readings state shade) {now : Int} {id : MetricId}
    (hclock : ∀ shown ∈ readings, shown ≤ now)
    (hexpired : Retention.isExpired id.bucket now state.1.settings.ttlDays = .ok true) :
    Aging (readings ++ [now])
      (state.1, { state.2 with store := state.2.store.delete ⟨state.1.model.storageName, id⟩ })
      ({ shade.1 with sessions := shade.1.sessions.remove id },
        { shade.2 with store := shade.2.store.delete ⟨shade.1.model.storageName, id⟩ }) := by
  have hages := (h.forgot now hclock).ages
  obtain ⟨fewer, rfl⟩ := (h.forgot now hclock).same
  refine ⟨fun latest hlatest => ⟨⟨_, rfl⟩, hages, fun other => ?_⟩,
    ⟨?_, RowStore.backs_holds _ _, ?_⟩, ?_⟩
  · obtain ⟨hbefore, hnext⟩ := List.forall_mem_append.mp hlatest
    have hforgets : state.1.sessions.Forgets state.1.settings.ttlDays latest fewer :=
      (h.forgot latest hbefore).forgets
    show (fewer.remove id).session? other = _ ∨ (fewer.remove id).session? other = none ∧ _
    rw [Sessions.session?_remove]
    split_ifs with hid
    · subst hid
      rcases hforgets id with hsame | hlapsed
      · cases hheld : state.1.sessions.session? id with
        | none => exact Or.inl rfl
        | some held =>
          have hshade : fewer.session? id = some held := hsame.trans hheld
          -- It was old enough to be deleted, so the entry has lapsed.
          have hshown : now ≤ latest := hnext now (List.mem_singleton_self _)
          exact Or.inr ⟨rfl, held, rfl, (h.matched.sessions id held hshade).1,
            h.stamps latest hbefore id held hshade, Retention.isExpired_mono hexpired hshown⟩
      · exact Or.inr ⟨rfl, hlapsed.2⟩
    · exact hforgets other
  · exact ⟨h.matched.closed, h.matched.keyed, h.matched.loadBatch⟩
  · intro other held hheld
    have hheld : (fewer.remove id).session? other = some held := hheld
    rw [Sessions.session?_remove] at hheld
    split_ifs at hheld with hid
    obtain ⟨hkeyed, hrow⟩ := h.matched.sessions other held hheld
    refine ⟨hkeyed, ?_⟩
    rw [RowStore.row?_delete, if_neg fun hkey => hid (RowKey.mk.inj hkey).2]
    exact hrow
  · intro latest hlatest other held hheld
    have hheld : (fewer.remove id).session? other = some held := hheld
    rw [Sessions.session?_remove] at hheld
    split_ifs at hheld
    exact h.stamps latest (List.forall_mem_append.mp hlatest).1 other held hheld

theorem Aging.skip (h : Aging readings state shade) (more : List Int) :
    Aging (readings ++ more) state shade :=
  ⟨fun now hnow => h.forgot now (List.forall_mem_append.mp hnow).1, h.matched,
    fun latest hlatest => h.stamps latest (List.forall_mem_append.mp hlatest).1⟩

theorem Aging.step [KeepsIdentity M] (h : Aging readings state shade) (step : AgingStep σ M)
    (hclock : ∀ shown ∈ readings, ∀ next ∈ step.readings, shown ≤ next) :
    ∃ shade, Aging (readings ++ step.readings) (step.run state) shade := by
  cases step with
  | own step => exact ⟨_, h.own step hclock⟩
  | delete now id =>
    rw [AgingStep.run]
    split
    · next hexpired =>
      exact ⟨_, h.delete (fun shown hshown => hclock shown hshown now (List.mem_singleton_self _))
        hexpired⟩
    · exact ⟨shade, h.skip _⟩

theorem Fresh.aging_aged [KeepsIdentity M] (h : start.Fresh) (hages : start.1.model.Ages)
    {steps : List (AgingStep σ M)}
    (hclock : (steps.flatMap AgingStep.readings).Pairwise (· ≤ ·)) :
    ∃ shade, Aging (steps.flatMap AgingStep.readings) (aged steps start) shade := by
  induction steps using List.reverseRecOn with
  | nil => exact ⟨start, h.aging hages⟩
  | append_singleton steps step ih =>
    rw [List.flatMap_append, List.flatMap_singleton] at hclock ⊢
    obtain ⟨hbefore, _, hnext⟩ := List.pairwise_append.mp hclock
    obtain ⟨shade, hshade⟩ := ih hbefore
    rw [aged_snoc]
    exact hshade.step step hnext

/-- Nothing keeps the next round from its writes. -/
structure Unhindered (answers : OutsideAnswers σ M) (now : Int) (state : PersisterState σ M) :
    Prop where
  due : state.1.isDue = true
  quiet : answers.Quiet
  smooth : Smooth state.2.store state.1.model state.1.settings.ttlDays now state.1.toDrain
  merges : ∀ record ∈ state.1.toDrain, ∀ cached,
    state.2.store.Holds state.1.model.storageName (Record.id record) cached →
    state.1.sessions.get? (Record.id record) = some cached →
    (Record.combine cached record).1 = true →
    ∃ whole, Record.calculate (Record.absorb cached record) = .ok whole

theorem Aging.build (h : Aging readings state shade) {now : Int}
    (hnow : ∀ shown ∈ readings, shown ≤ now) (answers : OutsideAnswers σ M) :
    Abreast (Persister.build (Backend.surroundings answers) now) state.clean
      (Persister.build (Backend.surroundings answers) now) shade.clean
      (fun _ last last' => last'.2 = last.2) (fun _ _ => True) := by
  refine (forgot_clean (h.forgot now hnow)).build.mono ?_ fun _ _ _ => trivial
  rintro _ last last' ⟨hlast, _⟩
  obtain ⟨fewer, rfl⟩ := hlast.same
  rfl

theorem Aging.accounts_of_build [KeepsIdentity M] (h : Aging readings state shade) {now : Int}
    (hnow : ∀ shown ∈ readings, shown ≤ now) {answers : OutsideAnswers σ M} {requests : List (Write M)}
    {built : PersisterState σ M} (hbuild : (Persister.build (Backend.surroundings answers) now).run.run
      state.clean = (.ok requests, built)) :
    (∃ sessions, Draft.Accounts state.2.store state.1.model now
      (state.2.store.Holds state.1.model.storageName) ⟨sessions, requests⟩) ∧
    ∀ key, built.2.store.row? key = state.2.store.row? key := by
  rcases (h.build hnow answers).both with ⟨_, _, last, hrun, hrun', hlast⟩ | ⟨_, _, _, hrun, _⟩
  · cases hrun.symm.trans hbuild
    have haccounts := h.matched.accounts_of_build hrun'
    obtain ⟨fewer, rfl⟩ := (h.forgot now hnow).same
    rwa [hlast] at haccounts
  · cases hrun.symm.trans hbuild

theorem Aging.inserts [KeepsIdentity M] (h : Aging readings state shade) {now : Int}
    (hnow : ∀ shown ∈ readings, shown ≤ now) {answers : OutsideAnswers σ M}
    (hclear : Unhindered answers now state) :
    ∃ requests built, (Persister.build (Backend.surroundings answers) now).run.run state.clean =
      (.ok requests, built) ∧
    ∀ record ∈ state.1.toDrain,
      state.2.store.row? ⟨state.1.model.storageName, Record.id record⟩ = none →
      ∃ whole, Record.calculate record = .ok whole ∧
        Write.of .insert state.1.model whole now ∈ requests := by
  have hforgot := h.forgot now hnow
  have hmatched := h.matched
  have habreast := h.build hnow answers
  obtain ⟨fewer, rfl⟩ := hforgot.same
  have hentries : ∀ id held, fewer.session? id = some held →
      Workable state.2.store state.1.model state.1.toDrain id held.record := by
    intro id held hheld
    have hholds : state.2.store.Holds state.1.model.storageName id held.record :=
      hmatched.sessions id held hheld
    refine ⟨hholds, ?_⟩
    rintro record hrecord rfl
    have hforgets : state.1.sessions.Forgets state.1.settings.ttlDays now fewer := hforgot.forgets
    rcases hforgets (Record.id record) with hsame | ⟨hnone, _⟩
    · refine hclear.merges record hrecord held.record hholds ?_
      exact Sessions.get?_eq_some_iff.mpr ⟨held, hsame.symm.trans hheld, rfl⟩
    · cases hnone.symm.trans hheld
  have hinserts := Persister.build_inserts
    (Backend.surroundings_serve hclear.quiet state.2.clean) hmatched.toSound hclear.due hclear.smooth
    hentries rfl
  have hends := habreast.ends hinserts
  unfold Ends at hends
  split at hends
  · next requests built hrun =>
    obtain ⟨_, _, _, hinserted⟩ := hends
    exact ⟨requests, built, hrun, hinserted⟩
  · obtain ⟨_, _, hfalse⟩ := hends
    exact hfalse.elim

/-- While rows are deleted that have expired, and the clock is not set back, each request of a round is
an insert if its row is not there and an update if it is, and all of them are executed. A round that
nothing hinders goes through, and inserts what has no row. -/
theorem deleted_rows_are_inserted_again [KeepsIdentity M] (hfresh : start.Fresh)
    (hages : start.1.model.Ages) {steps : List (AgingStep σ M)} {now : Int}
    (hclock : (steps.flatMap AgingStep.readings ++ [now]).Pairwise (· ≤ ·))
    (answers : OutsideAnswers σ M) :
    (∀ (requests : List (Write M)) (built : PersisterState σ M),
      (Persister.build (Backend.surroundings answers) now).run.run (aged steps start).clean =
        (.ok requests, built) →
      (requests.map (·.id)).Nodup ∧
      (∀ request ∈ requests, request.kind = .insert ↔ built.2.store.row? request.key = none) ∧
      (∀ before request behind, requests = before ++ request :: behind →
        (built.2.store.apply before).2.fits request.kind request.key = true) ∧
      (built.2.store.apply requests).1 = requests.flatMap (·.confirm.toList)) ∧
    (Unhindered answers now (aged steps start) → ∃ requests built,
      (Persister.build (Backend.surroundings answers) now).run.run (aged steps start).clean =
        (.ok requests, built) ∧
      ∀ record ∈ (aged steps start).1.toDrain,
        (aged steps start).2.store.row?
          ⟨(aged steps start).1.model.storageName, Record.id record⟩ = none →
        ∃ whole, Record.calculate record = .ok whole ∧
          Write.of .insert (aged steps start).1.model whole now ∈ requests ∧
          (built.2.store.apply requests).2.row?
              ⟨(aged steps start).1.model.storageName, Record.id record⟩ =
            some (Record.toFields whole)) := by
  obtain ⟨hbefore, _, hnow⟩ := List.pairwise_append.mp hclock
  obtain ⟨shade, hshade⟩ := hfresh.aging_aged hages hbefore
  have hnow : ∀ shown ∈ steps.flatMap AgingStep.readings, shown ≤ now :=
    fun shown hshown => hnow shown hshown now (List.mem_singleton_self _)
  refine ⟨fun requests built hbuild => ?_, fun hclear => ?_⟩
  · obtain ⟨⟨sessions, haccounts⟩, hrow⟩ := hshade.accounts_of_build hnow hbuild
    have hfit : built.2.store.Fit requests := haccounts.fit.of_row?_eq hrow
    refine ⟨haccounts.distinct, fun request hrequest => ?_, ?_, RowStore.told_apply hfit⟩
    · rw [hrow]
      exact haccounts.kind_iff hrequest
    · rintro before request behind rfl
      exact hfit.fits_next
  · obtain ⟨requests, built, hbuild, hinserted⟩ := hshade.inserts hnow hclear
    obtain ⟨⟨sessions, haccounts⟩, hrow⟩ := hshade.accounts_of_build hnow hbuild
    refine ⟨requests, built, hbuild, fun record hrecord habsent => ?_⟩
    obtain ⟨whole, hwhole, hwrite⟩ := hinserted record hrecord habsent
    refine ⟨whole, hwhole, hwrite, ?_⟩
    have hfit : built.2.store.Fit requests := haccounts.fit.of_row?_eq hrow
    have hwritten := RowStore.row?_apply_of_mem hfit hwrite
    rw [← KeepsIdentity.id_calculate hwhole]
    exact hwritten

/-- A month of caching does not outlast a week of retention: what was deleted is not updated. -/
theorem deleted_rows_are_inserted_again_after_nine_days :
    let id := MetricId.onFirstDay (.single "checkout")
    let model : Model := { name := "orders", level := .day, timeRelativeId := false }
    let day : Int := 86400000
    let start : PersisterState Unit SumRecord :=
      ({ model, settings := { sessionTimeout := .ofSecs 2592000 } }, { others := () })
    let answers : OutsideAnswers Unit SumRecord := fun _ => pure none
    let steps := [AgingStep.own (.accept (SumRecord.new id 5)), .own (.round answers 1000 1000),
      .delete (9 * day) id, .own (.accept (SumRecord.new id 2))]
    (aged steps start).1.sessions.get? id = some (SumRecord.new id 5) ∧
    ∃ requests built, (Persister.build (Backend.surroundings answers) (9 * day)).run.run
        (aged steps start).clean = (.ok requests, built) ∧
      (∀ request ∈ requests, request.kind = .insert ↔ built.2.store.row? request.key = none) ∧
      Write.of .insert model (SumRecord.new id 2) (9 * day) ∈ requests := by
  intro id model day start answers steps
  have hfresh : start.Fresh := ⟨⟨_, _, rfl⟩, rfl⟩
  have hclock : (steps.flatMap AgingStep.readings ++ [9 * day]).Pairwise (· ≤ ·) := by
    decide +kernel
  have hdrained : (aged steps start).1.toDrain = [SumRecord.new id 2] := by decide +kernel
  have habsent : (aged steps start).2.store.row? ⟨model.storageName, id⟩ = none := by
    decide +kernel
  have hmodel : (aged steps start).1.model = model := by decide +kernel
  have hclear : Unhindered answers (9 * day) (aged steps start) := by
    refine ⟨by decide +kernel, fun _ _ => by rw [ends_pure], ?_, fun _ _ _ _ _ _ => ⟨_, rfl⟩⟩
    rw [hmodel, hdrained]
    refine ⟨by decide +kernel, by decide +kernel, by decide +kernel, ?_, fun _ _ _ => ⟨_, rfl⟩,
      fun _ _ _ _ _ => ⟨_, rfl⟩, ?_⟩
    · simp only [List.mem_singleton, forall_eq]
      exact fun hrow => absurd habsent hrow
    · simp only [List.mem_singleton, forall_eq]
      exact fun _ _ => ⟨true, by decide +kernel⟩
  refine ⟨by decide +kernel, ?_⟩
  obtain ⟨hkinds, hinserts⟩ := deleted_rows_are_inserted_again hfresh ⟨rfl, rfl⟩ hclock answers
  obtain ⟨requests, built, hbuild, hinserted⟩ := hinserts hclear
  rw [hdrained, hmodel] at hinserted
  obtain ⟨whole, hwhole, hwrite, -⟩ := hinserted _ (List.mem_singleton_self _) habsent
  cases hwhole
  exact ⟨requests, built, hbuild, (hkinds requests built hbuild).2.1, hwrite⟩

end PersisterState

end Rollup
