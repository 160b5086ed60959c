import Rollup.Proofs.TableMatch

/-!
# Broken rounds

A round that breaks off gives up what it has prepared, and leaves the persister as consistent as it
was: its session cache agrees with the rows, and its window is ready for the next drain. While the
clock is not set back this holds whichever call broke the round off.
-/

namespace Rollup

open Rollup.Action

variable {σ M : Type} [Record M]

theorem RowStore.backs_decodes [KeepsIdentity M] (store : RowStore) (table : String) :
    Backs store table (store.Decodes (M := M) table) where
  keyed h := h.id_eq
  present h := by
    obtain ⟨fields, hrow, _⟩ := h
    simp [hrow]
  of_decodes h := h

/-! ## Stamps -/

/-- No entry was touched later. -/
def Sessions.Until (sessions : Sessions M) (latest : Int) : Prop :=
  ∀ id held, sessions.session? id = some held → held.lastUpdate ≤ latest

omit [Record M] in
theorem Sessions.Until.since {before sessions : Sessions M} {now latest : Int}
    (h : before.Until latest) (hsince : Since now before sessions) (hle : now ≤ latest) :
    sessions.Until latest := by
  intro id held hheld
  rcases hsince id held hheld with hnow | hbefore
  · exact Int.le_trans hnow hle
  · exact h id held hbefore

omit [Record M] in
theorem Sessions.Until.evict {sessions : Sessions M} {latest : Int} (h : sessions.Until latest)
    (now : Int) (timeout : Duration) : (sessions.evict now timeout).Until latest :=
  fun id held hheld => h id held (session?_evict.mp hheld).1

namespace Draft

variable {store built store' : RowStore} {model : Model} {now : Int} {draft draft' : Draft M}
  {verdict : Verdict}

theorem Advances.since (h : Advances store model now draft draft') :
    Sessions.Since now draft.sessions draft'.sessions := by
  cases h with
  | refresh _ since => exact since
  | insert => exact .refl now _
  | update =>
    intro id held hheld
    rw [Sessions.session?_put] at hheld
    split_ifs at hheld
    · cases hheld
      exact Or.inl (Int.le_refl now)
    · exact Or.inr hheld

theorem Advanced.since (h : Advanced store model now draft draft') :
    Sessions.Since now draft.sessions draft'.sessions := by
  induction h with
  | refl => exact .refl now _
  | tail _ hstep ih => exact ih.trans hstep.since

theorem Halts.sessions_eq (h : draft.Halts model now draft') : draft'.sessions = draft.sessions := by
  cases h with
  | between | uncached => rfl

/-- No entry is later than the round, and every update was cached. -/
structure Merged (model : Model) (now : Int) (draft : Draft M) : Prop where
  stamps : draft.sessions.Until now
  merged : ∀ whole, Write.of .update model whole now ∈ draft.writes →
    draft.sessions.session? (Record.id whole) = some ⟨whole, now⟩

theorem Merged.step (h : Merged model now draft) (hstep : Advances store model now draft draft') :
    Merged model now draft' := by
  refine ⟨h.stamps.since hstep.since (Int.le_refl now), fun whole hwrite => ?_⟩
  cases hstep with
  | refresh unwritten => exact (unwritten _ (List.mem_map_of_mem hwrite)).trans (h.merged whole hwrite)
  | insert =>
    rcases List.mem_append.mp hwrite with hwrite | hwrite
    · exact h.merged whole hwrite
    · cases (Write.of_inj (List.mem_singleton.mp hwrite)).1
  | @update updated held unwritten cached =>
    rw [Sessions.session?_put]
    rcases List.mem_append.mp hwrite with hwrite | hwrite
    · have hne : Record.id updated ≠ Record.id whole := fun heq =>
        unwritten (heq ▸ List.mem_map_of_mem hwrite)
      rw [if_neg fun hput => hne hput.1]
      exact h.merged whole hwrite
    · obtain ⟨-, -, rfl⟩ := Write.of_inj (List.mem_singleton.mp hwrite)
      refine if_pos ⟨rfl, ?_⟩
      rw [cached, Session.reachedBy_some]
      exact h.stamps _ held cached

theorem Merged.run (h : Merged model now draft) (hrun : Advanced store model now draft draft') :
    Merged model now draft' := by
  induction hrun with
  | refl => exact h
  | tail _ hstep ih => exact ih.step hstep

theorem Accounts.synced_flushed [RoundTrips M]
    (h : Accounts store model now (store.Decodes model.storageName) draft)
    (hmerged : verdict = .executed → Merged model now draft)
    (hbuilt : ∀ key, built.row? key = store.row? key)
    (hflushed : built.Flushed draft.writes verdict store') :
    (draft.sessions.settleAll (outcomes draft.writes verdict)).Synced store' model.storageName := by
  intro id held hheld
  cases verdict with
  | failed =>
    have hstore : store' = built := hflushed
    rw [hstore]
    exact (h.backed_of_failed id held hheld).of_row?_eq (hbuilt _)
  | executed =>
    have hstore : store' = (built.apply draft.writes).2 := hflushed
    subst hstore
    have hfit : built.Fit draft.writes := h.fit.of_row?_eq hbuilt
    have hwritten : ∀ kind whole, Write.of kind model whole now ∈ draft.writes →
        (built.apply draft.writes).2.Decodes model.storageName (Record.id whole) whole := by
      intro kind whole hwrite
      have hrow := RowStore.row?_apply_of_mem hfit hwrite
      exact ⟨_, hrow, RoundTrips.ofFields_toFields whole⟩
    rcases h.entries_of_executed hheld with ⟨hentry, hdecodes⟩ | ⟨kind, whole, hwrite, rfl, rfl⟩
    · by_cases hid : id ∈ draft.ids
      · obtain ⟨write, hwrite, rfl⟩ := List.mem_map.mp hid
        obtain ⟨kind, whole, rfl, hsuits⟩ := h.written write hwrite
        -- Its row was overwritten, so the entry has to be that of the write.
        cases kind with
        | insert =>
          obtain ⟨fields, hrow, _⟩ := hdecodes
          have habsent : store.row? ⟨model.storageName, Record.id whole⟩ = none := hsuits
          cases habsent.symm.trans hrow
        | update =>
          have hheld : held = ⟨whole, now⟩ := by
            have hcached := (hmerged rfl).merged whole hwrite
            exact Option.some.inj (hentry.symm.trans hcached)
          rw [hheld]
          exact hwritten _ whole hwrite
      · refine hdecodes.of_row?_eq ?_
        rw [RowStore.row?_apply_of_not_mem hfit, hbuilt]
        intro write hwrite hkey
        rw [h.key_eq hwrite] at hkey
        exact hid ((RowKey.mk.inj hkey).2 ▸ List.mem_map_of_mem hwrite)
    · exact hwritten kind whole hwrite

end Draft

/-! ## Runs -/

namespace PersisterStep

variable {persister persister' : Persister M} {backend backend' : Backend σ M}
  {step : PersisterStep σ M}

theorem Does.until [KeepsIdentity M] {backed : MetricId → M → Prop}
    (h : step.Does persister backend persister' backend')
    (hbacks : Backs backend.store persister.model.storageName backed)
    (hbacked : persister.sessions.Backed backed) {latest : Int}
    (huntil : persister.sessions.Until latest) (hlatest : ∀ shown ∈ step.readings, shown ≤ latest) :
    persister'.sessions.Until latest := by
  cases h with
  | accept | fail => exact huntil
  | endRound now => exact huntil.evict now _
  | @round _ now later _ _ ended =>
    cases ended with
    | satOut => exact huntil.evict later _
    | @wrote draft _ verdict _ _ advanced =>
      have haccounts := (Draft.Accounts.start hbacked).run hbacks advanced
      have hnow := hlatest now List.mem_cons_self
      exact ((huntil.since (Draft.Advanced.since advanced) hnow).since
        (Sessions.since_outcomes haccounts.tied verdict _) hnow).evict later _
  | @brokeOff _ now _ _ _ broke =>
    cases broke with
    | @mk draft halted _ _ _ advanced halts =>
      have haccounts := ((Draft.Accounts.start hbacked).run hbacks advanced).halt hbacks halts
      have hnow := hlatest now List.mem_cons_self
      have hdraft := huntil.since (Draft.Advanced.since advanced) hnow
      rw [← halts.sessions_eq] at hdraft
      exact hdraft.since (Sessions.since_outcomes haccounts.tied .failed _) hnow

theorem Does.synced [RoundTrips M] [KeepsIdentity M]
    (h : step.Does persister backend persister' backend')
    (hsynced : persister.sessions.Synced backend.store persister.model.storageName)
    (hstamps : ∀ shown ∈ step.readings, persister.sessions.Until shown) :
    persister'.sessions.Synced backend'.store persister.model.storageName := by
  have hbacks := RowStore.backs_decodes (M := M) backend.store persister.model.storageName
  have hbacked : persister.sessions.Backed (backend.store.Decodes persister.model.storageName) :=
    hsynced
  cases h with
  | accept | fail => exact hsynced
  | endRound now => exact hbacked.evict now _
  | @round _ now later _ _ ended =>
    cases ended with
    | satOut => exact hbacked.evict later _
    | @wrote draft _ verdict _ _ advanced beside flushed =>
      have haccounts := (Draft.Accounts.start hbacked).run hbacks advanced
      have hmerged : draft.Merged persister.model now :=
        Draft.Merged.run ⟨hstamps now List.mem_cons_self, by simp⟩ advanced
      have hsettled : Sessions.Backed _ _ :=
        haccounts.synced_flushed (fun _ => hmerged) beside.row?_eq flushed
      exact hsettled.evict later _
  | @brokeOff _ now _ _ _ broke =>
    cases broke with
    | @mk draft halted _ _ _ advanced halts beside =>
      have haccounts := ((Draft.Accounts.start hbacked).run hbacks advanced).halt hbacks halts
      have hflushed : backend'.store.Flushed halted.writes .failed backend'.store := rfl
      exact haccounts.synced_flushed nofun beside.row?_eq hflushed

end PersisterStep

namespace PersisterState

variable [KeepsIdentity M] {start state : PersisterState σ M}

/-- The session cache agrees with the rows, and no entry is later than these readings. -/
structure Coherent (readings : List Int) (state : PersisterState σ M) : Prop extends
    Ready (state.2.store.Decodes state.1.model.storageName) state where
  stamps : ∀ latest, (∀ shown ∈ readings, shown ≤ latest) → state.1.sessions.Until latest

theorem Fresh.coherent (h : start.Fresh) : start.Coherent [] := by
  have hmatched := h.matched
  obtain ⟨model, settings, hpersister⟩ := h.persister
  refine ⟨⟨hmatched.toSound, RowStore.backs_decodes _ _, ?_⟩, fun latest _ => ?_⟩ <;>
  · intro id held hheld
    rw [hpersister] at hheld
    cases (Sessions.session?_empty (M := M) id).symm.trans hheld

theorem Coherent.step [RoundTrips M] {readings : List Int} (h : state.Coherent readings)
    (step : PersisterStep σ M) (hclock : ∀ shown ∈ readings, ∀ next ∈ step.readings, shown ≤ next) :
    (step.run state).Coherent (readings ++ step.readings) := by
  have hdoes := step_does h.toReady step
  obtain ⟨hsound, hmodel, _⟩ := hdoes.frame h.toSound
  have hsynced := hdoes.synced h.sessions fun next hnext =>
    h.stamps next fun shown hshown => hclock shown hshown next hnext
  rw [← hmodel] at hsynced
  refine ⟨⟨hsound, RowStore.backs_decodes _ _, hsynced⟩, fun latest hlatest => ?_⟩
  have hbefore := h.stamps latest fun shown hshown => hlatest shown (List.mem_append_left _ hshown)
  exact hdoes.until h.backs h.sessions hbefore fun next hnext =>
    hlatest next (List.mem_append_right _ hnext)

theorem Fresh.coherent_after [RoundTrips M] (h : start.Fresh) {steps : List (PersisterStep σ M)}
    (hclock : (steps.flatMap PersisterStep.readings).Pairwise (· ≤ ·)) :
    (after steps start).Coherent (steps.flatMap PersisterStep.readings) := by
  induction steps using List.reverseRecOn with
  | nil => exact h.coherent
  | append_singleton steps step ih =>
    rw [List.flatMap_append, List.flatMap_singleton] at hclock ⊢
    obtain ⟨hbefore, _, hnext⟩ := List.pairwise_append.mp hclock
    rw [after_snoc]
    exact (ih hbefore).step step hnext

/-! ## After the fault -/

/-- The state after a round that broke off, with what was written to the window while the round was
still under way. -/
def resumed (round : Preparation (Backend σ M) M) (during : List M) : PersisterState σ M :=
  (((during.foldl Persister.write round.persister).abandon round.writes).endDrain, round.outside)

/-- The same unwinding, with what is told of the writes written down as it is told. -/
def unwinding (round : Preparation (Backend σ M) M) :
    Persister M × List (SessionCallback M × Verdict) :=
  let telling : StateM (Persister M × List (SessionCallback M × Verdict)) PUnit :=
    Persister.rejectAll (fun callback verdict => modify fun (persister, told) =>
      (persister.settle callback verdict, told ++ [(callback, verdict)])) round.writes
  (telling.run (round.persister, [])).2

omit [KeepsIdentity M] in
theorem unwinding_eq (round : Preparation (Backend σ M) M) :
    unwinding round = (round.persister.abandon round.writes, outcomes round.writes .failed) := by
  have hfold : ∀ (outcomes told : List (SessionCallback M × Verdict)) (persister : Persister M),
      outcomes.foldl (fun state outcome =>
        (state.1.settle outcome.1 outcome.2, state.2 ++ [outcome])) (persister, told) =
      ({ persister with sessions := persister.sessions.settleAll outcomes }, told ++ outcomes) := by
    intro outcomes
    induction outcomes with
    | nil => simp [Sessions.settleAll]
    | cons first rest ih =>
      intro told persister
      exact (ih (told ++ [first]) (persister.settle first.1 first.2)).trans
        (by rw [List.append_assoc]; rfl)
  rw [Persister.abandon_eq]
  exact (Persister.run_rejectAll _ round.writes (round.persister, [])).trans (hfold _ _ _)

/-- What a round leaves that broke off in the middle of its preparation. -/
structure Unwinds (answers : OutsideAnswers σ M) (now : Int) (before : PersisterState σ M)
    (fault : Fault) (round : Preparation (Backend σ M) M) (broken : PersisterState σ M) : Prop where
  struck : (Persister.working (Backend.surroundings answers) now before.1).run.run
    (before.1.opening before.2.clean) = (.error fault, round)
  left : broken = resumed round []
  rejected : round.writes.filterMap Request.reject =
    broken.2.prepared.map fun ordered => (⟨ordered.kind, ordered.record, now⟩, .failed)
  /-- That is what was told while the round unwound. -/
  told : broken.1 = (unwinding round).1.endDrain ∧ (unwinding round).2 =
    broken.2.prepared.map fun ordered => (⟨ordered.kind, ordered.record, now⟩, .failed)
  once : (broken.2.prepared.map fun ordered => Record.id ordered.record).Nodup
  rows : ∀ key, broken.2.store.row? key = before.2.store.row? key
  synced : broken.1.sessions.Synced broken.2.store broken.1.model.storageName
  /-- The next drain begins, and sees what was written since this one began. -/
  next : ∀ (during : List M) (later : List (PersisterStep σ M)), Quiet later (resumed round during) →
    ∃ opened, (after later (resumed round during)).1.window.beginDrain = .ok opened ∧
      opened.drained.Perm (foldsOf (during ++ accepted later))

omit [KeepsIdentity M] in
theorem resumed_eq (round : Preparation (Backend σ M) M) (during : List M) :
    resumed round during =
      (during.foldl Persister.write (Persister.unwound round), round.outside) := by
  have hwrites : ∀ (during : List M) (persister : Persister M),
      ((during.foldl Persister.write persister).abandon round.writes).endDrain =
        during.foldl Persister.write (persister.abandon round.writes).endDrain := by
    intro during
    induction during with
    | nil => exact fun _ => rfl
    | cons first rest ih =>
      intro persister
      rw [List.foldl_cons, ih, List.foldl_cons, Persister.abandon_eq, Persister.abandon_eq]
      rfl
  exact congrArg (·, round.outside) (hwrites during round.persister)

omit [KeepsIdentity M] in
theorem waits_writes (during : List M) {persister : Persister M} {waiting : List M}
    (h : persister.Waits waiting) :
    (during.foldl Persister.write persister).Waits (waiting ++ during) := by
  induction during generalizing persister waiting with
  | nil => rwa [List.append_nil]
  | cons first rest ih =>
    rw [List.append_cons]
    refine ih fun id => ?_
    rw [foldOf_append, ← h id]
    exact Buffer.get?_acceptAll _ [first] id

theorem sound_writes (during : List M) {persister : Persister M} (h : persister.Sound) :
    (during.foldl Persister.write persister).Sound := by
  induction during generalizing persister with
  | nil => exact h
  | cons first rest ih => exact ih ⟨h.closed.write first, h.keyed.accept first, h.loadBatch⟩

omit [KeepsIdentity M] in
theorem sessions_writes (during : List M) (persister : Persister M) :
    (during.foldl Persister.write persister).sessions = persister.sessions ∧
      (during.foldl Persister.write persister).model = persister.model := by
  induction during generalizing persister with
  | nil => exact ⟨rfl, rfl⟩
  | cons first rest ih => exact ih (persister.write first)

/-- A round that breaks off, wherever it does, leaves the persister consistent. -/
theorem broken_round_unwinds [RoundTrips M] (hfresh : start.Fresh) {steps : List (PersisterStep σ M)}
    (hclock : (steps.flatMap PersisterStep.readings).Pairwise (· ≤ ·)) {answers : OutsideAnswers σ M}
    {now : Int} {fault : Fault} {broken : PersisterState σ M}
    (hbroke : (Persister.build (Backend.surroundings answers) now).run.run (after steps start).clean =
      (.error fault, broken)) :
    ∃ round, Unwinds answers now (after steps start) fault round broken := by
  have hcoherent := hfresh.coherent_after hclock
  have hends := build_ends hcoherent.toReady answers now
  unfold Ends at hends
  rw [hbroke] at hends
  obtain ⟨_, round, hstruck, hhalted, rfl⟩ := hends
  obtain ⟨draft, hadvanced, hhalts⟩ := hhalted.advanced
  obtain ⟨handed, hbeside⟩ := hhalted.outside
  have haccounts := ((Draft.Accounts.start hcoherent.sessions).run hcoherent.backs hadvanced).halt
    hcoherent.backs hhalts
  have hunwound := Persister.unwound_eq hhalted
  have hsynced : (Persister.unwound round).sessions.Synced round.outside.store
      (Persister.unwound round).model.storageName := by
    have hflushed : round.outside.store.Flushed round.writes .failed round.outside.store := rfl
    rw [hunwound]
    exact haccounts.synced_flushed nofun hbeside.row?_eq hflushed
  have hrejected : round.writes.filterMap Request.reject =
      round.outside.prepared.map fun ordered => (⟨ordered.kind, ordered.record, now⟩, .failed) := by
    rw [hbeside.prepared, List.filterMap_map, ← List.filterMap_eq_map]
    rfl
  refine ⟨round, hstruck, rfl, hrejected, ?_, ?_, hbeside.row?_eq, hsynced,
    fun during later hquiet => ?_⟩
  · rw [unwinding_eq]
    exact ⟨rfl, hrejected⟩
  · have hids : round.draft.ids =
        round.outside.prepared.map fun ordered => Record.id ordered.record := by
      rw [Draft.ids, Preparation.draft, hbeside.prepared, List.map_map]
      rfl
    rw [← hids]
    exact haccounts.distinct
  · have hresumed := resumed_eq round during
    obtain ⟨hsessions, hmodel⟩ := sessions_writes during (Persister.unwound round)
    have hempty : (Persister.unwound round).Sound ∧ (Persister.unwound round).Waits [] := by
      rw [hunwound]
      exact ⟨⟨.empty, .empty, hcoherent.loadBatch⟩, Buffer.get?_empty⟩
    have hmatched : (resumed round during).Matched := by
      rw [hresumed]
      refine ⟨sound_writes during hempty.1, RowStore.backs_holds _ _, fun id held hheld => ?_⟩
      rw [hsessions] at hheld
      rw [hmodel]
      exact (RowStore.backs_holds _ _).of_decodes (hsynced id held hheld)
    have hwaits : (resumed round during).1.Waits during := by
      rw [hresumed]
      exact waits_writes during hempty.2
    have hlater := hmatched.waits hwaits hquiet
    refine ⟨_, (hmatched.run later).1.closed.beginDrain, ?_⟩
    exact Buffer.toList_perm_foldsOf hlater

/-- A consumer breaks the second round off when it is shown the record of an update that was already
cached. -/
theorem broken_round_unwinds_at_consumer :
    let id := MetricId.onFirstDay (.single "checkout")
    let start : PersisterState Unit SumRecord :=
      ({ model := { name := "orders", level := .day } }, { others := () })
    let steps := [.accept (.new id 3), .round (fun _ => pure none) 1000 1000, .accept (.new id 5)]
    let answers : OutsideAnswers Unit SumRecord
      | .dispatch _ .increment => throw (.foreign "consumer")
      | _ => pure none
    ∃ round broken, (Persister.build (Backend.surroundings answers) 2000).run.run
        (after steps start).clean = (.error (.foreign "consumer"), broken) ∧
      broken.2.prepared.map (·.kind) = [.update] ∧
      Unwinds answers 2000 (after steps start) (.foreign "consumer") round broken := by
  intro id start steps answers
  have hfresh : start.Fresh := ⟨⟨_, _, rfl⟩, rfl⟩
  have hprepared : (((Persister.build (Backend.surroundings answers) 2000).run.run
      (after steps start).clean).2).2.prepared.map (·.kind) = [.update] := by
    decide +kernel
  have hfault : (((Persister.build (Backend.surroundings answers) 2000).run.run
      (after steps start).clean).1.map fun _ => ()) = .error (.foreign "consumer") := by
    decide +kernel
  rcases hbuild : (Persister.build (Backend.surroundings answers) 2000).run.run
    (after steps start).clean with ⟨fault | requests, broken⟩
  · rw [hbuild] at hfault hprepared
    cases hfault
    have hclock : (steps.flatMap PersisterStep.readings).Pairwise (· ≤ ·) := by
      simp [steps, PersisterStep.readings]
    obtain ⟨round, hunwinds⟩ := broken_round_unwinds hfresh hclock hbuild
    exact ⟨round, broken, rfl, hprepared, hunwinds⟩
  · rw [hbuild] at hfault
    cases hfault

end PersisterState

end Rollup
