import Mathlib.Data.List.Induction
import Rollup.Proofs.PersisterStates
import Rollup.Proofs.StationRuns

/-!
# Requests match the table

An entry of the session cache has a row, and once a batch was loaded an identity without an entry has
none. So whatever is evicted, fails to load or is refused, an insert never meets a row and an update
never misses one.
-/

namespace Rollup

open Rollup.Action

variable {σ M : Type} [Record M]

namespace RowStore

/-- A record stands for a row that is there, whatever the row holds. -/
def Holds (store : RowStore) (table : String) (id : MetricId) (record : M) : Prop :=
  Record.id record = id ∧ store.row? ⟨table, id⟩ ≠ none

theorem backs_holds [KeepsIdentity M] (store : RowStore) (table : String) :
    Backs store table (store.Holds (M := M) table) where
  keyed h := h.1
  present h := h.2
  of_decodes h := by
    refine ⟨h.id_eq, ?_⟩
    obtain ⟨fields, hrow, _⟩ := h
    simp [hrow]

/-- No row is lost, and if updates are not allowed none is changed. -/
def Keeps (allowed : Bool) (store store' : RowStore) : Prop :=
  ∀ key fields, store.row? key = some fields →
    ∃ fields', store'.row? key = some fields' ∧ (allowed = false → fields' = fields)

theorem Keeps.of_row?_eq {allowed : Bool} {store store' : RowStore}
    (h : ∀ key, store'.row? key = store.row? key) : Keeps allowed store store' :=
  fun key fields hfields => ⟨fields, (h key).trans hfields, fun _ => rfl⟩

theorem Keeps.trans {allowed : Bool} {first second third : RowStore} (h : Keeps allowed first second)
    (h' : Keeps allowed second third) : Keeps allowed first third := by
  intro key fields hfields
  obtain ⟨fields', hfields', hsame⟩ := h key fields hfields
  obtain ⟨fields'', hfields'', hsame'⟩ := h' key fields' hfields'
  exact ⟨fields'', hfields'', fun hnone => (hsame' hnone).trans (hsame hnone)⟩

theorem Keeps.present {allowed : Bool} {store store' : RowStore} (h : Keeps allowed store store')
    {key : RowKey} (hrow : store.row? key ≠ none) : store'.row? key ≠ none := by
  obtain ⟨fields, hfields⟩ := Option.ne_none_iff_exists'.mp hrow
  obtain ⟨fields', hfields', _⟩ := h key fields hfields
  simp [hfields']

end RowStore

/-! ## What a flush keeps -/

namespace Draft.Accounts

variable {store built store' : RowStore} {model : Model} {now : Int} {backed : MetricId → M → Prop}
  {draft : Draft M} {verdict : Verdict}

theorem keeps_flushed (h : Accounts store model now backed draft)
    (hbuilt : ∀ key, built.row? key = store.row? key)
    (hflushed : built.Flushed draft.writes verdict store') :
    store.Keeps model.supportUpdate store' := by
  have hfit : built.Fit draft.writes := h.fit.of_row?_eq hbuilt
  cases verdict with
  | failed =>
    have hsame : store' = built := hflushed
    rw [hsame]
    exact .of_row?_eq hbuilt
  | executed =>
    have hstore : store' = (built.apply draft.writes).2 := hflushed
    subst hstore
    intro key fields hfields
    by_cases hwritten : ∃ write ∈ draft.writes, write.key = key
    · obtain ⟨write, hwrite, rfl⟩ := hwritten
      refine ⟨write.fields, RowStore.row?_apply_of_mem hfit hwrite, fun hnever => ?_⟩
      obtain ⟨kind, whole, rfl, hsuits⟩ := h.written write hwrite
      -- An insert meets no row, and an update is made only where it is allowed.
      cases kind with
      | insert =>
        have habsent : store.row? ⟨model.storageName, Record.id whole⟩ = none := hsuits
        cases habsent.symm.trans hfields
      | update => cases hnever.symm.trans hsuits.2
    · refine ⟨fields, ?_, fun _ => rfl⟩
      rw [RowStore.row?_apply_of_not_mem hfit fun write hwrite hkey => hwritten ⟨write, hwrite, hkey⟩,
        hbuilt, hfields]

theorem holds_flushed (h : Accounts store model now (store.Holds model.storageName) draft)
    (hbuilt : ∀ key, built.row? key = store.row? key)
    (hflushed : built.Flushed draft.writes verdict store') :
    (draft.sessions.settleAll (outcomes draft.writes verdict)).Backed
      (store'.Holds model.storageName) := by
  have hkeeps := h.keeps_flushed hbuilt hflushed
  intro id held hheld
  cases verdict with
  | failed =>
    obtain ⟨hid, hrow⟩ := h.backed_of_failed id held hheld
    exact ⟨hid, hkeeps.present hrow⟩
  | executed =>
    rcases h.entries_of_executed hheld with ⟨_, hid, hrow⟩ | ⟨kind, whole, hwrite, rfl, hid⟩
    · exact ⟨hid, hkeeps.present hrow⟩
    · have hstore : store' = (built.apply draft.writes).2 := hflushed
      have hwritten := RowStore.row?_apply_of_mem (h.fit.of_row?_eq hbuilt) hwrite
      rw [h.key_eq hwrite, ← hstore] at hwritten
      subst hid
      exact ⟨rfl, ne_of_eq_of_ne hwritten nofun⟩

end Draft.Accounts

/-! ## Runs -/

namespace PersisterStep

theorem Does.holds [KeepsIdentity M] {persister persister' : Persister M}
    {backend backend' : Backend σ M} {step : PersisterStep σ M}
    (h : step.Does persister backend persister' backend')
    (hbacked : persister.sessions.Backed (backend.store.Holds persister.model.storageName)) :
    persister'.sessions.Backed (backend'.store.Holds persister.model.storageName) ∧
      backend.store.Keeps persister.model.supportUpdate backend'.store := by
  have hbacks := RowStore.backs_holds (M := M) backend.store persister.model.storageName
  cases h with
  | accept | fail => exact ⟨hbacked, .of_row?_eq fun _ => rfl⟩
  | endRound now => exact ⟨hbacked.evict now _, .of_row?_eq fun _ => rfl⟩
  | @round _ _ later _ _ ended =>
    cases ended with
    | satOut => exact ⟨hbacked.evict later _, .of_row?_eq fun _ => rfl⟩
    | wrote _ advanced beside flushed =>
      have haccounts := (Draft.Accounts.start hbacked).run hbacks advanced
      exact ⟨(haccounts.holds_flushed beside.row?_eq flushed).evict later _,
        haccounts.keeps_flushed beside.row?_eq flushed⟩
  | brokeOff broke =>
    cases broke with
    | @mk draft halted _ _ _ advanced halts beside =>
      have haccounts := ((Draft.Accounts.start hbacked).run hbacks advanced).halt hbacks halts
      -- Writes that are given up are as good as a flush that failed.
      have hflushed : backend'.store.Flushed halted.writes .failed backend'.store := rfl
      exact ⟨haccounts.holds_flushed beside.row?_eq hflushed,
        haccounts.keeps_flushed beside.row?_eq hflushed⟩

end PersisterStep

namespace PersisterState

variable [KeepsIdentity M] {start state : PersisterState σ M}

/-- Every entry of the session cache has a row. -/
abbrev Matched (state : PersisterState σ M) : Prop :=
  state.Ready (state.2.store.Holds state.1.model.storageName)

theorem Matched.step (h : state.Matched) (step : PersisterStep σ M) :
    (step.run state).Matched ∧ (step.run state).1.model = state.1.model ∧
      state.2.store.Keeps state.1.model.supportUpdate (step.run state).2.store := by
  have hdoes := step_does h step
  obtain ⟨hsound, hmodel, _⟩ := hdoes.frame h.toSound
  obtain ⟨hholds, hkeeps⟩ := hdoes.holds h.sessions
  rw [← hmodel] at hholds
  exact ⟨⟨hsound, RowStore.backs_holds _ _, hholds⟩, hmodel, hkeeps⟩

theorem Fresh.matched (h : start.Fresh) : start.Matched := by
  obtain ⟨model, settings, hpersister⟩ := h.persister
  have hsettings := (PersisterSettings.check_eq_ok_iff _).mp h.settings
  obtain ⟨persister, backend⟩ := start
  cases hpersister
  refine ⟨⟨.empty, .empty, hsettings.2⟩, RowStore.backs_holds _ _, ?_⟩
  intro id held hheld
  cases (Sessions.session?_empty (M := M) id).symm.trans hheld

theorem Matched.run (h : state.Matched) (steps : List (PersisterStep σ M)) :
    (after steps state).Matched ∧ (after steps state).1.model = state.1.model ∧
      state.2.store.Keeps state.1.model.supportUpdate (after steps state).2.store := by
  induction steps using List.reverseRecOn with
  | nil => exact ⟨h, rfl, .of_row?_eq fun _ => rfl⟩
  | append_singleton steps step ih =>
    obtain ⟨hmatched, hmodel, hkeeps⟩ := ih
    obtain ⟨hmatched', hmodel', hkeeps'⟩ := hmatched.step step
    rw [after_snoc]
    rw [hmodel] at hkeeps'
    exact ⟨hmatched', hmodel'.trans hmodel, hkeeps.trans hkeeps'⟩

theorem Matched.waits {waiting : List M} (h : state.Matched) (hwaits : state.1.Waits waiting)
    {later : List (PersisterStep σ M)} (hquiet : Quiet later state) :
    (after later state).1.Waits (waiting ++ accepted later) := by
  induction later generalizing state waiting with
  | nil => rwa [accepted, List.filterMap_nil, List.append_nil]
  | cons step later ih =>
    obtain ⟨hstill, hquiet⟩ := hquiet
    have hstep : (step.run state).1.Waits (waiting ++ step.accepted?.toList) := by
      have hwaits' := (step_does h step).waits hwaits
      rwa [hstill] at hwaits'
    have hlater := ih (h.step step).1 hstep hquiet
    rwa [List.append_assoc, ← accepted_cons] at hlater

theorem Matched.accounts_of_build (h : state.Matched) {answers : OutsideAnswers σ M} {now : Int}
    {requests : List (Write M)} {built : PersisterState σ M}
    (hbuild : (Persister.build (Backend.surroundings answers) now).run.run state.clean =
      (.ok requests, built)) :
    (∃ sessions, Draft.Accounts state.2.store state.1.model now
      (state.2.store.Holds state.1.model.storageName) ⟨sessions, requests⟩) ∧
    ∀ key, built.2.store.row? key = state.2.store.row? key := by
  have hends := build_ends h answers now
  unfold Ends at hends
  rw [hbuild] at hends
  have hstart : Draft.Accounts state.2.store state.1.model now _ ⟨state.1.sessions, []⟩ :=
    .start h.sessions
  rcases hends with ⟨_, rfl, rfl⟩ | ⟨_, sessions, hadvanced, _, hbeside⟩
  · exact ⟨⟨_, hstart⟩, fun _ => rfl⟩
  · exact ⟨⟨sessions, hstart.run h.backs hadvanced⟩, hbeside.row?_eq⟩

/-- The requests of a round are about different identities, and each of them fits when its turn
comes. -/
theorem requests_match_table (hfresh : start.Fresh) (steps : List (PersisterStep σ M)) :
    (∀ (answers : OutsideAnswers σ M) (now : Int) (requests : List (Write M))
      (built : PersisterState σ M),
      (Persister.build (Backend.surroundings answers) now).run.run (after steps start).clean =
        (.ok requests, built) →
      (requests.map (·.id)).Nodup ∧
      (∀ before request behind, requests = before ++ request :: behind →
        (built.2.store.apply before).2.fits request.kind request.key = true) ∧
      (built.2.store.apply requests).1 = requests.flatMap (·.confirm.toList)) ∧
    (start.1.model.supportUpdate = false → ∀ (more : List (PersisterStep σ M)) (key : RowKey)
      (fields : Fields), (after steps start).2.store.row? key = some fields →
      (after (steps ++ more) start).2.store.row? key = some fields) := by
  obtain ⟨hmatched, hmodel, _⟩ := hfresh.matched.run steps
  refine ⟨fun answers now requests built hbuild => ?_, fun hnever more key fields hfields => ?_⟩
  · obtain ⟨⟨sessions, haccounts⟩, hrow⟩ := hmatched.accounts_of_build hbuild
    have hfit : built.2.store.Fit requests := haccounts.fit.of_row?_eq hrow
    refine ⟨haccounts.distinct, ?_, RowStore.told_apply hfit⟩
    rintro before request behind rfl
    exact hfit.fits_next
  · have hkeeps := (hmatched.run more).2.2
    rw [hmodel, hnever, ← after_append] at hkeeps
    obtain ⟨fields', hfields', hsame⟩ := hkeeps key fields hfields
    rw [hfields', hsame rfl]

/-- Over a row that was there before, the second round updates what the first one has written. -/
theorem requests_match_table_of_seeded_row :
    let id := MetricId.onFirstDay (.single "checkout")
    let start : PersisterState Unit SumRecord := ({ model := { name := "orders", level := .day } },
      { store := ({} : RowStore).seed ⟨"orders_day", id⟩ (Record.toFields (SumRecord.new id 2))
        others := () })
    let answers : OutsideAnswers Unit SumRecord := fun _ => pure none
    let steps := [.accept (.new id 3), .round answers 1000 1000, .accept (.new id 5)]
    ∃ requests built, (Persister.build (Backend.surroundings answers) 2000).run.run
        (after steps start).clean = (.ok requests, built) ∧
      requests.map (·.kind) = [.update] ∧
      ∀ before request behind, requests = before ++ request :: behind →
        (built.2.store.apply before).2.fits request.kind request.key = true := by
  intro id start answers steps
  have hfresh : start.Fresh := ⟨⟨_, _, rfl⟩, rfl⟩
  have hkinds : ((Persister.build (Backend.surroundings answers) 2000).run.run
      (after steps start).clean).1.toOption.map (·.map (·.kind)) = some [.update] := by
    decide +kernel
  rcases hbuild : (Persister.build (Backend.surroundings answers) 2000).run.run
    (after steps start).clean with ⟨_ | requests, built⟩
  · rw [hbuild] at hkinds
    cases hkinds
  · rw [hbuild] at hkinds
    exact ⟨requests, built, rfl, Option.some.inj hkinds,
      ((requests_match_table hfresh steps).1 answers 2000 requests built hbuild).2.1⟩

end PersisterState

end Rollup
