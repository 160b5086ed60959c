import Rollup.Proofs.StationRound

/-!
# Runs of a station

A station without a queue, whose store nobody else uses, takes records in and has its rounds, while
the clock is set at will and the store is told to fail or to work again.
-/

namespace Rollup

open Rollup.Action

variable {M : Type} [Record M]

/-- What may happen to a station. -/
inductive StationStep (M : Type) where
  /-- A record is handed to it. -/
  | accept (record : M)
  /-- It has a round. The clock is set to one time before the round, and to another before its end. -/
  | round (now later : Int)
  /-- The store is told which failures to have from now on. -/
  | fail (failures : StoreFailures)

namespace StationStep

/-- What the station of this number makes of a step, and the engine with it. -/
def run (index : Nat) (step : StationStep M) (engine : Engine M) : Engine M :=
  match step with
  | accept record => ((Engine.acceptAt index record).run engine).2
  | round now later =>
    match engine.stations[index]? with
    | some station => ((Engine.timedRound index station now later).run.run engine).2
    | none => engine
  | fail failures => { engine with store := { engine.store with failures } }

/-- What a step makes of a persister at rest and of the rows, with the writes that it executes. -/
inductive Does (persister : Persister M) (store : RowStore) :
    StationStep M → List (Write M) → Persister M → RowStore → Prop where
  | accept (record : M) :
      Does persister store (accept record) [] (persister.write record).countAccepted store
  | fail (failures : StoreFailures) :
      Does persister store (fail failures) [] persister { store with failures }
  | round {now later : Int} {writes : List (Write M)} {persister' : Persister M} {store' : RowStore}
      (ended : persister.Round store (Engine.reading now) (Engine.reading later) writes persister'
        store') :
      Does persister store (round now later) writes persister' store'
  | brokeOff {now later : Int} {sessions : Sessions M} {store' : RowStore}
      (due : persister.isDue = true)
      (rough : ¬ Smooth store persister.model persister.settings.ttlDays (Engine.reading now)
        persister.toDrain)
      (synced : sessions.Synced store persister.model.storageName)
      (same : store' = { store with loads := store'.loads }) :
      Does persister store (round now later) [] (persister.drainedTo sessions) store'

variable {persister persister' : Persister M} {store store' : RowStore} {step : StationStep M}
  {writes : List (Write M)}

theorem Does.frame [KeepsIdentity M] (h : step.Does persister store writes persister' store')
    (hsound : persister.Sound) : persister'.Sound ∧ persister'.model = persister.model ∧
      persister'.settings = persister.settings := by
  cases h with
  | accept record =>
    exact ⟨⟨hsound.closed.write record, hsound.keyed.accept record, hsound.loadBatch⟩, rfl, rfl⟩
  | fail => exact ⟨hsound, rfl, rfl⟩
  | round h => exact h.frame hsound
  | brokeOff => exact ⟨⟨.empty, .empty, hsound.loadBatch⟩, rfl, rfl⟩

end StationStep

/-- A station that takes records straight into its window, and hands none on to itself. -/
structure Station.Direct (station : Station M) (index : Nat) : Prop where
  queue : station.queue = none
  target : station.target.Avoids index

/-- A direct station that was just built. -/
structure Station.Fresh (station : Station M) (index : Nat) : Prop extends Direct station index where
  persister : ∃ model settings, station.persister = { model, settings }
  settings : station.persister.settings.check = .ok ()

theorem PersisterSettings.check_eq_ok_iff (settings : PersisterSettings) :
    settings.check = .ok () ↔ 0 < settings.drainEvery ∧ 0 < settings.loadBatch := by
  unfold check
  by_cases hdrain : 0 < settings.drainEvery <;> by_cases hload : 0 < settings.loadBatch <;>
    simp [Setting.check, hdrain, hload, bind, Except.bind, pure, Except.pure, throw, throwThe,
      MonadExceptOf.throw]

theorem Station.Fresh.atRest {station : Station M} {index : Nat} (h : station.Fresh index)
    (store : RowStore) : station.persister.AtRest store := by
  obtain ⟨model, settings, hpersister⟩ := h.persister
  have hsettings := (PersisterSettings.check_eq_ok_iff _).mp h.settings
  rw [hpersister] at hsettings ⊢
  refine ⟨⟨.empty, .empty, hsettings.2⟩, ?_⟩
  intro id held hheld
  have hnone := Sessions.session?_empty (M := M) id
  cases hnone.symm.trans hheld

namespace Engine

/-- What a run makes of an engine. -/
def after (index : Nat) (steps : List (StationStep M)) (engine : Engine M) : Engine M :=
  steps.foldl (fun engine step => step.run index engine) engine

theorem after_append (index : Nat) (done : List (StationStep M)) (step : StationStep M)
    (engine : Engine M) :
    after index (done ++ [step]) engine = step.run index (after index done engine) :=
  List.foldl_concat _ _ _ _

/-- A step of a station does what it does to its persister and to the rows, and nothing else to the
station. -/
theorem step_does [KeepsIdentity M] {index : Nat} {engine : Engine M} {station : Station M}
    (hstation : engine.stations[index]? = some station) (hdirect : station.Direct index)
    (hrest : station.persister.AtRest engine.store) (step : StationStep M) :
    ∃ writes persister, (step.run index engine).stations[index]? = some { station with persister } ∧
      step.Does station.persister engine.store writes persister (step.run index engine).store ∧
      (step.run index engine).store.executed = engine.store.executed ++ writes.map (fun write =>
        ⟨write.kind, write.model.storageName, write.id, write.fields⟩) := by
  cases step with
  | accept record =>
    have hrun : StationStep.run index (.accept record) engine =
        modifyPersister index (·.countAccepted) (modifyPersister index (·.write record) engine) :=
      congrArg Prod.snd (acceptAt_direct hstation hdirect.queue record)
    have hwritten := getElem?_modifyPersister hstation (·.write record)
    rw [hrun]
    exact ⟨[], _, getElem?_modifyPersister hwritten (·.countAccepted), .accept record,
      (List.append_nil _).symm⟩
  | round now later =>
    have hround := timedRound_ends hstation hdirect.target hrest now later
    simp only [StationStep.run, hstation]
    unfold Ends at hround
    split at hround
    · next answer last hrun =>
      obtain ⟨persister, writes, hlast, hended, hexecuted, _⟩ := hround
      rw [hrun]
      exact ⟨writes, persister, hlast, .round hended, hexecuted⟩
    · next fault last hrun =>
      obtain ⟨hdue, hrough, sessions, hsynced, hlast, hsame⟩ := hround
      rw [hrun]
      refine ⟨[], _, hlast, .brokeOff hdue hrough hsynced hsame, ?_⟩
      show last.store.executed = _
      rw [hsame]
      exact (List.append_nil _).symm
  | fail failures =>
    exact ⟨[], station.persister, hstation, .fail failures, (List.append_nil _).symm⟩

end Engine

end Rollup
