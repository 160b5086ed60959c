import Mathlib.Data.List.Induction
import Rollup.Proofs.CacheCoherence
import Rollup.Proofs.Percentiles
import Rollup.Proofs.RowEffects

/-!
# Rows are folds

A station that nobody disturbs aggregates plainly. However the records were split into rounds, and
whatever the session cache has forgotten and loaded again, after a drain each row holds the fold of all
records of its identity in the order in which they came.
-/

namespace Rollup

open Record

variable {M : Type} [Record M]

/-- The row of an identity holds the accumulators of a record. With no record there is no row. -/
def RowStore.Accumulates [Accumulating M] (store : RowStore) (table : String) (id : MetricId) :
    Option M → Prop
  | none => store.row? ⟨table, id⟩ = none
  | some whole => ∃ fields, store.row? ⟨table, id⟩ = some fields ∧
      ∀ column ∈ Accumulating.columns M, fields.get? column = (toFields whole).get? column

theorem RowStore.RowIs.accumulates [Accumulating M] {store : RowStore} {table : String}
    {id : MetricId} {held : Option M} (h : store.RowIs table id held) :
    store.Accumulates table id held := by
  cases held with
  | none => exact h
  | some whole =>
    obtain ⟨record, hfields, _, halike⟩ := h
    exact ⟨_, hfields, halike.2⟩

namespace StationStep

/-- The record that is handed over in a step. -/
def accepted? : StationStep M → Option M
  | accept record => some record
  | _ => none

/-- What the clock is set to in a step. -/
def readings : StationStep M → List Int
  | round now later => [now, later]
  | _ => []

end StationStep

/-- The records that are handed over in some steps. -/
def accepted (steps : List (StationStep M)) : List M := steps.filterMap StationStep.accepted?

/-- Nothing is told to fail, and the clock is never set back. -/
structure Calm (steps : List (StationStep M)) : Prop where
  steady : ∀ failures, .fail failures ∉ steps
  clock : (steps.flatMap StationStep.readings).Pairwise (· ≤ ·)

/-- Records of one identity have one scale, which a column can hold. -/
structure Uniform [Accumulating M] (records : List M) : Prop where
  scale : ∀ a ∈ records, ∀ b ∈ records, Record.id a = Record.id b →
    Accumulating.scale a = Accumulating.scale b
  storable : ∀ record ∈ records, Storable record

/-- The fold of all records of an identity. -/
def foldOf (id : MetricId) (records : List M) : Option M := joinedAll none (about id records)

namespace Engine

/-- The next round of a station drains its window. -/
def Drains (index : Nat) (engine : Engine M) : Prop :=
  ∃ station, engine.stations[index]? = some station ∧ station.persister.isDue = true

/-- What is held of an identity can be calculated at every drain. -/
def Calculates (index : Nat) (engine : Engine M) (steps : List (StationStep M)) : Prop :=
  ∀ done now later, done ++ [.round now later] <+: steps → Drains index (after index done engine) →
    ∀ id whole, foldOf id (accepted done) = some whole →
      ∃ calculated, calculate whole = .ok calculated

/-- A run of a fresh station with an empty store that nobody disturbs. -/
structure Undisturbed (index : Nat) (engine : Engine M) (station : Station M)
    (steps : List (StationStep M)) : Prop where
  here : engine.stations[index]? = some station
  fresh : station.Fresh index
  supportUpdate : station.persister.model.supportUpdate = true
  timeRelativeId : station.persister.model.timeRelativeId = true
  empty : engine.store = {}
  calm : Calm steps
  calculates : Calculates index engine steps

/-- Whatever admitted records are handed over, and whenever there are rounds: after each drain the row
of each identity holds the fold of its records so far. -/
def RowsAreFolds (M : Type) [Record M] [Accumulating M] (admits : List M → Prop) : Prop :=
  ∀ (index : Nat) (engine : Engine M) (station : Station M) (steps : List (StationStep M)),
    Undisturbed index engine station steps → admits (accepted steps) →
    ∀ done now later, done ++ [.round now later] <+: steps → Drains index (after index done engine) →
      ∀ id, (after index (done ++ [.round now later]) engine).store.Accumulates
        station.persister.model.storageName id (foldOf id (accepted done))

end Engine

/-! ## Folds -/

omit [Record M] in
theorem accepted_append (done more : List (StationStep M)) :
    accepted (done ++ more) = accepted done ++ accepted more :=
  List.filterMap_append

theorem foldOf_eq_none_iff {id : MetricId} {records : List M} :
    foldOf id records = none ↔ about id records = [] := by
  constructor
  · intro h
    by_contra hne
    exact joinedAll_ne_none hne h
  · intro h
    rw [foldOf, h]
    rfl

theorem foldOf_append (id : MetricId) (records more : List M) :
    foldOf id (records ++ more) = joinedAll (foldOf id records) (about id more) := by
  rw [foldOf, about_append, joinedAll_append]
  rfl

section

variable [Accumulating M] [LawfulRecord M] {id : MetricId} {drained waiting : List M}

theorem exists_scale_foldOf {whole : M} (h : foldOf id drained = some whole) :
    ∃ first ∈ drained, Record.id first = id ∧
      Accumulating.scale whole = Accumulating.scale first := by
  unfold foldOf at h
  cases hfirst : about id drained with
  | nil =>
    rw [hfirst] at h
    cases h
  | cons first rest =>
    rw [hfirst] at h
    obtain ⟨hmem, hid⟩ := mem_about.mp (hfirst ▸ List.mem_cons_self)
    exact ⟨first, hmem, hid, scale_joinedAll h⟩

theorem Uniform.storable_foldOf {records : List M} (h : Uniform records) {whole : M}
    (hwhole : foldOf id records = some whole) : Storable whole := by
  obtain ⟨first, hmem, _, hscale⟩ := exists_scale_foldOf hwhole
  exact Persister.storable_of_scale hscale (h.storable first hmem)

omit [LawfulRecord M] in
theorem Uniform.of_scale {records : List M} (h : ∀ record : M, Accumulating.scale record = 1) :
    Uniform records := by
  refine ⟨fun a _ b _ _ => (h a).trans (h b).symm, fun record _ => ?_⟩
  unfold Storable
  rw [h]
  decide

omit [LawfulRecord M] in
theorem Uniform.mono {records fewer : List M} (h : Uniform records)
    (hfewer : ∀ record ∈ fewer, record ∈ records) : Uniform fewer :=
  ⟨fun a ha b hb => h.scale a (hfewer a ha) b (hfewer b hb), fun a ha => h.storable a (hfewer a ha)⟩

theorem joined_foldOf (huniform : Uniform (drained ++ waiting)) {part : M}
    (hpart : foldOf id waiting = some part) : ∃ whole,
      foldOf id (drained ++ waiting) = some whole ∧ Alike (joined (foldOf id drained) part) whole := by
  rw [foldOf_append]
  cases hheld : foldOf id drained with
  | none => exact ⟨part, hpart, .refl part⟩
  | some held =>
    apply absorb_joinedAll _ hpart
    intro record hrecord
    obtain ⟨first, hfirst, hid, hscale⟩ := exists_scale_foldOf hheld
    obtain ⟨hmem, hrecord⟩ := mem_about.mp hrecord
    rw [hscale]
    exact huniform.scale record (List.mem_append_right _ hmem) first
      (List.mem_append_left _ hfirst) (hrecord.trans hid.symm)

end

/-! ## What a station has drained and what waits -/

/-- The rows hold what was drained, the window holds what waits. -/
structure Aggregates [Accumulating M] (persister : Persister M) (store : RowStore)
    (drained waiting : List M) : Prop where
  rest : persister.AtRest store
  failures : store.failures = {}
  window : ∀ id, persister.window.active.get? id = foldOf id waiting
  rows : ∀ id, store.RowIs persister.model.storageName id (foldOf id drained)

namespace Aggregates

variable [Accumulating M] [LawfulRecord M] {persister persister' : Persister M}
  {store store' : RowStore} {drained waiting : List M} {writes : List (Write M)} {now later : Int}

theorem accept (h : Aggregates persister store drained waiting) (record : M) :
    Aggregates (persister.write record).countAccepted store drained (waiting ++ [record]) := by
  refine ⟨⟨⟨h.rest.closed.write record, h.rest.keyed.accept record, h.rest.loadBatch⟩,
    h.rest.synced⟩, h.failures, ?_, h.rows⟩
  intro id
  show (persister.window.active.accept record).get? id = _
  rw [Buffer.get?_accept, h.window, foldOf_append, about_cons]
  split_ifs <;> rfl

omit [LawfulRecord M] in
theorem sitOut (h : Aggregates persister store drained waiting) (hdue : persister.isDue = false)
    (hround : persister.Round store now later writes persister' store') :
    Aggregates persister' store' drained waiting := by
  have hsound := (hround.frame h.rest.toSound).1
  cases hround with
  | satOut due wrote =>
    have hrows := fun id => wrote.others id (by simp)
    refine ⟨⟨hsound, fun id held hheld => ?_⟩, wrote.failures.trans h.failures, h.window,
      fun id => (h.rows id).of_row?_eq (hrows id)⟩
    obtain ⟨hheld, _⟩ := Sessions.session?_evict.mp hheld
    exact (h.rest.synced id held hheld).of_row?_eq (hrows id)
  | executed due =>
    rw [hdue] at due
    cases due
  | failed due =>
    rw [hdue] at due
    cases due

theorem smooth (h : Aggregates persister store drained waiting)
    (hexpires : persister.Expires now) (huniform : Uniform (drained ++ waiting))
    (hcalculate : ∀ id whole, foldOf id (drained ++ waiting) = some whole →
      ∃ calculated, calculate whole = .ok calculated) :
    Smooth store persister.model persister.settings.ttlDays now persister.toDrain := by
  apply Persister.smooth_of_rows h.rest.toSound h.failures hexpires h.rows
  intro id part hpart
  rw [h.window] at hpart
  obtain ⟨whole, hwhole, halike⟩ := joined_foldOf huniform hpart
  obtain ⟨calculated, hcalculated⟩ := hcalculate id whole hwhole
  exact LawfulRecord.calculate_of_alike halike.symm hcalculated

theorem drain (h : Aggregates persister store drained waiting) (hdue : persister.isDue = true)
    (hupdate : persister.model.supportUpdate = true)
    (hexpires : persister.Expires now) (huniform : Uniform (drained ++ waiting))
    (hcalculate : ∀ id whole, foldOf id (drained ++ waiting) = some whole →
      ∃ calculated, calculate whole = .ok calculated)
    (hstamps : ∀ id held, persister.sessions.session? id = some held → held.lastUpdate ≤ now)
    (hround : persister.Round store now later writes persister' store') :
    Aggregates persister' store' (drained ++ waiting) [] := by
  have hstoring : persister.Storing fun id => foldOf id drained := by
    refine ⟨fun id part hpart => ?_, fun id whole hwhole => ?_⟩
    · rw [h.window] at hpart
      exact (huniform.mono fun _ => List.mem_append_right _).storable_foldOf hpart
    · exact (huniform.mono fun _ => List.mem_append_left _).storable_foldOf hwhole
  have hsmooth := h.smooth hexpires huniform hcalculate
  have hsound := (hround.frame h.rest.toSound).1
  have hsynced := fun hread => hround.synced h.rest hread fun write _ _ =>
    hround.not_overtaken hstamps write.id
  cases hround with
  | satOut due =>
    rw [hdue] at due
    cases due
  | failed _ _ failing =>
    rw [h.failures] at failing
    cases failing
  | executed due built wrote =>
    have hread := built.readBack h.rest.toSound h.rows hstoring
    refine ⟨⟨hsound, hsynced hread⟩, wrote.failures.trans h.failures, ?_, ?_⟩
    · intro id
      exact Buffer.get?_empty id
    · intro id
      have hmerged := built.merges hsmooth h.rest.toSound hupdate wrote h.rows hstoring id
      rw [Persister.merged, h.window] at hmerged
      cases hpart : foldOf id waiting with
      | none =>
        rw [hpart] at hmerged
        rw [foldOf_append, foldOf_eq_none_iff.mp hpart]
        exact hmerged
      | some part =>
        rw [hpart] at hmerged
        obtain ⟨whole, hwhole, halike⟩ := joined_foldOf huniform hpart
        rw [hwhole]
        exact hmerged.alike halike

end Aggregates

/-! ## Runs -/

omit [Record M] in
theorem Calm.next {done steps : List (StationStep M)} (h : Calm steps) {step : StationStep M}
    (hdone : done ++ [step] <+: steps) : (∀ failures, step ≠ .fail failures) ∧
      ∀ shown ∈ done.flatMap StationStep.readings, ∀ next ∈ step.readings, shown ≤ next := by
  constructor
  · rintro failures rfl
    exact h.steady failures (hdone.mem (List.mem_append_right _ List.mem_cons_self))
  · obtain ⟨rest, rfl⟩ := hdone
    have hclock := h.clock
    rw [List.append_assoc, List.flatMap_append, List.pairwise_append] at hclock
    intro shown hshown next hnext
    refine hclock.2.2 shown hshown next ?_
    exact List.mem_flatMap_of_mem List.mem_cons_self hnext

theorem StationStep.Does.aggregates [Accumulating M] [LawfulRecord M]
    {persister persister' : Persister M} {store store' : RowStore} {drained waiting : List M}
    {step : StationStep M} {writes : List (Write M)}
    (hdoes : step.Does persister store writes persister' store')
    (h : Aggregates persister store drained waiting) (hupdate : persister.model.supportUpdate = true)
    (hrelative : persister.model.timeRelativeId = true) (huniform : Uniform (drained ++ waiting))
    (hsteady : ∀ failures, step ≠ .fail failures)
    (hstamps : ∀ now later, step = .round now later → ∀ id held,
      persister.sessions.session? id = some held → held.lastUpdate ≤ Engine.reading now)
    (hcalculate : ∀ now later, step = .round now later → persister.isDue = true →
      ∀ id whole, foldOf id (drained ++ waiting) = some whole →
        ∃ calculated, calculate whole = .ok calculated) :
    ∃ drained' waiting', Aggregates persister' store' drained' waiting' ∧
      drained' ++ waiting' = drained ++ waiting ++ step.accepted?.toList ∧
      (∀ now later, step = .round now later → persister.isDue = true → waiting' = []) ∧
      ∀ id held, persister'.sessions.session? id = some held →
        persister.sessions.session? id = some held ∨
          ∃ shown ∈ step.readings, held.lastUpdate ≤ Engine.reading shown := by
  cases hdoes with
  | accept record =>
    refine ⟨drained, waiting ++ [record], h.accept record, (List.append_assoc _ _ _).symm, ?_, ?_⟩
    · intro now later hround
      cases hround
    · exact fun id held hheld => Or.inl hheld
  | fail failures => exact absurd rfl (hsteady failures)
  | @round now later _ _ _ hround =>
    have hsince : ∀ id held, persister'.sessions.session? id = some held →
        persister.sessions.session? id = some held ∨
          ∃ shown ∈ [now, later], held.lastUpdate ≤ Engine.reading shown := by
      intro id held hheld
      rcases hround.since id held hheld with hle | hbefore
      · exact Or.inr ⟨now, List.mem_cons_self, hle⟩
      · exact Or.inl hbefore
    cases hdue : persister.isDue with
    | false =>
      refine ⟨drained, waiting, h.sitOut hdue hround, (List.append_nil _).symm, ?_, hsince⟩
      intro _ _ _ hdrains
      cases hdrains
    | true =>
      have hdrain := h.drain hdue hupdate (.of_relative hrelative) huniform (hcalculate _ _ rfl hdue)
        (hstamps _ _ rfl) hround
      exact ⟨drained ++ waiting, [], hdrain, rfl, fun _ _ _ _ => rfl, hsince⟩
  | brokeOff hdue hrough =>
    exact absurd (h.smooth (.of_relative hrelative) huniform (hcalculate _ _ rfl hdue)) hrough

namespace Engine

/-- What a station has aggregated after some steps. -/
structure Aggregated [Accumulating M] (index : Nat) (model : Model) (done : List (StationStep M))
    (engine : Engine M) (station : Station M) (drained waiting : List M) : Prop where
  here : engine.stations[index]? = some station
  direct : station.Direct index
  model_eq : station.persister.model = model
  taken : drained ++ waiting = accepted done
  aggregates : Aggregates station.persister engine.store drained waiting
  /-- No entry is later than all that the clock has shown. -/
  stamps : ∀ id held, station.persister.sessions.session? id = some held →
    ∀ latest, (∀ shown ∈ done.flatMap StationStep.readings, shown ≤ latest) →
      held.lastUpdate ≤ reading latest

theorem aggregated_nil [Accumulating M] {index : Nat} {engine : Engine M} {station : Station M}
    (hstation : engine.stations[index]? = some station) (hfresh : station.Fresh index)
    (hempty : engine.store = {}) :
    Aggregated index station.persister.model [] engine station [] [] := by
  have hrest := hfresh.atRest engine.store
  obtain ⟨model, settings, hpersister⟩ := hfresh.persister
  refine ⟨hstation, hfresh.toDirect, rfl, rfl, ⟨hrest, ?_, ?_, ?_⟩, ?_⟩
  · rw [hempty]
  · intro id
    rw [hpersister]
    exact Buffer.get?_empty id
  · intro id
    show engine.store.row? _ = none
    rw [hempty]
    simp [RowStore.row?]
  · intro id held hheld
    rw [hpersister] at hheld
    cases (Sessions.session?_empty id).symm.trans hheld

variable [Accumulating M] [LawfulRecord M] {index : Nat} {model : Model}
  {done : List (StationStep M)} {engine : Engine M} {station : Station M} {drained waiting : List M}

/-- One more step. -/
theorem Aggregated.step (h : Aggregated index model done engine station drained waiting)
    (hupdate : model.supportUpdate = true) (hrelative : model.timeRelativeId = true)
    (huniform : Uniform (accepted done)) (step : StationStep M)
    (hsteady : ∀ failures, step ≠ .fail failures)
    (hclock : ∀ shown ∈ done.flatMap StationStep.readings, ∀ next ∈ step.readings, shown ≤ next)
    (hcalculate : ∀ now later, step = .round now later → Drains index engine →
      ∀ id whole, foldOf id (accepted done) = some whole →
        ∃ calculated, calculate whole = .ok calculated) :
    ∃ station' drained' waiting',
      Aggregated index model (done ++ [step]) (step.run index engine) station' drained' waiting' ∧
      (∀ now later, step = .round now later → Drains index engine → waiting' = []) := by
  obtain ⟨writes, persister, hlast, hdoes, _⟩ := step_does h.here h.direct h.aggregates.rest step
  have hdrains : Drains index engine ↔ station.persister.isDue = true := by
    simp [Drains, h.here]
  rw [← h.model_eq] at hupdate hrelative
  rw [← h.taken] at huniform hcalculate
  rw [hdrains] at hcalculate
  obtain ⟨drained', waiting', haggregates, htaken, hempty, hstamps⟩ :=
    hdoes.aggregates h.aggregates hupdate hrelative huniform hsteady
      (fun now later hround id held hheld => h.stamps id held hheld now fun shown hshown =>
        hclock shown hshown now (by simp [hround, StationStep.readings])) hcalculate
  refine ⟨_, drained', waiting', ⟨hlast, ⟨h.direct.queue, h.direct.target⟩, ?_, ?_, haggregates, ?_⟩,
    by rwa [hdrains]⟩
  · exact (hdoes.frame h.aggregates.rest.toSound).2.1.trans h.model_eq
  · rw [htaken, h.taken, accepted_append]
    cases step <;> rfl
  · intro id held hheld latest hlatest
    rw [List.flatMap_append] at hlatest
    rcases hstamps id held hheld with hbefore | ⟨shown, hshown, hle⟩
    · exact h.stamps id held hbefore latest fun shown hshown =>
        hlatest shown (List.mem_append_left _ hshown)
    · have := reading_mono (hlatest shown (List.mem_append_right _ (by simpa using hshown)))
      omega

theorem Undisturbed.step {steps : List (StationStep M)} {first : Station M} {start : Engine M}
    (hrun : Undisturbed index start first steps) (huniform : Uniform (accepted steps))
    {step : StationStep M} (hdone : done ++ [step] <+: steps)
    (h : Aggregated index first.persister.model done (after index done start) station drained
      waiting) :
    ∃ station' drained' waiting',
      Aggregated index first.persister.model (done ++ [step]) (after index (done ++ [step]) start)
        station' drained' waiting' ∧
      (∀ now later, step = .round now later → Drains index (after index done start) →
        waiting' = []) := by
  have hbefore : done <+: steps := (List.prefix_append _ _).trans hdone
  have hsome : Uniform (accepted done) :=
    huniform.mono fun _ hmem => (hbefore.sublist.filterMap _).subset hmem
  obtain ⟨hsteady, hclock⟩ := hrun.calm.next hdone
  rw [after_append]
  exact h.step hrun.supportUpdate hrun.timeRelativeId hsome step hsteady hclock
    fun now later hround => hrun.calculates done now later (hround ▸ hdone)

theorem Undisturbed.exists_aggregated {steps : List (StationStep M)}
    (hrun : Undisturbed index engine station steps) (huniform : Uniform (accepted steps))
    (hdone : done <+: steps) : ∃ station' drained waiting,
      Aggregated index station.persister.model done (after index done engine) station' drained
        waiting := by
  induction done using List.reverseRecOn with
  | nil => exact ⟨station, [], [], aggregated_nil hrun.here hrun.fresh hrun.empty⟩
  | append_singleton done step ih =>
    obtain ⟨_, _, _, h⟩ := ih ((List.prefix_append _ _).trans hdone)
    obtain ⟨station', drained, waiting, hstep, _⟩ := hrun.step huniform hdone h
    exact ⟨station', drained, waiting, hstep⟩

theorem rowsAreFolds_of_uniform : RowsAreFolds M Uniform := by
  intro index engine station steps hrun huniform done now later hdone hdrains id
  obtain ⟨_, _, _, h⟩ := hrun.exists_aggregated huniform ((List.prefix_append _ _).trans hdone)
  obtain ⟨station', drained', waiting', hstep, hwaiting⟩ := hrun.step huniform hdone h
  have htaken : drained' = accepted done := by
    have htaken := hstep.taken
    rw [hwaiting now later rfl hdrains, accepted_append, List.append_nil] at htaken
    exact htaken.trans (List.append_nil _)
  rw [← hstep.model_eq, ← htaken]
  exact (hstep.aggregates.rows id).accumulates

omit [LawfulRecord M] in
theorem RowsAreFolds.mono {admits admits' : List M → Prop} (h : RowsAreFolds M admits)
    (hadmits : ∀ records, admits' records → admits records) : RowsAreFolds M admits' :=
  fun index engine station steps hrun hadmitted =>
    h index engine station steps hrun (hadmits _ hadmitted)

end Engine

/-! ## The stock records -/

/-- Histograms of one identity have one precision, which a column can hold. `new` makes none with a
precision of 0. -/
def PercentileRecord.Uniform (records : List PercentileRecord) : Prop :=
  (∀ a ∈ records, ∀ b ∈ records, a.id = b.id → a.precision.value = b.precision.value) ∧
    ∀ record ∈ records, 0 < record.precision.value ∧
      record.precision.value.toNat < 0x8000000000000000

namespace Engine

/-- Whatever the records were split into rounds, and whatever was forgotten and loaded again, rows are
folds, for each of the stock records. -/
theorem rows_are_folds :
    RowsAreFolds SumRecord (fun _ => True) ∧ RowsAreFolds PeakRecord (fun _ => True) ∧
    RowsAreFolds RateRecord (fun _ => True) ∧ RowsAreFolds AverageRecord (fun _ => True) ∧
    RowsAreFolds LatestRecord (fun _ => True) ∧
    RowsAreFolds PercentileRecord PercentileRecord.Uniform := by
  refine ⟨?_, ?_, ?_, ?_, ?_, ?_⟩
  · exact rowsAreFolds_of_uniform.mono fun _ _ => .of_scale fun _ => rfl
  · exact rowsAreFolds_of_uniform.mono fun _ _ => .of_scale fun _ => rfl
  · exact rowsAreFolds_of_uniform.mono fun _ _ => .of_scale fun _ => rfl
  · exact rowsAreFolds_of_uniform.mono fun _ _ => .of_scale fun _ => rfl
  · exact rowsAreFolds_of_uniform.mono fun _ _ => .of_scale fun _ => rfl
  · exact rowsAreFolds_of_uniform.mono fun _ h => ⟨h.1, h.2⟩

/-- Two sums of one identity, each drained in a round of its own, become one row. -/
theorem rows_are_folds_of_two_rounds :
    let id := MetricId.onFirstDay (.single "checkout")
    let engine : Engine SumRecord :=
      { clock := .ofMillis 0
        stations := [{ persister := { model := { name := "orders", level := .day } } }] }
    let last := after 0 [.accept (.new id 2), .round 1000 1000, .accept (.new id 3),
      .round 2000 2000] engine
    ∃ fields, last.store.row? ⟨"orders_day", id⟩ = some fields ∧
      fields.get? "value" = some (.long 5) := by
  intro id engine last
  let station : Station SumRecord := { persister := { model := { name := "orders", level := .day } } }
  let steps : List (StationStep SumRecord) :=
    [.accept (.new id 2), .round 1000 1000, .accept (.new id 3), .round 2000 2000]
  have hrun : Undisturbed 0 engine station steps := by
    refine ⟨rfl, ⟨⟨rfl, trivial⟩, ⟨_, _, rfl⟩, rfl⟩, rfl, rfl, rfl, ⟨?_, by decide⟩, ?_⟩
    · simp [steps]
    · exact fun _ _ _ _ _ _ whole _ => ⟨whole, rfl⟩
  have hdrains : Drains 0 (after 0 [.accept (.new id 2), .round 1000 1000, .accept (.new id 3)]
      engine) := by
    unfold Drains
    decide +kernel
  obtain ⟨fields, hrow, hfields⟩ := rows_are_folds.1 0 engine station steps hrun trivial
    [.accept (.new id 2), .round 1000 1000, .accept (.new id 3)] 2000 2000 (List.prefix_refl _)
    hdrains id
  refine ⟨fields, hrow, (hfields "value" List.mem_cons_self).trans ?_⟩
  decide +kernel

end Engine

end Rollup
