import Rollup.Proofs.Assembly

/-!
# Shutting down

Whatever has happened to a pipeline of sums, a shut down persists all that its queue has kept at the
level of the model. At the coarser levels it does so if their stations take part in the last round, or
if nothing is under way to them.
-/

namespace Rollup

open Rollup.Action SumRecord

variable {κ : Type}

/-- What the queue of the front has kept once it was offered one more record. -/
def Engine.keptWith (engine : Engine SumRecord) (kept : List SumRecord) (record : SumRecord) :
    List SumRecord :=
  let queue := Pool.offeredTo engine.pool engine.phase (frontLine 0) record engine
  (queue.offer record).1.keep kept record

/-- The states of a pipeline of one model, with what its queue has kept and the number of rounds so far.
The clock is never set back, and no storage failure is asked for. -/
inductive Pipeline.Runs (config : Config) (model : Model) (graph : Graph Stage) :
    Pipeline κ SumRecord → List SumRecord → Nat → Prop where
  | created {clock : Clock} {inputs : κ} {consumers : List (Option EventKind)}
      {empty created : Pipeline κ SumRecord} (ttlDays : config.metricsDataTtlDays < UInt32.size)
      (configured : ofConfig config clock = .ok (.ok empty))
      (wired : (create inputs model consumers).run.run empty = (.ok (.ok graph), created)) :
      Runs config model graph created [] 0
  | started {pipeline running : Pipeline κ SumRecord} {kept : List SumRecord} {rounds : Nat}
      (before : Runs config model graph pipeline kept rounds)
      (start : (enginePart.act Pooled.start).run.run pipeline = (.ok (), running)) :
      Runs config model graph running kept rounds
  | sent {pipeline : Pipeline κ SumRecord} {kept : List SumRecord} {rounds : Nat}
      (before : Runs config model graph pipeline kept rounds) (record : SumRecord)
      (dated : Dated model [record]) :
      Runs config model graph ((send graph record).run pipeline).2
        (pipeline.engine.keptWith kept record) rounds
  /-- A thread takes some batches out of a channel. -/
  | drained {pipeline : Pipeline κ SumRecord} {kept : List SumRecord} {rounds : Nat}
      (before : Runs config model graph pipeline kept rounds) (thread channel count : Nat) :
      Runs config model graph ((enginePart.run ((Engine.frontLine 0).drainBatches (.thread thread) channel
        pipeline.engine.pool.batchSize count)).run pipeline).2 kept rounds
  /-- A thread finds nothing to do. -/
  | idled {pipeline : Pipeline κ SumRecord} {kept : List SumRecord} {rounds : Nat}
      (before : Runs config model graph pipeline kept rounds) :
      Runs config model graph ((enginePart.run (Engine.flushFrontIfDue 0)).run pipeline).2 kept rounds
  | rested {pipeline : Pipeline κ SumRecord} {kept : List SumRecord} {rounds : Nat}
      (before : Runs config model graph pipeline kept rounds) :
      Runs config model graph ((enginePart.run Pooled.rest).run pipeline).2 kept rounds
  | round {pipeline : Pipeline κ SumRecord} {kept : List SumRecord} {rounds : Nat}
      (before : Runs config model graph pipeline kept rounds) :
      Runs config model graph ((enginePart.run Engine.round).run pipeline).2 kept (rounds + 1)
  | timed {pipeline : Pipeline κ SumRecord} {kept : List SumRecord} {rounds : Nat}
      (before : Runs config model graph pipeline kept rounds) (millis : Nat) :
      Runs config model graph ((runTimer millis).run pipeline).2 kept
        (rounds + (pipeline.ticker.getD { period := pipeline.config.persistentPeriodMs }).ticks millis)
  /-- Time passes. -/
  | later {pipeline : Pipeline κ SumRecord} {kept : List SumRecord} {rounds : Nat}
      (before : Runs config model graph pipeline kept rounds) (clock : Clock)
      (forward : pipeline.engine.clock.nowMillis ≤ clock.nowMillis) :
      Runs config model graph { pipeline with engine := { pipeline.engine with clock } } kept rounds

theorem Offer.mem_keep {α : Type} [BEq α] [LawfulBEq α] {offer : Offer α} {kept : List α}
    {item other : α} (h : other ∈ offer.keep kept item) : other ∈ kept ∨ other = item := by
  have hadded : other ∈ kept ++ [item] → other ∈ kept ∨ other = item := by simp
  cases offer with
  | queued => exact hadded h
  | evicting oldest => exact hadded (List.mem_of_mem_erase h)
  | onCaller => exact hadded h
  | refused => exact .inl h

/-! ## What is left -/

namespace Persister.Current

variable {persister : Persister SumRecord} {rounds : Nat} {now : Int} {store : RowStore}
  {drained waiting : List SumRecord}

theorem pending_eq_zero_iff (h : persister.Current rounds now store drained waiting) :
    persister.pending = 0 ↔ waiting = [] := by
  have hsize : persister.pending = persister.toDrain.length := by
    unfold Persister.toDrain Buffer.toList
    rw [List.length_map, Std.ExtTreeMap.length_toList]
    rfl
  rw [hsize, List.length_eq_zero_iff]
  constructor
  · intro hempty
    have htally := h.tally_toDrain fun _ => true
    rw [hempty, tally_nil, eq_comm, tally_eq_none_iff] at htally
    refine List.eq_nil_iff_forall_not_mem.mpr fun record hrecord => ?_
    cases htally record hrecord
  · rintro rfl
    have htally := h.tally_toDrain fun _ => true
    rw [tally_nil, tally_eq_none_iff] at htally
    refine List.eq_nil_iff_forall_not_mem.mpr fun record hrecord => ?_
    cases htally record hrecord

end Persister.Current

namespace Engine

/-- Nothing is left in the queue and the buffer of the front. -/
def FrontEmpty (engine : Engine SumRecord) : Prop := ∃ front,
  engine.fronts[0]? = some front ∧ front.queue.waiting = [] ∧ front.stage.pending = 0

/-- Nothing is left in the window of this station, and its rows hold the folds of these records. -/
structure Persisted (engine : Engine SumRecord) (model : Model) (index : Nat) (level : Level)
    (records : List SumRecord) : Prop where
  window : ∃ station, engine.stations[index]? = some station ∧ station.persister.pending = 0
  rows : ∀ id, engine.store.Accumulates (model.atLevel level).storageName id (foldOf id records)

/-- No coarser station has anything in its window, and the model's own station has nothing in its
window that is copied for them. -/
def NothingUnderWay (engine : Engine SumRecord) (model : Model) : Prop :=
  ∀ (index : Nat) (level : Level), 0 < index → model.levels[index]? = some level →
    (∀ station, engine.stations[index]? = some station → station.persister.pending = 0) ∧
    ∀ own, engine.stations[0]? = some own → coarsened level own.persister.toDrain = []

theorem Books.persisted_iff {engine : Engine SumRecord} {model : Model} {config : Config}
    {rounds : Nat} {front : Front SumRecord} {drained waiting : Nat → List SumRecord}
    (h : engine.Books model config rounds front drained waiting) {index : Nat} {level : Level}
    (hlevel : model.levels[index]? = some level) {records : List SumRecord}
    (htally : waiting index = [] → ∀ id, tally (fun own => decide (own = id)) (drained index) =
      tally (fun own => decide (own = id)) records) :
    engine.Persisted model index level records ↔ waiting index = [] := by
  obtain ⟨station, hstation, hplaced, hcurrent⟩ := h.stations index level hlevel
  constructor
  · rintro ⟨⟨found, hfound, hpending⟩, _⟩
    cases hstation.symm.trans hfound
    exact hcurrent.pending_eq_zero_iff.mp hpending
  · intro hempty
    refine ⟨⟨station, hstation, hcurrent.pending_eq_zero_iff.mpr hempty⟩, fun id => ?_⟩
    have hrows := (hcurrent.rows id).accumulates
    rw [foldOf_eq_of_tally (htally hempty id), hplaced.model_eq] at hrows
    exact hrows

end Engine

/-! ## Runs -/

namespace Pipeline

variable {config : Config} {model : Model} {graph : Graph Stage} {pipeline : Pipeline κ SumRecord}
  {kept : List SumRecord} {rounds : Nat}

/-- What a run keeps up. -/
structure Running (pipeline : Pipeline κ SumRecord) (config : Config) (model : Model)
    (graph : Graph Stage) (kept : List SumRecord) (rounds : Nat) : Prop where
  keeping : pipeline.engine.Keeping model config rounds kept
  dated : Dated model kept
  root : graph.root = .front 0

theorem Runs.running (h : Runs config model graph pipeline kept rounds)
    (hupdate : model.supportUpdate = true) : pipeline.Running config model graph kept rounds := by
  induction h with
  | @created clock inputs consumers empty created ttlDays configured wired =>
    have hcreated := create_ends inputs model consumers empty
    obtain ⟨hvalid, rfl⟩ := ofConfig_eq configured
    unfold Ends at hcreated
    rw [wired] at hcreated
    obtain ⟨coarser, queue, hlevels, hcoarser, hqueue, hroot, hengine, _⟩ := hcreated graph rfl
    refine ⟨?_, fun _ _ hrecord => absurd hrecord List.not_mem_nil, hroot⟩
    rw [hengine]
    exact install_keeping hvalid ttlDays hqueue hlevels hcoarser consumers
  | @started pipeline running kept rounds before start ih =>
    have hstart : Ends (enginePart.act Pooled.start) pipeline
        (fun _ running => running.engine.Keeping model config rounds kept) (fun _ _ => True) :=
      (ends_act enginePart Pooled.start).mpr ih.keeping.start_ends
    unfold Ends at hstart
    rw [start] at hstart
    exact ⟨hstart, ih.dated, ih.root⟩
  | @sent pipeline kept rounds before record dated ih =>
    have hsend : ((send graph record).run pipeline).2.engine =
        ((Engine.acceptFront 0 record).run pipeline.engine).2 := by
      unfold send
      rw [ih.root]
      rfl
    refine ⟨?_, fun hrelative other hother => ?_, ih.root⟩
    · rw [hsend]
      exact ih.keeping.acceptFront record
    · rcases Offer.mem_keep hother with hkept | rfl
      · exact ih.dated hrelative other hkept
      · exact dated hrelative other List.mem_cons_self
  | drained before thread channel count ih =>
    have hdrained := Engine.frontLine_carries.drainBatches ih.keeping (.thread thread) channel
      ih.keeping.pool.2 count
    exact ⟨hdrained.keeps, ih.dated, ih.root⟩
  | idled before ih => exact ⟨ih.keeping.flushFrontIfDue.1, ih.dated, ih.root⟩
  | rested before ih => exact ⟨ih.keeping.rest, ih.dated, ih.root⟩
  | round before ih => exact ⟨ih.keeping.round hupdate ih.dated, ih.dated, ih.root⟩
  | timed before millis ih => exact ⟨ih.keeping.roundsAfter hupdate ih.dated _, ih.dated, ih.root⟩
  | later before clock forward ih => exact ⟨ih.keeping.later forward, ih.dated, ih.root⟩

/-- The engine as the last round of a shut down finds it. -/
def stopped (pipeline : Pipeline κ SumRecord) : Engine SumRecord :=
  (Pooled.stop.run ((Engine.rounds (pipeline.ticker.elim 0 Ticker.due)).run pipeline.engine).2).2

theorem shutDown_engine (pipeline : Pipeline κ SumRecord) :
    (shutDown.run pipeline).2.engine = (Engine.round.run pipeline.stopped).2 := by
  have hrun : ∀ (first second : StateM (Engine SumRecord) Unit)
      (third : StateM (Engine SumRecord) RoundSummary) (pipeline : Pipeline κ SumRecord),
      ((enginePart.run do
        first
        second
        let _ ← third).run pipeline).2.engine =
        (third.run (second.run (first.run pipeline.engine).2).2).2 := fun _ _ _ _ => rfl
  exact hrun (Engine.rounds (pipeline.ticker.elim 0 Ticker.due)) Pooled.stop Engine.round
    { pipeline with ticker := none }

/-- A shut down leaves nothing in the queue, in the front and in the model's own station, whose rows
hold all that was kept. The coarser stations hold all of it and have nothing left exactly if they take
part in the last round, or if nothing is under way to them when it begins. -/
theorem shut_down_persists_iff (h : Runs config model graph pipeline kept rounds)
    (hupdate : model.supportUpdate = true) :
    let last := (shutDown.run pipeline).2.engine
    last.FrontEmpty ∧ last.Persisted model 0 model.level kept ∧
      ((∀ (index : Nat) (level : Level), 0 < index → model.levels[index]? = some level →
        last.Persisted model index level (coarsened level kept)) ↔
      (rounds + pipeline.ticker.elim 0 Ticker.due) % config.downsamplingPersistentMod = 0 ∨
        pipeline.stopped.NothingUnderWay model) := by
  have hrunning := h.running hupdate
  have hrounds := hrunning.keeping.roundsAfter hupdate hrunning.dated
    (pipeline.ticker.elim 0 Ticker.due)
  obtain ⟨front, drained, waiting, hbooks, hqueue, hbuffer, htally⟩ := hrounds.stop
  rw [← stopped] at hbooks
  have hdated : Dated model (drained 0 ++ waiting 0) :=
    Engine.Keeping.dated hrunning.dated (fun _ hrecord => hrecord) fun counts hnone =>
      (htally counts).trans hnone
  obtain ⟨drained', waiting', hlast, hdrained, hwaiting, hcoarser⟩ := hbooks.round hupdate hdated
  rw [← shutDown_engine] at hlast
  intro last
  have hkept : ∀ counts, tally counts (drained' 0) = tally counts kept := by
    intro counts
    rw [hdrained]
    exact htally counts
  have hpersisted : ∀ (index : Nat) (level : Level), 0 < index → model.levels[index]? = some level →
      (last.Persisted model index level (coarsened level kept) ↔ waiting' index = []) := by
    intro index level hindex hlevel
    refine hlast.persisted_iff hlevel fun hempty id => ?_
    have hcopied := hlast.copied index level hindex hlevel id
    rw [hempty, List.append_nil] at hcopied
    rw [hcopied, hkept, tally_coarsened]
  obtain ⟨own, hown, _, _⟩ := hbooks.exists_own
  refine ⟨⟨front, hlast.first, hqueue, ?_⟩, ?_, ?_⟩
  · rw [FirstLevel.pending, hbuffer]
    rfl
  · exact (hlast.persisted_iff rfl fun _ id => hkept _).mpr hwaiting
  · by_cases hdue : (rounds + pipeline.ticker.elim 0 Ticker.due) % config.downsamplingPersistentMod = 0
    · refine iff_of_true (fun index level hindex hlevel => ?_) (.inl hdue)
      rw [hpersisted index level hindex hlevel, hcoarser index level own hindex hlevel hown, hdue]
      rfl
    · -- The coarser stations sit the last round out, so what is under way to them is left.
      have hleft : ∀ (index : Nat) (level : Level), 0 < index → model.levels[index]? = some level →
          waiting' index = waiting index ++ coarsened level own.persister.toDrain := by
        intro index level hindex hlevel
        rw [hcoarser index level own hindex hlevel hown, if_neg (by simpa using hdue)]
      constructor
      · intro hall
        refine .inr fun index level hindex hlevel => ?_
        have hempty := (hpersisted index level hindex hlevel).mp (hall index level hindex hlevel)
        rw [hleft index level hindex hlevel, List.append_eq_nil_iff] at hempty
        refine ⟨fun station hstation => ?_, fun other hother => ?_⟩
        · obtain ⟨found, hfound, _, hcurrent⟩ := hbooks.stations index level hlevel
          cases hstation.symm.trans hfound
          exact hcurrent.pending_eq_zero_iff.mpr hempty.1
        · cases hown.symm.trans hother
          exact hempty.2
      · rintro (hnow | hnothing) index level hindex hlevel
        · exact absurd hnow hdue
        · obtain ⟨hstations, hcopies⟩ := hnothing index level hindex hlevel
          obtain ⟨station, hstation, _, hcurrent⟩ := hbooks.stations index level hlevel
          rw [hpersisted index level hindex hlevel, hleft index level hindex hlevel,
            hcurrent.pending_eq_zero_iff.mp (hstations station hstation), hcopies own hown]
          rfl

/-- A record comes after the first of four rounds. The model's own station takes part in the last one,
the station of months does not. -/
theorem shut_down_leaves_copies :
    let config : Config := {}
    let model : Model := { name := "orders", level := .day }
    let record : SumRecord := .new (.onFirstDay (.single "checkout")) 5
    ∃ (graph : Graph Stage) (pipeline : Pipeline Unit SumRecord),
      Runs config model graph pipeline [record] 1 ∧
      (shutDown.run pipeline).2.engine.Persisted model 0 .day [record] ∧
      ¬ (shutDown.run pipeline).2.engine.Persisted model 1 .month (coarsened .month [record]) := by
  intro config model record
  let graph : Graph Stage := ⟨"orders", .front 0, ["day", "l1", "month", "trans"]⟩
  let empty : Pipeline Unit SumRecord :=
    { config, engine := { clock := .ofMillis 0, pool := poolSettings config, threads := 2 } }
  let created := ((create () model []).run.run empty).2
  let started := ((enginePart.act Pooled.start).run.run created).2
  let rounded := ((enginePart.run Engine.round).run started).2
  let pipeline := ((send graph record).run rounded).2
  have hcreate : ((create () model []).run.run empty).1 = .ok (.ok graph) := by decide +kernel
  have hstart : ((enginePart.act Pooled.start).run.run created).1 = .ok () := by decide +kernel
  have hkept : rounded.engine.keptWith [] record = [record] := by decide +kernel
  have hempty : ofConfig config (.ofMillis 0) = .ok (.ok empty) := rfl
  have hrun : Runs config model graph pipeline [record] 1 := by
    rw [← hkept]
    have hcreated := Runs.created (by decide) hempty (Prod.ext hcreate rfl)
    have hstarted := hcreated.started (Prod.ext hstart rfl)
    exact hstarted.round.sent record nofun
  -- The next round is the second, and only every fourth drains the station of months.
  obtain ⟨_, hown, hcoarser⟩ := shut_down_persists_iff hrun rfl
  refine ⟨graph, pipeline, hrun, hown, fun hmonth => ?_⟩
  have hall : ∀ (index : Nat) (level : Level), 0 < index → model.levels[index]? = some level →
      (shutDown.run pipeline).2.engine.Persisted model index level (coarsened level [record]) := by
    intro index level hindex hlevel
    have hone : index = 1 := by
      have hlt := (List.getElem?_eq_some_iff.mp hlevel).1
      have hlength : model.levels.length = 2 := rfl
      omega
    subst hone
    cases hlevel
    exact hmonth
  rcases hcoarser.mp hall with hdue | hnothing
  · revert hdue
    decide +kernel
  · obtain ⟨_, hcopies⟩ := hnothing 1 .month Nat.one_pos rfl
    have hwaits : (pipeline.stopped.stations[0]?).map
        (fun own => (coarsened .month own.persister.toDrain).length) = some 1 := by decide +kernel
    obtain ⟨own, hfound, hlength⟩ := Option.map_eq_some_iff.mp hwaits
    rw [hcopies own hfound] at hlength
    cases hlength

end Pipeline

end Rollup
