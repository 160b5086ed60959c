import Rollup.Pipeline
import Rollup.Proofs.FrontFlow

/-!
# A pipeline that is put together

What is in the engine of a pipeline once a model was put in, and once its pool was started.
-/

namespace Rollup

open Rollup.Action SumRecord

/-! ## Settings -/

/-- The settings that may not be zero are positive. -/
structure Config.Checked (config : Config) : Prop where
  persistentPeriod : 0 < config.persistentPeriodMs
  loadBatch : 0 < config.maxBatchGetSize
  drainEvery : 0 < config.downsamplingPersistentMod
  sessionFactor : 0 < config.downsamplingSessionFactor
  prepareThreads : 0 < config.prepareThreads
  channelSize : 0 < config.carrier.channelSize
  channels : 0 < config.carrier.channels
  poolThreads : 0 < config.pool.threads
  batchSize : 0 < config.pool.batchSize

theorem Config.validate_eq_ok_iff (config : Config) :
    config.validate = .ok () ↔ config.Checked := by
  have hfound : config.validate = .ok () ↔ config.positives.find? (·.2 == 0) = none := by
    unfold validate
    split <;> simp [*]
  rw [hfound, List.find?_eq_none]
  simp only [positives, List.forall_mem_cons, beq_iff_eq, ← Nat.pos_iff_ne_zero]
  constructor
  · rintro ⟨hperiod, hload, hdrain, hfactor, hprepare, hsize, hchannels, hthreads, hbatch, -⟩
    exact ⟨hperiod, hload, hdrain, hfactor, hprepare, hsize, hchannels, hthreads, hbatch⟩
  · rintro ⟨hperiod, hload, hdrain, hfactor, hprepare, hsize, hchannels, hthreads, hbatch⟩
    exact ⟨hperiod, hload, hdrain, hfactor, hprepare, hsize, hchannels, hthreads, hbatch, by simp⟩

namespace Pipeline

variable {κ M : Type}

theorem ofConfig_eq {config : Config} {clock : Clock} {pipeline : Pipeline κ M}
    (h : ofConfig config clock = .ok (.ok pipeline)) : config.validate = .ok () ∧
      pipeline = { config
                   engine := { clock, pool := poolSettings config, threads := config.prepareThreads } } := by
  unfold ofConfig at h
  obtain ⟨⟨⟩, hvalid, h⟩ := bind_eq_ok_iff.mp h
  refine ⟨hvalid, ?_⟩
  obtain ⟨⟨⟩, _, h⟩ := bind_eq_ok_iff.mp (Except.ok.inj h)
  obtain ⟨⟨⟩, _, h⟩ := bind_eq_ok_iff.mp h
  exact (Except.ok.inj h).symm

/-! ## The graph -/

theorem wire_root {model : Model} {station front : Nat} {graph : Graph Stage}
    (h : wire model station front = .ok graph) : graph.root = .front front := by
  unfold wire at h
  obtain ⟨⟨_, _⟩, _, h⟩ := bind_eq_ok_iff.mp h
  obtain ⟨⟨_, _⟩, _, h⟩ := bind_eq_ok_iff.mp h
  obtain ⟨⟨_, _⟩, _, h⟩ := bind_eq_ok_iff.mp h
  obtain ⟨⟨first, _⟩, hnode, h⟩ := bind_eq_ok_iff.mp h
  obtain ⟨⟨built, _⟩, hbuild, h⟩ := bind_eq_ok_iff.mp h
  cases h
  have hfirst : first.stage = .front front := by
    unfold GraphBuilder.node at hnode
    split at hnode
    · cases hnode
    · cases hnode
      rfl
  rw [← hfirst]
  unfold GraphBuilder.build GraphBuilder.withRoot at hbuild
  simp only at hbuild
  split at hbuild
  · cases hbuild
  · obtain ⟨⟨⟩, _, hbuild⟩ := bind_eq_ok_iff.mp hbuild
    cases hbuild
    rfl

/-! ## The engine -/

/-- Settings of a coarser station. -/
structure Coarser (config : Config) (settings : PersisterSettings) : Prop where
  drainEvery : settings.drainEvery = config.downsamplingPersistentMod
  loadBatch : settings.loadBatch = config.maxBatchGetSize
  ttlDays : settings.ttlDays = config.metricsDataTtlDays

theorem nextCoarser_ends (pipeline : Pipeline κ M) : Ends nextCoarser pipeline
    (fun settings after => Coarser pipeline.config settings ∧
      ∃ count, after = { pipeline with coarser := count })
    (fun _ _ => True) := by
  unfold nextCoarser
  rw [ends_bind, ends_get, ends_bind, ends_liftM]
  refine ⟨fun _ _ => ?_, fun _ _ => trivial⟩
  rw [ends_bind, ends_liftM]
  refine ⟨fun count _ => ?_, fun _ _ => trivial⟩
  rw [ends_bind, ends_set, ends_bind, ends_liftM]
  exact ⟨fun _ _ => ⟨⟨rfl, rfl, rfl⟩, count, rfl⟩, fun _ _ => trivial⟩

theorem coarserStations_ends (levels : List Level) (pipeline : Pipeline κ M) :
    Ends (levels.mapM fun level => return (level, ← nextCoarser)) pipeline
      (fun coarser after => coarser.map (·.1) = levels ∧
        (∀ item ∈ coarser, Coarser pipeline.config item.2) ∧
        ∃ count, after = { pipeline with coarser := count })
      (fun _ _ => True) := by
  induction levels generalizing pipeline with
  | nil => exact ⟨rfl, by simp, _, rfl⟩
  | cons level rest ih =>
    rw [List.mapM_cons, ends_bind, ends_bind]
    refine (nextCoarser_ends pipeline).mono ?_ fun _ _ _ => trivial
    rintro settings _ ⟨hsettings, count, rfl⟩
    rw [ends_pure, ends_bind]
    refine (ih { pipeline with coarser := count }).mono ?_ fun _ _ _ => trivial
    rintro coarser _ ⟨hlevels, hcoarser, count, rfl⟩
    refine ⟨congrArg (level :: ·) hlevels, ?_, count, rfl⟩
    intro item hitem
    rcases List.mem_cons.mp hitem with rfl | hitem
    · exact hsettings
    · exact hcoarser item hitem

theorem create_ends (inputs : κ) (model : Model) (consumers : List (Option EventKind))
    (pipeline : Pipeline κ M) :
    Ends (create inputs model consumers) pipeline
      (fun answer created => ∀ graph, answer = .ok graph → ∃ coarser queue,
        coarser.map (·.1) = model.level.coarser ∧
        (∀ item ∈ coarser, Coarser pipeline.config item.2) ∧
        Queue.build (queueSettings pipeline.config model) = .ok queue ∧
        graph.root = .front pipeline.engine.fronts.length ∧
        created.engine = install pipeline.engine pipeline.config model queue consumers coarser ∧
        created.ticker = pipeline.ticker)
      (fun _ _ => True) := by
  unfold create
  rw [ends_bind, ends_get]
  split
  · rintro graph hgraph
    cases hgraph
  · rw [ends_bind]
    refine (coarserStations_ends model.level.coarser pipeline).mono ?_ fun _ _ _ => trivial
    rintro coarser _ ⟨hlevels, hcoarser, count, rfl⟩
    rw [ends_bind, ends_get, ends_bind, ends_liftM]
    refine ⟨fun _ _ => ?_, fun _ _ => trivial⟩
    rw [ends_bind, ends_liftM]
    refine ⟨fun queue hqueue => ?_, fun _ _ => trivial⟩
    dsimp only
    split
    · rintro graph hgraph
      cases hgraph
    · next built registry hregistered =>
      obtain ⟨wired, hwire, hregister⟩ := bind_eq_ok_iff.mp hregistered
      obtain ⟨_, _, hregister⟩ := bind_eq_ok_iff.mp hregister
      cases hregister
      rw [ends_bind, ends_set, ends_pure]
      rintro graph hgraph
      cases hgraph
      exact ⟨coarser, queue, hlevels, hcoarser, hqueue, wire_root hwire, rfl, rfl⟩

theorem persisterSettings_check {config : Config} (h : config.validate = .ok ()) :
    (persisterSettings config).check = .ok () := by
  have hchecked := config.validate_eq_ok_iff.mp h
  exact (PersisterSettings.check_eq_ok_iff _).mpr ⟨Nat.one_pos, hchecked.loadBatch⟩

theorem Coarser.check {config : Config} (hconfig : config.validate = .ok ())
    {settings : PersisterSettings} (h : Coarser config settings) : settings.check = .ok () := by
  have hchecked := config.validate_eq_ok_iff.mp hconfig
  refine (PersisterSettings.check_eq_ok_iff _).mpr ⟨?_, ?_⟩
  · rw [h.drainEvery]
    exact hchecked.drainEvery
  · rw [h.loadBatch]
    exact hchecked.loadBatch

theorem build_ready {α : Type} {settings : QueueSettings α} {queue : Queue α}
    (h : Queue.build settings = .ok queue) : queue.Ready ∧ queue.waiting = [] := by
  obtain ⟨hchannels, hsize, rfl⟩ := Queue.build_eq_ok h
  refine ⟨⟨hsize, ?_⟩, ?_⟩
  · rwa [List.length_replicate]
  · simp [Queue.waiting]

theorem sampler_eq {model : Model} {coarser : List (Level × PersisterSettings)}
    (h : coarser.map (·.1) = model.level.coarser) :
    (if coarser.isEmpty then Target.nowhere
      else .copies ⟨coarser.zipIdx.map fun ((level, _), index) => (level, 0 + 1 + index)⟩) =
      model.feeds := by
  unfold Model.feeds
  rw [← h, List.isEmpty_map, List.zipIdx_map, List.map_map]
  split
  · rfl
  · congr 2
    refine List.map_congr_left fun item _ => ?_
    simp [Nat.add_comm]

theorem fresh_current {engine : Engine SumRecord} {index : Nat} {station : Station SumRecord}
    (hstation : engine.stations[index]? = some station) (hfresh : station.Fresh index)
    (hempty : engine.store = {}) (now : Int) :
    station.persister.Current 0 now engine.store [] [] := by
  refine ⟨(Engine.aggregated_nil hstation hfresh hempty).aggregates, ?_, ?_⟩
  · obtain ⟨_, _, hpersister⟩ := hfresh.persister
    rw [hpersister]
  · intro id held hheld
    obtain ⟨_, _, hpersister⟩ := hfresh.persister
    rw [hpersister] at hheld
    cases (Sessions.session?_empty id).symm.trans hheld

theorem install_keeping {config : Config} {clock : Clock} {model : Model} {queue : Queue SumRecord}
    {coarser : List (Level × PersisterSettings)} (hconfig : config.validate = .ok ())
    (httl : config.metricsDataTtlDays < UInt32.size)
    (hqueue : Queue.build (queueSettings config model) = .ok queue)
    (hlevels : coarser.map (·.1) = model.level.coarser)
    (hcoarser : ∀ item ∈ coarser, Coarser config item.2) (consumers : List (Option EventKind)) :
    (install { clock, pool := poolSettings config, threads := config.prepareThreads } config model queue
      consumers coarser).Keeping model config 0 [] := by
  let engine : Engine SumRecord :=
    { clock, pool := poolSettings config, threads := config.prepareThreads }
  let installed := install engine config model queue consumers coarser
  obtain ⟨hready, hwaiting⟩ := build_ready hqueue
  have hchecked := config.validate_eq_ok_iff.mp hconfig
  have hstations : ∀ (index : Nat) (level : Level), model.levels[index]? = some level → ∃ station,
      installed.stations[index]? = some station ∧ station.Placed model config index level ∧
        station.persister.Current 0 installed.clock.nowMillis installed.store [] [] := by
    intro index level hlevel
    cases index with
    | zero =>
      obtain rfl := Option.some.inj hlevel
      have htarget := sampler_eq hlevels
      have hfirst : installed.stations[0]? = some _ := rfl
      refine ⟨_, hfirst, ⟨rfl, rfl, rfl, rfl, htarget⟩, ?_⟩
      refine fresh_current hfirst ⟨⟨rfl, ?_⟩, ⟨_, _, rfl⟩, persisterSettings_check hconfig⟩ rfl _
      exact htarget.symm ▸ model.feeds_avoids
    | succ index =>
      have hitem : model.level.coarser[index]? = some level := hlevel
      rw [← hlevels, List.getElem?_map] at hitem
      obtain ⟨⟨_, settings⟩, hfound, rfl⟩ := Option.map_eq_some_iff.mp hitem
      have hsettings := hcoarser _ (List.mem_of_getElem? hfound)
      have hstation : installed.stations[index + 1]? = some _ :=
        (List.getElem?_map ..).trans (congrArg _ hfound)
      refine ⟨_, hstation, ⟨rfl, rfl, hsettings.drainEvery, hsettings.ttlDays, rfl⟩, ?_⟩
      exact fresh_current hstation ⟨⟨rfl, trivial⟩, ⟨_, _, rfl⟩, hsettings.check hconfig⟩ rfl _
  have hlength : installed.stations.length = model.levels.length := by
    show (_ :: coarser.map _).length = _
    rw [Model.levels, ← hlevels]
    simp
  have hbooks : installed.Books model config 0 _ (fun _ => []) fun _ => [] :=
    { threads := hchecked.prepareThreads
      pool := ⟨hchecked.poolThreads, hchecked.batchSize⟩
      inlets := rfl
      ttlDays := httl
      length := hlength
      first := rfl
      target := rfl
      keyed := .empty
      stations := hstations
      copied := fun _ _ _ _ _ => rfl }
  refine ⟨hready, [], ⟨_, _, _, hbooks, fun counts => ?_⟩, ?_⟩
  · show tally counts ((Buffer.empty : Buffer SumRecord).toList ++ []) = _
    rw [Buffer.toList_empty]
    rfl
  · show [].Perm (queue.waiting ++ [])
    rw [hwaiting]
    exact .refl _

end Pipeline

namespace Engine.Keeping

variable {engine : Engine SumRecord} {model : Model} {config : Config} {rounds : Nat}
  {kept : List SumRecord}

theorem phase (h : engine.Keeping model config rounds kept) (phase : PoolPhase) :
    Keeping { engine with phase } model config rounds kept := by
  obtain ⟨hready, passed, ⟨front, drained, waiting, hbooks, htally⟩, hperm⟩ := h
  exact ⟨hready, passed, ⟨front, drained, waiting, { hbooks with }, htally⟩, hperm⟩

theorem start_ends (h : engine.Keeping model config rounds kept) : Ends Pooled.start engine
    (fun _ started => started.Keeping model config rounds kept) (fun _ _ => True) := by
  unfold Pooled.start
  rw [ends_bind, ends_get, ends_bind, ends_set, ends_bind, h.attachments_eq]
  unfold Pool.start
  rw [ends_bind, ends_liftM]
  refine ⟨fun _ _ => ?_, fun _ _ => trivial⟩
  rw [ends_bind, Pool.bind, List.map_singleton]
  show Ends (Attachment.bind _ _ >>= fun _ => pure ()) _ _ _
  rw [ends_bind, Line.attachment, ends_bind, ends_get, ends_bind, ends_liftM]
  refine ⟨fun queue hqueue => ?_, fun _ _ => trivial⟩
  rw [ends_set, ends_pure]
  have hbound : ((frontLine 0).queue.set { engine with phase := .gone } queue).Keeping model config
      rounds kept := by
    unfold Queue.bind at hqueue
    split at hqueue
    · cases hqueue
    · cases hqueue
      exact frontLine_carries.replace (h.phase .gone) _ ⟨rfl, rfl⟩ rfl
  split
  · rw [ends_bind]
    refine ends_of_forall (fun _ s => ?_) fun _ _ => trivial
    rw [ends_bind]
    refine ends_of_forall (fun _ s => ?_) fun _ _ => trivial
    exact trivial
  · exact phase hbound .running

end Engine.Keeping

end Rollup
