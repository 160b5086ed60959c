import Mathlib.Algebra.GroupWithZero.Nat
import Rollup.Proofs.Creation

/-!
# Enrolment

What a pipeline has come to after any calls that put models in. A model of a new name is put in whole,
and one whose name is taken changes nothing.
-/

namespace Rollup.Pipeline

open Rollup.Action

variable {κ M : Type}

/-! ## What is planned -/

/-- The settings of the coarser station that has this number among all of them. -/
def coarserSettings (config : Config) (number : Nat) : Except Fault PersisterSettings :=
  (config.downsamplingSessionTimeout number).map fun sessionTimeout =>
    { persisterSettings config with
      sessionTimeout, drainEvery := config.downsamplingPersistentMod }

/-- A station's model and settings. -/
abbrev Placement := Model × Except Fault PersisterSettings

/-- The stations of a model, the finer ones first. The coarser ones are numbered from `first` on. -/
def placements (config : Config) (first : Nat) (model : Model) : List Placement :=
  (model, .ok (persisterSettings config)) ::
    (model.level.coarser.zipIdx first).map fun (level, number) =>
      (model.atLevel level, coarserSettings config number)

/-- The number of coarser stations that models get. -/
def coarserCount (models : List Model) : Nat := (models.map (·.level.coarser.length)).sum

/-- The stations of some models, one model after the other. -/
def allPlacements (config : Config) : (first : Nat) → List Model → List Placement
  | _, [] => []
  | first, model :: rest =>
    placements config first model ++ allPlacements config (first + model.level.coarser.length) rest

theorem allPlacements_models (config : Config) (first : Nat) (models : List Model) :
    (allPlacements config first models).map (·.1) = models.flatMap fun model =>
      model.levels.map model.atLevel := by
  induction models generalizing first with
  | nil => rfl
  | cons model rest ih =>
    have hcoarser : ((model.level.coarser.zipIdx first).map fun (level, number) =>
        (model.atLevel level, coarserSettings config number)).map (·.1) =
          model.level.coarser.map model.atLevel := by
      conv_rhs => rw [← List.zipIdx_map_fst first model.level.coarser]
      rw [List.map_map, List.map_map]
      rfl
    rw [allPlacements, List.map_append, ih, List.flatMap_cons, placements, List.map_cons, hcoarser]
    rfl

theorem allPlacements_append (config : Config) (first : Nat) (models : List Model) (model : Model) :
    allPlacements config first (models ++ [model]) =
      allPlacements config first models ++ placements config (first + coarserCount models) model := by
  induction models generalizing first with
  | nil => exact List.append_nil _
  | cons head rest ih =>
    have hcount : coarserCount (head :: rest) = head.level.coarser.length + coarserCount rest :=
      List.sum_cons
    rw [List.cons_append, allPlacements, ih, allPlacements, hcount, List.append_assoc, Nat.add_assoc]

/-- The coarser stations of some models, in the order in which they are made. -/
def coarserPlacements (config : Config) (first : Nat) (models : List Model) : List Placement :=
  ((models.flatMap fun model => model.level.coarser.map model.atLevel).zipIdx first).map
    fun (model, number) => (model, coarserSettings config number)

theorem filter_allPlacements {own : Model → Bool} {models : List Model}
    (h : ∀ model ∈ models, own model = true ∧
      ∀ level ∈ model.level.coarser, own (model.atLevel level) = false)
    (config : Config) (first : Nat) :
    (allPlacements config first models).filter (!own ·.1) = coarserPlacements config first models := by
  induction models generalizing first with
  | nil => rfl
  | cons model rest ih =>
    obtain ⟨⟨hown, hcoarser⟩, hrest⟩ := List.forall_mem_cons.mp h
    have hkept : ((model.level.coarser.zipIdx first).map fun (level, number) =>
        (model.atLevel level, coarserSettings config number)).filter (!own ·.1) =
          ((model.level.coarser.map model.atLevel).zipIdx first).map fun (model, number) =>
            (model, coarserSettings config number) := by
      rw [List.filter_eq_self.mpr, List.zipIdx_map, List.map_map]
      · rfl
      · intro placement hplacement
        obtain ⟨⟨level, number⟩, hlevel, rfl⟩ := List.mem_map.mp hplacement
        simpa using hcoarser level (List.fst_mem_of_mem_zipIdx hlevel)
    rw [allPlacements, List.filter_append, ih hrest, placements, List.filter_cons, hkept]
    simp [hown, coarserPlacements, List.zipIdx_append]

/-! ## Putting a model in -/

theorem nextCoarser_numbered (pipeline : Pipeline κ M) : Ends nextCoarser pipeline
    (fun settings after => coarserSettings pipeline.config pipeline.coarser = .ok settings ∧
      after = { pipeline with coarser := pipeline.coarser + 1 })
    (fun _ _ => True) := by
  unfold nextCoarser
  rw [ends_bind, ends_get, ends_bind, ends_liftM]
  refine ⟨fun sessionTimeout htimeout => ?_, fun _ _ => trivial⟩
  rw [ends_bind, ends_liftM]
  refine ⟨fun count hcount => ?_, fun _ _ => trivial⟩
  rw [ends_bind, ends_set, ends_bind, ends_liftM]
  refine ⟨fun _ _ => ⟨?_, ?_⟩, fun _ _ => trivial⟩
  · rw [coarserSettings, htimeout]
    rfl
  · unfold countCoarser at hcount
    split at hcount <;> cases hcount
    rfl

theorem coarserStations_numbered (levels : List Level) (pipeline : Pipeline κ M) :
    Ends (levels.mapM fun level => return (level, ← nextCoarser)) pipeline
      (fun coarser after =>
        (coarser.map fun (level, settings) => (level, Except.ok settings)) =
          ((levels.zipIdx pipeline.coarser).map fun (level, number) =>
            (level, coarserSettings pipeline.config number)) ∧
        after = { pipeline with coarser := pipeline.coarser + levels.length })
      (fun _ _ => True) := by
  induction levels generalizing pipeline with
  | nil => exact ⟨rfl, rfl⟩
  | cons level rest ih =>
    rw [List.mapM_cons, ends_bind, ends_bind]
    refine (nextCoarser_numbered pipeline).mono ?_ fun _ _ _ => trivial
    rintro settings _ ⟨hsettings, rfl⟩
    rw [ends_pure, ends_bind]
    refine (ih { pipeline with coarser := pipeline.coarser + 1 }).mono ?_ fun _ _ _ => trivial
    rintro coarser _ ⟨hcoarser, rfl⟩
    refine ⟨?_, ?_⟩
    · rw [List.map_cons, hcoarser, List.zipIdx_cons, List.map_cons]
      dsimp only
      rw [hsettings]
    · simp only [List.length_cons, Nat.add_assoc, Nat.add_comm 1]

/-- What a call makes of a pipeline that takes the model. -/
structure Adds (model : Model) (pipeline : Pipeline κ M) (graph : Graph Stage)
    (after : Pipeline κ M) : Prop where
  id : graph.id = model.name
  root : graph.root = .front pipeline.engine.fronts.length
  config : after.config = pipeline.config
  coarser : after.coarser = pipeline.coarser + model.level.coarser.length
  graphs : after.graphs = pipeline.graphs ++ [graph]
  registry : ∀ name, after.registry.contains name = true ↔
    name = model.name ∨ pipeline.registry.contains name = true
  stations : (after.engine.stations.map fun station =>
      (station.persister.model, Except.ok station.persister.settings)) =
    (pipeline.engine.stations.map fun station =>
      (station.persister.model, Except.ok station.persister.settings)) ++
      placements pipeline.config pipeline.coarser model
  fronts : after.engine.fronts.map (·.stage.model) =
    pipeline.engine.fronts.map (·.stage.model) ++ [model]
  inlets : after.engine.inlets = pipeline.engine.inlets ++ [.front pipeline.engine.fronts.length]

theorem create_adds (inputs : κ) (model : Model) (consumers : List (Option EventKind))
    (pipeline : Pipeline κ M) :
    Ends (create inputs model consumers) pipeline
      (fun answer after =>
        (pipeline.registry.contains model.name = true ∧
          answer = .error (.duplicateGraph model.name) ∧ after = pipeline) ∨
        (pipeline.registry.contains model.name = false ∧
          ∃ graph, answer = .ok graph ∧ pipeline.Adds model graph after))
      (fun _ _ => pipeline.registry.contains model.name = false) := by
  unfold create
  rw [ends_bind, ends_get]
  split
  · next htaken => exact .inl ⟨htaken, rfl, rfl⟩
  · next hfree =>
    rw [Bool.not_eq_true] at hfree
    rw [ends_bind]
    refine (coarserStations_numbered model.level.coarser pipeline).mono ?_ fun _ _ _ => hfree
    rintro coarser _ ⟨hcoarser, rfl⟩
    rw [ends_bind, ends_get, ends_bind, ends_liftM]
    refine ⟨fun _ _ => ?_, fun _ _ => hfree⟩
    rw [ends_bind, ends_liftM]
    refine ⟨fun queue _ => ?_, fun _ _ => hfree⟩
    -- The coarser stations are counted by now, so nothing may be refused any more.
    obtain ⟨graph, hwire, hid⟩ :=
      wire_ok model pipeline.engine.stations.length pipeline.engine.fronts.length
    obtain ⟨registry, hregister, hregistry⟩ := register_ok (hid ▸ hfree) inputs
    have hregistered : (Except.ok graph >>= fun graph => pipeline.registry.register inputs graph >>=
        fun registry => pure (graph, registry)) = .ok (graph, registry) := by
      show (pipeline.registry.register inputs graph >>= _) = _
      rw [hregister]
      rfl
    rw [hwire]
    dsimp only
    rw [hregistered, ends_bind, ends_set, ends_pure]
    rw [hid] at hregistry
    refine .inr ⟨hfree, graph, rfl, hid, wire_root hwire, rfl, rfl, rfl, hregistry, ?_, ?_, rfl⟩
    · have hplaced := congrArg (List.map fun item => (model.atLevel item.1, item.2)) hcoarser
      rw [List.map_map, List.map_map] at hplaced
      simp only [install, List.map_append, List.map_cons, List.map_map, placements]
      congr 2
    · simp only [install, List.map_append, List.map_cons, List.map_nil]
      rfl

/-! ## Calls one after another -/

/-- Calls that did not break off, each with its answer. -/
inductive Creations (start : Pipeline κ M) :
    List (Order κ × Except GraphError (Graph Stage)) → Pipeline κ M → Prop
  | none : Creations start [] start
  | more {calls : List (Order κ × Except GraphError (Graph Stage))} {last next : Pipeline κ M}
      {order : Order κ} {answer : Except GraphError (Graph Stage)} (h : Creations start calls last)
      (hcall : (create order.inputs order.model order.consumers).run.run last = (.ok answer, next)) :
      Creations start (calls ++ [(order, answer)]) next

theorem Creations.step {start last : Pipeline κ M}
    {calls : List (Order κ × Except GraphError (Graph Stage))} (h : Creations start calls last)
    (order : Order κ) (answer : Except GraphError (Graph Stage))
    (hanswer : ((create order.inputs order.model order.consumers).run.run last :
      Except Fault (Except GraphError (Graph Stage)) × Pipeline κ M).1 = .ok answer) :
    Creations start (calls ++ [(order, answer)])
      ((create order.inputs order.model order.consumers).run.run last :
        Except Fault (Except GraphError (Graph Stage)) × Pipeline κ M).2 :=
  h.more (Prod.ext hanswer rfl)

/-- The models that were taken. -/
def taken (calls : List (Order κ × Except GraphError (Graph Stage))) : List Model :=
  (calls.filter (·.2.isOk)).map (·.1.model)

/-- A pipeline that these models were put into, in this order. -/
structure Enrolled (config : Config) (models : List Model) (pipeline : Pipeline κ M) : Prop where
  configured : pipeline.config = config
  distinct : (models.map (·.name)).Nodup
  registry : ∀ name, pipeline.registry.contains name = true ↔ name ∈ models.map (·.name)
  graphs : (pipeline.graphs.map fun graph => (graph.id, graph.root)) =
    models.zipIdx.map fun (model, index) => (model.name, .front index)
  stations : (pipeline.engine.stations.map fun station =>
    (station.persister.model, Except.ok station.persister.settings)) = allPlacements config 0 models
  fronts : pipeline.engine.fronts.map (·.stage.model) = models
  inlets : pipeline.engine.inlets = (List.range models.length).map .front
  coarser : pipeline.coarser = coarserCount models

variable {config : Config} {models : List Model} {pipeline : Pipeline κ M}

theorem Enrolled.start {clock : Clock} {start : Pipeline κ M}
    (h : ofConfig config clock = .ok (.ok start)) : start.Enrolled config [] := by
  obtain ⟨_, rfl⟩ := ofConfig_eq h
  exact ⟨rfl, .nil, by simp [Registry.contains], rfl, rfl, rfl, rfl, rfl⟩

theorem Enrolled.add (h : pipeline.Enrolled config models) {model : Model} {graph : Graph Stage}
    {after : Pipeline κ M} (hfree : pipeline.registry.contains model.name = false)
    (hadds : pipeline.Adds model graph after) : after.Enrolled config (models ++ [model]) := by
  have hcount : pipeline.engine.fronts.length = models.length := by
    rw [← h.fronts, List.length_map]
  have hnew : model.name ∉ models.map (·.name) := by
    rw [← h.registry, hfree]
    exact Bool.false_ne_true
  refine ⟨hadds.config.trans h.configured, ?_, fun name => ?_, ?_, ?_, ?_, ?_, ?_⟩
  · rw [List.map_append, List.map_singleton, ← List.concat_eq_append, List.nodup_concat]
    exact ⟨hnew, h.distinct⟩
  · rw [hadds.registry, h.registry, List.map_append, List.mem_append, or_comm]
    simp
  · rw [hadds.graphs, List.map_append, h.graphs, List.zipIdx_append, List.map_append, Nat.zero_add]
    simp [hadds.id, hadds.root, hcount]
  · rw [hadds.stations, h.stations, allPlacements_append, h.configured, h.coarser, Nat.zero_add]
  · rw [hadds.fronts, h.fronts]
  · rw [hadds.inlets, h.inlets, hcount, List.length_append, List.length_singleton, List.range_succ,
      List.map_append, List.map_singleton]
  · rw [hadds.coarser, h.coarser, coarserCount, coarserCount, List.map_append, List.sum_append,
      List.map_singleton, List.sum_singleton]

theorem taken_append (calls : List (Order κ × Except GraphError (Graph Stage))) (order : Order κ)
    (answer : Except GraphError (Graph Stage)) :
    taken (calls ++ [(order, answer)]) =
      taken calls ++ if answer.isOk then [order.model] else [] := by
  rw [taken, List.filter_append, List.map_append]
  cases answer <;> rfl

theorem Creations.enrolled {clock : Clock} {start last : Pipeline κ M}
    (hstart : ofConfig config clock = .ok (.ok start))
    {calls : List (Order κ × Except GraphError (Graph Stage))} (h : Creations start calls last) :
    last.Enrolled config (taken calls) := by
  induction h with
  | none => exact .start hstart
  | @more calls last next order answer _ hcall ih =>
    have hends := create_adds order.inputs order.model order.consumers last
    unfold Ends at hends
    rw [hcall] at hends
    rw [taken_append]
    rcases hends with ⟨_, rfl, rfl⟩ | ⟨hfree, graph, rfl, hadds⟩
    · exact (List.append_nil _).symm ▸ ih
    · exact ih.add hfree hadds

/-! ## What the calls come to -/

theorem Enrolled.ids (h : pipeline.Enrolled config models) :
    pipeline.registry.ids.Perm (models.map (·.name)) := by
  have hdistinct : pipeline.registry.ids.Nodup := Std.ExtTreeMap.nodup_keys
  refine (List.perm_ext_iff_of_nodup hdistinct h.distinct).mpr fun name => ?_
  rw [← h.registry, Registry.ids, Std.ExtTreeMap.mem_keys]
  rfl

theorem Enrolled.workers [Record M] (h : pipeline.Enrolled config models) :
    pipeline.engine.roundWorkers.map (·.name) = models.flatMap fun model =>
      model.levels.map fun level => (model.atLevel level).storageName := by
  have hmodels := congrArg (List.map (·.1)) h.stations
  rw [allPlacements_models, List.map_map] at hmodels
  have hnames : pipeline.engine.roundWorkers.map (·.name) =
      (pipeline.engine.stations.map (·.persister.model)).map Model.storageName := by
    conv_rhs => rw [← List.zipIdx_map_fst 0 pipeline.engine.stations]
    rw [Engine.roundWorkers, List.map_map, List.map_map, List.map_map]
    rfl
  rw [hnames]
  refine (congrArg (List.map Model.storageName) hmodels).trans ?_
  rw [List.map_flatMap]
  simp only [List.map_map]
  rfl

theorem Enrolled.numbered (h : pipeline.Enrolled config models) :
    (pipeline.engine.stations.filter (·.persister.model ∉ models)).map (fun station =>
      (station.persister.model, Except.ok station.persister.settings)) =
        coarserPlacements config 0 models := by
  have hown : ∀ model ∈ models, decide (model ∈ models) = true ∧
      ∀ level ∈ model.level.coarser, decide (model.atLevel level ∈ models) = false := by
    refine fun model hmodel => ⟨decide_eq_true hmodel, fun level hlevel => ?_⟩
    refine decide_eq_false fun hother => ?_
    -- Two models of one name are the same, and a coarser level is another.
    have hsame : model.atLevel level = model :=
      List.inj_on_of_nodup_map h.distinct hother hmodel rfl
    rw [Level.mem_coarser, ← congrArg Model.level hsame] at hlevel
    exact Nat.lt_irrefl _ hlevel
  rw [← filter_allPlacements hown, ← h.stations, List.filter_map]
  congr 1
  refine List.filter_congr fun station _ => ?_
  simp

/-- All that a pipeline is after its calls, and what the next call makes of it. -/
structure WholeOrNot [Record M] (config : Config) (models : List Model) (pipeline : Pipeline κ M) :
    Prop extends Enrolled config models pipeline where
  ids : pipeline.registry.ids.Perm (models.map (·.name))
  /-- A model's own station comes before the coarser ones. -/
  workers : pipeline.engine.roundWorkers.map (·.name) = models.flatMap fun model =>
    model.levels.map fun level => (model.atLevel level).storageName
  /-- The stations that are not a model's own have their settings by their number. -/
  numbered : (pipeline.engine.stations.filter (·.persister.model ∉ models)).map (fun station =>
    (station.persister.model, Except.ok station.persister.settings)) =
      coarserPlacements config 0 models
  next : ∀ (inputs : κ) (model : Model) (consumers : List (Option EventKind)),
    Ends (create inputs model consumers) pipeline
      (fun answer after => (answer.isOk = true ↔ model.name ∉ models.map (·.name)) ∧
        ∀ error, answer = .error error → error = .duplicateGraph model.name ∧ after = pipeline)
      (fun _ _ => model.name ∉ models.map (·.name))

theorem models_are_put_in_whole [Record M] {clock : Clock} {start last : Pipeline κ M}
    (hstart : ofConfig config clock = .ok (.ok start))
    {calls : List (Order κ × Except GraphError (Graph Stage))} (hcalls : Creations start calls last) :
    WholeOrNot config (taken calls) last := by
  have henrolled := hcalls.enrolled hstart
  refine ⟨henrolled, henrolled.ids, henrolled.workers, henrolled.numbered,
    fun inputs model consumers => ?_⟩
  refine (create_adds inputs model consumers last).mono ?_ fun _ _ hfree => ?_
  · rintro answer after (⟨htaken, rfl, rfl⟩ | ⟨hfree, graph, rfl, _⟩)
    · rw [henrolled.registry] at htaken
      refine ⟨iff_of_false Bool.false_ne_true (not_not_intro htaken), fun error herror => ?_⟩
      cases herror
      exact ⟨rfl, rfl⟩
    · rw [← Bool.not_eq_true, henrolled.registry] at hfree
      exact ⟨iff_of_true rfl hfree, nofun⟩
  · rwa [← Bool.not_eq_true, henrolled.registry] at hfree

/-- A model of a taken name is refused in between, and the second model's coarser station is numbered on
from those of the first. -/
theorem models_are_put_in_whole_but_once :
    let config : Config := {}
    let start : Pipeline Unit SumRecord :=
      { config
        engine := { clock := ⟨0, 0⟩, pool := poolSettings config, threads := config.prepareThreads } }
    let calls : List (Order Unit × Except GraphError (Graph Stage)) := [
      (⟨(), ⟨"calls", .hour, true, true⟩, [none]⟩,
        .ok ⟨"calls", .front 0, ["day", "hour", "l1", "month", "trans"]⟩),
      (⟨(), ⟨"calls", .day, true, true⟩, []⟩, .error (.duplicateGraph "calls")),
      (⟨(), ⟨"errors", .day, true, true⟩, []⟩,
        .ok ⟨"errors", .front 1, ["day", "l1", "month", "trans"]⟩)]
    ofConfig config ⟨0, 0⟩ = .ok (.ok start) ∧ ∃ last, Creations start calls last ∧
      WholeOrNot config [⟨"calls", .hour, true, true⟩, ⟨"errors", .day, true, true⟩] last := by
  intro config start calls
  have hstart : ofConfig config ⟨0, 0⟩ = .ok (.ok start) := rfl
  have hnone : Creations start [] start := .none
  have hfirst := hnone.step ⟨(), ⟨"calls", .hour, true, true⟩, [none]⟩
    (.ok ⟨"calls", .front 0, ["day", "hour", "l1", "month", "trans"]⟩) (by decide +kernel)
  have hsecond := hfirst.step ⟨(), ⟨"calls", .day, true, true⟩, []⟩ (.error (.duplicateGraph "calls"))
    (by decide +kernel)
  have hlast := hsecond.step ⟨(), ⟨"errors", .day, true, true⟩, []⟩
    (.ok ⟨"errors", .front 1, ["day", "l1", "month", "trans"]⟩) (by decide +kernel)
  exact ⟨hstart, _, hlast, models_are_put_in_whole hstart hlast⟩

end Rollup.Pipeline
