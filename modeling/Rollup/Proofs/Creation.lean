import Rollup.Proofs.Assembly
import Rollup.Proofs.Wiring

/-!
# Creating pipelines

A configuration that was checked makes a pipeline, and every model with a name of its own can be put
in, if only idle threads wait at all and no session timeout leaves the range of lengths of time. The
check asks for neither.
-/

namespace Rollup

open Rollup.Action

theorem ok_bind {ε α β : Type} (a : α) (next : α → Except ε β) :
    (Except.ok a >>= next) = next a := rfl

/-! ## Session timeouts -/

namespace Duration

theorem check_ofMillis (millis : Nat) : check (ofMillis millis) =
    if millis < UInt64.size * 1000 then .ok (ofMillis millis) else .error .outOfRange := by
  have hsecs : (ofMillis millis).secs < UInt64.size ↔ millis < UInt64.size * 1000 := by
    simp only [secs, ofMillis]
    omega
  simp only [check, hsecs]

theorem times_ofMillis (millis factor : Nat) :
    (ofMillis millis).times factor = check (ofMillis (millis * factor)) :=
  congrArg (fun nanos => check ⟨nanos⟩) (Nat.mul_right_comm ..)

theorem plus_ofMillis (a b : Nat) : (ofMillis a).plus (ofMillis b) = check (ofMillis (a + b)) :=
  congrArg (fun nanos => check ⟨nanos⟩) (Nat.add_mul ..).symm

end Duration

namespace Config

/-- What a coarser station's session timeout comes to, in milliseconds. -/
def coarserTimeoutMs (config : Config) (index : Nat) : Nat :=
  config.storageSessionTimeoutMs * config.downsamplingSessionFactor +
    config.sessionOffsetStepMs * index

theorem downsamplingSessionTimeout_eq (config : Config) (index : Nat) :
    config.downsamplingSessionTimeout index =
      if config.coarserTimeoutMs index < UInt64.size * 1000
      then .ok (.ofMillis (config.coarserTimeoutMs index)) else .error .outOfRange := by
  unfold downsamplingSessionTimeout coarserTimeoutMs sessionTimeout
  rw [Duration.times_ofMillis, Duration.times_ofMillis]
  generalize config.storageSessionTimeoutMs * config.downsamplingSessionFactor = base
  generalize config.sessionOffsetStepMs * index = offset
  by_cases hbase : base < UInt64.size * 1000
  · by_cases hoffset : offset < UInt64.size * 1000
    · rw [Duration.check_ofMillis, Duration.check_ofMillis, if_pos hbase, if_pos hoffset, ok_bind,
        ok_bind, Duration.plus_ofMillis, Duration.check_ofMillis]
    · rw [Duration.check_ofMillis, Duration.check_ofMillis, if_pos hbase, if_neg hoffset,
        if_neg (show ¬ base + offset < UInt64.size * 1000 by omega)]
      rfl
  · rw [Duration.check_ofMillis, if_neg hbase,
      if_neg (show ¬ base + offset < UInt64.size * 1000 by omega)]
    rfl

/-- A coarser station with this number gets a session timeout, and can be counted. -/
def Affords (config : Config) (index : Nat) : Prop :=
  index + 1 < UInt32.size ∧ config.coarserTimeoutMs index < UInt64.size * 1000

instance (config : Config) (index : Nat) : Decidable (config.Affords index) :=
  inferInstanceAs (Decidable (_ ∧ _))

/-- As many stations can be had from this number on. -/
def AffordsFrom (config : Config) (start count : Nat) : Prop :=
  ∀ index < count, config.Affords (start + index)

instance (config : Config) (start count : Nat) : Decidable (config.AffordsFrom start count) :=
  inferInstanceAs (Decidable (∀ index < count, config.Affords (start + index)))

theorem affordsFrom_add {config : Config} {start first second : Nat} :
    config.AffordsFrom start (first + second) ↔
      config.AffordsFrom start first ∧ config.AffordsFrom (start + first) second := by
  constructor
  · intro h
    refine ⟨fun index hindex => h index (by omega), fun index hindex => ?_⟩
    rw [Nat.add_assoc]
    exact h (first + index) (by omega)
  · rintro ⟨hfirst, hsecond⟩ index hindex
    by_cases hlt : index < first
    · exact hfirst index hlt
    · have h := hsecond (index - first) (by omega)
      rwa [Nat.add_assoc, Nat.add_sub_cancel' (by omega)] at h

theorem affordsFrom_succ {config : Config} {start count : Nat} :
    config.AffordsFrom start (count + 1) ↔
      config.Affords start ∧ config.AffordsFrom (start + 1) count := by
  rw [Nat.add_comm, affordsFrom_add]
  refine and_congr_left fun _ => ⟨fun h => h 0 Nat.one_pos, fun h index hindex => ?_⟩
  rwa [Nat.lt_one_iff.mp hindex]

end Config

/-! ## Pipelines without models -/

theorem Setting.check_ok (setting : Setting) {holds : Prop} [Decidable holds] (h : holds) :
    setting.check (decide holds) = .ok () := by
  rw [check, decide_eq_true h]
  rfl

namespace Pipeline

variable {κ M : Type}

theorem poolSettings_check {config : Config} (h : config.validate = .ok ()) :
    (poolSettings config).check =
      if 0 < config.pool.consumeCycleMs then .ok () else .error (.badSetting .consumeCycle) := by
  have hchecked := config.validate_eq_ok_iff.mp h
  have hname : (poolSettings config).name ≠ "" := by simp [poolSettings]
  have hthreads : 0 < (poolSettings config).threads := hchecked.poolThreads
  have hbatch : 0 < (poolSettings config).batchSize := hchecked.batchSize
  have hshutdown : 0 < (poolSettings config).shutdownTimeout.nanos := by
    simp [poolSettings, Duration.ofSecs]
  unfold PoolSettings.check
  rw [Setting.check_ok .name hname, Setting.check_ok .poolThreads hthreads,
    Setting.check_ok .batchSize hbatch, Setting.check_ok .shutdownTimeout hshutdown]
  split
  · next hcycle =>
    have hnanos : 0 < (poolSettings config).consumeCycle.nanos := Nat.mul_pos hcycle (by decide)
    rw [Setting.check_ok .consumeCycle hnanos]
    rfl
  · next hcycle =>
    have hnanos : (poolSettings config).consumeCycle.nanos = 0 := by
      simp only [poolSettings, Duration.ofMillis]
      omega
    rw [hnanos]
    rfl

theorem ofConfig_of_validate {config : Config} (h : config.validate = .ok ()) (clock : Clock) :
    (ofConfig config clock : Except ConfigError (Except Fault (Pipeline κ M))) =
      .ok (if 0 < config.pool.consumeCycleMs then .ok {
        config
        engine := { clock, pool := poolSettings config, threads := config.prepareThreads } }
      else .error (.badSetting .consumeCycle)) := by
  have hthreads := (config.validate_eq_ok_iff.mp h).prepareThreads
  unfold ofConfig
  rw [h]
  show Except.ok (Setting.prepareThreads.check (0 < config.prepareThreads) >>= _) = _
  rw [Setting.check_ok .prepareThreads hthreads]
  show Except.ok ((poolSettings config).check >>= _) = _
  rw [poolSettings_check h]
  split <;> rfl

/-! ## Coarser stations -/

theorem nextCoarser_affords {pipeline : Pipeline κ M} (h : pipeline.config.validate = .ok ()) :
    Ends nextCoarser pipeline
      (fun _ after => pipeline.config.Affords pipeline.coarser ∧
        after = { pipeline with coarser := pipeline.coarser + 1 })
      (fun fault _ => ¬ pipeline.config.Affords pipeline.coarser ∧ fault = .outOfRange) := by
  unfold nextCoarser
  rw [ends_bind, ends_get, ends_bind, Config.downsamplingSessionTimeout_eq]
  split
  · next htimeout =>
    rw [ends_liftM_ok, ends_bind]
    unfold countCoarser
    split
    · next hcount =>
      rw [ends_liftM_ok, ends_bind, ends_set, ends_bind, Coarser.check h ⟨rfl, rfl, rfl⟩]
      exact ⟨⟨hcount, htimeout⟩, rfl⟩
    · next hcount => exact ⟨fun hafford => hcount hafford.1, rfl⟩
  · next htimeout => exact ⟨fun hafford => htimeout hafford.2, rfl⟩

theorem coarserStations_affords (levels : List Level) {pipeline : Pipeline κ M}
    (h : pipeline.config.validate = .ok ()) :
    Ends (levels.mapM fun level => return (level, ← nextCoarser)) pipeline
      (fun _ after => pipeline.config.AffordsFrom pipeline.coarser levels.length ∧
        after = { pipeline with coarser := pipeline.coarser + levels.length })
      (fun fault _ =>
        ¬ pipeline.config.AffordsFrom pipeline.coarser levels.length ∧ fault = .outOfRange) := by
  induction levels generalizing pipeline with
  | nil => exact ⟨fun _ hindex => absurd hindex (Nat.not_lt_zero _), rfl⟩
  | cons level rest ih =>
    rw [List.mapM_cons, ends_bind, ends_bind, List.length_cons, Config.affordsFrom_succ]
    refine (nextCoarser_affords h).mono ?_ fun _ _ hbroken =>
      ⟨fun hafford => hbroken.1 hafford.1, hbroken.2⟩
    rintro settings _ ⟨hfirst, rfl⟩
    rw [ends_pure, ends_bind]
    refine Ends.mono (@ih { pipeline with coarser := pipeline.coarser + 1 } h) ?_
      fun _ _ hbroken => ⟨fun hafford => hbroken.1 hafford.2, hbroken.2⟩
    rintro stations _ ⟨hrest, rfl⟩
    refine ⟨⟨hfirst, hrest⟩, ?_⟩
    simp only [Nat.add_assoc, Nat.add_comm 1]

/-! ## Models -/

theorem build_queue_ok {config : Config} (h : config.validate = .ok ())
    (hroom : config.carrier.channels * config.carrier.channelSize ≤ addressable) (model : Model) :
    ∃ queue : Queue M, Queue.build (queueSettings config model) = .ok queue := by
  have hchecked := config.validate_eq_ok_iff.mp h
  let settings : QueueSettings M := queueSettings config model
  have hname : settings.name ≠ "" := by
    simp [settings, queueSettings, FirstLevel.queueName, String.append_eq_empty_iff]
  have hchannels : 0 < settings.channels := hchecked.channels
  have hsize : 0 < settings.channelSize := hchecked.channelSize
  have hmemory : checkRoom (settings.channels * settings.channelSize) = .ok () := if_pos hroom
  unfold Queue.build
  rw [Setting.check_ok .name hname, Setting.check_ok .channels hchannels,
    Setting.check_ok .channelSize hsize, hmemory]
  exact ⟨_, rfl⟩

theorem register_ok {registry : Registry κ Stage} {graph : Graph Stage}
    (h : registry.contains graph.id = false) (inputs : κ) : ∃ after,
    registry.register inputs graph = .ok after ∧
      ∀ name, after.contains name = true ↔ name = graph.id ∨ registry.contains name = true := by
  unfold Registry.register
  refine ⟨_, if_neg (by simp [h]), fun name => ?_⟩
  simp only [Registry.contains, Std.ExtTreeMap.contains_insert, Bool.or_eq_true, beq_iff_eq,
    Std.LawfulEqOrd.compare_eq_iff_eq]
  rw [eq_comm]

theorem create_affords {pipeline : Pipeline κ M} (h : pipeline.config.validate = .ok ())
    (hroom : pipeline.config.carrier.channels * pipeline.config.carrier.channelSize ≤ addressable)
    (inputs : κ) {model : Model} (hfree : pipeline.registry.contains model.name = false)
    (consumers : List (Option EventKind)) :
    Ends (create inputs model consumers) pipeline
      (fun answer created =>
        pipeline.config.AffordsFrom pipeline.coarser model.level.coarser.length ∧
        answer.map Graph.id = .ok model.name ∧
        created.config = pipeline.config ∧
        created.coarser = pipeline.coarser + model.level.coarser.length ∧
        ∀ name, created.registry.contains name = true ↔
          name = model.name ∨ pipeline.registry.contains name = true)
      (fun fault _ =>
        ¬ pipeline.config.AffordsFrom pipeline.coarser model.level.coarser.length ∧
          fault = .outOfRange) := by
  unfold create
  rw [ends_bind, ends_get, if_neg (by simp [hfree]), ends_bind]
  refine (coarserStations_affords model.level.coarser h).mono ?_ fun _ _ hbroken => hbroken
  rintro coarser _ ⟨hafford, rfl⟩
  rw [ends_bind, ends_get, ends_bind, persisterSettings_check h, ends_liftM_ok, ends_bind]
  obtain ⟨queue, hqueue⟩ := build_queue_ok h hroom model
  obtain ⟨graph, hwire, hid⟩ :=
    wire_ok model pipeline.engine.stations.length pipeline.engine.fronts.length
  obtain ⟨registry, hregister, hregistry⟩ := register_ok (hid ▸ hfree) inputs
  have hregistered : (Except.ok graph >>= fun graph => pipeline.registry.register inputs graph >>=
      fun registry => pure (graph, registry)) = .ok (graph, registry) := by
    show (pipeline.registry.register inputs graph >>= _) = _
    rw [hregister]
    rfl
  rw [hqueue, ends_liftM_ok, hwire]
  dsimp only
  rw [hregistered, ends_bind, ends_set, ends_pure]
  rw [hid] at hregistry
  exact ⟨hafford, congrArg Except.ok hid, rfl, rfl, hregistry⟩

/-- A model that is to be put in, with who consumes its records. -/
structure Order (κ : Type) where
  inputs : κ
  model : Model
  consumers : List (Option EventKind) := []

/-- Puts models in, one after the other. -/
def createAll (orders : List (Order κ)) :
    Action (Pipeline κ M) (List (Except GraphError (Graph Stage))) :=
  orders.mapM fun order => create order.inputs order.model order.consumers

/-- The number of coarser stations that the models get. -/
def coarserStations (orders : List (Order κ)) : Nat :=
  (orders.flatMap fun order => order.model.level.coarser).length

theorem createAll_affords (orders : List (Order κ)) {pipeline : Pipeline κ M}
    (h : pipeline.config.validate = .ok ())
    (hroom : pipeline.config.carrier.channels * pipeline.config.carrier.channelSize ≤ addressable)
    (hdistinct : (orders.map (·.model.name)).Nodup)
    (hfree : ∀ order ∈ orders, pipeline.registry.contains order.model.name = false) :
    Ends (createAll orders) pipeline
      (fun answers _ => pipeline.config.AffordsFrom pipeline.coarser (coarserStations orders) ∧
        answers.map (·.map Graph.id) = orders.map fun order => .ok order.model.name)
      (fun fault _ => ¬ pipeline.config.AffordsFrom pipeline.coarser (coarserStations orders) ∧
        fault = .outOfRange) := by
  -- What was put in before holds its names and its numbers, so both are general here.
  induction orders generalizing pipeline with
  | nil => exact ⟨fun _ hindex => absurd hindex (Nat.not_lt_zero _), rfl⟩
  | cons order rest ih =>
    rw [List.map_cons, List.nodup_cons] at hdistinct
    have hsplit : coarserStations (order :: rest) =
        order.model.level.coarser.length + coarserStations rest := List.length_append
    unfold createAll
    rw [List.mapM_cons, ends_bind, hsplit, Config.affordsFrom_add]
    refine (create_affords h hroom order.inputs (hfree order List.mem_cons_self)
      order.consumers).mono ?_ fun _ _ hbroken => ⟨fun hafford => hbroken.1 hafford.1, hbroken.2⟩
    rintro answer created ⟨hfirst, hanswer, hconfig, hcoarser, hregistry⟩
    have hlater : ∀ later ∈ rest, created.registry.contains later.model.name = false := by
      intro later hmem
      have hother : later.model.name ≠ order.model.name := fun heq =>
        hdistinct.1 (heq ▸ List.mem_map_of_mem hmem)
      rw [← Bool.not_eq_true, hregistry, not_or, Bool.not_eq_true]
      exact ⟨hother, hfree later (List.mem_cons_of_mem _ hmem)⟩
    rw [← hconfig, ← hcoarser, ends_bind]
    rw [← hconfig] at h hroom
    refine (ih h hroom hdistinct.2 hlater).mono ?_ fun _ _ hbroken =>
      ⟨fun hafford => hbroken.1 hafford.2, hbroken.2⟩
    rintro answers _ ⟨hrest, hanswers⟩
    rw [hconfig, hcoarser] at hrest ⊢
    exact ⟨⟨hfirst, hrest⟩, by rw [List.map_cons, hanswer, hanswers, List.map_cons]⟩

/-- What a checked configuration comes to. No pipeline is made if idle threads are not to wait at
all, and models of different names are put in unless the session timeout or the number of one of
their coarser stations leaves its range. Nothing else goes wrong. -/
theorem validated_config_creates {config : Config} (h : config.validate = .ok ())
    (hroom : config.carrier.channels * config.carrier.channelSize ≤ addressable) (clock : Clock) :
    (config.pool.consumeCycleMs = 0 →
      (ofConfig config clock : Except ConfigError (Except Fault (Pipeline κ M))) =
        .ok (.error (.badSetting .consumeCycle))) ∧
    (0 < config.pool.consumeCycleMs → ∃ pipeline : Pipeline κ M,
      ofConfig config clock = .ok (.ok pipeline) ∧
      ∀ orders : List (Order κ), (orders.map (·.model.name)).Nodup →
        Ends (createAll orders) pipeline
          (fun answers _ => config.AffordsFrom 0 (coarserStations orders) ∧
            answers.map (·.map Graph.id) = orders.map fun order => .ok order.model.name)
          (fun fault _ =>
            ¬ config.AffordsFrom 0 (coarserStations orders) ∧ fault = .outOfRange)) := by
  constructor
  · intro hcycle
    rw [ofConfig_of_validate h, if_neg (by omega)]
  · intro hcycle
    refine ⟨_, (ofConfig_of_validate h clock).trans (by rw [if_pos hcycle]), ?_⟩
    intro orders hdistinct
    refine createAll_affords orders h hroom hdistinct fun order _ => ?_
    simp [Registry.contains]

theorem validated_config_creates_of_defaults : ∃ pipeline : Pipeline Unit SumRecord,
    ofConfig {} ⟨0, 0⟩ = .ok (.ok pipeline) ∧
      Ends (createAll [⟨(), ⟨"calls", .minute, true, true⟩, [none]⟩,
          ⟨(), ⟨"errors", .day, true, true⟩, []⟩]) pipeline
        (fun answers _ => answers.map (·.map Graph.id) = [.ok "calls", .ok "errors"])
        (fun _ _ => False) := by
  let config : Config := {}
  obtain ⟨_, hcreates⟩ := validated_config_creates (show config.validate = .ok () by decide)
    (show config.carrier.channels * config.carrier.channelSize ≤ addressable by decide) ⟨0, 0⟩
  obtain ⟨pipeline, hpipeline, hcreates⟩ := hcreates (show 0 < config.pool.consumeCycleMs by decide)
  have hafford : config.AffordsFrom 0 4 := by decide
  refine ⟨pipeline, hpipeline, (hcreates _ (by decide)).mono ?_ ?_⟩
  · exact fun _ _ hdone => hdone.2
  · exact fun _ _ hbroken => hbroken.1 hafford

/-- Idle threads that do not wait. -/
def impatient : Config := { pool := { consumeCycleMs := 0 } }

/-- Sessions that outlast every length of time. -/
def everlasting : Config where
  storageSessionTimeoutMs := UInt64.size - 1
  downsamplingSessionFactor := UInt32.size - 1

theorem validated_config_breaks_off :
    (impatient.validate = .ok () ∧
      (ofConfig impatient ⟨0, 0⟩ : Except ConfigError (Except Fault (Pipeline Unit SumRecord))) =
        .ok (.error (.badSetting .consumeCycle))) ∧
    everlasting.validate = .ok () ∧ ∃ pipeline : Pipeline Unit SumRecord,
      ofConfig everlasting ⟨0, 0⟩ = .ok (.ok pipeline) ∧
        Ends (create () ⟨"calls", .day, true, true⟩ []) pipeline (fun _ _ => False)
          (fun fault _ => fault = .outOfRange) := by
  refine ⟨⟨by decide, by rw [ofConfig_of_validate (by decide)]; rfl⟩, by decide, ?_⟩
  refine ⟨_, (ofConfig_of_validate (by decide) ⟨0, 0⟩).trans (by rw [if_pos (by decide)]), ?_⟩
  refine (create_affords (by decide) (by decide) () (by simp [Registry.contains]) []).mono ?_ ?_
  · exact fun _ _ hdone => absurd hdone.1 (by decide)
  · exact fun _ _ hbroken => hbroken.2

end Pipeline

end Rollup
