import Rollup.Config
import Rollup.Proofs.JointRound
import Rollup.Proofs.Levels
import Rollup.Proofs.QueueFlow
import Rollup.Proofs.Refinement
import Rollup.Proofs.Tallies

/-!
# What is under way

Sums on their way through the engine of one model: from the buffer of the front into the window of the
model's own station, from there into its rows, and as copies into the windows and rows of the coarser
stations. The tallies of all these stages together are the tally of what came out of the queue.
-/

namespace Rollup

open Record SumRecord

/-! ## Folds and tallies -/

theorem foldOf_eq_of_tally {id : MetricId} {records more : List SumRecord}
    (h : tally (fun own => decide (own = id)) records = tally (fun own => decide (own = id)) more) :
    foldOf id records = foldOf id more := by
  have hvalue : ∀ records, (foldOf id records).map (·.value.value) =
      tally (fun own => decide (own = id)) records := fun records =>
    (map_joinedAll id none records).trans (none_plus _)
  have hid : ∀ (records : List SumRecord), ∀ whole ∈ foldOf id records, whole.id = id :=
    fun records => id_joinedAll (by simp) fun record hrecord => (mem_about.mp hrecord).2
  have hsame := (hvalue records).trans (h.trans (hvalue more).symm)
  have hfirst := hid records
  have hsecond := hid more
  generalize foldOf id records = a at *
  generalize foldOf id more = b at *
  cases a with
  | none =>
    rw [Option.map_none, eq_comm, Option.map_eq_none_iff] at hsame
    exact hsame.symm
  | some whole =>
    obtain ⟨other, rfl, hother⟩ := Option.map_eq_some_iff.mp hsame.symm
    obtain ⟨_, ⟨_⟩⟩ := whole
    obtain ⟨_, ⟨_⟩⟩ := other
    obtain rfl := hfirst _ rfl
    obtain rfl := hsecond _ rfl
    simp only at hother
    rw [hother]

theorem Buffer.eq_acceptAll {buffer : Buffer SumRecord} {records : List SumRecord}
    (h : ∀ id, buffer.get? id = foldOf id records) : buffer = Buffer.empty.acceptAll records := by
  have hrecords : buffer.records = (Buffer.empty.acceptAll records).records := by
    apply Std.ExtTreeMap.ext_getElem?
    intro id
    refine (h id).trans ?_
    have hget := get?_acceptAll (Buffer.empty : Buffer SumRecord) records id
    rw [get?_empty] at hget
    exact hget.symm
  cases buffer
  exact congrArg Buffer.mk hrecords

/-! ## Stations -/

namespace Persister

/-- What a persister of sums has in its rows and its window after a number of rounds. -/
structure Current (persister : Persister SumRecord) (rounds : Nat) (now : Int) (store : RowStore)
    (drained waiting : List SumRecord) : Prop extends
    Aggregates persister store drained waiting where
  rounds_eq : persister.rounds = rounds
  stamps : ∀ id held, persister.sessions.session? id = some held → held.lastUpdate ≤ now

namespace Current

variable {persister persister' : Persister SumRecord} {rounds : Nat} {now : Int}
  {store store' : RowStore} {drained waiting : List SumRecord}

theorem takeAll (h : persister.Current rounds now store drained waiting)
    (records : List SumRecord) :
    (persister.takeAll records).Current rounds now store drained (waiting ++ records) := by
  induction records generalizing persister waiting with
  | nil =>
    rw [List.append_nil]
    exact h
  | cons first rest ih =>
    have hstep : ((persister.write first).countAccepted).Current rounds now store drained
        (waiting ++ [first]) := ⟨h.toAggregates.accept first, h.rounds_eq, h.stamps⟩
    have hrest := ih hstep
    rw [List.append_assoc] at hrest
    exact hrest

theorem loads (h : persister.Current rounds now store drained waiting) (loads : Nat) :
    persister.Current rounds now { store with loads } drained waiting :=
  ⟨⟨⟨h.rest.toSound, h.rest.synced⟩, h.failures, h.window, h.rows⟩, h.rounds_eq, h.stamps⟩

theorem later (h : persister.Current rounds now store drained waiting) {later : Int}
    (hlater : now ≤ later) : persister.Current rounds later store drained waiting :=
  ⟨h.toAggregates, h.rounds_eq, fun id held hheld => Int.le_trans (h.stamps id held hheld) hlater⟩

theorem tally_toDrain (h : persister.Current rounds now store drained waiting)
    (counts : MetricId → Bool) : tally counts persister.toDrain = tally counts waiting := by
  rw [toDrain, Buffer.eq_acceptAll h.window, Buffer.tally_acceptAll counts .empty, Buffer.toList_empty,
    tally_nil, none_plus]

theorem uniform (records : List SumRecord) : Uniform records := .of_scale fun _ => rfl

/-- A round drains what waits, or is sat out. -/
theorem round (h : persister.Current rounds now store drained waiting)
    (hupdate : persister.model.supportUpdate = true) (hexpires : persister.Expires now)
    {writes : List (Write SumRecord)}
    (hround : persister.Round store now now writes persister' store') :
    persister'.Current (rounds + 1) now store'
      (if persister.isDue then drained ++ waiting else drained)
      (if persister.isDue then [] else waiting) := by
  have hrounds : persister'.rounds = rounds + 1 := by
    rw [← h.rounds_eq]
    cases hround <;> rfl
  have hstamps : ∀ id held, persister'.sessions.session? id = some held → held.lastUpdate ≤ now := by
    intro id held hheld
    rcases hround.since id held hheld with hle | hbefore
    · exact hle
    · exact h.stamps id held hbefore
  refine ⟨?_, hrounds, hstamps⟩
  cases hdue : persister.isDue with
  | true =>
    exact h.toAggregates.drain hdue hupdate hexpires (uniform _) (fun _ whole _ => ⟨whole, rfl⟩)
      h.stamps hround
  | false => exact h.toAggregates.sitOut hdue hround

theorem smooth (h : persister.Current rounds now store drained waiting)
    (hexpires : persister.Expires now) :
    Smooth store persister.model persister.settings.ttlDays now persister.toDrain :=
  h.toAggregates.smooth hexpires (uniform _) fun _ whole _ => ⟨whole, rfl⟩

theorem expires (h : persister.Current rounds now store drained waiting)
    (httl : persister.settings.ttlDays < UInt32.size)
    (hwaiting : persister.model.timeRelativeId = false →
      ∀ record ∈ waiting, record.id.expires = true)
    (hnow : 0 ≤ now) : persister.Expires now := by
  intro hrelative record hrecord
  have hget := h.rest.toSound.mem_toDrain.mp hrecord
  rw [h.window] at hget
  obtain ⟨first, hfirst, hid, _⟩ := exists_scale_foldOf hget
  rw [← hid]
  exact Retention.exists_isExpired (hwaiting hrelative first hfirst) hnow httl

end Current

end Persister

/-- The place of a station among those of a model. -/
structure Station.Placed (station : Station SumRecord) (model : Model) (config : Config) (index : Nat)
    (level : Level) : Prop where
  queue : station.queue = none
  model_eq : station.persister.model = model.atLevel level
  drainEvery : station.persister.settings.drainEvery =
    if index = 0 then 1 else config.downsamplingPersistentMod
  ttlDays : station.persister.settings.ttlDays = config.metricsDataTtlDays
  target : station.target = if index = 0 then model.feeds else .nowhere

theorem Station.Placed.of_persister {station : Station SumRecord} {model : Model} {config : Config}
    {index : Nat} {level : Level} (h : station.Placed model config index level)
    {persister : Persister SumRecord} (hmodel : persister.model = station.persister.model)
    (hsettings : persister.settings = station.persister.settings) :
    Station.Placed { station with persister } model config index level where
  queue := h.queue
  model_eq := hmodel.trans h.model_eq
  drainEvery := (congrArg _ hsettings).trans h.drainEvery
  ttlDays := (congrArg _ hsettings).trans h.ttlDays
  target := h.target

theorem Station.Placed.take {station : Station SumRecord} {model : Model} {config : Config}
    {index : Nat} {level : Level} (h : station.Placed model config index level)
    (records : List SumRecord) : (station.take records).Placed model config index level := by
  have htaken := Persister.takeAll_eq station.persister records
  exact h.of_persister (by rw [htaken]) (by rw [htaken])

theorem Clock.nowMillis_nonneg (clock : Clock) : 0 ≤ clock.nowMillis := by
  have hgreatest : 0 ≤ Timestamp.greatest := by decide
  unfold nowMillis
  split <;> omega

/-- If it is asked whether rows are gone, it can be told of the rows of these records: none is of the
last month of the calendar. -/
def Dated (model : Model) (records : List SumRecord) : Prop :=
  model.timeRelativeId = false → ∀ record ∈ records, record.id.expires = true

/-- Whether a station of a model drains in a round that so many others came before. -/
def Config.drains (config : Config) (rounds index : Nat) : Bool :=
  index == 0 || rounds % config.downsamplingPersistentMod == 0

namespace Engine

/-! ## The engine of one model -/

/-- What the front and the stations of a model have of the records, after a number of rounds. -/
structure Books (engine : Engine SumRecord) (model : Model) (config : Config) (rounds : Nat)
    (front : Front SumRecord) (drained waiting : Nat → List SumRecord) : Prop where
  threads : 0 < engine.threads
  pool : 0 < engine.pool.threads ∧ 0 < engine.pool.batchSize
  inlets : engine.inlets = [.front 0]
  ttlDays : config.metricsDataTtlDays < UInt32.size
  length : engine.stations.length = model.levels.length
  first : engine.fronts[0]? = some front
  target : front.target = .station 0
  keyed : front.stage.buffer.Keyed
  stations : ∀ (index : Nat) (level : Level), model.levels[index]? = some level → ∃ station,
    engine.stations[index]? = some station ∧ station.Placed model config index level ∧
      station.persister.Current rounds engine.clock.nowMillis engine.store (drained index)
        (waiting index)
  copied : ∀ (index : Nat) (level : Level), 0 < index → model.levels[index]? = some level → ∀ id,
    tally (fun own => decide (own = id)) (drained index ++ waiting index) =
      tally (within level id) (drained 0)

namespace Books

variable {engine : Engine SumRecord} {model : Model} {config : Config} {rounds : Nat}
  {front : Front SumRecord} {drained waiting : Nat → List SumRecord}

theorem exists_level (h : engine.Books model config rounds front drained waiting) {index : Nat}
    {station : Station SumRecord} (hstation : engine.stations[index]? = some station) :
    ∃ level, model.levels[index]? = some level ∧ station.Placed model config index level ∧
      station.persister.Current rounds engine.clock.nowMillis engine.store (drained index)
        (waiting index) := by
  have hlt := (List.getElem?_eq_some_iff.mp hstation).1
  rw [h.length] at hlt
  have hlevel := List.getElem?_eq_getElem hlt
  obtain ⟨found, hfound, hplaced, hcurrent⟩ := h.stations index _ hlevel
  cases hstation.symm.trans hfound
  exact ⟨_, hlevel, hplaced, hcurrent⟩

theorem queueless (h : engine.Books model config rounds front drained waiting) :
    engine.Queueless := by
  intro station hstation
  obtain ⟨index, hindex⟩ := List.mem_iff_getElem?.mp hstation
  obtain ⟨_, _, hplaced, _⟩ := h.exists_level hindex
  exact hplaced.queue

theorem modifyFront (h : engine.Books model config rounds front drained waiting)
    (change : Front SumRecord → Front SumRecord) (htarget : (change front).target = front.target)
    (hkeyed : (change front).stage.buffer.Keyed) :
    (engine.modifyFront 0 change).Books model config rounds (change front) drained waiting where
  threads := h.threads
  pool := h.pool
  inlets := h.inlets
  ttlDays := h.ttlDays
  length := h.length
  first := by
    show (engine.fronts.modify 0 change)[0]? = _
    rw [List.getElem?_modify_eq, h.first]
    rfl
  target := htarget.trans h.target
  keyed := hkeyed
  stations := h.stations
  copied := h.copied

theorem took (h : engine.Books model config rounds front drained waiting) {last : Engine SumRecord}
    {taken : Nat → List SumRecord} (htook : Took engine last taken)
    (hnone : ∀ index, 0 < index → taken index = []) :
    last.Books model config rounds front drained fun index => waiting index ++ taken index := by
  have hlength := htook.length
  have hstations := htook.stations
  obtain ⟨loads, stations, exports, sinks, rfl⟩ := htook.same
  refine ⟨h.threads, h.pool, h.inlets, h.ttlDays, hlength.trans h.length, h.first, h.target,
    h.keyed, ?_, ?_⟩
  · intro index level hlevel
    obtain ⟨station, hstation, hplaced, hcurrent⟩ := h.stations index level hlevel
    refine ⟨station.take (taken index), ?_, hplaced.take _, (hcurrent.takeAll _).loads _⟩
    rw [hstations, hstation]
    rfl
  · intro index level hpos hlevel id
    rw [hnone index hpos, List.append_nil]
    exact h.copied index level hpos hlevel id

theorem later (h : engine.Books model config rounds front drained waiting) {clock : Clock}
    (hclock : engine.clock.nowMillis ≤ clock.nowMillis) :
    Books { engine with clock } model config rounds front drained waiting where
  threads := h.threads
  pool := h.pool
  inlets := h.inlets
  ttlDays := h.ttlDays
  length := h.length
  first := h.first
  target := h.target
  keyed := h.keyed
  stations index level hlevel := by
    obtain ⟨station, hstation, hplaced, hcurrent⟩ := h.stations index level hlevel
    exact ⟨station, hstation, hplaced, hcurrent.later hclock⟩
  copied := h.copied

/-! ### Rounds -/

theorem exists_own (h : engine.Books model config rounds front drained waiting) : ∃ own,
    engine.stations[0]? = some own ∧ own.Placed model config 0 model.level ∧
      own.persister.Current rounds engine.clock.nowMillis engine.store (drained 0) (waiting 0) :=
  h.stations 0 model.level rfl

theorem isDue_eq {persister : Persister SumRecord} {index : Nat} (hrounds : persister.rounds = rounds)
    (hevery : persister.settings.drainEvery =
      if index = 0 then 1 else config.downsamplingPersistentMod) :
    persister.isDue = config.drains rounds index := by
  unfold Persister.isDue Config.drains
  rw [hrounds, hevery]
  by_cases hindex : index = 0
  · simp [hindex, Nat.mod_one]
  · simp [hindex]

theorem handed_eq {own : Station SumRecord} (hplaced : own.Placed model config 0 model.level)
    (hrounds : own.persister.rounds = rounds) {index : Nat} {level : Level} (hindex : 0 < index)
    (hlevel : model.levels[index]? = some level) :
    handed own index = coarsened level own.persister.toDrain := by
  have hdue : own.persister.isDue = true := isDue_eq hrounds hplaced.drainEvery
  have htarget : own.target = model.feeds := hplaced.target
  unfold handed Persister.handing coarsened
  rw [if_pos hdue, htarget, List.filterMap_eq_flatMap_toList]
  refine List.flatMap_congr fun record _ => ?_
  exact Model.feeds_copiesFor hindex hlevel record

theorem expires_of_waiting (h : engine.Books model config rounds front drained waiting)
    (hdrained : ∀ record ∈ drained 0, record.id.expires = true) {index : Nat} {level : Level}
    (hindex : 0 < index) (hlevel : model.levels[index]? = some level) {record : SumRecord}
    (hrecord : record ∈ waiting index) : record.id.expires = true := by
  by_contra hnone
  have hcopied := h.copied index level hindex hlevel record.id
  have hempty : tally (within level record.id) (drained 0) = none := by
    refine tally_eq_none_iff.mpr fun first hfirst => ?_
    by_contra hwithin
    have hcoarsen : first.id.coarsen level = some record.id := by simpa [within] using hwithin
    rw [MetricId.expires_coarsen hcoarsen] at hnone
    exact hnone (hdrained first hfirst)
  rw [hempty] at hcopied
  have hcount := tally_eq_none_iff.mp hcopied record (List.mem_append_right _ hrecord)
  simp at hcount

theorem expires_of_coarsened {level : Level} {records : List SumRecord}
    (h : ∀ record ∈ records, record.id.expires = true) {record : SumRecord}
    (hrecord : record ∈ coarsened level records) : record.id.expires = true := by
  obtain ⟨first, hfirst, hcopy⟩ := List.mem_filterMap.mp hrecord
  obtain ⟨coarse, hcoarse, rfl⟩ := Option.map_eq_some_iff.mp hcopy
  exact (MetricId.expires_coarsen hcoarse).trans (h first hfirst)

theorem current_take (h : engine.Books model config rounds front drained waiting)
    (hdated : Dated model (drained 0 ++ waiting 0)) {own : Station SumRecord}
    (hown : engine.stations[0]? = some own) {index : Nat} {level : Level}
    (hlevel : model.levels[index]? = some level) {station : Station SumRecord}
    (hstation : engine.stations[index]? = some station) :
    ((station.take (handed own index)).persister.Current rounds engine.clock.nowMillis engine.store
        (drained index) (waiting index ++ handed own index)) ∧
      (station.take (handed own index)).persister.Expires engine.clock.nowMillis := by
  obtain ⟨_, hfirst, hplacedOwn, hcurrentOwn⟩ := h.exists_own
  cases hown.symm.trans hfirst
  obtain ⟨_, hfound, hplaced, hcurrent⟩ := h.stations index level hlevel
  cases hstation.symm.trans hfound
  have htaken := hcurrent.takeAll (handed own index)
  have hplaced := hplaced.take (handed own index)
  refine ⟨htaken, htaken.expires (hplaced.ttlDays.symm ▸ h.ttlDays) (fun hrelative => ?_)
    engine.clock.nowMillis_nonneg⟩
  have hmodel : (station.take (handed own index)).persister.model = model.atLevel level :=
    hplaced.model_eq
  have hmodelRelative : model.timeRelativeId = false := (congrArg _ hmodel).symm.trans hrelative
  have hexpires := hdated hmodelRelative
  have hdrained : ∀ record ∈ drained 0, record.id.expires = true :=
    fun record hrecord => hexpires record (List.mem_append_left _ hrecord)
  have hwaiting : ∀ record ∈ waiting 0, record.id.expires = true :=
    fun record hrecord => hexpires record (List.mem_append_right _ hrecord)
  intro record hrecord
  by_cases hindex : index = 0
  · subst hindex
    have hnone : handed own 0 = [] := by
      refine List.flatMap_eq_nil_iff.mpr fun record _ => Target.Avoids.copiesFor_eq_nil ?_ record
      rw [hplacedOwn.target, if_pos rfl]
      exact model.feeds_avoids
    rw [hnone, List.append_nil] at hrecord
    exact hwaiting record hrecord
  · have hpos := Nat.pos_of_ne_zero hindex
    rcases List.mem_append.mp hrecord with hrecord | hrecord
    · exact h.expires_of_waiting hdrained hpos hlevel hrecord
    · rw [handed_eq hplacedOwn hcurrentOwn.rounds_eq hpos hlevel] at hrecord
      refine expires_of_coarsened (fun record hrecord => ?_) hrecord
      have hget := hcurrentOwn.rest.toSound.mem_toDrain.mp hrecord
      rw [hcurrentOwn.window] at hget
      obtain ⟨first, hfirst, hid, _⟩ := exists_scale_foldOf hget
      have hsame : first.id = record.id := hid
      rw [← hsame]
      exact hwaiting first hfirst

theorem ready (h : engine.Books model config rounds front drained waiting)
    (hdated : Dated model (drained 0 ++ waiting 0)) {own : Station SumRecord}
    (hown : engine.stations[0]? = some own) : RoundReady engine own := by
  obtain ⟨_, hfirst, hplacedOwn, hcurrentOwn⟩ := h.exists_own
  cases hown.symm.trans hfirst
  refine ⟨h.threads, h.queueless, ?_, hown, ?_, ?_, ?_, ?_⟩
  · rw [hcurrentOwn.failures]
  · rw [hplacedOwn.target, if_pos rfl]
    exact model.feeds_avoids
  · intro index station hindex hstation
    obtain ⟨_, _, hplaced, _⟩ := h.exists_level hstation
    exact hplaced.target.trans (if_neg (Nat.ne_of_gt hindex))
  · intro a b first second hfirst hsecond htable
    obtain ⟨level, hlevel, hplaced, _⟩ := h.exists_level hfirst
    obtain ⟨other, hother, hplaced', _⟩ := h.exists_level hsecond
    rw [hplaced.model_eq, hplaced'.model_eq] at htable
    rw [Model.storageName_injective htable] at hlevel
    exact (List.getElem?_inj (List.getElem?_eq_some_iff.mp hlevel).1 model.levels_nodup).mp
      (hlevel.trans hother.symm)
  · intro index station hstation
    obtain ⟨level, hlevel, _, _⟩ := h.exists_level hstation
    obtain ⟨htaken, hexpires⟩ := h.current_take hdated hown hlevel hstation
    exact ⟨htaken.rest, fun _ => htaken.smooth hexpires⟩

theorem round_station (h : engine.Books model config rounds front drained waiting)
    (hupdate : model.supportUpdate = true) (hdated : Dated model (drained 0 ++ waiting 0))
    {own : Station SumRecord} (hown : engine.stations[0]? = some own) {index : Nat} {level : Level}
    (hlevel : model.levels[index]? = some level) {station : Station SumRecord}
    (hstation : engine.stations[index]? = some station) {writes : List (Write SumRecord)}
    {persister : Persister SumRecord} {store : RowStore}
    (hround : (station.take (handed own index)).persister.Round engine.store engine.clock.nowMillis
      engine.clock.nowMillis writes persister store) :
    Station.Placed { station with persister } model config index level ∧
      persister.Current (rounds + 1) engine.clock.nowMillis store
        (if config.drains rounds index then drained index ++ (waiting index ++ handed own index)
          else drained index)
        (if config.drains rounds index then [] else waiting index ++ handed own index) := by
  obtain ⟨found, hfound, hplaced, _⟩ := h.stations index level hlevel
  cases hstation.symm.trans hfound
  obtain ⟨htaken, hexpires⟩ := h.current_take hdated hown hlevel hstation
  have hplacedTaken := hplaced.take (handed own index)
  have hmodel : (station.take (handed own index)).persister.model.supportUpdate = true := by
    rw [hplacedTaken.model_eq]
    exact hupdate
  have hnext := htaken.round hmodel hexpires hround
  rw [isDue_eq htaken.rounds_eq hplacedTaken.drainEvery] at hnext
  obtain ⟨_, hmodelEq, hsettingsEq⟩ := hround.frame htaken.rest.toSound
  exact ⟨hplacedTaken.of_persister hmodelEq hsettingsEq, hnext⟩

theorem copied_handed (h : engine.Books model config rounds front drained waiting)
    {own : Station SumRecord} (hown : engine.stations[0]? = some own) {index : Nat} {level : Level}
    (hindex : 0 < index) (hlevel : model.levels[index]? = some level) (id : MetricId) :
    tally (fun record => decide (record = id)) (drained index ++ (waiting index ++ handed own index)) =
      tally (within level id) (drained 0 ++ waiting 0) := by
  obtain ⟨_, hfirst, hplaced, hcurrent⟩ := h.exists_own
  cases hown.symm.trans hfirst
  rw [← List.append_assoc, tally_append, h.copied index level hindex hlevel id,
    handed_eq hplaced hcurrent.rounds_eq hindex hlevel, tally_coarsened, hcurrent.tally_toDrain,
    tally_append]

/-- A round drains the model's own station, and the coarser ones if they take part in it. -/
theorem round (h : engine.Books model config rounds front drained waiting)
    (hupdate : model.supportUpdate = true) (hdated : Dated model (drained 0 ++ waiting 0)) :
    ∃ drained' waiting',
      (Engine.round.run engine).2.Books model config (rounds + 1) front drained' waiting' ∧
      drained' 0 = drained 0 ++ waiting 0 ∧ waiting' 0 = [] ∧
      ∀ (index : Nat) (level : Level) (own : Station SumRecord), 0 < index →
        model.levels[index]? = some level → engine.stations[0]? = some own →
        waiting' index = if rounds % config.downsamplingPersistentMod == 0 then []
          else waiting index ++ coarsened level own.persister.toDrain := by
  obtain ⟨own, hown, hplacedOwn, hcurrentOwn⟩ := h.exists_own
  have hready := h.ready hdated hown
  obtain ⟨writes, store, stations, exports, sinks, totals, hrun, _, hlength, hrounds⟩ :=
    round_run hready
  have hall : drained 0 ++ (waiting 0 ++ handed own 0) = drained 0 ++ waiting 0 := by
    have hnone : handed own 0 = [] := List.flatMap_eq_nil_iff.mpr fun record _ =>
      hready.avoids.copiesFor_eq_nil record
    rw [hnone, List.append_nil]
  -- Whether a station drains or sits the round out, the two lists together grow by what it is handed.
  refine ⟨fun index => if config.drains rounds index
      then drained index ++ (waiting index ++ handed own index) else drained index,
    fun index => if config.drains rounds index then [] else waiting index ++ handed own index,
    ?_, hall, rfl, ?_⟩
  · rw [hrun]
    refine ⟨h.threads, h.pool, h.inlets, h.ttlDays, hlength.trans h.length, h.first, h.target,
      h.keyed, ?_, ?_⟩
    · intro index level hlevel
      obtain ⟨station, hstation, _, _⟩ := h.stations index level hlevel
      obtain ⟨persister, hlast, hround⟩ := hrounds index station hstation
      exact ⟨_, hlast, h.round_station hupdate hdated hown hlevel hstation hround⟩
    · intro index level hindex hlevel id
      have hfirst : (if config.drains rounds 0 then drained 0 ++ (waiting 0 ++ handed own 0)
          else drained 0) = drained 0 ++ waiting 0 := hall
      rw [hfirst, ← h.copied_handed hown hindex hlevel id]
      split
      · rw [List.append_nil]
      · rfl
  · intro index level other hindex hlevel hother
    cases hown.symm.trans hother
    have hdrains : config.drains rounds index = (rounds % config.downsamplingPersistentMod == 0) := by
      simp [Config.drains, Nat.ne_of_gt hindex]
    dsimp only
    rw [hdrains, handed_eq hplacedOwn hcurrentOwn.rounds_eq hindex hlevel]

end Books

end Engine

end Rollup
