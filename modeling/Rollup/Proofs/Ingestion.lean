import Rollup.Engine.Round
import Rollup.Proofs.Arrivals
import Rollup.Proofs.FrontIntakes
import Rollup.Proofs.Interchange

/-!
# Ingestion with and without a queue

A queue in front of a station makes no difference to what the station is going to write, as long as it
takes in every record that is offered to it: the window comes to the same, and so does the next round.
-/

namespace Rollup

open Rollup.Action Record

variable {M : Type} [Record M]

namespace Engine

/-! ## Stations side by side -/

theorem deliver_store (target : Target) (record : M) (engine : Engine M) :
    ((deliver target record).run engine).2.store = engine.store := by
  have hkeeps : Preserves (deliver target record) fun last => last.store = engine.store :=
    deliver_preserves_of (fun _ _ h => h) (fun _ _ => acceptAt_preserves_of (fun _ _ h => h) _) _ _
  exact hkeeps engine rfl

omit [Record M] in
theorem abreast_storePart {α : Type} (call : Action RowStore α) {engine other : Engine M}
    (h : other.store = engine.store) : Abreast (storePart.act call) engine (storePart.act call) other
      (fun _ last last' => last'.store = last.store) fun last last' => last'.store = last.store := by
  have hrun : ∀ engine : Engine M, ((storePart.act call).run.run engine : Except Fault α × Engine M) =
      ((call.run.run engine.store : Except Fault α × RowStore).1,
        { engine with store := (call.run.run engine.store : Except Fault α × RowStore).2 }) :=
    fun _ => rfl
  unfold Abreast
  rw [hrun, hrun, h]
  rcases (call.run.run engine.store : Except Fault α × RowStore) with ⟨_ | _, _⟩ <;> exact ⟨rfl, rfl⟩

theorem surroundings_agree (station other : Station M) : (surroundings station).Agree
    (fun engine engine' => engine'.store = engine.store) (surroundings other) where
  load model ids _ _ h := abreast_storePart (RowStore.load model.storageName ids) h
  prepare _ _ _ engine engine' h := by
    refine ⟨?_, h⟩
    show engine'.store.prepare = engine.store.prepare
    rw [h]
  dispatch _ _ _ _ _ h := ⟨rfl, h⟩
  forward record record' engine engine' h := by
    refine ⟨rfl, ?_⟩
    show ((deliver other.target record').run engine').2.store =
      ((deliver station.target record).run engine).2.store
    rw [deliver_store, deliver_store, h]

/-- Engines with the same store, whose stations of this number prepare the same. -/
structure Alongside (index : Nat) (engine other : Engine M) : Prop where
  store : other.store = engine.store
  stations : ∃ station station', engine.stations[index]? = some station ∧
    other.stations[index]? = some station' ∧ station.persister.Alongside station'.persister

variable {index : Nat} {engine other : Engine M}

theorem build_run {station : Station M} (hstation : engine.stations[index]? = some station) :
    let call : Except Fault (List (Write M)) × Persister M × Engine M :=
      (Persister.build (surroundings station) engine.clock.nowMillis).run.run (station.persister, engine)
    ((build index).run.run engine : Except Fault (List (Prepared M)) × Engine M) =
      (call.1.map (·.map (·.map (index, ·))), modifyPersister index (fun _ => call.2.1) call.2.2) := by
  intro call
  have hcall : (Persister.build (surroundings station) engine.clock.nowMillis).run.run
    (station.persister, engine) = call := rfl
  unfold build
  have hget : (get : Action (Engine M) (Engine M)).run.run engine = (.ok engine, engine) := rfl
  simp only [run_bind, hget, hstation]
  rw [hcall]
  rcases call with ⟨_ | _, _, _⟩ <;> rfl

theorem Alongside.build (h : engine.Alongside index other) (hclock : other.clock = engine.clock) :
    ((build index).run.run other : Except Fault (List (Prepared M)) × Engine M).1 =
      ((build index).run.run engine : Except Fault (List (Prepared M)) × Engine M).1 := by
  obtain ⟨station, station', hstation, hstation', hpersister⟩ := h.stations
  have hbuild : Abreast
      (Persister.build (surroundings station) engine.clock.nowMillis) (station.persister, engine)
      (Persister.build (surroundings station') engine.clock.nowMillis) (station'.persister, other)
      (fun _ _ _ => True) fun _ _ => True :=
    hpersister.build (surroundings_agree station station') h.store
  rw [build_run hstation, build_run hstation', hclock]
  rcases hbuild.both with ⟨_, _, _, hrun, hrun', _⟩ | ⟨_, _, _, hrun, hrun', _⟩
  all_goals rw [hrun, hrun']

/-! ## Rounds -/

def drainsNext (index : Nat) (engine : Engine M) : Bool :=
  ((engine.stations[index]?).map (·.persister.isDue)).getD false

/-- The writes that a station prepares in the first round that it does not sit out. The clocks are those
of its rounds. -/
def nextDrain (index : Nat) : List Clock → Engine M → Except Fault (List (Prepared M))
  | [], _ => .ok []
  | clock :: later, engine =>
    let call : Except Fault (List (Prepared M)) × Engine M := (build index).run.run { engine with clock }
    if engine.drainsNext index then call.1 else nextDrain index later ((endRound index).run call.2).2

theorem Alongside.drainsNext (h : engine.Alongside index other) :
    other.drainsNext index = engine.drainsNext index := by
  obtain ⟨station, station', hstation, hstation', hpersister⟩ := h.stations
  unfold Engine.drainsNext
  rw [hstation, hstation']
  exact hpersister.isDue

theorem satOut_run {station : Station M} (hstation : engine.stations[index]? = some station)
    (hsits : engine.drainsNext index = false) :
    ((endRound index).run ((build index).run.run engine : Except Fault (List (Prepared M)) × Engine M).2).2 =
      modifyPersister index
        (fun persister => { persister with rounds := persister.rounds + 1 }.endRound engine.clock.nowMillis)
        engine := by
  have hdue : station.persister.isDue = false := by
    unfold Engine.drainsNext at hsits
    rwa [hstation] at hsits
  rw [build_run hstation, Persister.build_satOut _ _ hdue]
  show modifyPersister index (·.endRound engine.clock.nowMillis) (modifyPersister index
    (fun _ => { station.persister with rounds := station.persister.rounds + 1 }) engine) = _
  simp only [modifyPersister, modifyStation, List.modify_modify_eq]
  exact modifyStation_congr hstation rfl

theorem Alongside.satOut (h : engine.Alongside index other) (hclock : other.clock = engine.clock)
    (hsits : engine.drainsNext index = false) :
    Alongside index
      ((endRound index).run ((Engine.build index).run.run engine : Except Fault _ × Engine M).2).2
      ((endRound index).run ((Engine.build index).run.run other : Except Fault _ × Engine M).2).2 := by
  obtain ⟨station, station', hstation, hstation', hpersister⟩ := h.stations
  rw [satOut_run hstation hsits, satOut_run hstation' (h.drainsNext.trans hsits), hclock]
  exact ⟨h.store, _, _, getElem?_modifyPersister hstation _, getElem?_modifyPersister hstation' _,
    hpersister.satOut.endRound _⟩

theorem Alongside.nextDrain (h : engine.Alongside index other) (clocks : List Clock) :
    other.nextDrain index clocks = engine.nextDrain index clocks := by
  induction clocks generalizing engine other with
  | nil => rfl
  | cons clock later ih =>
    have hnow : Alongside index { engine with clock } { other with clock } := ⟨h.store, h.stations⟩
    unfold Engine.nextDrain
    rw [h.drainsNext]
    split
    · exact hnow.build rfl
    · next hsits => exact ih (hnow.satOut rfl (Bool.eq_false_iff.mpr hsits))

/-! ## Windows -/

end Engine

/-- The windows hold the same identities, and alike records of each. -/
def Window.HoldsAlike [Accumulating M] (window other : Window M) : Prop :=
  ∀ id, HeldAlike (window.active.get? id) (other.active.get? id)

/-- Records of each identity do not show in which order they are merged. -/
def Mixed [Accumulating M] (mixable : M → M → Prop) (records : List M) : Prop :=
  ∀ id, (about id records).Pairwise mixable

section

variable [Accumulating M] [LawfulRecord M] {mixable : M → M → Prop}

omit [Accumulating M] [LawfulRecord M] in
theorem get?_written (records : List M) (id : MetricId) :
    (records.foldl Window.write .empty).active.get? id = joinedAll none (about id records) := by
  rw [Window.foldl_write]
  show (Buffer.empty.acceptAll records).get? id = _
  rw [Buffer.get?_acceptAll, Buffer.get?_empty]

theorem holdsAlike_of_perm {handed records : List M} (hperm : handed.Perm records)
    (hmixed : Mixed mixable records)
    (hswappable : ∀ a b, Record.id a = Record.id b → mixable a b → Swappable a b) :
    (handed.foldl Window.write .empty).HoldsAlike (records.foldl Window.write .empty) := by
  intro id
  rw [get?_written, get?_written]
  have habout : (about id records).Perm (about id handed) := (hperm.filter _).symm
  have hswaps : (about id records).Pairwise Swappable :=
    (hmixed id).imp_of_mem fun ha hb h =>
      hswappable _ _ ((mem_about.mp ha).2.trans (mem_about.mp hb).2.symm) h
  have hfold : HeldAlike (joinedAll none (about id records)) (joinedAll none (about id handed)) :=
    joinedAll_perm habout hswaps nofun
  exact hfold.symm

end

/-! ## With a queue and without -/

/-- What a station collects is the same with a queue in front of it and without, and so is what it is
going to write. -/
def IngestsAlike (M : Type) [Record M] [Accumulating M] (mixable : M → M → Prop)
    (settled : List M → Prop) : Prop :=
  ∀ (base : Engine M) (index : Nat) (station : Station M) (settings : QueueSettings M)
    (queue : Queue M) (steps : List (ArrivalStep M)),
    base.stations[index]? = some station → station.persister.window = .empty →
    station.queue = some queue → Queue.build settings = .ok queue →
    settings.overflow ≠ .dropOldest → Engine.Unrefused index steps base →
    Mixed mixable (offered steps) →
    let queued := base.arrivals index steps
    let direct := (base.direct index).acceptAllAt index (offered steps)
    ((Engine.stationQueue index).get queued).stats.pending = 0 →
    (queued.windowAt index).HoldsAlike (direct.windowAt index) ∧
      ((∀ id, settled (about id (offered steps))) →
        ∀ clocks, queued.nextDrain index clocks = direct.nextDrain index clocks)

theorem ingestsAlike [Accumulating M] [LawfulRecord M] {mixable : M → M → Prop}
    {settled : List M → Prop}
    (hswappable : ∀ a b : M, Record.id a = Record.id b → mixable a b → Swappable a b)
    (hworth : ∀ {records handed : List M} {a b : M}, settled records → handed.Perm records →
      a ∈ joinedAll none handed → b ∈ joinedAll none records → Alike a b → Interchangeable a b) :
    IngestsAlike M mixable settled := by
  intro base index station settings queue steps hstation hwindow hqueue hbuild hrule htaken hmixed
    queued direct hidle
  have harrived : Engine.Arrived index base settings (offered steps) queued :=
    (Engine.Arrived.start hstation hwindow hqueue hbuild).arrivals hrule hstation htaken
  obtain ⟨hstore, handed, accepted, last, hperm, hget⟩ := harrived.idle hstation hidle
  obtain ⟨hstore', accepted', hget'⟩ := Engine.acceptAllAt_direct hstation hwindow (offered steps)
  have hsame := holdsAlike_of_perm hperm hmixed hswappable
  refine ⟨?_, fun hsettled clocks => ?_⟩
  · unfold Engine.windowAt
    rw [hget, hget']
    exact hsame
  · -- Alike records may still show different values, and it is the value that is written.
    have halongside : queued.Alongside index direct := by
      refine ⟨hstore'.trans hstore.symm, _, _, hget, hget', rfl, rfl, rfl, rfl, ?_, ?_⟩
      · rw [Station.holding, Station.holding, Window.foldl_write, Window.foldl_write]
        exact ⟨⟨rfl, rfl⟩, rfl, rfl⟩
      · apply Buffer.forall₂_toList
        intro id
        have hid := hsame id
        unfold Station.holding
        rw [get?_written, get?_written] at *
        exact rel_of_mem hid fun a ha b hb =>
          hworth (hsettled id) (hperm.filter _) ha hb
    exact (halongside.nextDrain clocks).symm

/-- Records that come through a queue come to the same as those that come at once. Percentiles have to
be of one precision and latest values of different moments. -/
theorem queues_make_no_difference :
    IngestsAlike SumRecord (fun _ _ => True) (fun _ => True) ∧
    IngestsAlike RateRecord (fun _ _ => True) (fun _ => True) ∧
    IngestsAlike AverageRecord (fun _ _ => True) AverageRecord.Settled ∧
    IngestsAlike PeakRecord (fun _ _ => True) (fun _ => True) ∧
    IngestsAlike PercentileRecord (fun a b => a.precision.value = b.precision.value) (fun _ => True) ∧
    IngestsAlike LatestRecord (fun a b => a.observedAt.value ≠ b.observedAt.value) (fun _ => True) :=
  ⟨ingestsAlike (fun _ _ hid _ => SumRecord.swappable hid) fun _ _ _ _ => SumRecord.interchangeable,
    ingestsAlike (fun _ _ hid _ => RateRecord.swappable hid) fun _ _ _ _ => RateRecord.interchangeable,
    ingestsAlike (fun _ _ hid _ => AverageRecord.swappable hid) AverageRecord.Settled.interchangeable,
    ingestsAlike (fun _ _ hid _ => PeakRecord.swappable hid) fun _ _ _ _ => PeakRecord.interchangeable,
    ingestsAlike (fun _ _ => PercentileRecord.swappable) fun _ _ _ _ => PercentileRecord.interchangeable,
    ingestsAlike (fun _ _ => LatestRecord.swappable) fun _ _ _ _ => LatestRecord.interchangeable⟩

/-- The second price finds the queue full, and is written before the first one. -/
theorem queues_make_no_difference_to_prices :
    let price := LatestRecord.new (.onFirstDay (.single "price"))
    let settings : QueueSettings LatestRecord := { channelSize := 1, overflow := .runOnCaller }
    let steps : List (ArrivalStep LatestRecord) := [.bind [0], .accept (price 5 1),
      .accept (price 7 3), .drain (.thread 0) 0 10]
    ∃ queue, Queue.build settings = .ok queue ∧
      let station : Station LatestRecord :=
        { persister := { model := { name := "prices", level := .day } }, queue := some queue }
      let base : Engine LatestRecord := { clock := .ofMillis 0, stations := [station] }
      let queued := base.arrivals 0 steps
      let direct := (base.direct 0).acceptAllAt 0 (offered steps)
      (queued.windowAt 0).HoldsAlike (direct.windowAt 0) ∧
      queued.nextDrain 0 [.ofMillis 0] = direct.nextDrain 0 [.ofMillis 0] ∧
      (queued.windowAt 0).active.toList = [price 7 3] := by
  intro price settings steps
  refine ⟨_, rfl, ?_⟩
  intro station base queued direct
  have htaken : base.Unrefused 0 steps := by decide +kernel
  have hmixed : Mixed (fun a b : LatestRecord => a.observedAt.value ≠ b.observedAt.value)
      (offered steps) := by
    intro id
    apply List.Pairwise.filter
    decide +kernel
  obtain ⟨hwindows, hwrites⟩ := queues_make_no_difference.2.2.2.2.2 base 0 station settings _ steps rfl
    rfl rfl rfl (by decide) htaken hmixed (by decide +kernel)
  exact ⟨hwindows, hwrites (fun _ => trivial) _, by decide +kernel⟩

/-- Two averages that come to a count of 0, so that the derived value stays that of the first one merged.
Without a queue that is the 10, with it the 4. -/
theorem queues_change_averages_of_nothing :
    let id := MetricId.onFirstDay (.single "average")
    let first : AverageRecord := { AverageRecord.withCount id 10 1 with value := 10 }
    let second : AverageRecord := { AverageRecord.withCount id (-4) (-1) with value := 4 }
    let settings : QueueSettings AverageRecord := { channelSize := 1, overflow := .runOnCaller }
    let steps : List (ArrivalStep AverageRecord) := [.bind [0], .accept first, .accept second,
      .drain (.thread 0) 0 10]
    ∃ queue, Queue.build settings = .ok queue ∧
      let station : Station AverageRecord :=
        { persister := { model := { name := "averages", level := .day } }, queue := some queue }
      let base : Engine AverageRecord := { clock := .ofMillis 0, stations := [station] }
      let queued := base.arrivals 0 steps
      let direct := (base.direct 0).acceptAllAt 0 (offered steps)
      let prepared (engine : Engine AverageRecord) :=
        (engine.nextDrain 0 [.ofMillis 0]).map (·.map fun request => (request.id, request.fields))
      calculate (AverageRecord.withCount id 10 1) = .ok first ∧
      calculate (AverageRecord.withCount id (-4) (-1)) = .ok second ∧
      base.Unrefused 0 steps ∧ ((Engine.stationQueue 0).get queued).stats.pending = 0 ∧
      prepared queued = .ok [(id, Record.toFields { AverageRecord.withCount id 6 0 with value := 4 })] ∧
      prepared direct = .ok [(id, Record.toFields { AverageRecord.withCount id 6 0 with value := 10 })] ∧
      prepared queued ≠ prepared direct := by
  intro id first second settings steps
  refine ⟨_, rfl, ?_⟩
  intro station base queued direct prepared
  decide +kernel

end Rollup
