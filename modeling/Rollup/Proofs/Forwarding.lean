import Rollup.Proofs.Merging
import Rollup.Proofs.StationRound

/-!
# Forwarding

Where no station has a queue, what is handed on is in the windows of its targets at once, and nothing
else of the stations changes.
-/

namespace Rollup

variable {M : Type} [Record M]

namespace Persister

/-- Takes records in, one by one. -/
def takeAll (persister : Persister M) (records : List M) : Persister M :=
  records.foldl (fun persister record => (persister.write record).countAccepted) persister

theorem takeAll_eq (persister : Persister M) (records : List M) :
    persister.takeAll records = { persister with
      window := { persister.window with active := persister.window.active.acceptAll records }
      accepted := persister.accepted + records.length } := by
  induction records generalizing persister with
  | nil => rfl
  | cons first rest ih =>
    have hstep : persister.takeAll (first :: rest) =
        ((persister.write first).countAccepted).takeAll rest := rfl
    rw [hstep, ih, List.length_cons, Nat.add_comm rest.length, ← Nat.add_assoc]
    rfl

theorem takeAll_append (persister : Persister M) (records more : List M) :
    persister.takeAll (records ++ more) = (persister.takeAll records).takeAll more :=
  List.foldl_append

end Persister

namespace Station

def take (station : Station M) (records : List M) : Station M :=
  { station with persister := station.persister.takeAll records }

@[simp]
theorem take_nil (station : Station M) : station.take [] = station := rfl

theorem take_append (station : Station M) (records more : List M) :
    station.take (records ++ more) = (station.take records).take more := by
  simp only [take, Persister.takeAll_append]

end Station

/-- What a target hands to the station of this number, when it is handed a record. -/
def Target.copiesFor (target : Target) (index : Nat) (record : M) : List M :=
  match target with
  | .nowhere => []
  | .sink _ => []
  | .station other => if other = index then [record] else []
  | .copies sampler => (sampler.copies record).flatMap fun (other, copy) =>
    if other = index then [copy] else []

theorem Target.Avoids.copiesFor_eq_nil {target : Target} {index : Nat} (h : target.Avoids index)
    (record : M) : target.copiesFor index record = [] := by
  cases target with
  | nowhere => rfl
  | sink => rfl
  | station other => exact if_neg h
  | copies sampler =>
    refine List.flatMap_eq_nil_iff.mpr ?_
    rintro ⟨other, copy⟩ hcopy
    obtain ⟨⟨level, own⟩, hmem, hcopy⟩ := List.mem_filterMap.mp hcopy
    obtain ⟨_, _, heq⟩ := Option.map_eq_some_iff.mp hcopy
    cases heq
    exact if_neg (h _ hmem)

namespace Engine

variable {engine : Engine M}

/-- No station has a queue. -/
def Queueless (engine : Engine M) : Prop := ∀ station ∈ engine.stations, station.queue = none

/-- Loads, stations, exports and sinks aside, a state is an earlier one. -/
def SameElsewhere (before engine : Engine M) : Prop := ∃ loads stations exports sinks,
  engine = { before with store := { before.store with loads }, stations, exports, sinks }

omit [Record M] in
theorem SameElsewhere.refl (engine : Engine M) : SameElsewhere engine engine := ⟨_, _, _, _, rfl⟩

omit [Record M] in
theorem SameElsewhere.trans {before last : Engine M} (h : SameElsewhere before engine)
    (hlast : SameElsewhere engine last) : SameElsewhere before last := by
  obtain ⟨_, _, _, _, rfl⟩ := h
  obtain ⟨loads, stations, exports, sinks, rfl⟩ := hlast
  exact ⟨loads, stations, exports, sinks, rfl⟩

omit [Record M] in
theorem SameElsewhere.modifyPersister {before : Engine M} (h : SameElsewhere before engine)
    (index : Nat) (change : Persister M → Persister M) :
    SameElsewhere before (modifyPersister index change engine) := by
  obtain ⟨loads, _, exports, sinks, rfl⟩ := h
  exact ⟨loads, _, exports, sinks, rfl⟩

/-- Each station has taken these records in. -/
structure Took (before engine : Engine M) (taken : Nat → List M) : Prop where
  same : SameElsewhere before engine
  stations : ∀ index : Nat,
    engine.stations[index]? = (before.stations[index]?).map (·.take (taken index))

theorem Took.refl (engine : Engine M) : Took engine engine fun _ => [] :=
  ⟨.refl engine, fun index => by cases engine.stations[index]? <;> rfl⟩

theorem Took.trans {before last : Engine M} {taken more : Nat → List M}
    (h : Took before engine taken) (hmore : Took engine last more) :
    Took before last fun index => taken index ++ more index := by
  refine ⟨h.same.trans hmore.same, fun index => ?_⟩
  rw [hmore.stations, h.stations, Option.map_map]
  simp only [Function.comp_def, Station.take_append]

omit [Record M] in
theorem length_of_map {α : Type} {before after : List α} {change : Nat → α → α}
    (h : ∀ index : Nat, after[index]? = (before[index]?).map (change index)) :
    after.length = before.length := by
  apply Nat.le_antisymm
  · rw [← List.getElem?_eq_none_iff, h, List.getElem?_eq_none (Nat.le_refl _)]
    rfl
  · have hlast := h after.length
    rw [List.getElem?_eq_none (Nat.le_refl _), eq_comm, Option.map_eq_none_iff] at hlast
    exact List.getElem?_eq_none_iff.mp hlast

theorem Took.length {last : Engine M} {taken : Nat → List M} (h : Took engine last taken) :
    last.stations.length = engine.stations.length :=
  length_of_map h.stations

theorem Took.queueless {last : Engine M} {taken : Nat → List M} (h : Took engine last taken)
    (hqueue : engine.Queueless) : last.Queueless := by
  intro station hstation
  obtain ⟨index, hindex⟩ := List.mem_iff_getElem?.mp hstation
  rw [h.stations] at hindex
  obtain ⟨before, hbefore, rfl⟩ := Option.map_eq_some_iff.mp hindex
  exact hqueue before (List.mem_of_getElem? hbefore)

theorem acceptAt_took (hqueue : engine.Queueless) (index : Nat) (record : M) :
    Took engine ((acceptAt index record).run engine).2 fun other =>
      if index = other then [record] else [] := by
  cases hstation : engine.stations[index]? with
  | none =>
    have hrun : (acceptAt index record).run engine = (.ok (), engine) := by
      rw [acceptAt, run_get_bind, hstation]
      rfl
    rw [hrun]
    refine ⟨⟨_, _, _, _, rfl⟩, fun other => ?_⟩
    split
    · next heq =>
      rw [← heq, hstation]
      rfl
    · cases engine.stations[other]? <;> rfl
  | some station =>
    rw [acceptAt_direct hstation (hqueue station (List.mem_of_getElem? hstation)) record]
    refine ⟨⟨_, _, _, _, rfl⟩, fun other => ?_⟩
    show ((engine.stations.modify index _).modify index _)[other]? = _
    rw [List.getElem?_modify, List.getElem?_modify]
    cases engine.stations[other]? with
    | none => rfl
    | some found => split <;> rfl

theorem forM_took {α : Type} {items : List α} {call : α → StateM (Engine M) Unit}
    {taken : α → Nat → List M}
    (hcall : ∀ item engine, engine.Queueless → Took engine ((call item).run engine).2 (taken item))
    (hqueue : engine.Queueless) :
    Took engine ((items.forM call).run engine).2 fun index => items.flatMap (taken · index) := by
  induction items generalizing engine with
  | nil => exact Took.refl engine
  | cons first rest ih =>
    have hfirst := hcall first engine hqueue
    have hrest := ih (hfirst.queueless hqueue)
    exact hfirst.trans hrest

theorem deliver_took (hqueue : engine.Queueless) (target : Target) (record : M) :
    Took engine ((deliver target record).run engine).2 (target.copiesFor · record) := by
  cases target with
  | nowhere => exact Took.refl engine
  | sink index =>
    refine ⟨⟨_, _, _, _, rfl⟩, fun other => ?_⟩
    show engine.stations[other]? = _
    cases engine.stations[other]? <;> rfl
  | station index => exact acceptAt_took hqueue index record
  | copies sampler =>
    exact forM_took (fun item _ hqueue => acceptAt_took hqueue item.1 item.2) hqueue

/-! ## While a round is prepared -/

theorem surroundings_serve_took {store : RowStore} (hrows : engine.store.rows = store.rows)
    (hfailures : engine.store.failures = store.failures) (hqueue : engine.Queueless)
    (station : Station M) : (surroundings station).Serves store fun handed last =>
      Took engine last fun index => handed.flatMap (station.target.copiesFor index) := by
  apply surroundings_serve
  · intro handed last h
    obtain ⟨_, _, _, _, rfl⟩ := h.same
    exact ⟨hrows, hfailures⟩
  · intro handed last loads h
    obtain ⟨_, stations, exports, sinks, rfl⟩ := h.same
    exact ⟨⟨loads, stations, exports, sinks, rfl⟩, h.stations⟩
  · intro handed last exports h
    obtain ⟨loads, stations, _, sinks, rfl⟩ := h.same
    exact ⟨⟨loads, stations, exports, sinks, rfl⟩, h.stations⟩
  · intro handed last record h
    have hmore := h.trans (deliver_took (h.queueless hqueue) station.target record)
    simpa only [List.flatMap_append, List.flatMap_singleton] using hmore

end Engine

/-- What a round makes of a persister before its writes come to an end. -/
inductive Persister.Prepared (persister : Persister M) (store : RowStore) (now : Int) :
    List (Write M) → Persister M → Prop where
  | satOut (due : persister.isDue = false) :
      Prepared persister store now [] { persister with rounds := persister.rounds + 1 }
  | drained {sessions : Sessions M} {writes : List (Write M)} (due : persister.isDue = true)
      (built : persister.Built store now sessions writes) :
      Prepared persister store now writes (persister.drainedTo sessions)

/-- What the next round hands on. -/
def Persister.handing (persister : Persister M) : List M :=
  if persister.isDue then persister.toDrain else []

namespace Engine

theorem buildOrNone_took [KeepsIdentity M] {engine : Engine M} {index : Nat} {station : Station M}
    {store : RowStore} (hrows : engine.store.rows = store.rows)
    (hfailures : engine.store.failures = store.failures) (hqueue : engine.Queueless)
    (hstation : engine.stations[index]? = some station) (hrest : station.persister.AtRest store)
    (hsmooth : station.persister.isDue = true → Smooth store station.persister.model
      station.persister.settings.ttlDays engine.clock.nowMillis station.persister.toDrain)
    (named : Station M) : ∃ writes persister last,
      (Rounds.buildOrNone (roundWorker index named)).run engine =
        (writes.map (·.map (index, ·)), modifyPersister index (fun _ => persister) last) ∧
      Took engine last (fun other =>
        station.persister.handing.flatMap (station.target.copiesFor other)) ∧
      station.persister.Prepared store engine.clock.nowMillis writes persister := by
  have hbuild : Action.Ends (build index) engine
      (fun writes last => ∃ own persister mid, writes = own.map (·.map (index, ·)) ∧
        last = modifyPersister index (fun _ => persister) mid ∧
        Took engine mid (fun other =>
          station.persister.handing.flatMap (station.target.copiesFor other)) ∧
        station.persister.Prepared store engine.clock.nowMillis own persister)
      (fun _ _ => False) := by
    apply ends_build hstation
    have hserves := surroundings_serve_took hrows hfailures hqueue station
    refine (Persister.build_ends hserves hrest (Took.refl engine)).mono ?_ ?_
    · rintro writes ⟨persister, last⟩ (⟨hdue, rfl, heq⟩ | ⟨hdue, sessions, hbuilt, heq, hafter⟩)
      · obtain ⟨rfl, rfl⟩ := Prod.mk.inj heq
        refine ⟨[], _, last, rfl, rfl, ?_, .satOut hdue⟩
        simp only [Persister.handing, hdue, Bool.false_eq_true, if_false, List.flatMap_nil]
        exact Took.refl last
      · refine ⟨writes, persister, last, rfl, rfl, ?_, ?_⟩
        · simp only [Persister.handing, hdue, if_true]
          exact hafter
        · obtain rfl : persister = _ := heq
          exact .drained hdue hbuilt
    · rintro fault last ⟨hdue, hrough, _⟩
      exact hrough (hsmooth hdue)
  unfold Action.Ends at hbuild
  split at hbuild
  · next writes last hrun =>
    obtain ⟨own, persister, mid, rfl, rfl, htook, hprepared⟩ := hbuild
    refine ⟨own, persister, mid, ?_, htook, hprepared⟩
    have hworker : (roundWorker index named).build = build index := rfl
    simp only [Rounds.buildOrNone, StateT.run_bind, hworker, hrun]
    rfl
  · exact hbuild.elim

end Engine

end Rollup
