import Rollup.Proofs.MergeOrder
import Rollup.Proofs.Mirrors
import Rollup.Proofs.QueueAccounts
import Rollup.Proofs.Refinement

/-!
# Arrivals

Records that reach a station through its queue are those that it was handed, in another order perhaps.
So its window comes to the same as that of a station without a queue, once nothing is queued any more.
-/

namespace Rollup

open Record

variable {M : Type} [Record M]

/-! ## Windows behind queues -/

namespace Window

def writer : Consumer (Window M) M := ServedQueue.folding write

theorem foldl_write (records : List M) (window : Window M) :
    records.foldl write window = { window with active := window.active.acceptAll records } := by
  induction records generalizing window with
  | nil => rfl
  | cons first rest ih => exact ih _

end Window

theorem Persister.foldl_write (records : List M) (persister : Persister M) :
    records.foldl Persister.write persister =
      { persister with window := records.foldl Window.write persister.window } := by
  induction records generalizing persister with
  | nil => rfl
  | cons first rest ih => exact ih _

namespace QueueRun

variable {τ α : Type} {consumer : Consumer τ α} {run : QueueRun τ α}

theorem evicted_produce (hready : run.served.queue.Ready)
    (hrule : run.served.queue.overflow ≠ .dropOldest) (item : α) (wait : Wait) :
    evicted (run.produce consumer item wait).left = evicted run.left := by
  unfold QueueRun.produce
  rcases Queue.offer_cases hready item wait with ⟨_, hoffer⟩ | ⟨_, _, hdrop, _, _⟩ | ⟨_, hoffer⟩ |
    ⟨_, _, _, hoffer⟩
  · rw [hoffer]
  · exact absurd hdrop hrule
  · rw [hoffer]
  · rw [hoffer]

theorem evicted_drain (runner : Runner) (channel batchSize : Nat) :
    evicted (run.drain consumer runner channel batchSize).left = evicted run.left := by
  unfold QueueRun.drain
  rw [evicted_append, evicted_handed, List.append_nil]

theorem poolProduce (run : QueueRun τ α) (consumer : Consumer τ α) (settings : PoolSettings)
    (phase : PoolPhase) (item : α) : ∃ steps : List (QueueStep α),
      let last := (Pool.produce settings phase (ServedQueue.line consumer) item).run run.served
      last.2 = (after consumer steps run).served ∧
        (after consumer steps run).accepted.map (·.2) =
          run.accepted.map (·.2) ++ if last.1.isOk then [item] else [] := by
  have hproduce : ∀ run : QueueRun τ α, (run.produce consumer item .timesOut).accepted.map (·.2) =
      run.accepted.map (·.2) ++
        if (((ServedQueue.line consumer).produce item).run run.served).1.isOk then [item] else [] := by
    intro run
    unfold QueueRun.produce
    dsimp only
    rcases ((ServedQueue.line consumer).produce item).run run.served with ⟨_ | _, _⟩
    · exact (List.append_nil _).symm
    · exact List.map_append
  dsimp only
  rw [Pool.produce, run_get_bind]
  dsimp only
  split
  · let channel := run.served.queue.target item
    let runner := Runner.thread (run.served.queue.owner channel)
    exact ⟨[.drain runner channel settings.batchSize, .produce item .timesOut], rfl,
      hproduce (run.drain consumer runner channel settings.batchSize)⟩
  · exact ⟨[.produce item .timesOut], rfl, hproduce run⟩

/-- Nothing was evicted, and the window holds what came out of the queue. -/
structure Tidy (settings : QueueSettings M) (run : QueueRun (Window M) M) : Prop where
  balanced : run.Balanced settings
  kept : evicted run.left = []
  window : run.served.others = run.served.handed.foldl Window.write .empty

namespace Tidy

variable {settings : QueueSettings M} {run : QueueRun (Window M) M}

theorem next (h : run.Tidy settings) (hrule : settings.overflow ≠ .dropOldest) (step : QueueStep M) :
    (run.next Window.writer step).Tidy settings := by
  refine ⟨h.balanced.after Window.writer [step], ?_, ?_⟩
  · cases step with
    | produce item wait =>
      exact (evicted_produce h.balanced.ready (h.balanced.rules.2 ▸ hrule) item wait).trans h.kept
    | drain runner channel batchSize => exact (evicted_drain runner channel batchSize).trans h.kept
    | bind | idle | close | exit => exact h.kept
  · cases step with
    | produce item wait =>
      exact (ServedQueue.folding_respects _ _).produce item wait run.served h.window
    | drain runner channel batchSize =>
      exact (ServedQueue.folding_respects _ _).drain runner channel batchSize run.served h.window
    | bind owners =>
      obtain ⟨_, hbound⟩ := ServedQueue.bind_run Window.writer run.served
        run.served.queue.channels.length owners
      simp only [QueueRun.next, hbound]
      exact h.window
    | idle | close | exit => exact h.window

theorem after (h : run.Tidy settings) (hrule : settings.overflow ≠ .dropOldest)
    (steps : List (QueueStep M)) : (after Window.writer steps run).Tidy settings := by
  induction steps generalizing run with
  | nil => exact h
  | cons step rest ih => exact ih (h.next hrule step)

end Tidy

end QueueRun

/-! ## Stations -/

/-- What may happen to a station and its queue, one thing after another. -/
inductive ArrivalStep (M : Type) where
  | accept (record : M)
  | drain (runner : Runner) (channel batchSize : Nat)
  /-- A pool is started, whose threads are to own the channels. -/
  | bind (owners : List Nat)
  | phase (phase : PoolPhase)

namespace ArrivalStep

def offered? : ArrivalStep M → Option M
  | accept record => some record
  | _ => none

end ArrivalStep

def offered (steps : List (ArrivalStep M)) : List M := steps.filterMap ArrivalStep.offered?

/-- A station with this in its window, and this queue in front of it. -/
def Station.holding (station : Station M) (window : Window M) (accepted : Nat)
    (queue : Option (Queue M)) : Station M :=
  { station with persister := { station.persister with window, accepted }, queue }

namespace Engine

variable (index : Nat)

def arrive (engine : Engine M) : ArrivalStep M → Engine M
  | .accept record => ((acceptAt index record).run engine).2
  | .drain runner channel batchSize =>
    (((stationLine index).drain runner channel batchSize).run engine).2
  | .bind owners =>
    let channels := ((stationQueue index).get engine).channels.length
    ((((stationLine index).attachment channels).bind owners).run.run engine).2
  | .phase phase => { engine with phase }

def arrivals (steps : List (ArrivalStep M)) (engine : Engine M) : Engine M := steps.foldl (arrive index) engine

/-- No record is handed back. -/
def Unrefused : List (ArrivalStep M) → Engine M → Prop
  | [], _ => True
  | step :: rest, engine =>
    (∀ record ∈ step.offered?, ((acceptAt index record).run engine).1.isOk = true) ∧
      Unrefused rest (engine.arrive index step)

instance decidableUnrefused : (steps : List (ArrivalStep M)) → (engine : Engine M) →
    Decidable (Unrefused index steps engine)
  | [], _ => .isTrue trivial
  | step :: rest, engine =>
    have := decidableUnrefused rest (engine.arrive index step)
    inferInstanceAs (Decidable ((∀ record ∈ step.offered?, _ = true) ∧ _))

def windowAt (engine : Engine M) : Window M :=
  ((engine.stations[index]?).map (·.persister.window)).getD .empty

variable {index} {base engine : Engine M} {station : Station M} {served : ServedQueue (Window M) M}

/-- The engine is this one, but for the window and the queue of the station. -/
def Stands (index : Nat) (base : Engine M) (served : ServedQueue (Window M) M)
    (engine : Engine M) : Prop :=
  ∃ accepted phase, engine =
    { base.modifyStation index (·.holding served.others accepted (some served.queue)) with phase }

omit [Record M] in
theorem Stands.station_eq (h : Stands index base served engine)
    (hstation : base.stations[index]? = some station) : ∃ accepted,
      engine.stations[index]? = some (station.holding served.others accepted (some served.queue)) := by
  obtain ⟨accepted, _, rfl⟩ := h
  exact ⟨accepted, by simp [modifyStation, hstation]⟩

omit [Record M] in
theorem modifyStation_holding {window window' : Window M} {accepted accepted' : Nat}
    {queue queue' : Option (Queue M)} {phase : PoolPhase} {change : Station M → Station M}
    (h : ∀ station : Station M,
      change (station.holding window accepted queue) = station.holding window' accepted' queue') :
    modifyStation index change
        { base.modifyStation index (·.holding window accepted queue) with phase } =
      { base.modifyStation index (·.holding window' accepted' queue') with phase } := by
  simp only [modifyStation, List.modify_modify_eq, Function.comp_def, h]

omit [Record M] in
theorem modifyStation_congr (hstation : base.stations[index]? = some station)
    {change change' : Station M → Station M} (h : change station = change' station) :
    base.modifyStation index change = base.modifyStation index change' := by
  rw [modifyStation, modifyStation, modify_congr hstation h]

theorem stands_mirrored (hstation : base.stations[index]? = some station) :
    Line.Mirrored (Stands index base) (ServedQueue.line Window.writer) (stationLine index) where
  get {served engine} h := by
    obtain ⟨_, hget⟩ := h.station_eq hstation
    show ((engine.stations[index]?).bind (·.queue)).getD .absent = _
    rw [hget]
    rfl
  set := by
    rintro served _ ⟨accepted, phase, rfl⟩ queue
    exact ⟨accepted, phase, modifyStation_holding fun _ => rfl⟩
  consume runner batch := by
    rintro served _ ⟨accepted, phase, rfl⟩
    refine ⟨rfl, accepted, phase, modifyStation_holding fun station => ?_⟩
    simp only [Persister.foldl_write]
    rfl
  onError _ _ _ := .pure _

theorem acceptAt_stands (hstation : base.stations[index]? = some station)
    (h : Stands index base served engine) (record : M) :
    let inner :=
      (Pool.produce engine.pool engine.phase (ServedQueue.line Window.writer) record).run served
    let outer := (acceptAt index record).run engine
    outer.1 = inner.1 ∧ Stands index base inner.2 outer.2 := by
  have hproduce :=
    (stands_mirrored hstation).poolProduce engine.pool engine.phase record served engine h
  obtain ⟨accepted, hget⟩ := h.station_eq hstation
  rcases houter : (Pool.produce engine.pool engine.phase (stationLine index) record).run engine with
    ⟨answer, last⟩
  rw [houter] at hproduce
  obtain ⟨hanswer, hstands⟩ := hproduce
  intro inner outer
  have houter : outer = (do
      if answer.isOk then modify (modifyPersister index (·.countAccepted))
      return answer : StateM (Engine M) (Except (Refused M) Unit)).run last := by
    show (acceptAt index record).run engine = _
    rw [acceptAt, run_get_bind, hget]
    exact run_bind_of_eq houter _
  rw [houter]
  cases answer with
  | error refused => exact ⟨hanswer, hstands⟩
  | ok =>
    refine ⟨hanswer, ?_⟩
    obtain ⟨accepted, phase, rfl⟩ := hstands
    exact ⟨accepted + 1, phase, modifyStation_holding fun _ => rfl⟩

/-! ## Runs -/

/-- What was offered to the queue of the station was taken in. -/
def Arrived (index : Nat) (base : Engine M) (settings : QueueSettings M) (records : List M)
    (engine : Engine M) : Prop :=
  ∃ run : QueueRun (Window M) M, run.Tidy settings ∧ run.accepted.map (·.2) = records ∧
    Stands index base run.served engine

variable {settings : QueueSettings M} {records : List M}

theorem Arrived.arrive (h : Arrived index base settings records engine)
    (hrule : settings.overflow ≠ .dropOldest) (hstation : base.stations[index]? = some station)
    (step : ArrivalStep M)
    (htaken : ∀ record ∈ step.offered?, ((acceptAt index record).run engine).1.isOk = true) :
    Arrived index base settings (records ++ step.offered?.toList) (engine.arrive index step) := by
  obtain ⟨run, htidy, haccepted, hstands⟩ := h
  cases step with
  | accept record =>
    obtain ⟨hanswer, hlast⟩ := acceptAt_stands hstation hstands record
    obtain ⟨steps, hserved, hmore⟩ := run.poolProduce Window.writer engine.pool engine.phase record
    rw [hserved] at hlast
    refine ⟨_, htidy.after hrule steps, ?_, hlast⟩
    rw [hmore, haccepted, ← hanswer, htaken record rfl]
    rfl
  | drain runner channel batchSize =>
    have hlast :=
      ((stands_mirrored hstation).drain runner channel batchSize run.served engine hstands).2
    refine ⟨_, htidy.next hrule (.drain runner channel batchSize), ?_, hlast⟩
    exact haccepted.trans (List.append_nil _).symm
  | bind owners =>
    have hlast := (stands_mirrored hstation).bind hstands
      ((stationQueue index).get engine).channels.length owners
    refine ⟨_, htidy.next hrule (.bind owners), ?_, hlast⟩
    exact haccepted.trans (List.append_nil _).symm
  | phase phase =>
    obtain ⟨accepted, _, rfl⟩ := hstands
    exact ⟨run, htidy, haccepted.trans (List.append_nil _).symm, accepted, phase, rfl⟩

theorem Arrived.arrivals (h : Arrived index base settings records engine)
    (hrule : settings.overflow ≠ .dropOldest) (hstation : base.stations[index]? = some station)
    {steps : List (ArrivalStep M)} (htaken : Unrefused index steps engine) :
    Arrived index base settings (records ++ offered steps) (arrivals index steps engine) := by
  induction steps generalizing engine records with
  | nil =>
    show Arrived index base settings (records ++ []) engine
    rwa [List.append_nil]
  | cons step rest ih =>
    have hrest := ih (h.arrive hrule hstation step htaken.1) htaken.2
    rw [List.append_assoc] at hrest
    have hoffered : offered (step :: rest) = step.offered?.toList ++ offered rest := by
      unfold offered
      rw [List.filterMap_cons]
      cases step.offered? <;> rfl
    rw [hoffered]
    exact hrest

theorem Arrived.start {queue : Queue M} (hstation : base.stations[index]? = some station)
    (hwindow : station.persister.window = .empty) (hqueue : station.queue = some queue)
    (hbuild : Queue.build settings = .ok queue) : Arrived index base settings [] base := by
  refine ⟨.start queue Window.empty, ⟨.start hbuild Window.empty, rfl, rfl⟩, rfl, station.persister.accepted,
    base.phase, ?_⟩
  have hsame : base.modifyStation index
      (·.holding Window.empty station.persister.accepted (some queue)) = base.modifyStation index id := by
    apply modifyStation_congr hstation
    unfold Station.holding
    rw [← hwindow, ← hqueue]
    rfl
  show base = { base.modifyStation index
    (·.holding Window.empty station.persister.accepted (some queue)) with phase := base.phase }
  rw [hsame]
  simp [modifyStation]

theorem Arrived.idle (h : Arrived index base settings records engine)
    (hstation : base.stations[index]? = some station)
    (hidle : ((stationQueue index).get engine).stats.pending = 0) :
    engine.store = base.store ∧ ∃ (handed : List M) (accepted : Nat) (queue : Option (Queue M)),
      handed.Perm records ∧ engine.stations[index]? =
        some (station.holding (handed.foldl Window.write .empty) accepted queue) := by
  obtain ⟨run, htidy, haccepted, hstands⟩ := h
  obtain ⟨accepted, hget⟩ := hstands.station_eq hstation
  have hqueue : (stationQueue index).get engine = run.served.queue :=
    (stands_mirrored hstation).get hstands
  have hwaiting : run.served.queue.waiting = [] := by
    have hpending := htidy.balanced.pending
    rw [← hqueue, hidle, hqueue] at hpending
    exact List.eq_nil_of_length_eq_zero hpending.symm
  -- Nothing was evicted and nothing waits, so what came out is all that went in.
  have heach := htidy.balanced.each
  rw [htidy.kept, hwaiting, List.append_nil, List.append_nil, haccepted] at heach
  rw [htidy.window] at hget
  have hstore : engine.store = base.store := by
    obtain ⟨_, _, rfl⟩ := hstands
    rfl
  exact ⟨hstore, run.served.handed, accepted, some run.served.queue, heach, hget⟩

/-! ## Without a queue -/

/-- Hands records to a station one by one. -/
def acceptAllAt (index : Nat) (records : List M) (engine : Engine M) : Engine M :=
  records.foldl (fun engine record => ((acceptAt index record).run engine).2) engine

/-- The same engine, but that records reach the station at once. -/
def direct (index : Nat) (engine : Engine M) : Engine M :=
  engine.modifyStation index ({ · with queue := none })

theorem acceptAt_holding (hstation : base.stations[index]? = some station) (window : Window M)
    (accepted : Nat) (record : M) :
    (acceptAt index record).run (base.modifyStation index (·.holding window accepted none)) =
      (.ok (), base.modifyStation index (·.holding (window.write record) (accepted + 1) none)) := by
  have hget : (base.modifyStation index (·.holding window accepted none)).stations[index]? =
      some (station.holding window accepted none) := by
    simp [modifyStation, hstation]
  rw [acceptAt, run_get_bind, hget]
  have hwritten : modifyPersister index (·.countAccepted) (modifyPersister index (·.write record)
      (base.modifyStation index (·.holding window accepted none))) =
        base.modifyStation index (·.holding (window.write record) (accepted + 1) none) := by
    simp only [modifyPersister, modifyStation, List.modify_modify_eq]
    rfl
  exact Prod.ext rfl hwritten

theorem acceptAllAt_direct (hstation : base.stations[index]? = some station)
    (hwindow : station.persister.window = .empty) (records : List M) :
    let last := acceptAllAt index records (direct index base)
    last.store = base.store ∧ ∃ accepted, last.stations[index]? =
      some (station.holding (records.foldl Window.write .empty) accepted none) := by
  intro last
  have hfold : ∀ (window : Window M) (accepted : Nat),
      acceptAllAt index records (base.modifyStation index (·.holding window accepted none)) =
        base.modifyStation index
          (·.holding (records.foldl Window.write window) (accepted + records.length) none) := by
    induction records with
    | nil => exact fun _ _ => rfl
    | cons first rest ih =>
      intro window accepted
      have hfirst := congrArg Prod.snd (acceptAt_holding hstation window accepted first)
      unfold acceptAllAt
      rw [List.foldl_cons, hfirst, List.length_cons, Nat.add_comm rest.length, ← Nat.add_assoc]
      exact ih (window.write first) (accepted + 1)
  have hdirect : direct index base =
      base.modifyStation index (·.holding .empty station.persister.accepted none) := by
    apply modifyStation_congr hstation
    unfold Station.holding
    rw [← hwindow]
  have hlast : last = base.modifyStation index (·.holding (records.foldl Window.write .empty)
      (station.persister.accepted + records.length) none) := by
    rw [← hfold, ← hdirect]
  rw [hlast]
  exact ⟨rfl, station.persister.accepted + records.length, by simp [modifyStation, hstation]⟩

end Engine

end Rollup
