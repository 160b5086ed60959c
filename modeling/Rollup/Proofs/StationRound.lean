import Rollup.Engine.Round
import Rollup.Proofs.Building
import Rollup.Proofs.Delivery

/-!
# The round of a station

A round of one station in an engine, as far as its persister and the rows go: which writes it has made,
and what their outcome makes of the session cache.
-/

namespace Rollup

open Rollup.Action

variable {M : Type} [Record M]

theorem Action.ends_act {σ β α : Type} (part : Part σ β) (call : Action β α) {s : σ}
    {done : α → σ → Prop} {broken : Fault → σ → Prop} :
    Ends (part.act call) s done broken ↔ Ends call (part.get s)
      (fun answer b => done answer (part.set s b)) (fun fault b => broken fault (part.set s b)) := by
  have hrun : ((part.act call).run.run s : Except Fault α × σ) =
      ((call.run.run (part.get s) : Except Fault α × β).1,
        part.set s (call.run.run (part.get s) : Except Fault α × β).2) := rfl
  unfold Ends
  rw [hrun]
  rcases (call.run.run (part.get s) : Except Fault α × β) with ⟨_ | _, _⟩ <;> rfl

namespace Engine

/-! ## The engine as surroundings -/

theorem surroundings_serve {station : Station M} {store : RowStore}
    {after : List M → Engine M → Prop}
    (hstore : ∀ handed engine, after handed engine →
      engine.store.rows = store.rows ∧ engine.store.failures = store.failures)
    (hloads : ∀ handed engine loads, after handed engine →
      after handed { engine with store := { engine.store with loads } })
    (hexports : ∀ handed engine exports, after handed engine →
      after handed { engine with exports })
    (hforward : ∀ handed engine record, after handed engine →
      after (handed ++ [record]) ((deliver station.target record).run engine).2) :
    (surroundings station).Serves store after where
  load model ids handed engine hafter := by
    obtain ⟨hrows, hfailures⟩ := hstore handed engine hafter
    have hread := RowStore.readRows_congr (M := M) hrows model.storageName ids
    show Ends (storePart.act _) engine _ _
    rw [ends_act]
    refine (RowStore.load_ends engine.store model.storageName ids).mono ?_ ?_
    · rintro answer store' ⟨hstore', hanswer⟩
      rw [hfailures, hread] at hanswer
      rw [hstore']
      exact ⟨hloads handed engine _ hafter, hanswer⟩
    · rintro fault store' ⟨hstore', hfault⟩
      rw [hfailures, hread] at hfault
      rw [hstore']
      exact ⟨hloads handed engine _ hafter, hfault⟩
  prepare kind model record handed engine hafter := by
    refine ⟨hafter, ?_⟩
    show engine.store.prepare = _
    simp only [RowStore.prepare, (hstore handed engine hafter).2]
  dispatch record kind handed engine hafter := by
    show Ends (liftM (dispatch station record kind)) engine _ _
    rw [ends_liftM_state]
    exact hexports handed engine _ hafter
  forward record handed engine hafter := by
    show Ends (liftM (deliver station.target record)) engine _ _
    rw [ends_liftM_state]
    exact hforward handed engine record hafter

/-- What a station leaves of an engine while it prepares a round, its own persister aside. -/
def Beside (index : Nat) (before engine : Engine M) : Prop :=
  engine.store = { before.store with loads := engine.store.loads } ∧ engine.clock = before.clock ∧
    engine.stations[index]? = before.stations[index]?

omit [Record M] in
theorem Beside.refl (index : Nat) (engine : Engine M) : Beside index engine engine :=
  ⟨rfl, rfl, rfl⟩

theorem surroundings_serve_beside {index : Nat} {station : Station M}
    (htarget : station.target.Avoids index) (before : Engine M) :
    (surroundings station).Serves before.store fun _ => Beside index before := by
  apply surroundings_serve
  · intro _ engine h
    rw [h.1]
    exact ⟨rfl, rfl⟩
  · intro _ engine loads h
    refine ⟨?_, h.2.1, h.2.2⟩
    show { engine.store with loads } = _
    rw [h.1]
  · intro _ engine exports h
    exact h
  · intro _ engine record h
    have hapart := deliver_preserves htarget record engine (Apart.refl index engine)
    refine ⟨?_, hapart.2.1.trans h.2.1, hapart.2.2.trans h.2.2⟩
    rw [hapart.1]
    exact h.1

/-! ## Preparing -/

theorem ends_build {index : Nat} {engine : Engine M} {station : Station M}
    (hstation : engine.stations[index]? = some station) {done : List (Prepared M) → Engine M → Prop}
    {broken : Fault → Engine M → Prop}
    (h : Ends (Persister.build (surroundings station) engine.clock.nowMillis)
      (station.persister, engine)
      (fun writes last => done (writes.map (·.map (index, ·)))
        (modifyPersister index (fun _ => last.1) last.2))
      (fun fault last => broken fault (modifyPersister index (fun _ => last.1) last.2))) :
    Ends (build index) engine done broken := by
  unfold build
  rw [ends_bind, ends_get]
  simp only [hstation]
  unfold Ends at h
  split at h
  · next writes last hrun =>
    simp only [hrun, ends_bind, ends_set, ends_liftM_ok, ends_pure]
    exact h
  · next fault last hrun =>
    simp only [hrun, ends_bind, ends_set, ends_liftM_error]
    exact h

/-! ## The outcomes -/

/-- Tells a station of the outcome of one of its writes. -/
def tell (engine : Engine M) (told : Callback M × Verdict) : Engine M :=
  modifyPersister told.1.1 (·.settle told.1.2 told.2) engine

theorem forM_settle_run (told : List (Callback M × Verdict)) (engine : Engine M) :
    (told.forM (fun outcome => settle (some outcome))).run engine = ((), told.foldl tell engine) := by
  induction told generalizing engine with
  | nil => rfl
  | cons first rest ih => exact ih (tell engine first)

theorem flush_run (writes : List (Prepared M)) (engine : Engine M) :
    (flush writes).run engine = ((engine.store.flush writes).1,
      (engine.store.flush writes).2.1.foldl tell
        { engine with store := (engine.store.flush writes).2.2 }) := by
  have htold := forM_settle_run (engine.store.flush writes).2.1
    { engine with store := (engine.store.flush writes).2.2 }
  exact congrArg (fun last => ((engine.store.flush writes).1, last.2)) htold

/-- What one station is told. -/
def toldTo (index : Nat) (told : List (Callback M × Verdict)) :
    List (SessionCallback M × Verdict) :=
  told.filterMap fun outcome =>
    if outcome.1.1 = index then some (outcome.1.2, outcome.2) else none

/-- The station with what it has learnt. -/
def learn (station : Station M) (outcomes : List (SessionCallback M × Verdict)) : Station M :=
  { station with persister := { station.persister with
      sessions := station.persister.sessions.settleAll outcomes } }

theorem tellAll_eq (told : List (Callback M × Verdict)) (engine : Engine M) :
    ∃ stations, told.foldl tell engine = { engine with stations } ∧ ∀ index : Nat,
      stations[index]? = (engine.stations[index]?).map (learn · (toldTo index told)) := by
  induction told generalizing engine with
  | nil =>
    refine ⟨engine.stations, rfl, fun index => ?_⟩
    cases engine.stations[index]? <;> rfl
  | cons first rest ih =>
    obtain ⟨stations, heq, hstations⟩ := ih (tell engine first)
    refine ⟨stations, heq, fun index => ?_⟩
    rw [hstations]
    show ((engine.stations.modify first.1.1 _)[index]?).map _ = _
    rw [List.getElem?_modify]
    by_cases hindex : first.1.1 = index
    · have htold : toldTo index (first :: rest) = (first.1.2, first.2) :: toldTo index rest := by
        simp [toldTo, hindex]
      rw [htold]
      cases engine.stations[index]? with
      | none => rfl
      | some station => simp only [if_pos hindex]; rfl
    · have htold : toldTo index (first :: rest) = toldTo index rest := by
        simp [toldTo, hindex]
      rw [htold]
      cases engine.stations[index]? with
      | none => rfl
      | some station => simp only [if_neg hindex]; rfl

/-- What is told of writes that all come to the same end. -/
def tellings (writes : List (Prepared M)) (verdict : Verdict) : List (Callback M × Verdict) :=
  writes.flatMap fun write => (write.conclude verdict).toList

omit [Record M] in
theorem toldTo_append (index : Nat) (told more : List (Callback M × Verdict)) :
    toldTo index (told ++ more) = toldTo index told ++ toldTo index more := List.filterMap_append

omit [Record M] in
theorem toldTo_tellings (index other : Nat) (writes : List (Write M)) (verdict : Verdict) :
    toldTo other (tellings (writes.map (·.map (index, ·))) verdict) =
      if index = other then outcomes writes verdict else [] := by
  induction writes with
  | nil => simp [tellings, toldTo, outcomes]
  | cons first rest ih =>
    have hsplit : tellings ((first :: rest).map (·.map (index, ·))) verdict =
        ((first.map (index, ·)).conclude verdict).toList ++
          tellings (rest.map (·.map (index, ·))) verdict := rfl
    rw [hsplit, toldTo_append, ih]
    cases hcallback : first.callback <;> by_cases hindex : index = other <;>
      simp [toldTo, outcomes, Request.conclude, Request.map, hcallback, hindex]

theorem flush_failing_run {engine : Engine M} (hfails : engine.store.failures.writes = true)
    (requests : List (Prepared M)) : ∃ stations,
      (flush requests).run engine =
        (.error (.unavailable "injected write failure"), { engine with stations }) ∧
      ∀ index : Nat, stations[index]? =
        (engine.stations[index]?).map (learn · (toldTo index (tellings requests .failed))) := by
  rw [flush_run, RowStore.flush_of_failing hfails]
  obtain ⟨stations, heq, hstations⟩ := tellAll_eq (tellings requests .failed) engine
  exact ⟨stations, congrArg _ heq, hstations⟩

theorem flush_fitting_run {engine : Engine M} (hworks : engine.store.failures.writes = false)
    {requests : List (Prepared M)} (hfit : engine.store.Fit requests) : ∃ stations,
      (flush requests).run engine =
        (.ok (), { engine with store := (engine.store.apply requests).2, stations }) ∧
      ∀ index : Nat, stations[index]? =
        (engine.stations[index]?).map (learn · (toldTo index (tellings requests .executed))) := by
  rw [flush_run, RowStore.flush_of_fit hworks hfit]
  obtain ⟨stations, heq, hstations⟩ := tellAll_eq (tellings requests .executed)
    { engine with store := (engine.store.apply requests).2 }
  exact ⟨stations, congrArg _ heq, hstations⟩

/-! ## A whole round -/

/-- What the clock shows once it was set. -/
def reading (millis : Int) : Int := (Clock.ofMillis millis).nowMillis

theorem reading_mono {now later : Int} (h : now ≤ later) : reading now ≤ reading later := by
  have hgreatest : 0 ≤ Timestamp.greatest := by decide
  simp only [reading, Clock.ofMillis, Clock.nowMillis]
  split_ifs <;> omega

/-- A round of one station that is built at one time and ended at another. -/
def timedRound (index : Nat) (station : Station M) (now later : Int) :
    Action (Engine M) (Except StorageError Nat) := do
  liftM (setClock (M := M) now)
  Rounds.runAlone flush { roundWorker index station with
    finish := do
      setClock later
      endRound index }

theorem flushAny_of_ne_nil {requests : List (Prepared M)} (h : requests ≠ []) :
    Rounds.flushAny flush requests = flush requests := by
  rw [Rounds.flushAny, if_neg (mt List.isEmpty_iff.mp h)]

theorem wrote_of_preparing [KeepsIdentity M] {store before : RowStore} {model : Model} {now : Int}
    {done : List M} {sessions : Sessions M} {writes : List (Write M)}
    (hpreparing : Preparing store model now done sessions writes)
    (hbefore : before = { store with loads := before.loads }) {κ : Type}
    (f : SessionCallback M → κ) : before.Fit (writes.map (·.map f)) ∧
      Wrote model.storageName writes store (before.apply (writes.map (·.map f))).2 ∧
      (before.apply (writes.map (·.map f))).2.executed = store.executed ++
        writes.map fun write => ⟨write.kind, write.model.storageName, write.id, write.fields⟩ := by
  have hrow : ∀ key, before.row? key = store.row? key := by
    intro key
    rw [hbefore]
    rfl
  have hfailures : before.failures = store.failures := by rw [hbefore]
  have hexecuted : before.executed = store.executed := by rw [hbefore]
  have hfit : before.Fit (writes.map (·.map f)) := (hpreparing.fit f).of_row?_eq hrow
  refine ⟨hfit, .of_apply (fun _ => hpreparing.key_eq) hfit hrow hfailures ?_ ?_, ?_⟩
  · intro write hwrite
    exact ⟨_, List.mem_map_of_mem hwrite, rfl, rfl⟩
  · intro request hrequest id hkey
    obtain ⟨write, hwrite, rfl⟩ := List.mem_map.mp hrequest
    have hid : write.id = id := (RowKey.mk.inj hkey).2
    exact hid ▸ List.mem_map_of_mem hwrite
  · rw [RowStore.executed_apply hfit, hexecuted, List.map_map]
    rfl

theorem flushAny_run [KeepsIdentity M] {index : Nat} {engine : Engine M} {station : Station M}
    (hstation : engine.stations[index]? = some station) {store : RowStore}
    (hstore : engine.store = { store with loads := engine.store.loads }) {model : Model} {now : Int}
    {done : List M} {sessions : Sessions M} {writes : List (Write M)}
    (hpreparing : Preparing store model now done sessions writes) :
    ∃ answer last,
      (Rounds.flushAny flush (writes.map (·.map (index, ·)))).run engine = (answer, last) ∧
      ((answer.isOk = true ∧ Wrote model.storageName writes store last.store ∧
        last.store.executed = store.executed ++ writes.map (fun write =>
          ⟨write.kind, write.model.storageName, write.id, write.fields⟩) ∧
        last.stations[index]? = some (learn station (outcomes writes .executed))) ∨
      (store.failures.writes = true ∧ last.store = engine.store ∧
        last.stations[index]? = some (learn station (outcomes writes .failed)))) := by
  have hfailures : engine.store.failures = store.failures := by rw [hstore]
  have hlearn : ∀ verdict, (engine.stations[index]?).map
      (learn · (toldTo index (tellings (writes.map (·.map (index, ·))) verdict))) =
        some (learn station (outcomes writes verdict)) := by
    intro verdict
    rw [hstation, toldTo_tellings, if_pos rfl]
    rfl
  by_cases hempty : writes = []
  · subst hempty
    have hexecuted : engine.store.executed = store.executed := by rw [hstore]
    refine ⟨.ok (), engine, rfl, Or.inl ⟨rfl, .nothing (by rw [hstore]) hfailures, ?_, hstation⟩⟩
    rw [hexecuted, List.map_nil, List.append_nil]
  rw [flushAny_of_ne_nil (mt List.map_eq_nil_iff.mp hempty)]
  cases hfailing : engine.store.failures.writes with
  | true =>
    obtain ⟨stations, hrun, hstations⟩ :=
      flush_failing_run hfailing (writes.map (·.map (index, ·)))
    refine ⟨_, _, hrun, Or.inr ⟨?_, rfl, (hstations index).trans (hlearn .failed)⟩⟩
    rw [← hfailures, hfailing]
  | false =>
    obtain ⟨hfit, hwrote, hexecuted⟩ := wrote_of_preparing hpreparing hstore (index, ·)
    obtain ⟨stations, hrun, hstations⟩ := flush_fitting_run hfailing hfit
    exact ⟨_, _, hrun,
      Or.inl ⟨rfl, hwrote, hexecuted, (hstations index).trans (hlearn .executed)⟩⟩

omit [Record M] in
theorem getElem?_modifyPersister {index : Nat} {engine : Engine M} {station : Station M}
    (hstation : engine.stations[index]? = some station) (change : Persister M → Persister M) :
    (modifyPersister index change engine).stations[index]? =
      some { station with persister := change station.persister } := by
  show (engine.stations.modify index _)[index]? = _
  rw [List.getElem?_modify_eq, hstation]
  rfl

omit [Record M] in
theorem finish_run {index : Nat} {engine : Engine M} {station : Station M}
    (hstation : engine.stations[index]? = some station) (later : Int) :
    let last := ((do setClock later; endRound index : StateM (Engine M) Unit).run engine).2
    last.store = engine.store ∧ last.stations[index]? = some { station with
      persister := station.persister.endRound (reading later) } := by
  refine ⟨rfl, ?_⟩
  have hstation' : ({ engine with clock := engine.clock.setMillis later } : Engine M).stations[index]? =
      some station := hstation
  exact getElem?_modifyPersister hstation' _

/-- A round of one station goes through as its persister's does, or breaks off with it. -/
theorem timedRound_ends [KeepsIdentity M] {index : Nat} {engine : Engine M} {station : Station M}
    (hstation : engine.stations[index]? = some station) (htarget : station.target.Avoids index)
    (hrest : station.persister.AtRest engine.store) (now later : Int) :
    Ends (timedRound index station now later) engine
      (fun answer last => ∃ persister writes,
        last.stations[index]? = some { station with persister } ∧
        station.persister.Round engine.store (reading now) (reading later) writes persister
          last.store ∧
        last.store.executed = engine.store.executed ++ writes.map (fun write =>
          ⟨write.kind, write.model.storageName, write.id, write.fields⟩) ∧
        (answer.isOk = false → engine.store.failures.writes = true))
      (fun _ last => station.persister.isDue = true ∧
        ¬ Smooth engine.store station.persister.model station.persister.settings.ttlDays
          (reading now) station.persister.toDrain ∧
        ∃ sessions, sessions.Synced engine.store station.persister.model.storageName ∧
          last.stations[index]? = some { station with
            persister := station.persister.drainedTo sessions } ∧
          last.store = { engine.store with loads := last.store.loads }) := by
  unfold timedRound Rounds.runAlone
  rw [ends_bind, ends_liftM_state, ends_bind]
  let start : Engine M := { engine with clock := engine.clock.setMillis now }
  have hstart : start.stations[index]? = some station := hstation
  show Ends (build index) start _ _
  apply ends_build hstart
  have hserves := surroundings_serve_beside htarget start
  refine (Persister.build_ends hserves hrest (Beside.refl index start)).mono ?_ ?_
  · rintro writes ⟨persister, engine'⟩ (⟨hdue, rfl, heq⟩ | ⟨hdue, sessions, hbuilt, heq⟩)
    · obtain ⟨rfl, rfl⟩ := Prod.mk.inj heq
      have hmodified := getElem?_modifyPersister hstart fun _ =>
        { station.persister with rounds := station.persister.rounds + 1 }
      obtain ⟨hstore, hlast⟩ := finish_run hmodified later
      simp only [List.map_nil, ends_bind, ends_liftM_state, ends_pure]
      refine ⟨_, [], hlast, .satOut hdue (.nothing ?_ ?_), ?_, ?_⟩
      · exact congrArg RowStore.rows hstore
      · exact congrArg RowStore.failures hstore
      · exact (congrArg RowStore.executed hstore).trans (List.append_nil _).symm
      · exact fun hfailed => by cases hfailed
    · have hpersister : persister = station.persister.drainedTo sessions := heq.1
      subst hpersister
      have hbeside : Beside index start engine' := heq.2
      have hbuiltAt := getElem?_modifyPersister (hbeside.2.2.trans hstart) fun _ =>
        station.persister.drainedTo sessions
      obtain ⟨answer, flushed, hrun, h⟩ :=
        flushAny_run hbuiltAt hbeside.1 hbuilt.preparing
      simp only [ends_bind, ends_liftM_state, ends_pure, hrun]
      rcases h with ⟨hok, hwrote, hexecuted, hlearnt⟩ | ⟨hfailing, hsame, hlearnt⟩
      · obtain ⟨hstore, hlast⟩ := finish_run hlearnt later
        refine ⟨_, writes, hlast, ?_, ?_, ?_⟩
        · rw [hstore]
          exact .executed hdue hbuilt hwrote
        · rw [hstore]
          exact hexecuted
        · intro hfailed
          cases answer with
          | ok _ => cases hfailed
          | error _ => cases hok
      · obtain ⟨hstore, hlast⟩ := finish_run hlearnt later
        have hstore' : flushed.store = { engine.store with loads := flushed.store.loads } := by
          rw [hsame]
          exact hbeside.1
        refine ⟨_, [], hlast, ?_, ?_, fun _ => hfailing⟩
        · rw [hstore]
          refine .failed hdue hbuilt hfailing (.nothing ?_ ?_)
          · rw [hstore']
          · rw [hstore']
        · rw [hstore, hstore']
          exact (List.append_nil _).symm
  · rintro fault ⟨persister, engine'⟩ ⟨hdue, hrough, sessions, _, hsynced, heq, hbeside⟩
    refine ⟨hdue, hrough, sessions, hsynced, ?_, ?_⟩
    · have hstation' : engine'.stations[index]? = some station := hbeside.2.2.trans hstart
      rw [getElem?_modifyPersister hstation', ← heq]
    · exact hbeside.1

/-! ## Runs of one station -/

theorem acceptAt_direct {index : Nat} {engine : Engine M} {station : Station M}
    (hstation : engine.stations[index]? = some station) (hqueue : station.queue = none)
    (record : M) : (acceptAt index record).run engine =
      (.ok (), modifyPersister index (·.countAccepted) (modifyPersister index (·.write record) engine)) := by
  have hdirect : station.queue.isSome = false := by
    rw [hqueue]
    rfl
  rw [acceptAt, run_get_bind, hstation]
  dsimp only
  rw [hdirect]
  rfl

end Engine

end Rollup
