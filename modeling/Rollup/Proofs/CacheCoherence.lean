import Rollup.Proofs.StationRuns

/-!
# Coherence of cache and rows

The session cache of a station says what its rows hold. A round upsets that in one way only: it
executes an update of an identity whose entry has a later stamp than the round itself, so that the
merged record is stored but not cached. While the clock is not set back that does not happen.
-/

namespace Rollup

open Rollup.Action

variable {M : Type} [Record M]

namespace Persister

variable {persister persister' : Persister M} {store store' : RowStore} {now later : Int}
  {writes : List (Write M)}

/-- The row of an identity changed to another record while its entry has a later stamp than the
round. -/
structure Overtaken (persister' : Persister M) (store store' : RowStore) (now : Int)
    (id : MetricId) : Prop where
  entry : ∃ held, persister'.sessions.session? id = some held ∧ now < held.lastUpdate
  changed : ∃ old new : M, store.Decodes persister'.model.storageName id old ∧
    store'.Decodes persister'.model.storageName id new ∧ old ≠ new

theorem Built.updated [KeepsIdentity M] {sessions : Sessions M}
    (h : persister.Built store now sessions writes) {write : Write M} (hwrite : write ∈ writes)
    (hkind : write.kind = .update) : ∃ cached whole held,
      store.Decodes persister.model.storageName write.id cached ∧
      write = .of .update persister.model whole now ∧
      (sessions.settleAll (outcomes writes .executed)).session? write.id = some held ∧
      (held = ⟨whole, now⟩ ∨ held.record = cached ∧ now < held.lastUpdate) := by
  obtain ⟨drained, _, hprepares⟩ := h.preparing.prepared write hwrite
  have hid := hprepares.id_eq
  cases hprepares with
  | insert => cases hkind
  | @update cached whole held decodes _ _ entry touched =>
    refine ⟨cached, whole, held, hid ▸ decodes, rfl, ?_, touched⟩
    have hsettled := h.preparing.session?_of_mem .executed hwrite
    exact hsettled.trans ((congrArg _ hid).trans entry)

theorem Built.inserted [KeepsIdentity M] {sessions : Sessions M}
    (h : persister.Built store now sessions writes) {write : Write M} (hwrite : write ∈ writes)
    (hkind : write.kind = .insert) : ∃ whole,
      write = .of .insert persister.model whole now ∧
      (sessions.settleAll (outcomes writes .executed)).session? write.id = some ⟨whole, now⟩ := by
  obtain ⟨drained, _, hprepares⟩ := h.preparing.prepared write hwrite
  have hid := hprepares.id_eq
  cases hprepares with
  | @insert whole _ _ uncached =>
    refine ⟨whole, rfl, ?_⟩
    have hwhole : sessions.session? (Record.id whole) = none := (congrArg _ hid).trans uncached
    have hsettled := h.preparing.session?_of_mem .executed hwrite
    rw [hwhole] at hsettled
    exact hsettled.trans (Session.settle_none_of_insert whole now)
  | update => cases hkind

theorem Round.tied (h : persister.Round store now later writes persister' store') :
    Tied now writes := by
  cases h with
  | satOut => exact fun _ hwrite => absurd hwrite List.not_mem_nil
  | executed _ built => exact built.preparing.tied
  | failed => exact fun _ hwrite => absurd hwrite List.not_mem_nil

theorem Round.synced [KeepsIdentity M]
    (h : persister.Round store now later writes persister' store') (hrest : persister.AtRest store)
    (hread : ReadBack writes)
    (hkept : ∀ write ∈ writes, write.kind = .update →
      ¬ Overtaken persister' store store' now write.id) :
    persister'.sessions.Synced store' persister'.model.storageName := by
  intro id held hheld
  cases h with
  | satOut _ wrote =>
    obtain ⟨hheld, _⟩ := Sessions.session?_evict.mp hheld
    exact (hrest.synced id held hheld).of_row?_eq (wrote.others id (by simp))
  | failed _ built _ wrote =>
    obtain ⟨hheld, _⟩ := Sessions.session?_evict.mp hheld
    exact (built.preparing.synced_of_failed id held hheld).of_row?_eq (wrote.others id (by simp))
  | @executed sessions _ _ _ built wrote =>
    have hentry := (Sessions.session?_evict.mp hheld).1
    by_cases hid : id ∈ writes.map (·.id)
    · obtain ⟨write, hwrite, rfl⟩ := List.mem_map.mp hid
      have hdecodes : ∀ callback ∈ write.callback,
          store'.Decodes persister.model.storageName write.id callback.record :=
        fun callback hcallback => ⟨_, wrote.written write hwrite, hread write hwrite _ hcallback⟩
      cases hkind : write.kind with
      | insert =>
        obtain ⟨whole, rfl, hwhole⟩ := built.inserted hwrite hkind
        cases hentry.symm.trans hwhole
        exact hdecodes _ rfl
      | update =>
        obtain ⟨cached, whole, entry, hcached, rfl, hwhole, htouched⟩ := built.updated hwrite hkind
        have hsame : entry = held := Option.some.inj (hwhole.symm.trans hentry)
        subst hsame
        rcases htouched with rfl | ⟨rfl, hlater⟩
        · exact hdecodes _ rfl
        -- The merged record was not cached. That does no harm if it is the cached one.
        · by_cases heq : entry.record = whole
          · rw [heq]
            exact hdecodes _ rfl
          · refine absurd ⟨⟨entry, hheld, hlater⟩, entry.record, whole, hcached, ?_, heq⟩
              (hkept _ hwrite rfl)
            exact hdecodes _ rfl
    · have hentry : sessions.session? id = some held :=
        (built.preparing.session?_of_not_mem .executed hid).symm.trans hentry
      exact (built.preparing.synced id hid held hentry).of_row?_eq (wrote.others id hid)

theorem Round.not_synced [KeepsIdentity M]
    (h : persister.Round store now later writes persister' store') {write : Write M}
    (hwrite : write ∈ writes) (hkind : write.kind = .update)
    (hover : Overtaken persister' store store' now write.id) :
    ¬ persister'.sessions.Synced store' persister'.model.storageName := by
  intro hsynced
  obtain ⟨⟨held, hheld, hlater⟩, old, new, hold, hnew, hne⟩ := hover
  have hcached := (hsynced _ _ hheld).unique hnew
  cases h with
  | satOut => simp at hwrite
  | failed => simp at hwrite
  | @executed sessions _ _ _ built wrote =>
    obtain ⟨hentry, _⟩ := Sessions.session?_evict.mp hheld
    obtain ⟨cached, whole, entry, hdecodes, _, hwhole, htouched⟩ := built.updated hwrite hkind
    cases hentry.symm.trans hwhole
    rcases htouched with rfl | ⟨rfl, _⟩
    · exact absurd hlater (Int.lt_irrefl now)
    · exact hne ((hold.unique hdecodes).trans hcached)

theorem Round.since (h : persister.Round store now later writes persister' store') :
    Sessions.Since now persister.sessions persister'.sessions := by
  have hbuilt : ∀ {sessions : Sessions M} {prepared : List (Write M)} (verdict : Verdict),
      persister.Built store now sessions prepared →
      Sessions.Since now persister.sessions (sessions.settleAll (outcomes prepared verdict)) :=
    fun verdict built => built.since.trans (Sessions.since_outcomes built.preparing.tied verdict _)
  intro id held hheld
  cases h with
  | satOut => exact Or.inr (Sessions.session?_evict.mp hheld).1
  | failed _ built => exact hbuilt .failed built id held (Sessions.session?_evict.mp hheld).1
  | executed _ built => exact hbuilt .executed built id held (Sessions.session?_evict.mp hheld).1

theorem Round.not_overtaken (h : persister.Round store now later writes persister' store')
    (hstamps : ∀ id held, persister.sessions.session? id = some held → held.lastUpdate ≤ now)
    (id : MetricId) : ¬ Overtaken persister' store store' now id := by
  rintro ⟨⟨held, hheld, hlater⟩, _⟩
  rcases h.since id held hheld with hle | hbefore
  · omega
  · have := hstamps id held hbefore
    omega

end Persister

namespace Engine

/-- Every cached record of a station is the record of its row. -/
def Agrees (index : Nat) (engine : Engine M) : Prop :=
  ∀ station, engine.stations[index]? = some station →
    station.persister.sessions.Synced engine.store station.persister.model.storageName

/-- Between two states the store has executed an update that changed a row, and the entry of its
identity has a later stamp than this reading of the clock. -/
def Overtakes (index : Nat) (now : Int) (before last : Engine M) : Prop :=
  ∃ station, last.stations[index]? = some station ∧
    ∃ write ∈ last.store.executed.drop before.store.executed.length, write.kind = .update ∧
      station.persister.Overtaken before.store last.store now write.id

end Engine

namespace StationStep

variable {persister persister' : Persister M} {store store' : RowStore} {step : StationStep M}
  {writes : List (Write M)}

theorem Does.atRest [KeepsIdentity M] [RoundTrips M]
    (h : step.Does persister store writes persister' store') (hrest : persister.AtRest store)
    (hkept : ∀ now later, step = .round now later → ∀ write ∈ writes, write.kind = .update →
      ¬ persister'.Overtaken store store' (Engine.reading now) write.id) :
    persister'.AtRest store' := by
  refine ⟨(h.frame hrest.toSound).1, ?_⟩
  cases h with
  | accept => exact hrest.synced
  | fail => exact hrest.synced
  | round h =>
    exact h.synced hrest (.of_roundTrips h.tied) (hkept _ _ rfl)
  | brokeOff _ _ synced same =>
    intro id held hheld
    exact (synced id held hheld).of_row?_eq (by rw [same]; rfl)

end StationStep

namespace Engine

variable {index : Nat}

theorem overtakes_iff {before last : Engine M} {station : Station M}
    (hlast : last.stations[index]? = some station) {writes : List (Write M)}
    (hexecuted : last.store.executed = before.store.executed ++ writes.map (fun write =>
      ⟨write.kind, write.model.storageName, write.id, write.fields⟩)) {now : Int} :
    Overtakes index now before last ↔ ∃ write ∈ writes, write.kind = .update ∧
      station.persister.Overtaken before.store last.store now write.id := by
  unfold Overtakes
  rw [hexecuted, List.drop_left, hlast]
  constructor
  · rintro ⟨_, ⟨rfl⟩, executed, hmem, hkind, hover⟩
    obtain ⟨write, hwrite, rfl⟩ := List.mem_map.mp hmem
    exact ⟨write, hwrite, hkind, hover⟩
  · rintro ⟨write, hwrite, hkind, hover⟩
    exact ⟨station, rfl, _, List.mem_map_of_mem hwrite, hkind, hover⟩

/-- One step: either it is a round that overtakes an identity, and cache and rows no longer agree, or
the persister is at rest again. -/
theorem overtakes_or_atRest [KeepsIdentity M] [RoundTrips M] {engine : Engine M}
    {station : Station M} (hstation : engine.stations[index]? = some station)
    (hdirect : station.Direct index) (hrest : station.persister.AtRest engine.store)
    (step : StationStep M) :
    ((∃ now later, step = .round now later ∧
        Overtakes index (reading now) engine (step.run index engine)) ∧
      ¬ Agrees index (step.run index engine)) ∨
    ((∀ now later, step = .round now later →
        ¬ Overtakes index (reading now) engine (step.run index engine)) ∧
      ∃ persister, (step.run index engine).stations[index]? = some { station with persister } ∧
        persister.AtRest (step.run index engine).store) := by
  obtain ⟨writes, persister, hlast, hdoes, hexecuted⟩ := step_does hstation hdirect hrest step
  by_cases hover : ∃ now later, step = .round now later ∧
      Overtakes index (reading now) engine (step.run index engine)
  · refine Or.inl ⟨hover, fun hagrees => ?_⟩
    obtain ⟨now, later, rfl, hover⟩ := hover
    obtain ⟨write, hwrite, hkind, hover⟩ := (overtakes_iff hlast hexecuted).mp hover
    cases hdoes with
    | round h => exact h.not_synced hwrite hkind hover (hagrees _ hlast)
    | brokeOff => simp at hwrite
  · refine Or.inr ⟨?_, persister, hlast, hdoes.atRest hrest ?_⟩
    · intro now later hround hrun
      exact hover ⟨now, later, hround, hrun⟩
    · intro now later hround write hwrite hkind hwritten
      exact hover ⟨now, later, hround, (overtakes_iff hlast hexecuted).mpr
        ⟨write, hwrite, hkind, hwritten⟩⟩

theorem agrees_of_atRest {engine : Engine M} {station : Station M}
    (hstation : engine.stations[index]? = some station)
    (hrest : station.persister.AtRest engine.store) : Agrees index engine := by
  intro other hother
  cases hstation.symm.trans hother
  exact hrest.synced

theorem forall_prefix_cons {α : Type} {first : α} {rest : List α} {holds : List α → Prop} :
    (∀ done, done <+: first :: rest → holds done) ↔
      holds [] ∧ ∀ done, done <+: rest → holds (first :: done) := by
  constructor
  · intro h
    exact ⟨h [] List.nil_prefix, fun done hdone => h _ (List.cons_prefix_cons.mpr ⟨rfl, hdone⟩)⟩
  · rintro ⟨hnil, hcons⟩ (_ | ⟨step, done⟩) hdone
    · exact hnil
    · obtain ⟨rfl, hlater⟩ := List.cons_prefix_cons.mp hdone
      exact hcons done hlater

theorem agrees_iff_of_atRest [KeepsIdentity M] [RoundTrips M] {engine : Engine M}
    {station : Station M} (hstation : engine.stations[index]? = some station)
    (hdirect : station.Direct index) (hrest : station.persister.AtRest engine.store)
    (steps : List (StationStep M)) :
    (∀ done, done <+: steps → Agrees index (after index done engine)) ↔
      ∀ done now later, done ++ [.round now later] <+: steps →
        ¬ Overtakes index (reading now) (after index done engine)
          (after index (done ++ [.round now later]) engine) := by
  have hagrees := agrees_of_atRest hstation hrest
  induction steps generalizing engine station with
  | nil =>
    constructor
    · intro _ done now later hdone
      simp at hdone
    · intro _ done hdone
      rw [List.prefix_nil.mp hdone]
      exact hagrees
  | cons step rest ih =>
    rw [forall_prefix_cons]
    rcases overtakes_or_atRest hstation hdirect hrest step with
      ⟨⟨now, later, rfl, hover⟩, hdisagrees⟩ | ⟨hkept, persister, hlast, hrest'⟩
    · constructor
      · intro h
        exact absurd (h.2 [] List.nil_prefix) hdisagrees
      · intro h
        refine absurd hover (h [] now later ?_)
        simp
    · have hrec := ih hlast ⟨hdirect.queue, hdirect.target⟩ hrest' (agrees_of_atRest hlast hrest')
      constructor
      · intro h done now later hdone
        cases done with
        | nil =>
          obtain ⟨rfl, _⟩ := List.cons_prefix_cons.mp hdone
          exact hkept now later rfl
        | cons first done =>
          obtain ⟨rfl, hlater⟩ := List.cons_prefix_cons.mp hdone
          exact hrec.mp h.2 done now later hlater
      · intro h
        refine ⟨hagrees, hrec.mpr fun done now later hdone => ?_⟩
        exact h (step :: done) now later (List.cons_prefix_cons.mpr ⟨rfl, hdone⟩)

/-- The session cache of a station agrees with the rows all the time exactly if no round overtakes an
identity with an update: no update changes a row while the entry of its identity has a later stamp
than the round. -/
theorem cache_agrees_iff [KeepsIdentity M] [RoundTrips M] {engine : Engine M} {station : Station M}
    (hstation : engine.stations[index]? = some station) (hfresh : station.Fresh index)
    (steps : List (StationStep M)) :
    (∀ done, done <+: steps → Agrees index (after index done engine)) ↔
      ∀ done now later, done ++ [.round now later] <+: steps →
        ¬ Overtakes index (reading now) (after index done engine)
          (after index (done ++ [.round now later]) engine) :=
  agrees_iff_of_atRest hstation hfresh.toDirect (hfresh.atRest engine.store) steps

omit [Record M] in
theorem decodes_sum {store : RowStore} {table : String} {id : MetricId} {value : Int64}
    (h : (store.row? ⟨table, id⟩).bind (·.get? "value") = some (.long value)) :
    store.Decodes table id (SumRecord.new id value) := by
  obtain ⟨fields, hrow, hvalue⟩ := Option.bind_eq_some_iff.mp h
  refine ⟨fields, hrow, ?_⟩
  simp only [Record.ofFields, Fields.long_eq_ok_iff.mpr hvalue]
  rfl

omit [Record M] in
theorem overtakes_sum {now : Int} {before last : Engine SumRecord} (table : String) (id : MetricId)
    (stamp : Int) (old new : Int64)
    (htable : last.stations[index]?.map (·.persister.model.storageName) = some table)
    (hentry : (last.stations[index]?.bind (·.persister.sessions.session? id)).map (·.lastUpdate) =
      some stamp)
    (hwrite : (RequestKind.update, id) ∈ (last.store.executed.drop before.store.executed.length).map
      fun write => (write.kind, write.id))
    (hold : (before.store.row? ⟨table, id⟩).bind (·.get? "value") = some (.long old))
    (hnew : (last.store.row? ⟨table, id⟩).bind (·.get? "value") = some (.long new))
    (hstamp : now < stamp) (hne : old ≠ new) : Overtakes index now before last := by
  obtain ⟨station, hstation, rfl⟩ := Option.map_eq_some_iff.mp htable
  rw [hstation] at hentry
  obtain ⟨held, hheld, rfl⟩ := Option.map_eq_some_iff.mp hentry
  obtain ⟨write, hmem, heq⟩ := List.mem_map.mp hwrite
  obtain ⟨hkind, rfl⟩ := Prod.mk.inj heq
  refine ⟨station, hstation, write, hmem, hkind, ⟨held, hheld, hstamp⟩, _, _, decodes_sum hold,
    decodes_sum hnew, fun hsame => hne ?_⟩
  exact congrArg (·.value.value) hsame

/-- The clock is set back by a second between two rounds: the second one stores 5 and leaves 2 in the
cache. -/
theorem cache_disagrees_when_set_back :
    let id := MetricId.onFirstDay (.single "checkout")
    let engine : Engine SumRecord :=
      { clock := .ofMillis 0
        stations := [{ persister := { model := { name := "orders", level := .day } } }] }
    ¬ ∀ done, done <+: [StationStep.accept (.new id 2), .round 2000 2000, .accept (.new id 3),
      .round 1000 1000] → Agrees 0 (after 0 done engine) := by
  intro id engine hagrees
  let station : Station SumRecord := { persister := { model := { name := "orders", level := .day } } }
  have hfresh : station.Fresh 0 := ⟨⟨rfl, trivial⟩, ⟨_, _, rfl⟩, rfl⟩
  have hstation : engine.stations[0]? = some station := rfl
  have hkept := (cache_agrees_iff hstation hfresh _).mp hagrees
    [.accept (.new id 2), .round 2000 2000, .accept (.new id 3)] 1000 1000 (List.prefix_refl _)
  refine hkept (overtakes_sum "orders_day" id 2000 2 5 ?_ ?_ ?_ ?_ ?_ ?_ ?_)
  all_goals decide +kernel

end Engine

end Rollup
