import Rollup.Proofs.Forwarding

/-!
# The round of all stations

A round of all stations of an engine: what each has prepared is executed in one flush, and each learns
what became of its own writes.
-/

namespace Rollup

variable {M : Type}

/-! ## Workers in groups -/

namespace Rounds

theorem flatten_groups {α : Type} {threads : Nat} (hthreads : 0 < threads) (workers : List α) :
    (groups threads workers).flatten = workers := by
  unfold groups
  split
  · simp
  · next h =>
    apply flatten_chunks
    apply Nat.div_pos _ hthreads
    omega

theorem mapM_groups {m : Type → Type} [Monad m] [LawfulMonad m] {α β : Type} (call : α → m β)
    (groups : List (List α)) : List.flatten <$> groups.mapM (·.mapM call) =
      groups.flatten.mapM call := by
  induction groups with
  | nil => simp
  | cons first rest ih =>
    rw [List.mapM_cons, List.flatten_cons, List.mapM_append, ← ih]
    simp

theorem prepare_eq {σ ρ : Type} {threads : Nat} (hthreads : 0 < threads)
    (workers : List (RoundWorker σ ρ)) :
    prepare threads workers = List.flatten <$> workers.mapM buildOrNone := by
  have hgroups := mapM_groups buildOrNone (groups threads workers)
  rw [flatten_groups hthreads] at hgroups
  rw [← hgroups, prepare]
  simp

end Rounds

variable [Record M]

namespace Engine

/-! ## Preparing -/

/-- Nothing keeps a station from the writes of its next round, if there is one. -/
structure Unhindered (station : Station M) (store : RowStore) (now : Int) : Prop where
  rest : station.persister.AtRest store
  smooth : station.persister.isDue = true → Smooth store station.persister.model
    station.persister.settings.ttlDays now station.persister.toDrain

/-- What a station hands to another one while its round is prepared. -/
def handed (own : Station M) (index : Nat) : List M :=
  own.persister.handing.flatMap (own.target.copiesFor index)

/-- What one station has prepared. -/
structure PreparedOne (store : RowStore) (index : Nat) (station : Station M) (before last : Engine M)
    (writes : List (Write M)) : Prop where
  same : SameElsewhere before last
  queueless : last.Queueless
  length : last.stations.length = before.stations.length
  others : ∀ other, other ≠ index →
    last.stations[other]? = (before.stations[other]?).map (·.take (handed station other))
  prepared : ∃ persister,
    last.stations[index]? = some { station.take (handed station index) with persister } ∧
    station.persister.Prepared store before.clock.nowMillis writes persister

/-- What the workers of some stations have prepared. -/
structure PreparedAll (store : RowStore) (workers : List (Station M × Nat)) (before last : Engine M)
    (writes : Nat → List (Write M)) : Prop where
  same : SameElsewhere before last
  length : last.stations.length = before.stations.length
  others : ∀ index, index ∉ workers.map (·.2) → last.stations[index]? = before.stations[index]?
  prepared : ∀ index ∈ workers.map (·.2), ∀ station, before.stations[index]? = some station →
    ∃ persister, last.stations[index]? = some { station with persister } ∧
      station.persister.Prepared store before.clock.nowMillis (writes index) persister

def worker (item : Station M × Nat) : RoundWorker (Engine M) (Prepared M) :=
  roundWorker item.2 item.1

/-- The writes of some stations, each with the number of its station. -/
def numbered (workers : List (Station M × Nat)) (writes : Nat → List (Write M)) :
    List (List (Prepared M)) :=
  workers.map fun item => (writes item.2).map (·.map (item.2, ·))

omit [Record M] in
theorem Queueless.modifyPersister {engine : Engine M} (h : engine.Queueless) (index : Nat)
    (change : Persister M → Persister M) : (modifyPersister index change engine).Queueless := by
  intro station hstation
  obtain ⟨other, hother⟩ := List.mem_iff_getElem?.mp hstation
  have hmodified : (engine.stations.modify index fun station =>
      { station with persister := change station.persister })[other]? = some station := hother
  rw [List.getElem?_modify] at hmodified
  obtain ⟨before, hbefore, heq⟩ := Option.map_eq_some_iff.mp hmodified
  have hnone := h before (List.mem_of_getElem? hbefore)
  split at heq <;> rw [← heq] <;> exact hnone

omit [Record M] in
theorem getElem?_modifyPersister_ne {index other : Nat} (hne : index ≠ other) (engine : Engine M)
    (change : Persister M → Persister M) :
    (modifyPersister index change engine).stations[other]? = engine.stations[other]? :=
  List.getElem?_modify_ne _ _ hne

omit [Record M] in
theorem SameElsewhere.clock {before last : Engine M} (h : SameElsewhere before last) :
    last.clock = before.clock := by
  obtain ⟨_, _, _, _, rfl⟩ := h
  rfl

omit [Record M] in
theorem SameElsewhere.rows {before last : Engine M} (h : SameElsewhere before last) :
    last.store.rows = before.store.rows := by
  obtain ⟨_, _, _, _, rfl⟩ := h
  rfl

omit [Record M] in
theorem SameElsewhere.failures {before last : Engine M} (h : SameElsewhere before last) :
    last.store.failures = before.store.failures := by
  obtain ⟨_, _, _, _, rfl⟩ := h
  rfl

theorem handed_of_nowhere {station : Station M} (h : station.target = .nowhere) (index : Nat) :
    handed station index = [] := by
  rw [handed, h]
  exact List.flatMap_eq_nil_iff.mpr fun _ _ => rfl

theorem PreparedOne.others_of_nowhere {store : RowStore} {index : Nat} {station : Station M}
    {before last : Engine M} {writes : List (Write M)}
    (h : PreparedOne store index station before last writes) (htarget : station.target = .nowhere)
    {other : Nat} (hother : other ≠ index) : last.stations[other]? = before.stations[other]? := by
  rw [h.others other hother, handed_of_nowhere htarget]
  cases before.stations[other]? <;> rfl

theorem buildOrNone_run [KeepsIdentity M] {engine : Engine M} {index : Nat} {station : Station M}
    {store : RowStore} (hrows : engine.store.rows = store.rows)
    (hfailures : engine.store.failures = store.failures) (hqueue : engine.Queueless)
    (hstation : engine.stations[index]? = some station)
    (hfree : Unhindered station store engine.clock.nowMillis) (named : Station M) : ∃ writes last,
      (Rounds.buildOrNone (worker (named, index))).run engine =
        (writes.map (·.map (index, ·)), last) ∧
      PreparedOne store index station engine last writes := by
  obtain ⟨writes, persister, mid, hrun, htook, hprepared⟩ :=
    buildOrNone_took hrows hfailures hqueue hstation hfree.rest hfree.smooth named
  refine ⟨writes, _, hrun, htook.same.modifyPersister _ _,
    (htook.queueless hqueue).modifyPersister _ _, (List.length_modify _ _ _).trans htook.length,
    fun other hother => ?_, persister, ?_, hprepared⟩
  · exact (getElem?_modifyPersister_ne (Ne.symm hother) _ _).trans (htook.stations other)
  · have hmid : mid.stations[index]? = some (station.take (handed station index)) := by
      rw [htook.stations, hstation]
      rfl
    exact getElem?_modifyPersister hmid _

theorem mapM_buildOrNone_cons {workers : List (Station M × Nat)} {first : Station M × Nat}
    {engine next last : Engine M} {own : List (Prepared M)} {later : List (List (Prepared M))}
    (hfirst : (Rounds.buildOrNone (worker first)).run engine = (own, next))
    (hrest : ((workers.map worker).mapM Rounds.buildOrNone).run next = (later, last)) :
    (((first :: workers).map worker).mapM Rounds.buildOrNone).run engine = (own :: later, last) := by
  rw [List.map_cons, List.mapM_cons, StateT.run_bind, hfirst]
  show (StateT.run ((workers.map worker).mapM Rounds.buildOrNone >>= _) next) = _
  rw [StateT.run_bind, hrest]
  rfl

omit [Record M] in
theorem numbered_cons_update {workers : List (Station M × Nat)} {index : Nat}
    (hindex : index ∉ workers.map (·.2)) (station : Station M) (writes : Nat → List (Write M))
    (own : List (Write M)) :
    numbered ((station, index) :: workers) (Function.update writes index own) =
      own.map (·.map (index, ·)) :: numbered workers writes := by
  refine congrArg₂ List.cons (by simp) (List.map_congr_left fun item hitem => ?_)
  have hne : item.2 ≠ index := fun h => hindex (h ▸ List.mem_map_of_mem hitem)
  rw [Function.update_of_ne hne]

theorem PreparedOne.cons {store : RowStore} {index : Nat} {named station : Station M}
    {workers : List (Station M × Nat)} {before next last : Engine M} {own : List (Write M)}
    {writes : Nat → List (Write M)} (h : PreparedOne store index station before next own)
    (hstation : before.stations[index]? = some station) (htarget : station.target = .nowhere)
    (hindex : index ∉ workers.map (·.2)) (hrest : PreparedAll store workers next last writes) :
    PreparedAll store ((named, index) :: workers) before last (Function.update writes index own) where
  same := h.same.trans hrest.same
  length := hrest.length.trans h.length
  others other hmem := by
    obtain ⟨hhead, htail⟩ := not_or.mp fun hor => hmem (List.mem_cons.mpr hor)
    exact (hrest.others other htail).trans (h.others_of_nowhere htarget hhead)
  prepared other hmem found hfound := by
    by_cases hother : other = index
    · subst hother
      obtain rfl := Option.some.inj (hstation.symm.trans hfound)
      obtain ⟨persister, hown, hprepared⟩ := h.prepared
      rw [handed_of_nowhere htarget, Station.take_nil] at hown
      rw [Function.update_self]
      exact ⟨persister, (hrest.others other hindex).trans hown, hprepared⟩
    · have htail := (List.mem_cons.mp hmem).resolve_left hother
      rw [Function.update_of_ne hother, ← h.same.clock]
      exact hrest.prepared other htail found ((h.others_of_nowhere htarget hother).trans hfound)

theorem mapM_buildOrNone_run [KeepsIdentity M] {workers : List (Station M × Nat)}
    (hnodup : (workers.map (·.2)).Nodup) {engine : Engine M} {store : RowStore}
    (hrows : engine.store.rows = store.rows) (hfailures : engine.store.failures = store.failures)
    (hqueue : engine.Queueless)
    (hready : ∀ index ∈ workers.map (·.2), ∃ station, engine.stations[index]? = some station ∧
      station.target = .nowhere ∧ Unhindered station store engine.clock.nowMillis) :
    ∃ writes last, ((workers.map worker).mapM Rounds.buildOrNone).run engine =
        (numbered workers writes, last) ∧
      PreparedAll store workers engine last writes := by
  induction workers generalizing engine with
  | nil =>
    refine ⟨fun _ => [], engine, rfl, .refl engine, rfl, fun _ _ => rfl, ?_⟩
    exact fun _ hindex => absurd hindex List.not_mem_nil
  | cons first rest ih =>
    obtain ⟨named, index⟩ := first
    obtain ⟨hindex, hrest⟩ := List.nodup_cons.mp hnodup
    obtain ⟨station, hstation, htarget, hfree⟩ := hready index (by simp)
    obtain ⟨own, next, hrun, hfirst⟩ :=
      buildOrNone_run hrows hfailures hqueue hstation hfree named
    have hlater : ∀ other ∈ rest.map (·.2), ∃ station, next.stations[other]? = some station ∧
        station.target = .nowhere ∧ Unhindered station store next.clock.nowMillis := by
      intro other hmem
      have hother : other ≠ index := fun h => hindex (h ▸ hmem)
      rw [hfirst.others_of_nowhere htarget hother, hfirst.same.clock]
      exact hready other (List.mem_cons_of_mem _ hmem)
    obtain ⟨writes, last, hlast, hprepares⟩ := ih hrest (hfirst.same.rows.trans hrows)
      (hfirst.same.failures.trans hfailures) hfirst.queueless hlater
    refine ⟨Function.update writes index own, last, ?_,
      hfirst.cons hstation htarget hindex hprepares⟩
    rw [mapM_buildOrNone_cons hrun hlast, numbered_cons_update hindex]

/-! ## The flush -/

omit [Record M] in
theorem mem_numbered {workers : List (Station M × Nat)} {writes : Nat → List (Write M)}
    {request : Prepared M} : request ∈ (numbered workers writes).flatten ↔
      ∃ index ∈ workers.map (·.2), ∃ write ∈ writes index, write.map (index, ·) = request := by
  simp only [numbered, List.mem_flatten, List.mem_map]
  constructor
  · rintro ⟨_, ⟨item, hitem, rfl⟩, hrequest⟩
    exact ⟨item.2, ⟨item, hitem, rfl⟩, List.mem_map.mp hrequest⟩
  · rintro ⟨_, ⟨item, hitem, rfl⟩, hrequest⟩
    exact ⟨_, ⟨item, hitem, rfl⟩, List.mem_map.mpr hrequest⟩

omit [Record M] in
theorem toldTo_numbered {workers : List (Station M × Nat)} (hnodup : (workers.map (·.2)).Nodup)
    (writes : Nat → List (Write M)) (verdict : Verdict) (index : Nat) :
    toldTo index (tellings (numbered workers writes).flatten verdict) =
      if index ∈ workers.map (·.2) then outcomes (writes index) verdict else [] := by
  induction workers with
  | nil => rfl
  | cons first rest ih =>
    obtain ⟨hfirst, hrest⟩ := List.nodup_cons.mp hnodup
    have hsplit : tellings (numbered (first :: rest) writes).flatten verdict =
        tellings ((writes first.2).map (·.map (first.2, ·))) verdict ++
          tellings (numbered rest writes).flatten verdict := List.flatMap_append ..
    rw [hsplit, toldTo_append, toldTo_tellings, ih hrest]
    by_cases hindex : first.2 = index
    · subst hindex
      simp [hfirst]
    · rw [if_neg hindex, List.nil_append]
      simp only [List.map_cons, List.mem_cons, Ne.symm hindex, false_or]

omit [Record M] in
theorem fit_numbered {workers : List (Station M × Nat)} (hnodup : (workers.map (·.2)).Nodup)
    {store : RowStore} {writes : Nat → List (Write M)} {table : Nat → String}
    (htables : ∀ a ∈ workers.map (·.2), ∀ b ∈ workers.map (·.2), table a = table b → a = b)
    (hkeys : ∀ index ∈ workers.map (·.2), ∀ write ∈ writes index,
      write.key = ⟨table index, write.id⟩)
    (hfit : ∀ index ∈ workers.map (·.2), store.Fit ((writes index).map (·.map (index, ·)))) :
    store.Fit (numbered workers writes).flatten := by
  induction workers with
  | nil => exact ⟨List.nodup_nil, fun _ h => absurd h List.not_mem_nil⟩
  | cons first rest ih =>
    obtain ⟨hfirst, hrest⟩ := List.nodup_cons.mp hnodup
    have hlater := ih hrest
      (fun a ha b hb => htables a (List.mem_cons_of_mem _ ha) b (List.mem_cons_of_mem _ hb))
      (fun index hindex => hkeys index (List.mem_cons_of_mem _ hindex))
      (fun index hindex => hfit index (List.mem_cons_of_mem _ hindex))
    refine (hfit first.2 List.mem_cons_self).append hlater ?_
    rintro _ hrequest _ hmem hkey
    obtain ⟨write, hwrite, rfl⟩ := List.mem_map.mp hrequest
    obtain ⟨index, hindex, other, hother, rfl⟩ := mem_numbered.mp hmem
    have hkey : write.key = other.key := hkey
    rw [hkeys first.2 List.mem_cons_self write hwrite,
      hkeys index (List.mem_cons_of_mem _ hindex) other hother] at hkey
    obtain rfl := htables first.2 List.mem_cons_self index (List.mem_cons_of_mem _ hindex)
      (RowKey.mk.inj hkey).1
    exact hfirst hindex

theorem flushAny_numbered_run {workers : List (Station M × Nat)}
    (hnodup : (workers.map (·.2)).Nodup) {engine : Engine M} {store : RowStore}
    (hrows : engine.store.rows = store.rows) (hfailures : engine.store.failures = store.failures)
    (hworks : store.failures.writes = false) {writes : Nat → List (Write M)} {table : Nat → String}
    (htables : ∀ a ∈ workers.map (·.2), ∀ b ∈ workers.map (·.2), table a = table b → a = b)
    (hkeys : ∀ index ∈ workers.map (·.2), ∀ write ∈ writes index,
      write.key = ⟨table index, write.id⟩)
    (hfit : ∀ index ∈ workers.map (·.2), store.Fit ((writes index).map (·.map (index, ·)))) :
    ∃ store' stations, (Rounds.flushAny flush (numbered workers writes).flatten).run engine =
        (.ok (), { engine with store := store', stations }) ∧
      stations.length = engine.stations.length ∧
      (∀ index ∈ workers.map (·.2), Wrote (table index) (writes index) store store') ∧
      ∀ index ∈ workers.map (·.2), stations[index]? =
        (engine.stations[index]?).map (learn · (outcomes (writes index) .executed)) := by
  have hrow : ∀ key, engine.store.row? key = store.row? key := by
    intro key
    unfold RowStore.row?
    rw [hrows]
  by_cases hempty : (numbered workers writes).flatten = []
  · have hnone : ∀ index ∈ workers.map (·.2), writes index = [] := by
      intro index hindex
      refine List.eq_nil_iff_forall_not_mem.mpr fun write hwrite => ?_
      have hmem : write.map (index, ·) ∈ (numbered workers writes).flatten :=
        mem_numbered.mpr ⟨index, hindex, write, hwrite, rfl⟩
      rw [hempty] at hmem
      exact List.not_mem_nil hmem
    rw [hempty]
    refine ⟨engine.store, engine.stations, rfl, rfl, fun index hindex => ?_, fun index hindex => ?_⟩
    · rw [hnone index hindex]
      exact Wrote.nothing hrows hfailures
    · rw [hnone index hindex]
      cases engine.stations[index]? <;> rfl
  · have hfits : engine.store.Fit (numbered workers writes).flatten :=
      (fit_numbered hnodup htables hkeys hfit).of_row?_eq hrow
    obtain ⟨stations, hrun, hstations⟩ := flush_fitting_run (hfailures ▸ hworks) hfits
    rw [flushAny_of_ne_nil hempty]
    refine ⟨_, stations, hrun, length_of_map hstations, fun index hindex => ?_,
      fun index hindex => ?_⟩
    · refine .of_apply (hkeys index hindex) hfits hrow hfailures ?_ ?_
      · intro write hwrite
        exact ⟨_, mem_numbered.mpr ⟨index, hindex, write, hwrite, rfl⟩, rfl, rfl⟩
      -- Two stations have two tables, so no other station writes a row of this one.
      · intro request hrequest id hkey
        obtain ⟨other, hother, write, hwrite, rfl⟩ := mem_numbered.mp hrequest
        have hkey : write.key = ⟨table index, id⟩ := hkey
        rw [hkeys other hother write hwrite] at hkey
        obtain ⟨hsame, hid⟩ := RowKey.mk.inj hkey
        obtain rfl := htables other hother index hindex hsame
        exact hid ▸ List.mem_map_of_mem hwrite
    · rw [hstations, toldTo_numbered hnodup, if_pos hindex]

/-! ## The end -/

theorem finish_numbered_run {workers : List (Station M × Nat)} (hnodup : (workers.map (·.2)).Nodup)
    (engine : Engine M) : ∃ stations,
      ((workers.map worker).forM (·.finish)).run engine = ((), { engine with stations }) ∧
      stations.length = engine.stations.length ∧
      (∀ index ∉ workers.map (·.2), stations[index]? = engine.stations[index]?) ∧
      ∀ index ∈ workers.map (·.2), ∀ station, engine.stations[index]? = some station →
        stations[index]? = some { station with
          persister := station.persister.endRound engine.clock.nowMillis } := by
  induction workers generalizing engine with
  | nil => exact ⟨engine.stations, rfl, rfl, fun _ _ => rfl, fun _ h => absurd h List.not_mem_nil⟩
  | cons first rest ih =>
    obtain ⟨hfirst, hrest⟩ := List.nodup_cons.mp hnodup
    let next := modifyPersister first.2 (·.endRound engine.clock.nowMillis) engine
    obtain ⟨stations, hrun, hlength, hothers, hfinished⟩ := ih hrest next
    refine ⟨stations, hrun, hlength.trans (List.length_modify _ _ _), fun index hindex => ?_,
      fun index hindex station hstation => ?_⟩
    · obtain ⟨hhead, htail⟩ := not_or.mp (fun h => hindex (List.mem_cons.mpr h))
      rw [hothers index htail]
      exact getElem?_modifyPersister_ne (Ne.symm hhead) _ _
    · by_cases hhead : index = first.2
      · subst hhead
        rw [hothers first.2 hfirst]
        exact getElem?_modifyPersister hstation _
      · have htail := (List.mem_cons.mp hindex).resolve_left hhead
        apply hfinished index htail station
        rw [← hstation]
        exact getElem?_modifyPersister_ne (Ne.symm hhead) _ _

end Engine

namespace Persister.Prepared

variable {persister persister' : Persister M} {store store' : RowStore} {now later : Int}
  {writes : List (Write M)}

theorem key_eq (h : persister.Prepared store now writes persister') {write : Write M}
    (hwrite : write ∈ writes) : write.key = ⟨persister.model.storageName, write.id⟩ := by
  cases h with
  | satOut => exact absurd hwrite List.not_mem_nil
  | drained _ built => exact built.preparing.key_eq hwrite

theorem fit [KeepsIdentity M] {κ : Type} (h : persister.Prepared store now writes persister')
    (f : SessionCallback M → κ) : store.Fit (writes.map (·.map f)) := by
  cases h with
  | satOut => exact ⟨List.nodup_nil, fun _ hmem => absurd hmem List.not_mem_nil⟩
  | drained _ built => exact built.preparing.fit f

theorem round (h : persister.Prepared store now writes persister')
    (wrote : Wrote persister.model.storageName writes store store') :
    persister.Round store now later writes
      ({ persister' with sessions := persister'.sessions.settleAll (outcomes writes .executed) }.endRound
        later) store' := by
  cases h with
  | satOut due => exact .satOut due wrote
  | drained due built => exact .executed due built wrote

end Persister.Prepared

namespace Engine

/-! ## The whole round -/

/-- The first station may hand copies to the others, and nothing keeps any of them from its writes. -/
structure RoundReady (engine : Engine M) (own : Station M) : Prop where
  threads : 0 < engine.threads
  queueless : engine.Queueless
  works : engine.store.failures.writes = false
  here : engine.stations[0]? = some own
  avoids : own.target.Avoids 0
  nowhere : ∀ (index : Nat) (station : Station M), 0 < index →
    engine.stations[index]? = some station → station.target = .nowhere
  tables : ∀ (a b : Nat) (first second : Station M), engine.stations[a]? = some first →
    engine.stations[b]? = some second →
    first.persister.model.storageName = second.persister.model.storageName → a = b
  free : ∀ (index : Nat) (station : Station M), engine.stations[index]? = some station →
    Unhindered (station.take (handed own index)) engine.store engine.clock.nowMillis

theorem RoundReady.take_own {engine : Engine M} {own : Station M} (h : RoundReady engine own) :
    own.take (handed own 0) = own := by
  have hnone : handed own 0 = [] :=
    List.flatMap_eq_nil_iff.mpr fun record _ => h.avoids.copiesFor_eq_nil record
  rw [hnone, Station.take_nil]

omit [Record M] in
theorem mem_zipIdx_one {rest : List (Station M)} {index : Nat} :
    index ∈ (rest.zipIdx 1).map (·.2) ↔ 0 < index ∧ index < rest.length + 1 := by
  rw [List.zipIdx_map_snd, List.mem_range'_1]
  omega

theorem RoundReady.rest_ready {engine next : Engine M} {own : Station M} (h : RoundReady engine own)
    {writes : List (Write M)} (hfirst : PreparedOne engine.store 0 own engine next writes)
    {index : Nat} (hpos : 0 < index) (hlt : index < engine.stations.length) :
    ∃ station, next.stations[index]? = some station ∧ station.target = .nowhere ∧
      Unhindered station engine.store next.clock.nowMillis := by
  have hstation := List.getElem?_eq_getElem hlt
  have htarget := h.nowhere index _ hpos hstation
  refine ⟨engine.stations[index].take (handed own index), ?_, htarget, ?_⟩
  · rw [hfirst.others index (Nat.ne_of_gt hpos), hstation]
    rfl
  · rw [hfirst.same.clock]
    exact h.free index _ hstation

/-- What the first station and then the others prepare. -/
structure PreparedRound (engine : Engine M) (own : Station M) (last : Engine M)
    (writes : Nat → List (Write M)) : Prop where
  same : SameElsewhere engine last
  length : last.stations.length = engine.stations.length
  prepared : ∀ (index : Nat) (station : Station M), engine.stations[index]? = some station →
    ∃ persister, last.stations[index]? = some { station with persister } ∧
      (station.take (handed own index)).persister.Prepared engine.store engine.clock.nowMillis
        (writes index) persister

theorem PreparedOne.round {engine next last : Engine M} {own : Station M}
    {ownWrites : List (Write M)} {writes : Nat → List (Write M)} {rest : List (Station M)}
    (hfirst : PreparedOne engine.store 0 own engine next ownWrites) (h : RoundReady engine own)
    (hlist : engine.stations = own :: rest)
    (hrest : PreparedAll engine.store (rest.zipIdx 1) next last writes) :
    PreparedRound engine own last (Function.update writes 0 ownWrites) where
  same := hfirst.same.trans hrest.same
  length := hrest.length.trans hfirst.length
  prepared index station hstation := by
    obtain rfl | hpos := Nat.eq_zero_or_pos index
    · obtain rfl := Option.some.inj (h.here.symm.trans hstation)
      obtain ⟨persister, hown, hprepared⟩ := hfirst.prepared
      have hlast : last.stations[0]? = next.stations[0]? :=
        hrest.others 0 fun hmem => absurd (mem_zipIdx_one.mp hmem).1 (Nat.lt_irrefl 0)
      rw [h.take_own] at hown ⊢
      rw [Function.update_self]
      exact ⟨persister, hlast.trans hown, hprepared⟩
    · have hlt : index < rest.length + 1 := by
        rw [← List.length_cons, ← hlist]
        exact (List.getElem?_eq_some_iff.mp hstation).1
      have hne : index ≠ 0 := Nat.ne_of_gt hpos
      have htaken : next.stations[index]? = some (station.take (handed own index)) := by
        rw [hfirst.others index hne, hstation]
        rfl
      rw [Function.update_of_ne hne, ← hfirst.same.clock]
      exact hrest.prepared index (mem_zipIdx_one.mpr ⟨hpos, hlt⟩) _ htaken

theorem prepare_run [KeepsIdentity M] {engine : Engine M} {own : Station M}
    (h : RoundReady engine own) : ∃ writes last,
      (Rounds.prepare engine.threads engine.roundWorkers).run engine =
        ((numbered engine.stations.zipIdx writes).flatten, last) ∧
      PreparedRound engine own last writes := by
  obtain ⟨rest, hlist⟩ : ∃ rest, engine.stations = own :: rest := by
    have hhere := h.here
    rw [← List.head?_eq_getElem?, List.head?_eq_some_iff] at hhere
    exact hhere
  have hfree := h.free 0 own h.here
  rw [h.take_own] at hfree
  obtain ⟨ownWrites, next, hrun, hfirst⟩ := buildOrNone_run rfl rfl h.queueless h.here hfree own
  have hnodup : ((rest.zipIdx 1).map (·.2)).Nodup := by
    rw [List.zipIdx_map_snd]
    exact List.nodup_range' 1
  have hready : ∀ index ∈ (rest.zipIdx 1).map (·.2), ∃ station,
      next.stations[index]? = some station ∧ station.target = .nowhere ∧
        Unhindered station engine.store next.clock.nowMillis := by
    intro index hindex
    obtain ⟨hpos, hlt⟩ := mem_zipIdx_one.mp hindex
    exact h.rest_ready hfirst hpos (by rwa [hlist, List.length_cons])
  obtain ⟨writes, last, hlast, hrest⟩ := mapM_buildOrNone_run hnodup hfirst.same.rows
    hfirst.same.failures hfirst.queueless hready
  refine ⟨_, last, ?_, hfirst.round h hlist hrest⟩
  have hworkers : engine.roundWorkers = ((own, 0) :: rest.zipIdx 1).map worker := by
    rw [roundWorkers, hlist]
    rfl
  have hzero : 0 ∉ (rest.zipIdx 1).map (·.2) :=
    fun hmem => absurd (mem_zipIdx_one.mp hmem).1 (Nat.lt_irrefl 0)
  rw [Rounds.prepare_eq h.threads, hworkers, StateT.run_map, mapM_buildOrNone_cons hrun hlast,
    ← numbered_cons_update hzero own, hlist]
  rfl

/-- Every number gets a table, though only those of stations are looked at. -/
def tableAt (engine : Engine M) (index : Nat) : String :=
  ((engine.stations[index]?).map (·.persister.model.storageName)).getD ""

omit [Record M] in
theorem tableAt_eq {engine : Engine M} {index : Nat} {station : Station M}
    (hstation : engine.stations[index]? = some station) :
    engine.tableAt index = station.persister.model.storageName := by
  rw [tableAt, hstation]
  rfl

omit [Record M] in
theorem mem_numbers {engine : Engine M} {index : Nat} :
    index ∈ engine.stations.zipIdx.map (·.2) ↔
      ∃ station, engine.stations[index]? = some station := by
  rw [List.zipIdx_map_snd, List.mem_range'_1]
  constructor
  · rintro ⟨_, hlt⟩
    exact ⟨_, List.getElem?_eq_getElem (by omega)⟩
  · rintro ⟨station, hstation⟩
    have hlt := (List.getElem?_eq_some_iff.mp hstation).1
    omega

omit [Record M] in
theorem nodup_numbers (engine : Engine M) : (engine.stations.zipIdx.map (·.2)).Nodup := by
  rw [List.zipIdx_map_snd]
  exact List.nodup_range' 1

theorem RoundReady.tables_ne {engine : Engine M} {own : Station M} (h : RoundReady engine own) :
    ∀ a ∈ engine.stations.zipIdx.map (·.2), ∀ b ∈ engine.stations.zipIdx.map (·.2),
      engine.tableAt a = engine.tableAt b → a = b := by
  intro a ha b hb heq
  obtain ⟨first, hfirst⟩ := mem_numbers.mp ha
  obtain ⟨second, hsecond⟩ := mem_numbers.mp hb
  rw [tableAt_eq hfirst, tableAt_eq hsecond] at heq
  exact h.tables a b first second hfirst hsecond heq

theorem PreparedRound.key_eq {engine last : Engine M} {own : Station M}
    {writes : Nat → List (Write M)} (h : PreparedRound engine own last writes) :
    ∀ index ∈ engine.stations.zipIdx.map (·.2), ∀ write ∈ writes index,
      write.key = ⟨engine.tableAt index, write.id⟩ := by
  intro index hindex write hwrite
  obtain ⟨station, hstation⟩ := mem_numbers.mp hindex
  obtain ⟨persister, _, hprepared⟩ := h.prepared index station hstation
  rw [tableAt_eq hstation, hprepared.key_eq hwrite, Station.take, Persister.takeAll_eq]

theorem PreparedRound.fit [KeepsIdentity M] {engine last : Engine M} {own : Station M}
    {writes : Nat → List (Write M)} (h : PreparedRound engine own last writes) :
    ∀ index ∈ engine.stations.zipIdx.map (·.2),
      engine.store.Fit ((writes index).map (·.map (index, ·))) := by
  intro index hindex
  obtain ⟨station, hstation⟩ := mem_numbers.mp hindex
  obtain ⟨persister, _, hprepared⟩ := h.prepared index station hstation
  exact hprepared.fit _

theorem run_of_stages {engine built flushed : Engine M} {writes : Nat → List (Write M)}
    {stations : List (Station M)}
    (hprepare : (Rounds.prepare engine.threads engine.roundWorkers).run engine =
      ((numbered engine.stations.zipIdx writes).flatten, built))
    (hflush : (Rounds.flushAny flush (numbered engine.stations.zipIdx writes).flatten).run built =
      (.ok (), flushed))
    (hfinish : ((engine.stations.zipIdx.map worker).forM (·.finish)).run flushed =
      ((), { flushed with stations })) :
    (Rounds.run flush engine.threads engine.roundWorkers).run engine =
      ({ requests := (numbered engine.stations.zipIdx writes).flatten.length, flushed := true },
        { flushed with stations }) := by
  have hworkers : engine.roundWorkers = engine.stations.zipIdx.map worker := rfl
  unfold Rounds.run
  rw [StateT.run_bind, hprepare]
  show StateT.run (Rounds.flushAny flush _ >>= _) built = _
  rw [StateT.run_bind, hflush]
  show StateT.run (engine.roundWorkers.forM (·.finish) >>= _) _ = _
  rw [StateT.run_bind, hworkers, hfinish]
  rfl

/-- Each station has its round, with what the first one has handed it. -/
theorem round_run [KeepsIdentity M] {engine : Engine M} {own : Station M}
    (h : RoundReady engine own) : ∃ (writes : Nat → List (Write M)) (store : RowStore)
      (stations : List (Station M)) (exports : Exports M) (sinks : List (List M))
      (totals : RoundTotals),
      (round.run engine).2 = { engine with store, stations, exports, sinks, totals } ∧
      store.failures = engine.store.failures ∧ stations.length = engine.stations.length ∧
      ∀ (index : Nat) (station : Station M), engine.stations[index]? = some station → ∃ persister,
        stations[index]? = some { station with persister } ∧
        (station.take (handed own index)).persister.Round engine.store engine.clock.nowMillis
          engine.clock.nowMillis (writes index) persister store := by
  obtain ⟨writes, built, hprepare, hprepares⟩ := prepare_run h
  obtain ⟨store, flushed, hflush, hflushedLength, hwrote, hlearnt⟩ :=
    flushAny_numbered_run engine.nodup_numbers hprepares.same.rows hprepares.same.failures h.works
      h.tables_ne hprepares.key_eq hprepares.fit
  obtain ⟨stations, hfinish, hfinishedLength, _, hfinished⟩ :=
    finish_numbered_run engine.nodup_numbers { built with store, stations := flushed }
  have hrun := run_of_stages hprepare hflush hfinish
  have hclock := hprepares.same.clock
  obtain ⟨_, _, exports, sinks, hbuilt⟩ := hprepares.same
  refine ⟨writes, store, stations, exports, sinks,
    engine.totals.add ⟨(numbered engine.stations.zipIdx writes).flatten.length, true⟩, ?_, ?_, ?_, ?_⟩
  · unfold round
    simp only [StateT.run_bind, StateT.run_get, pure_bind, hrun, hbuilt]
    rfl
  · exact (hwrote 0 (mem_numbers.mpr ⟨own, h.here⟩)).failures
  · exact hfinishedLength.trans (hflushedLength.trans hprepares.length)
  · intro index station hstation
    have hindex := mem_numbers.mpr ⟨station, hstation⟩
    obtain ⟨persister, hbuilt, hprepared⟩ := hprepares.prepared index station hstation
    have hlearnt := hlearnt index hindex
    rw [hbuilt] at hlearnt
    have hwrote := hwrote index hindex
    rw [tableAt_eq hstation] at hwrote
    have hlast := hfinished index hindex
      (learn { station with persister } (outcomes (writes index) .executed)) hlearnt
    refine ⟨_, hlast, ?_⟩
    rw [hclock]
    apply hprepared.round
    rw [Station.take, Persister.takeAll_eq]
    exact hwrote

end Engine

end Rollup
