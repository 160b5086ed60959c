import Rollup.Proofs.Containment

/-!
# Batch sizes

A round may load its rows in larger or in smaller batches: it prepares the same writes and shows the
same records, in another order, and leaves the same session cache. No identity is asked for twice.
-/

namespace Rollup

variable {σ M κ : Type}

/-! ## Another order -/

theorem filter_name_eq_of_perm {α ν : Type} [DecidableEq ν] (name : α → ν) {items others : List α}
    (h : items.Perm others) (hdistinct : (items.map name).Nodup) (key : ν) :
    items.filter (name · = key) = others.filter (name · = key) := by
  induction h with
  | nil => rfl
  | cons item h ih =>
    rw [List.filter_cons, List.filter_cons, ih (List.nodup_cons.mp hdistinct).2]
  | swap item other rest =>
    have hne : name other ≠ name item := by
      intro heq
      simp [heq] at hdistinct
    by_cases hitem : name item = key
    · have hother : name other ≠ key := fun heq => hne (heq.trans hitem.symm)
      simp [hitem, hother]
    · simp [List.filter_cons, hitem]
  | trans h _ ih ih' => exact (ih hdistinct).trans (ih' ((h.map name).nodup_iff.mp hdistinct))

/-- What is told of writes that meet these verdicts. -/
def told (verdict : Request κ → Verdict) (requests : List (Request κ)) : List (κ × Verdict) :=
  requests.flatMap fun request => (request.conclude (verdict request)).toList

namespace RowStore

variable {store : RowStore} {requests others : List (Request κ)}

/-- Whether a write is executed, as long as no other one of the flush is about its row. -/
def verdict (store : RowStore) (request : Request κ) : Verdict :=
  if store.failures.writes then .failed
  else if store.fits request.kind request.key then .executed else .failed

theorem fits_write_of_ne {request other : Request κ} (hne : request.key ≠ other.key) :
    (store.write request).fits other.kind other.key = store.fits other.kind other.key := by
  rw [fits_congr]
  rw [row?_write, if_neg hne]

theorem row?_apply (hdistinct : (requests.map (·.key)).Nodup) (key : RowKey) :
    (store.apply requests).2.row? key =
      (requests.filter (·.key = key)).head?.elim (store.row? key) fun request =>
        if store.fits request.kind key then some request.fields else store.row? key := by
  induction requests generalizing store with
  | nil => rfl
  | cons request rest ih =>
    obtain ⟨hfresh, hdistinct⟩ := List.nodup_cons.mp hdistinct
    by_cases hkey : request.key = key
    · subst hkey
      have hnone : rest.filter (·.key = request.key) = [] := by
        refine List.filter_eq_nil_iff.mpr fun other hother => ?_
        simpa using fun heq => hfresh (List.mem_map.mpr ⟨other, hother, heq⟩)
      rw [apply]
      split_ifs with hfits
      · simp [ih hdistinct, hnone, hfits]
      · simp [ih hdistinct, hnone, hfits]
    · have hkept : (request :: rest).filter (·.key = key) = rest.filter (·.key = key) := by
        simp [hkey]
      have hrow : (store.write request).row? key = store.row? key := by
        rw [row?_write, if_neg hkey]
      rw [apply, hkept]
      split_ifs
      · rw [ih hdistinct, hrow]
        simp only [fits_congr hrow]
      · exact ih hdistinct

theorem told_apply_eq (hwrites : store.failures.writes = false)
    (hdistinct : (requests.map (·.key)).Nodup) :
    (store.apply requests).1 = told store.verdict requests := by
  induction requests generalizing store with
  | nil => rfl
  | cons request rest ih =>
    obtain ⟨hfresh, hdistinct⟩ := List.nodup_cons.mp hdistinct
    have hlater : told (store.write request).verdict rest = told store.verdict rest := by
      refine List.flatMap_congr fun other hother => ?_
      have hne : request.key ≠ other.key := fun heq =>
        hfresh (List.mem_map.mpr ⟨other, hother, heq.symm⟩)
      unfold verdict
      rw [fits_write_of_ne hne]
      rfl
    have hcons : told store.verdict (request :: rest) =
        (request.conclude (store.verdict request)).toList ++ told store.verdict rest := rfl
    rw [apply, hcons, verdict, hwrites, if_neg Bool.false_ne_true]
    split_ifs
    · have hwrites : (store.write request).failures.writes = false := hwrites
      rw [← hlater, ← ih hwrites hdistinct]
      rfl
    · rw [← ih hwrites hdistinct]
      rfl

theorem told_flush (hdistinct : (requests.map (·.key)).Nodup) :
    (store.flush requests).2.1 = told store.verdict requests := by
  unfold flush
  split_ifs with hwrites
  · refine List.flatMap_congr fun request _ => ?_
    rw [verdict, if_pos hwrites]
    rfl
  · exact told_apply_eq (by simpa using hwrites) hdistinct

theorem rows_flush_of_perm (h : requests.Perm others) (hdistinct : (requests.map (·.key)).Nodup) :
    (store.flush requests).2.2.rows = (store.flush others).2.2.rows := by
  unfold flush
  split_ifs
  · rfl
  · refine Std.ExtTreeMap.ext_getElem? fun key => ?_
    have hothers : (others.map (·.key)).Nodup := (h.map (·.key)).nodup_iff.mp hdistinct
    refine (row?_apply hdistinct key).trans (Eq.trans ?_ (row?_apply hothers key).symm)
    rw [filter_name_eq_of_perm Request.key h hdistinct key]

end RowStore

namespace Sessions

theorem ext_session? {sessions others : Sessions M}
    (h : ∀ id, sessions.session? id = others.session? id) : sessions = others := by
  cases sessions
  exact congrArg mk (Std.ExtTreeMap.ext_getElem? h)

theorem settleAll_of_perm [Record M] (sessions : Sessions M)
    {outcomes others : List (SessionCallback M × Verdict)} (h : outcomes.Perm others)
    (hdistinct : (outcomes.map fun outcome => Record.id outcome.1.record).Nodup) :
    sessions.settleAll outcomes = sessions.settleAll others := by
  refine ext_session? fun id => ?_
  rw [session?_settleAll_eq, session?_settleAll_eq, filter_name_eq_of_perm _ h hdistinct id]

end Sessions

/-! ## What rounds have in common -/

/-- Two rounds come to the same, identity by identity, and also once their writes were flushed. -/
structure Yield.Alike [Record M] (yield other : Yield M) : Prop where
  writes : ∀ id, yield.writes.filter (·.id = id) = other.writes.filter (·.id = id)
  events : ∀ id, (yield.events.filter fun event => Record.id event.1 = id) =
    other.events.filter fun event => Record.id event.1 = id
  sessions : yield.sessions = other.sessions
  /-- Whatever verdicts the writes meet, and in whatever order they become known. -/
  settled : ∀ verdict outcomes outcomes', List.Perm outcomes (told verdict yield.writes) →
    List.Perm outcomes' (told verdict other.writes) →
    yield.sessions.settleAll outcomes = other.sessions.settleAll outcomes'
  flushed : ∀ store : RowStore,
    (store.flush yield.writes).1 = (store.flush other.writes).1 ∧
    (store.flush yield.writes).2.2.rows = (store.flush other.writes).2.2.rows ∧
    yield.sessions.settleAll (store.flush yield.writes).2.1 =
      other.sessions.settleAll (store.flush other.writes).2.1

namespace Forecast

variable [Record M] {forecast : Forecast M} {env : Surroundings σ M} {batches others : List (List M)}
  {yield other : Yield M}

theorem hitch_clear_iff {batch : List M} : forecast.clear.Hitch batch ↔ ∃ drained ∈ batch,
    ¬ forecast.occasion.Clear (forecast.sessions.session? (Record.id drained)) ∨
      ∃ fault, forecast.due drained = .error fault := by
  constructor
  · rintro (⟨drained, hdrained, hunclear⟩ | ⟨drained, fault, ⟨-, before, after, rfl, -⟩, hfault⟩)
    · exact ⟨drained, hdrained, .inl hunclear⟩
    · exact ⟨drained, by simp, .inr ⟨fault, hfault⟩⟩
  · rintro ⟨drained, hdrained, hunclear | ⟨fault, hfault⟩⟩
    · exact .inl ⟨drained, hdrained, hunclear⟩
    · obtain ⟨before, after, hbatch⟩ := List.append_of_mem hdrained
      exact .inr ⟨drained, fault, ⟨loadFails_clear batch, before, after, hbatch, by simp⟩, hfault⟩

theorem smooth_of_perm (h : batches.flatten.Perm others.flatten)
    (hsmooth : ∀ batch ∈ batches, ¬ forecast.clear.Hitch batch) :
    ∀ batch ∈ others, ¬ forecast.clear.Hitch batch := by
  intro its hits hhitch
  obtain ⟨drained, hdrained, hhinders⟩ := hitch_clear_iff.mp hhitch
  obtain ⟨batch, hbatch, hmem⟩ :=
    List.mem_flatten.mp (h.symm.subset (List.mem_flatten.mpr ⟨its, hits, hdrained⟩))
  exact hsmooth batch hbatch (hitch_clear_iff.mpr ⟨drained, hmem, hhinders⟩)

theorem Foretells.session?_eq (h : forecast.clear.Foretells batches yield)
    (hother : forecast.clear.Foretells others other) (hperm : batches.flatten.Perm others.flatten)
    (id : MetricId) : yield.sessions.session? id = other.sessions.session? id := by
  by_cases hid : id ∈ batches.flatten.map Record.id
  · obtain ⟨drained, hdrained, rfl⟩ := List.mem_map.mp hid
    obtain ⟨batch, hbatch, hmem⟩ := List.mem_flatten.mp hdrained
    obtain ⟨its, hits, hmem'⟩ := List.mem_flatten.mp (hperm.subset hdrained)
    rw [h.spared batch hbatch drained (by simpa using hmem),
      hother.spared its hits drained (by simpa using hmem')]
  · rw [h.others id hid, hother.others id fun hmem => hid ((hperm.map Record.id).symm.subset hmem)]

/-! ## Writes and loads -/

theorem Reliable.ids_sublist [KeepsIdentity M] (h : forecast.Reliable env) (records : List M) :
    ((records.flatMap forecast.writesOf).map (·.id)).Sublist (records.map Record.id) := by
  induction records with
  | nil => exact .slnil
  | cons drained rest ih =>
    rw [List.flatMap_cons, List.map_append, List.map_cons]
    rcases h.writesOf_cases drained with hnone | ⟨kind, whole, hid, hwrite⟩
    · rw [hnone]
      exact ih.cons _
    · rw [hwrite, ← hid]
      exact ih.cons_cons _

theorem Reliable.write_eq [KeepsIdentity M] (h : forecast.Reliable env) {records : List M} :
    ∀ write ∈ records.flatMap forecast.writesOf,
      ∃ kind whole, write = .of kind forecast.occasion.model whole forecast.occasion.now := by
  intro write hwrite
  obtain ⟨drained, -, hwrite⟩ := List.mem_flatMap.mp hwrite
  rcases h.writesOf_cases drained with hnone | ⟨kind, whole, -, heq⟩
  · rw [hnone] at hwrite
    cases hwrite
  · rw [heq] at hwrite
    exact ⟨kind, whole, List.mem_singleton.mp hwrite⟩

theorem Reliable.tied [KeepsIdentity M] (h : forecast.Reliable env) (records : List M) :
    Tied forecast.occasion.now (records.flatMap forecast.writesOf) := by
  intro write hwrite
  obtain ⟨kind, whole, rfl⟩ := h.write_eq write hwrite
  exact ⟨kind, _, whole, rfl⟩

theorem Reliable.nodup_keys [KeepsIdentity M] (h : forecast.Reliable env) {records : List M}
    (hdistinct : (records.map Record.id).Nodup) :
    ((records.flatMap forecast.writesOf).map (·.key)).Nodup := by
  have hkey : (records.flatMap forecast.writesOf).map (·.key) =
      ((records.flatMap forecast.writesOf).map (·.id)).map
        (RowKey.mk forecast.occasion.model.storageName) := by
    rw [List.map_map]
    refine List.map_congr_left fun write hwrite => ?_
    obtain ⟨kind, whole, rfl⟩ := h.write_eq write hwrite
    rfl
  rw [hkey]
  exact (hdistinct.sublist (h.ids_sublist records)).map fun _ _ hkey => (RowKey.mk.inj hkey).2

theorem flatten_asked (batches : List (List M)) :
    ((batches.map forecast.asked).filter (· ≠ [])).flatten = forecast.asked batches.flatten := by
  rw [List.flatten_filter_ne_nil]
  unfold asked Occasion.missing
  rw [List.map_flatten, List.filter_flatten, List.map_map]
  rfl

end Forecast

theorem ids_told [Record M] {now : Int} {writes : List (Write M)} (htied : Tied now writes)
    (verdict : Write M → Verdict) :
    ((told verdict writes).map fun outcome => Record.id outcome.1.record) = writes.map (·.id) := by
  induction writes with
  | nil => rfl
  | cons write rest ih =>
    obtain ⟨⟨kind, model, whole, rfl⟩, hrest⟩ := List.forall_mem_cons.mp htied
    rw [List.map_cons, ← ih hrest]
    rfl

/-- No identity is asked for twice, or without need, and no load is empty or too large. -/
structure Yield.LoadsOnce [Record M] (yield : Yield M) (persister : Persister M) (now : Int)
    (size : Nat) : Prop where
  bounded : ∀ ids ∈ yield.asked, 0 < ids.length ∧ ids.length ≤ size
  once : yield.asked.flatten.Nodup
  needed : ∀ id, id ∈ yield.asked.flatten ↔ id ∈ persister.toDrain.map Record.id ∧
    (persister.occasion now).trusted (persister.sessions.session? id) = none

namespace Forecast

variable [Record M] {forecast : Forecast M} {env : Surroundings σ M} {batches others : List (List M)}
  {yield other : Yield M}

theorem Foretells.alike [KeepsIdentity M] (h : forecast.clear.Foretells batches yield)
    (henv : forecast.clear.Reliable env) (hdistinct : (batches.flatten.map Record.id).Nodup)
    (hperm : batches.flatten.Perm others.flatten)
    (hother : forecast.clear.Foretells others other) : yield.Alike other := by
  have hwrites : yield.writes = batches.flatten.flatMap forecast.clear.writesOf := by
    rw [h.writes, flatMap_spared_clear]
  have hevents : yield.events = batches.flatten.flatMap forecast.clear.eventsOf := by
    rw [h.events, flatMap_spared_clear]
  have hwrites' : other.writes = others.flatten.flatMap forecast.clear.writesOf := by
    rw [hother.writes, flatMap_spared_clear]
  have hevents' : other.events = others.flatten.flatMap forecast.clear.eventsOf := by
    rw [hother.events, flatMap_spared_clear]
  have hkept := fun id => filter_name_eq_of_perm _ hperm hdistinct id
  have hsessions : yield.sessions = other.sessions :=
    Sessions.ext_session? (h.session?_eq hother hperm)
  have hwritesPerm : yield.writes.Perm other.writes := by
    rw [hwrites, hwrites']
    exact hperm.flatMap_right _
  have hkeys : (yield.writes.map (·.key)).Nodup := hwrites ▸ henv.nodup_keys hdistinct
  have hkeys' : (other.writes.map (·.key)).Nodup := (hwritesPerm.map (·.key)).nodup_iff.mp hkeys
  -- An entry learns one outcome.
  have hsettled : ∀ verdict outcomes outcomes', List.Perm outcomes (told verdict yield.writes) →
      List.Perm outcomes' (told verdict other.writes) →
      yield.sessions.settleAll outcomes = other.sessions.settleAll outcomes' := by
    intro verdict outcomes outcomes' houtcomes houtcomes'
    rw [hsessions]
    refine Sessions.settleAll_of_perm _ ?_ ?_
    · exact houtcomes.trans ((hwritesPerm.flatMap_right _).trans houtcomes'.symm)
    · rw [(houtcomes.map _).nodup_iff, hwrites, ids_told (henv.tied _)]
      exact hdistinct.sublist (henv.ids_sublist _)
  refine ⟨fun id => ?_, fun id => ?_, hsessions, hsettled, fun store => ⟨?_, ?_, ?_⟩⟩
  · rw [hwrites, hwrites']
    exact (henv.writes_of_kept (fun other => decide (other = id)) (hkept id)).trans
      (henv.writes_of_kept (fun other => decide (other = id)) rfl).symm
  · rw [hevents, hevents']
    exact (henv.events_of_kept (fun other => decide (other = id)) (hkept id)).trans
      (henv.events_of_kept (fun other => decide (other = id)) rfl).symm
  · unfold RowStore.flush
    split_ifs <;> rfl
  · exact RowStore.rows_flush_of_perm hwritesPerm hkeys
  · refine hsettled store.verdict _ _ ?_ ?_
    · rw [RowStore.told_flush hkeys]
    · rw [RowStore.told_flush hkeys']

theorem Foretells.loadsOnce {persister : Persister M} {rows : MetricId → Option M} {now : Int}
    (h : (persister.forecast now rows {}).clear.Foretells batches yield)
    (hdistinct : (persister.toDrain.map Record.id).Nodup)
    (hperm : batches.flatten.Perm persister.toDrain) {size : Nat}
    (hsize : ∀ batch ∈ batches, batch.length ≤ size) :
    yield.LoadsOnce persister now size := by
  have hflatten : yield.asked.flatten =
      (persister.forecast now rows {}).asked batches.flatten := by
    rw [h.asked, flatten_asked]
    rfl
  refine ⟨fun ids hids => ?_, ?_, fun id => ?_⟩
  · rw [h.asked] at hids
    obtain ⟨hmem, hne⟩ := List.mem_filter.mp hids
    obtain ⟨batch, hbatch, rfl⟩ := List.mem_map.mp hmem
    refine ⟨List.length_pos_iff.mpr (of_decide_eq_true hne), ?_⟩
    have hle := List.length_filter_le (fun id => ((persister.forecast now rows {}).trusted id).isNone)
      (batch.map Record.id)
    rw [List.length_map] at hle
    exact hle.trans (hsize batch hbatch)
  · rw [hflatten]
    exact ((hperm.map Record.id).nodup_iff.mpr hdistinct).sublist List.filter_sublist
  · rw [hflatten, mem_asked, (hperm.map Record.id).mem_iff]
    rfl

end Forecast

/-! ## Batches of any size -/

theorem length_le_of_mem_chunksUpTo {α : Type} {size count : Nat} {items chunk : List α}
    (h : chunk ∈ chunksUpTo size count items) : chunk.length ≤ size := by
  induction count generalizing items with
  | zero => cases h
  | succ count ih =>
    cases items with
    | nil => cases h
    | cons first rest =>
      rcases List.mem_cons.mp h with rfl | h
      · exact List.length_take_le size _
      · exact ih h

namespace Persister

variable [Record M] {env : Surroundings σ M} {rows : MetricId → Option M} {persister : Persister M}
  {batches others : List (List M)} {size size' : Nat}

/-- The same persister, which loads so many rows at once. -/
def sized (persister : Persister M) (size : Nat) : Persister M :=
  { persister with settings := { persister.settings with loadBatch := size } }

/-- What the persister drains, in batches of at most this size. -/
structure Splits (persister : Persister M) (size : Nat) (batches : List (List M)) : Prop where
  perm : batches.flatten.Perm persister.toDrain
  bounded : ∀ batch ∈ batches, batch.length ≤ size

omit [Record M] in
theorem splits_chunks (persister : Persister M) (hsize : 0 < size) :
    persister.Splits size (chunks size persister.toDrain) := by
  refine ⟨?_, fun _ => length_le_of_mem_chunksUpTo⟩
  rw [flatten_chunks hsize]

theorem foretold_of_sized [KeepsIdentity M] {now : Int} {outside : σ} {yield : Yield M}
    (h : yield ∈ (persister.sized size).yields env now outside batches)
    (henv : env.Predictable persister.model rows {}) (hkeyed : persister.sessions.Keyed)
    (hdistinct : (batches.flatten.map Record.id).Nodup) :
    (persister.forecast now rows {}).clear.Foretells batches yield := by
  have hforetold := foretold_of_yields h henv hkeyed hdistinct
  exact hforetold

theorem sized_returns_iff [KeepsIdentity M] (henv : env.Predictable persister.model rows {})
    (hkeyed : persister.sessions.Keyed) (hdistinct : (batches.flatten.map Record.id).Nodup)
    (size : Nat) (now : Int) (outside : σ) :
    ((persister.sized size).yields env now outside batches).isSome = true ↔
      ∀ batch ∈ batches, ¬ (persister.forecast now rows {}).clear.Hitch batch := by
  refine ⟨fun h => ?_, fun h => ?_⟩
  · obtain ⟨yield, hyield⟩ := Option.isSome_iff_exists.mp h
    exact (foretold_of_sized hyield henv hkeyed hdistinct).smooth
  · have henv : env.Predictable (persister.sized size).model rows {} := henv
    obtain ⟨yield, hyield, -⟩ := yields_of_not_hitch henv hkeyed hdistinct h outside
    exact Option.isSome_iff_exists.mpr ⟨yield, hyield⟩

/-- Two load batch sizes make no difference to what a round comes to, whatever the order in which the
records are drained. -/
theorem load_batch_size_is_immaterial [KeepsIdentity M]
    (henv : env.Predictable persister.model rows {}) (hsound : persister.Sound)
    (hkeyed : persister.sessions.Keyed) (now : Int) (outside : σ)
    (hbatches : persister.Splits size batches) (hothers : persister.Splits size' others) :
    (0 < size → persister.isDue = true → batches = chunks size persister.toDrain →
      ∀ (others : Surroundings σ M) (s : σ), (build others now).run.run (persister.sized size, s) =
        (buildIn others now batches).run.run (persister.sized size, s)) ∧
    ((persister.sized size).yields env now outside batches).isSome =
      ((persister.sized size').yields env now outside others).isSome ∧
    ∀ yield ∈ (persister.sized size).yields env now outside batches,
      yield.LoadsOnce persister now size ∧
        ∀ other ∈ (persister.sized size').yields env now outside others, yield.Alike other := by
  have hdistinct : (batches.flatten.map Record.id).Nodup :=
    ((hbatches.perm.map Record.id).nodup_iff).mpr hsound.keyed.distinct
  have hdistinct' : (others.flatten.map Record.id).Nodup :=
    ((hothers.perm.map Record.id).nodup_iff).mpr hsound.keyed.distinct
  have hperm := hbatches.perm.trans hothers.perm.symm
  refine ⟨?_, ?_, fun yield hyield => ?_⟩
  · rintro hsize hdue rfl others s
    have hsound : (persister.sized size).Sound := ⟨hsound.closed, hsound.keyed, hsize⟩
    exact build_eq_buildIn others now hsound hdue s
  · rw [Bool.eq_iff_iff, sized_returns_iff henv hkeyed hdistinct,
      sized_returns_iff henv hkeyed hdistinct']
    exact ⟨Forecast.smooth_of_perm hperm, Forecast.smooth_of_perm hperm.symm⟩
  · have hforetold := foretold_of_sized hyield henv hkeyed hdistinct
    have hreliable : (persister.forecast now rows {}).clear.Reliable env := reliable henv hkeyed
    refine ⟨hforetold.loadsOnce hsound.keyed.distinct hbatches.perm hbatches.bounded, ?_⟩
    intro other hother
    have hforetold' := foretold_of_sized hother henv hkeyed hdistinct'
    exact hforetold.alike hreliable hdistinct hperm hforetold'

/-- Five records, of which one is cached and two have rows, one by one and two at once. -/
theorem load_batch_size_is_immaterial_of_five :
    let id := fun service => MetricId.onFirstDay (.single service)
    let row := fun asked : MetricId =>
      if asked = id "b" ∨ asked = id "e" then some (SumRecord.new asked 10) else none
    let env : Surroundings Unit SumRecord := {
      load := fun _ ids => pure (.ok (ids.filterMap row).reverse)
      prepare := fun _ _ _ => pure (.ok ())
      dispatch := fun _ _ => pure ()
      forward := fun _ => pure () }
    let records := ["a", "b", "c", "d", "e"].map fun service => SumRecord.new (id service) 1
    let persister : Persister SumRecord := records.foldl Persister.write
      { model := { name := "orders", level := .day }
        sessions := Sessions.empty.put (.new (id "c") 7) 500 }
    let single := (persister.sized 1).yields env 1000 () (chunks 1 persister.toDrain)
    let double := (persister.sized 2).yields env 1000 () (chunks 2 persister.toDrain)
    single.map (·.asked) = some [[id "a"], [id "b"], [id "d"], [id "e"]] ∧
    double.map (·.asked) = some [[id "a", id "b"], [id "d"], [id "e"]] ∧
    double.map (·.writes.map fun write => (write.kind, write.id)) = some
      [(.insert, id "a"), (.update, id "b"), (.update, id "c"), (.insert, id "d"),
        (.update, id "e")] ∧
    ∀ yield ∈ single, yield.LoadsOnce persister 1000 1 ∧ ∀ other ∈ double, yield.Alike other := by
  intro id row env records persister single double
  refine ⟨by decide +kernel, by decide +kernel, by decide +kernel, ?_⟩
  have henv : env.Predictable persister.model row {} :=
    { keyed := fun id record h => by
        simp only [row, Option.mem_def] at h
        split_ifs at h
        cases h
        rfl
      load := fun ids s => ⟨_, rfl, List.reverse_perm _⟩
      prepare := fun _ _ _ => rfl
      dispatch := fun _ _ _ => trivial
      forward := fun _ _ => trivial }
  have hsound : persister.Sound := PersisterState.sound_writes _ ⟨.empty, .empty, by decide⟩
  have hkeyed : persister.sessions.Keyed := by
    show (records.foldl Persister.write _).sessions.Keyed
    rw [(PersisterState.sessions_writes records _).1]
    exact Sessions.Keyed.empty.put (SumRecord.new (id "c") 7) 500
  exact (load_batch_size_is_immaterial henv hsound hkeyed 1000 () (persister.splits_chunks Nat.one_pos)
    (persister.splits_chunks Nat.two_pos)).2.2

end Persister

end Rollup
