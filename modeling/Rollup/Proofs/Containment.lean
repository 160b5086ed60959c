import Mathlib.Data.List.TakeWhile
import Rollup.Proofs.BrokenRounds
import Rollup.Proofs.Forecasts

/-!
# Containment

A load or a write that fails gives up the rest of its batch, and nothing else: the records before the
first failure of a batch and the other batches come to what they come to without it. Every drained
record is handed on all the same.
-/

namespace Rollup

variable {σ M : Type}

/-! ## Some of the records -/

theorem filter_mem_of_sublist {α κ : Type} [DecidableEq κ] {name : α → κ} {part whole : List α}
    (h : part.Sublist whole) (hdistinct : (whole.map name).Nodup) :
    whole.filter (fun item => decide (name item ∈ part.map name)) = part := by
  induction h with
  | slnil => rfl
  | @cons part whole item h ih =>
    obtain ⟨hfresh, hdistinct⟩ := List.nodup_cons.mp hdistinct
    have hout : name item ∉ part.map name := fun hmem => hfresh ((h.map name).subset hmem)
    rw [List.filter_cons_of_neg (by simpa using hout), ih hdistinct]
  | @cons_cons part whole item h ih =>
    obtain ⟨hfresh, hdistinct⟩ := List.nodup_cons.mp hdistinct
    rw [List.filter_cons_of_pos (by simp)]
    refine congrArg _ (Eq.trans (List.filter_congr fun other hother => ?_) (ih hdistinct))
    have hne : name other ≠ name item := fun heq => hfresh (heq ▸ List.mem_map_of_mem hother)
    simp [hne]

theorem filter_flatMap_of_name {α β κ : Type} {f : α → List β} {name : β → κ} {key : α → κ}
    (h : ∀ item, ∀ result ∈ f item, name result = key item) (keep : κ → Bool) (items : List α) :
    (items.flatMap f).filter (keep <| name ·) = (items.filter (keep <| key ·)).flatMap f := by
  induction items with
  | nil => rfl
  | cons item rest ih =>
    have hitem : (f item).filter (keep <| name ·) = if keep (key item) then f item else [] := by
      split_ifs with hkeep
      · exact List.filter_eq_self.mpr fun result hresult => (h item result hresult).symm ▸ hkeep
      · exact List.filter_eq_nil_iff.mpr fun result hresult => (h item result hresult).symm ▸ hkeep
    rw [List.flatMap_cons, List.filter_append, ih, hitem]
    cases hkeep : keep (key item) <;> simp [hkeep]

/-- One round comes to the same as the other for the identities that are kept, and to nothing for the
others. -/
structure Yield.Restricts [Record M] (whole part : Yield M) (keep : MetricId → Bool) : Prop where
  writes : part.writes = whole.writes.filter (keep ·.id)
  events : part.events = whole.events.filter fun event => keep (Record.id event.1)
  entries : ∀ id, keep id → part.sessions.session? id = whole.sessions.session? id

namespace Forecast

variable [Record M] {forecast : Forecast M} {env : Surroundings σ M} {batches : List (List M)}

theorem spared_sublist (batch : List M) : (forecast.spared batch).Sublist batch := by
  unfold spared
  split_ifs
  · exact List.nil_sublist _
  · exact List.takeWhile_sublist _

theorem flatMap_spared_sublist (forecast : Forecast M) (batches : List (List M)) :
    (batches.flatMap forecast.spared).Sublist batches.flatten := by
  induction batches with
  | nil => exact .slnil
  | cons batch rest ih => exact (spared_sublist batch).append ih

theorem Reliable.writes_of_kept [KeepsIdentity M] (h : forecast.Reliable env) (keep : MetricId → Bool)
    {whole kept : List M} (hkept : whole.filter (keep <| Record.id ·) = kept) :
    (whole.flatMap forecast.writesOf).filter (keep ·.id) = kept.flatMap forecast.writesOf := by
  rw [← hkept]
  exact filter_flatMap_of_name (fun _ _ => h.id_writesOf) keep whole

theorem Reliable.events_of_kept [KeepsIdentity M] (h : forecast.Reliable env) (keep : MetricId → Bool)
    {whole kept : List M} (hkept : whole.filter (keep <| Record.id ·) = kept) :
    (whole.flatMap forecast.eventsOf).filter (fun event => keep (Record.id event.1)) =
      kept.flatMap forecast.eventsOf := by
  rw [← hkept]
  exact filter_flatMap_of_name (fun _ _ => h.id_eventsOf) keep whole

/-! ## Without failures -/

/-- The same forecast, but nothing is going to fail. -/
def clear (forecast : Forecast M) : Forecast M := { forecast with mishaps := {} }

@[simp]
theorem loadFails_clear (batch : List M) : forecast.clear.loadFails batch = false := by
  simp [loadFails, clear]

@[simp]
theorem isFailed_fate_clear (drained : M) : (forecast.clear.fate drained).isFailed = false := by
  unfold fate
  split
  · rfl
  · rfl

@[simp]
theorem spared_clear (batch : List M) : forecast.clear.spared batch = batch := by
  unfold spared
  rw [loadFails_clear, if_neg Bool.false_ne_true, List.takeWhile_eq_self_iff.mpr (by simp)]

theorem flatMap_spared_clear (batches : List (List M)) :
    batches.flatMap forecast.clear.spared = batches.flatten := by
  rw [List.flatMap_def, List.map_congr_left fun batch _ => spared_clear batch, List.map_id']

theorem fate_clear {drained : M} (h : (forecast.fate drained).isFailed = false) :
    forecast.clear.fate drained = forecast.fate drained := by
  have hdue : forecast.clear.due drained = forecast.due drained := rfl
  unfold fate at h ⊢
  rw [hdue]
  split
  · next hdue =>
    rw [hdue] at h
    dsimp only at h
    split_ifs at h with hfails
    · cases h
    · simp [clear, hfails]
  · rfl

theorem isFailed_of_mem_spared {batch : List M} {drained : M} (h : drained ∈ forecast.spared batch) :
    (forecast.fate drained).isFailed = false := by
  unfold spared at h
  split_ifs at h
  · cases h
  · simpa using List.mem_takeWhile_imp h

theorem Hitch.clear {batch : List M} (h : forecast.Hitch batch) : forecast.clear.Hitch batch := by
  rcases h with hunclear | ⟨drained, fault, ⟨-, before, after, hbatch, -⟩, hfault⟩
  · exact .inl hunclear
  · exact .inr ⟨drained, fault, ⟨loadFails_clear batch, before, after, hbatch, by simp⟩, hfault⟩

variable {yield other : Yield M}

theorem Foretells.clear_restricts [KeepsIdentity M] (henv : forecast.clear.Reliable env)
    (hdistinct : (batches.flatten.map Record.id).Nodup)
    (h : forecast.Foretells batches yield) (hclear : forecast.clear.Foretells batches other) :
    other.Restricts yield (· ∈ (batches.flatMap forecast.spared).map Record.id) := by
  have hfate : ∀ drained ∈ batches.flatMap forecast.spared,
      forecast.clear.fate drained = forecast.fate drained := by
    intro drained hspared
    obtain ⟨batch, -, hspared⟩ := List.mem_flatMap.mp hspared
    exact fate_clear (isFailed_of_mem_spared hspared)
  have hkept := filter_mem_of_sublist (forecast.flatMap_spared_sublist batches) hdistinct
  refine ⟨?_, ?_, fun id hid => ?_⟩
  · rw [hclear.writes, h.writes, flatMap_spared_clear]
    refine Eq.trans (List.flatMap_congr fun drained hspared => ?_)
      (henv.writes_of_kept (fun id => decide (id ∈ _)) hkept).symm
    unfold writesOf
    rw [hfate drained hspared]
    rfl
  · rw [hclear.events, h.events, flatMap_spared_clear]
    refine Eq.trans (List.flatMap_congr fun drained hspared => ?_)
      (henv.events_of_kept (fun id => decide (id ∈ _)) hkept).symm
    unfold eventsOf
    rw [hfate drained hspared]
  · obtain ⟨drained, hspared, rfl⟩ := List.mem_map.mp (of_decide_eq_true hid)
    obtain ⟨batch, hbatch, hmem⟩ := List.mem_flatMap.mp hspared
    rw [h.spared batch hbatch drained hmem, hclear.spared batch hbatch drained
      (by simpa using (spared_sublist batch).subset hmem), hfate drained hspared]
    rfl

/-! ## Without a batch -/

omit forecast env batches yield other in
theorem not_mem_of_other {front back : List (List M)} {batch : List M}
    (hdistinct : ((front ++ batch :: back).flatten.map Record.id).Nodup) :
    ∀ drained ∈ (front ++ back).flatten, Record.id drained ∉ batch.map Record.id := by
  intro drained hdrained hid
  have hperm : (front ++ batch :: back).flatten.Perm (batch ++ (front ++ back).flatten) := by
    simpa using List.perm_append_comm_assoc front.flatten batch back.flatten
  rw [(hperm.map Record.id).nodup_iff, List.map_append, List.nodup_append] at hdistinct
  exact hdistinct.2.2 _ hid _ (List.mem_map_of_mem hdrained) rfl

theorem Foretells.others_restrict [KeepsIdentity M] (henv : forecast.Reliable env)
    {front back : List (List M)} {batch : List M}
    (hdistinct : ((front ++ batch :: back).flatten.map Record.id).Nodup)
    (h : forecast.Foretells (front ++ batch :: back) yield)
    (hothers : forecast.Foretells (front ++ back) other) :
    yield.Restricts other (· ∉ batch.map Record.id) := by
  have hkept : ((front ++ batch :: back).flatMap forecast.spared).filter
      (fun drained => decide (Record.id drained ∉ batch.map Record.id)) =
        (front ++ back).flatMap forecast.spared := by
    have hsame : ∀ its : List (List M), its.flatten.Sublist (front ++ back).flatten →
        (its.flatMap forecast.spared).filter
          (fun drained => decide (Record.id drained ∉ batch.map Record.id)) =
            its.flatMap forecast.spared := by
      intro its hits
      refine List.filter_eq_self.mpr fun drained hdrained => decide_eq_true ?_
      exact not_mem_of_other hdistinct drained
        (hits.subset ((forecast.flatMap_spared_sublist its).subset hdrained))
    have hnone : (forecast.spared batch).filter
        (fun drained => decide (Record.id drained ∉ batch.map Record.id)) = [] := by
      refine List.filter_eq_nil_iff.mpr fun drained hdrained hout => of_decide_eq_true hout ?_
      exact List.mem_map_of_mem ((spared_sublist batch).subset hdrained)
    rw [List.flatMap_append, List.flatMap_cons, List.filter_append, List.filter_append, hnone,
      hsame front (by simp), hsame back (by simp), List.flatMap_append, List.nil_append]
  refine ⟨?_, ?_, fun id hid => ?_⟩
  · rw [h.writes, hothers.writes]
    exact (henv.writes_of_kept (fun id => decide (id ∉ _)) hkept).symm
  · rw [h.events, hothers.events]
    exact (henv.events_of_kept (fun id => decide (id ∉ _)) hkept).symm
  · have hid := of_decide_eq_true hid
    by_cases hits : id ∈ (front ++ back).flatten.map Record.id
    · obtain ⟨drained, hdrained, rfl⟩ := List.mem_map.mp hits
      obtain ⟨its, hits, hdrained⟩ := List.mem_flatten.mp hdrained
      have hits' : its ∈ front ++ batch :: back := by
        simp only [List.mem_append, List.mem_cons] at hits ⊢
        tauto
      by_cases hspared : drained ∈ forecast.spared its
      · rw [h.spared its hits' drained hspared, hothers.spared its hits drained hspared]
      · rw [h.lost its hits' drained hdrained hspared, hothers.lost its hits drained hdrained hspared]
    · rw [hothers.others id hits, h.others]
      simp only [List.flatten_append, List.flatten_cons, List.map_append, List.mem_append] at hits ⊢
      tauto

/-! ## What is lost -/

theorem Foretells.not_about_lost [KeepsIdentity M] (henv : forecast.Reliable env)
    (hdistinct : (batches.flatten.map Record.id).Nodup) (h : forecast.Foretells batches yield)
    {batch : List M} (hbatch : batch ∈ batches) {drained : M} (hdrained : drained ∈ batch)
    (hlost : drained ∉ forecast.spared batch) :
    (∀ write ∈ yield.writes, write.id ≠ Record.id drained) ∧
      ∀ event ∈ yield.events, Record.id event.1 ≠ Record.id drained := by
  -- An identity is drained once, by one batch.
  have hspared : ∀ other ∈ batches.flatMap forecast.spared, Record.id other ≠ Record.id drained := by
    intro other hother heq
    obtain rfl : other = drained := List.inj_on_of_nodup_map hdistinct
      ((forecast.flatMap_spared_sublist batches).subset hother)
      (List.mem_flatten.mpr ⟨batch, hbatch, hdrained⟩) heq
    obtain ⟨front, back, rfl⟩ := List.append_of_mem hbatch
    rw [List.flatMap_append, List.flatMap_cons, List.mem_append, List.mem_append] at hother
    rcases hother with hother | hother | hother
    · exact not_mem_of_other hdistinct other
        (by simp [(forecast.flatMap_spared_sublist front).subset hother]) (List.mem_map_of_mem hdrained)
    · exact hlost hother
    · exact not_mem_of_other hdistinct other
        (by simp [(forecast.flatMap_spared_sublist back).subset hother]) (List.mem_map_of_mem hdrained)
  refine ⟨fun write hwrite heq => ?_, fun event hevent heq => ?_⟩
  · rw [h.writes] at hwrite
    obtain ⟨other, hother, hwrite⟩ := List.mem_flatMap.mp hwrite
    exact hspared other hother ((henv.id_writesOf hwrite).symm.trans heq)
  · rw [h.events] at hevent
    obtain ⟨other, hother, hevent⟩ := List.mem_flatMap.mp hevent
    exact hspared other hother ((henv.id_eventsOf hevent).symm.trans heq)

end Forecast

/-! ## Rounds -/

namespace Persister

variable [Record M] {env : Surroundings σ M} {rows : MetricId → Option M} {persister : Persister M}
  {batches : List (List M)}

/-- What a round has come to, whatever failed of it. -/
structure Contained (persister : Persister M) (env : Surroundings σ M) (now : Int) (outside : σ)
    (forecast : Forecast M) (batches : List (List M)) (yield : Yield M) : Prop where
  forwarded : yield.forwarded = batches.flatten ∧ (yield.forwarded.map Record.id).Nodup
  /-- A record that fails or comes after one that fails leaves the entry that was found unless its row
  had lapsed, or the row that was loaded. -/
  lost : ∀ batch ∈ batches, ∀ drained ∈ batch, drained ∉ forecast.spared batch →
    (∀ write ∈ yield.writes, write.id ≠ Record.id drained) ∧
    (∀ event ∈ yield.events, Record.id event.1 ≠ Record.id drained) ∧
    yield.sessions.session? (Record.id drained) = forecast.opened batch (Record.id drained)
  untouched : ∀ id ∉ persister.toDrain.map Record.id,
    yield.sessions.session? id = persister.sessions.session? id
  /-- For the others it makes no difference whether a batch is there. -/
  others : ∀ front batch back, batches = front ++ batch :: back →
    ∃ other ∈ persister.yields env now outside (front ++ back),
      yield.Restricts other (· ∉ batch.map Record.id)

/-- Whatever loads and writes fail, the records before the first failure of their batch come to what
they come to without failures, nothing comes of the rest of the batch, and the other batches do not
notice. -/
theorem failures_stay_in_their_batch [KeepsIdentity M]
    (henv : env.Predictable persister.model rows {}) (hsound : persister.Sound)
    (hkeyed : persister.sessions.Keyed) (mishaps : Mishaps) (now : Int) (outside : σ)
    (hbatches : batches.flatten.Perm persister.toDrain) :
    let forecast := persister.forecast now rows mishaps
    let spared := (batches.flatMap forecast.spared).map Record.id
    (persister.isDue = true → batches = chunks persister.settings.loadBatch persister.toDrain →
      ∀ (others : Surroundings σ M) (s : σ), (build others now).run.run (persister, s) =
        (buildIn others now batches).run.run (persister, s)) ∧
    (∀ clear ∈ persister.yields env now outside batches,
      ∃ beset ∈ persister.yields (env.beset mishaps) now outside batches,
        clear.Restricts beset (· ∈ spared)) ∧
    ∀ beset ∈ persister.yields (env.beset mishaps) now outside batches,
      Contained persister (env.beset mishaps) now outside forecast batches beset := by
  intro forecast spared
  have hdistinct : (batches.flatten.map Record.id).Nodup :=
    ((hbatches.map Record.id).nodup_iff).mpr hsound.keyed.distinct
  have hreliable : forecast.Reliable (env.beset mishaps) := reliable (henv.beset mishaps) hkeyed
  refine ⟨?_, fun clear hclear => ?_, fun beset hbeset => ?_⟩
  · rintro hdue rfl others s
    exact build_eq_buildIn others now hsound hdue s
  · have hclear : forecast.clear.Foretells batches clear :=
      foretold_of_yields hclear henv hkeyed hdistinct
    obtain ⟨beset, hbeset, hforetold⟩ := yields_of_not_hitch (henv.beset mishaps) hkeyed hdistinct
      (fun batch hbatch hhitch => hclear.smooth batch hbatch hhitch.clear) outside
    exact ⟨beset, hbeset, hforetold.clear_restricts (reliable henv hkeyed) hdistinct hclear⟩
  · have hforetold := foretold_of_yields hbeset (henv.beset mishaps) hkeyed hdistinct
    refine ⟨⟨hforetold.forwarded, ?_⟩, fun batch hbatch drained hdrained hlost => ?_, ?_, ?_⟩
    · rwa [hforetold.forwarded]
    · obtain ⟨hwrites, hevents⟩ :=
        hforetold.not_about_lost hreliable hdistinct hbatch hdrained hlost
      exact ⟨hwrites, hevents, hforetold.lost batch hbatch drained hdrained hlost⟩
    · intro id hid
      exact hforetold.others id fun hmem => hid ((hbatches.map Record.id).subset hmem)
    · rintro front batch back rfl
      have hothers : ((front ++ back).flatten.map Record.id).Nodup := by
        refine hdistinct.sublist (.map _ ?_)
        simp
      obtain ⟨other, hother, hforetold'⟩ := yields_of_not_hitch (henv.beset mishaps) hkeyed hothers
        (fun its hits => hforetold.smooth its (by
          simp only [List.mem_append, List.mem_cons] at hits ⊢
          tauto)) outside
      exact ⟨other, hother, hforetold.others_restrict hreliable hdistinct hforetold'⟩

/-- Of three batches the first one cannot prepare its second write and the second one cannot load. -/
theorem failures_stay_in_their_batch_of_three :
    let id := fun service => MetricId.onFirstDay (.single service)
    let row := fun id : MetricId => some (SumRecord.new id 10)
    let env : Surroundings Unit SumRecord := {
      load := fun _ ids => pure (.ok (ids.filterMap row))
      prepare := fun _ _ _ => pure (.ok ())
      dispatch := fun _ _ => pure ()
      forward := fun _ => pure () }
    let mishaps : Mishaps := {
      load := fun ids => if ids = [id "c", id "d"] then some (.unavailable "no route") else none
      prepare := fun prepared => if prepared = id "b" then some (.backend "too long") else none }
    let records := ["a", "b", "c", "d", "e"].map fun service => SumRecord.new (id service) 1
    let persister : Persister SumRecord := records.foldl Persister.write
      { model := { name := "orders", level := .day }, settings := { loadBatch := 2 } }
    let batches := chunks 2 persister.toDrain
    batches.map (·.map Record.id) = [[id "a", id "b"], [id "c", id "d"], [id "e"]] ∧
    (persister.yields (env.beset mishaps) 1000 () batches).map (·.writes.map (·.id)) =
      some [id "a", id "e"] ∧
    (persister.yields env 1000 () batches).isSome ∧
    (∀ clear ∈ persister.yields env 1000 () batches,
      ∃ beset ∈ persister.yields (env.beset mishaps) 1000 () batches, clear.Restricts beset
        (· ∈ (batches.flatMap (persister.forecast 1000 row mishaps).spared).map Record.id)) ∧
    ∀ beset ∈ persister.yields (env.beset mishaps) 1000 () batches,
      Contained persister (env.beset mishaps) 1000 () (persister.forecast 1000 row mishaps) batches
        beset := by
  intro id row env mishaps records persister batches
  refine ⟨by decide +kernel, by decide +kernel, by decide +kernel, ?_⟩
  have henv : env.Predictable persister.model row {} :=
    { keyed := fun id record h => by cases h; rfl
      load := fun ids s => ⟨_, rfl, .refl _⟩
      prepare := fun _ _ _ => rfl
      dispatch := fun _ _ _ => trivial
      forward := fun _ _ => trivial }
  have hsound : persister.Sound := PersisterState.sound_writes _ ⟨.empty, .empty, by decide⟩
  have hbatches : batches.flatten.Perm persister.toDrain := by
    rw [flatten_chunks (by decide)]
  exact (failures_stay_in_their_batch henv hsound .empty mishaps 1000 () hbatches).2

end Persister

end Rollup
