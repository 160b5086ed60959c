import Rollup.Proofs.Merging
import Rollup.Proofs.Preparation

/-!
# Building

What a persister gives out for a round, and what the outcome of its writes makes of its session cache.
-/

namespace Rollup

open Rollup.Action

variable {σ M : Type} [Record M]

/-! ## Outcomes -/

/-- What is told of writes that all come to the same end. -/
def outcomes (writes : List (Write M)) (verdict : Verdict) : List (SessionCallback M × Verdict) :=
  writes.filterMap (·.conclude verdict)

/-- Every write tells of its own record and stamp. -/
def Tied (now : Int) (writes : List (Write M)) : Prop :=
  ∀ write ∈ writes, ∃ kind model whole, write = Write.of kind model whole now

theorem Prepares.tied {store : RowStore} {model : Model} {now : Int} {sessions : Sessions M}
    {drained : M} {write : Write M} (h : Prepares store model now sessions drained write) :
    ∃ kind model whole, write = Write.of kind model whole now := by
  cases h with
  | insert => exact ⟨_, _, _, rfl⟩
  | update => exact ⟨_, _, _, rfl⟩

theorem Preparing.tied {store : RowStore} {model : Model} {now : Int} {done : List M}
    {sessions : Sessions M} {writes : List (Write M)}
    (h : Preparing store model now done sessions writes) : Tied now writes := by
  intro write hwrite
  obtain ⟨drained, _, hprepares⟩ := h.prepared write hwrite
  exact hprepares.tied

namespace Sessions

variable {now : Int} {writes : List (Write M)}

theorem session?_settleAll_of_not_mem {outcomes : List (SessionCallback M × Verdict)}
    {id : MetricId} (h : ∀ outcome ∈ outcomes, Record.id outcome.1.record ≠ id)
    (sessions : Sessions M) : (sessions.settleAll outcomes).session? id = sessions.session? id := by
  induction outcomes generalizing sessions with
  | nil => rfl
  | cons first rest ih =>
    show ((sessions.settle first.1 first.2).settleAll rest).session? id = _
    rw [ih fun outcome hmem => h outcome (List.mem_cons_of_mem _ hmem), session?_settle,
      if_neg (h first List.mem_cons_self)]

theorem since_outcomes (htied : Tied now writes) (verdict : Verdict) (sessions : Sessions M) :
    Since now sessions (sessions.settleAll (outcomes writes verdict)) := by
  induction writes generalizing sessions with
  | nil => exact .refl now sessions
  | cons first rest ih =>
    obtain ⟨kind, model, whole, rfl⟩ := htied first List.mem_cons_self
    have hfirst : Since now sessions (sessions.settle ⟨kind, whole, now⟩ verdict) := by
      intro id held hheld
      rw [session?_settle] at hheld
      split_ifs at hheld
      · exact (Session.settle_eq_some hheld).imp_left Int.le_of_eq
      · exact Or.inr hheld
    exact hfirst.trans (ih (fun write hwrite => htied write (List.mem_cons_of_mem _ hwrite)) _)

theorem session?_outcomes_of_not_mem (htied : Tied now writes) (verdict : Verdict) {id : MetricId}
    (h : id ∉ writes.map (·.id)) (sessions : Sessions M) :
    (sessions.settleAll (outcomes writes verdict)).session? id = sessions.session? id := by
  apply session?_settleAll_of_not_mem
  intro outcome houtcome heq
  obtain ⟨write, hwrite, htold⟩ := List.mem_filterMap.mp houtcome
  obtain ⟨kind, model, whole, rfl⟩ := htied write hwrite
  cases htold
  exact h (heq ▸ List.mem_map_of_mem hwrite)

theorem session?_outcomes_of_mem (htied : Tied now writes)
    (hdistinct : (writes.map (·.id)).Nodup) (verdict : Verdict) {kind : RequestKind} {model : Model}
    {whole : M} (hmem : Write.of kind model whole now ∈ writes) (sessions : Sessions M) :
    (sessions.settleAll (outcomes writes verdict)).session? (Record.id whole) =
      Session.settle (sessions.session? (Record.id whole)) ⟨kind, whole, now⟩ verdict := by
  induction writes generalizing sessions with
  | nil => simp at hmem
  | cons first rest ih =>
    have hrest : Tied now rest := fun write hwrite => htied write (List.mem_cons_of_mem _ hwrite)
    rw [List.map_cons, List.nodup_cons] at hdistinct
    obtain ⟨kind', model', whole', rfl⟩ := htied first List.mem_cons_self
    show ((sessions.settle ⟨kind', whole', now⟩ verdict).settleAll (outcomes rest verdict)).session?
      (Record.id whole) = _
    rcases List.mem_cons.mp hmem with heq | hmem
    · obtain ⟨rfl, rfl, rfl⟩ := Write.of_inj heq
      have hlater : Record.id whole ∉ rest.map (·.id) := hdistinct.1
      rw [session?_outcomes_of_not_mem hrest verdict hlater, session?_settle, if_pos rfl]
    · have hne : Record.id whole' ≠ Record.id whole := fun heq =>
        hdistinct.1 (List.mem_map.mpr ⟨_, hmem, heq.symm⟩)
      rw [ih hrest hdistinct.2 hmem, session?_settle, if_neg hne]

omit [Record M] in
theorem session?_evict {cache : Sessions M} {now : Int} {timeout : Duration} {id : MetricId}
    {held : Session M} :
    (cache.evict now timeout).session? id = some held ↔
      cache.session? id = some held ∧ isFresh now held.lastUpdate timeout = true := by
  simp [evict, session?]

end Sessions

namespace Preparing

variable {store : RowStore} {model : Model} {now : Int} {done : List M} {sessions : Sessions M}
  {writes : List (Write M)}

theorem session?_of_not_mem (h : Preparing store model now done sessions writes)
    (verdict : Verdict) {id : MetricId} (hid : id ∉ writes.map (·.id)) :
    (sessions.settleAll (outcomes writes verdict)).session? id = sessions.session? id :=
  Sessions.session?_outcomes_of_not_mem h.tied verdict hid sessions

theorem session?_of_mem (h : Preparing store model now done sessions writes) (verdict : Verdict)
    {kind : RequestKind} {model' : Model} {whole : M}
    (hmem : Write.of kind model' whole now ∈ writes) :
    (sessions.settleAll (outcomes writes verdict)).session? (Record.id whole) =
      Session.settle (sessions.session? (Record.id whole)) ⟨kind, whole, now⟩ verdict :=
  Sessions.session?_outcomes_of_mem h.tied h.distinct verdict hmem sessions

theorem synced_of_failed [KeepsIdentity M] (h : Preparing store model now done sessions writes) :
    (sessions.settleAll (outcomes writes .failed)).Synced store model.storageName := by
  intro id held hheld
  by_cases hid : id ∈ writes.map (·.id)
  · obtain ⟨write, hwrite, rfl⟩ := List.mem_map.mp hid
    obtain ⟨drained, _, hprepares⟩ := h.prepared write hwrite
    have hdrained := hprepares.id_eq
    cases hprepares with
    | @insert whole _ _ uncached =>
      have hwhole : Record.id whole = Record.id drained := hdrained
      have hsettled := h.session?_of_mem .failed hwrite
      rw [hwhole, uncached] at hsettled
      rw [hdrained, hsettled] at hheld
      cases hheld
    | @update cached whole entry decodes _ _ hentry touched =>
      have hwhole : Record.id whole = Record.id drained := hdrained
      have hsettled := h.session?_of_mem .failed hwrite
      rw [hwhole, hentry] at hsettled
      rw [hdrained, hsettled] at hheld
      rw [hdrained]
      simp only [Session.settle, Session.reachedBy_some] at hheld
      split_ifs at hheld with hreached
      cases hheld
      rcases touched with rfl | ⟨rfl, _⟩
      · exact absurd (Int.le_refl now) hreached
      · exact decodes
  · rw [h.session?_of_not_mem .failed hid] at hheld
    exact h.synced id hid held hheld

end Preparing

/-! ## Rows -/

/-- The records of these writes read back from their rows. -/
def ReadBack (writes : List (Write M)) : Prop :=
  ∀ write ∈ writes, ∀ callback ∈ write.callback,
    Record.ofFields write.id write.fields = .ok (.ok callback.record)

theorem ReadBack.of_roundTrips [RoundTrips M] {now : Int} {writes : List (Write M)}
    (h : Tied now writes) :
    ReadBack writes := by
  intro write hwrite callback hcallback
  obtain ⟨kind, model, whole, rfl⟩ := h write hwrite
  cases hcallback
  exact RoundTrips.ofFields_toFields whole

/-- These writes were executed on the rows of a table. -/
structure Wrote (table : String) (writes : List (Write M)) (store store' : RowStore) : Prop where
  written : ∀ write ∈ writes, store'.row? ⟨table, write.id⟩ = some write.fields
  others : ∀ id, id ∉ writes.map (·.id) → store'.row? ⟨table, id⟩ = store.row? ⟨table, id⟩
  failures : store'.failures = store.failures

omit [Record M] in
theorem Wrote.nothing {table : String} {store store' : RowStore} (hrows : store'.rows = store.rows)
    (hfailures : store'.failures = store.failures) :
    Wrote table ([] : List (Write M)) store store' := by
  refine ⟨by simp, fun id _ => ?_, hfailures⟩
  simp only [RowStore.row?, hrows]

omit [Record M] in
theorem Wrote.of_apply {κ : Type} {table : String} {writes : List (Write M)}
    {requests : List (Request κ)} {store store' : RowStore}
    (hkeys : ∀ write ∈ writes, write.key = ⟨table, write.id⟩) (hfit : store'.Fit requests)
    (hrow : ∀ key, store'.row? key = store.row? key) (hfailures : store'.failures = store.failures)
    (hmem : ∀ write ∈ writes, ∃ request ∈ requests,
      request.key = write.key ∧ request.fields = write.fields)
    (honly : ∀ request ∈ requests, ∀ id, request.key = ⟨table, id⟩ → id ∈ writes.map (·.id)) :
    Wrote table writes store (store'.apply requests).2 where
  written write hwrite := by
    obtain ⟨request, hrequest, hkey, hfields⟩ := hmem write hwrite
    rw [← hkeys write hwrite, ← hkey, RowStore.row?_apply_of_mem hfit hrequest, hfields]
  others id hid := by
    rw [RowStore.row?_apply_of_not_mem hfit, hrow]
    intro request hrequest hkey
    exact hid (honly request hrequest id hkey)
  failures := (RowStore.failures_apply _ _).trans hfailures

theorem Prepares.key_eq {store : RowStore} {model : Model} {now : Int} {sessions : Sessions M}
    {drained : M} {write : Write M} (h : Prepares store model now sessions drained write) :
    write.key = ⟨model.storageName, write.id⟩ := by
  cases h <;> rfl

theorem Prepares.fits [KeepsIdentity M] {store : RowStore} {model : Model} {now : Int}
    {sessions : Sessions M} {drained : M} {write : Write M}
    (h : Prepares store model now sessions drained write) :
    store.fits write.kind write.key := by
  rw [h.key_eq, h.id_eq, RowStore.fits_eq]
  cases h with
  | insert absent => simp [Write.of, absent]
  | update decodes =>
    obtain ⟨fields, hrow, _⟩ := decodes
    simp [Write.of, hrow]

namespace Preparing

variable {store : RowStore} {model : Model} {now : Int} {done : List M} {sessions : Sessions M}
  {writes : List (Write M)} {κ : Type}

theorem key_eq (h : Preparing store model now done sessions writes) {write : Write M}
    (hwrite : write ∈ writes) : write.key = ⟨model.storageName, write.id⟩ := by
  obtain ⟨drained, _, hprepares⟩ := h.prepared write hwrite
  exact hprepares.key_eq

theorem fit [KeepsIdentity M] (h : Preparing store model now done sessions writes)
    (f : SessionCallback M → κ) : store.Fit (writes.map (·.map f)) := by
  constructor
  · have hkeys : (writes.map (·.map f)).map (·.key) =
        (writes.map (·.id)).map (RowKey.mk model.storageName) := by
      rw [List.map_map, List.map_map]
      exact List.map_congr_left fun write hwrite => h.key_eq hwrite
    rw [hkeys]
    exact h.distinct.map fun _ _ heq => (RowKey.mk.inj heq).2
  · intro request hrequest
    obtain ⟨write, hwrite, rfl⟩ := List.mem_map.mp hrequest
    obtain ⟨drained, _, hprepares⟩ := h.prepared write hwrite
    exact hprepares.fits

end Preparing

namespace Persister

variable {store : RowStore} {after : List M → σ → Prop} {env : Surroundings σ M} {now : Int}

theorem foldl_settle (told : List (SessionCallback M × Verdict)) (persister : Persister M) :
    told.foldl (fun persister (callback, verdict) => persister.settle callback verdict) persister =
      { persister with sessions := persister.sessions.settleAll told } := by
  induction told generalizing persister with
  | nil => rfl
  | cons first rest ih => exact ih (persister.settle first.1 first.2)

omit [Record M] in
theorem run_rejectAll {τ : Type} (tell : SessionCallback M → Verdict → τ → τ) (writes : List (Write M))
    (s : τ) :
    ((rejectAll (fun callback verdict => modify (tell callback verdict)) writes : StateM τ PUnit).run s).2 =
      (outcomes writes .failed).foldl (fun s (callback, verdict) => tell callback verdict s) s := by
  have hforM : ∀ (told : List (SessionCallback M × Verdict)) (s : τ),
      ((told.forM fun (callback, verdict) => modify (tell callback verdict) :
        StateM τ PUnit).run s).2 = told.foldl (fun s (callback, verdict) => tell callback verdict s) s := by
    intro told
    induction told with
    | nil => exact fun _ => rfl
    | cons first rest ih => exact fun s => ih (tell first.1 first.2 s)
  exact hforM (outcomes writes .failed) s

theorem abandon_eq (persister : Persister M) (writes : List (Write M)) :
    persister.abandon writes =
      { persister with sessions := persister.sessions.settleAll (outcomes writes .failed) } := by
  have hrun := run_rejectAll (fun callback verdict (persister : Persister M) =>
    persister.settle callback verdict) writes persister
  exact hrun.trans (foldl_settle (outcomes writes .failed) persister)

/-- The records that the next round drains. -/
def toDrain (persister : Persister M) : List M := persister.window.active.toList

/-- What a persister is between its rounds: no drain is open, and records are held under their own
identity. -/
structure Sound (persister : Persister M) : Prop where
  closed : persister.window.Closed
  keyed : persister.window.active.Keyed
  loadBatch : 0 < persister.settings.loadBatch

/-- A sound persister whose session cache agrees with the rows. -/
structure AtRest (persister : Persister M) (store : RowStore) : Prop extends Sound persister where
  synced : persister.sessions.Synced store persister.model.storageName

/-- The persister after a drain, with the session cache that the round has left. -/
def drainedTo (persister : Persister M) (sessions : Sessions M) : Persister M :=
  { persister with window := .empty, sessions, rounds := persister.rounds + 1 }

/-- What a round that went through has prepared. -/
structure Built (persister : Persister M) (store : RowStore) (now : Int) (sessions : Sessions M)
    (writes : List (Write M)) : Prop where
  since : Sessions.Since now persister.sessions sessions
  preparing : Preparing store persister.model now persister.toDrain sessions writes
  covers : Smooth store persister.model persister.settings.ttlDays now persister.toDrain →
    Covers store persister.model now persister.toDrain sessions writes

/-- A round that is due drains the window and hands all of it on, and breaks off only if something
keeps it from a write. The session cache then agrees with the rows. A round that is not due is sat
out. -/
theorem build_ends [KeepsIdentity M] (hserves : env.Serves store after) {persister : Persister M}
    (hrest : persister.AtRest store) {outside : σ} (hafter : after [] outside) :
    Ends (build env now) (persister, outside)
      (fun writes last =>
        (persister.isDue = false ∧ writes = [] ∧
          last = ({ persister with rounds := persister.rounds + 1 }, outside)) ∨
        (persister.isDue = true ∧ ∃ sessions, persister.Built store now sessions writes ∧
          last.1 = persister.drainedTo sessions ∧ after persister.toDrain last.2))
      (fun _ last => persister.isDue = true ∧
        ¬ Smooth store persister.model persister.settings.ttlDays now persister.toDrain ∧
        ∃ sessions handed, sessions.Synced store persister.model.storageName ∧
          last.1 = persister.drainedTo sessions ∧ after handed last.2) := by
  unfold build
  simp only [ends_bind, ends_get, ends_set]
  cases hdue : persister.isDue with
  | false =>
    simp only [Bool.not_false, if_true, ends_pure]
    exact Or.inl ⟨trivial, trivial, trivial⟩
  | true =>
    simp only [Bool.not_true, Bool.false_eq_true, if_false]
    rw [hrest.closed.beginDrain, ends_bind, ends_liftM_ok]
    let start : Persister M := { persister with
      window := { active := .empty, inactive := .empty, draining := true }
      rounds := persister.rounds + 1 }
    have hstart : Preparation.Progress store after now start [] []
        { persister := start, outside } := ⟨rfl, .refl _ _, hafter, .start hrest.synced⟩
    have hflatten := flatten_chunks hrest.loadBatch persister.toDrain
    have hdistinct : ((chunks persister.settings.loadBatch persister.toDrain).flatten.map
        Record.id).Nodup := by
      rw [hflatten]
      exact hrest.keyed.distinct
    have hbatches := Preparation.prepareBatches_ends hserves hstart hdistinct
    rw [hflatten] at hbatches
    simp only [Window.take, Buffer.drain]
    unfold Ends at hbatches
    split
    · next round hrun =>
      rw [toDrain, hrun] at hbatches
      obtain ⟨hprogress, hcovered⟩ := hbatches
      simp only [ends_bind, ends_set, ends_pure]
      refine Or.inr ⟨trivial, round.persister.sessions,
        ⟨hprogress.since, hprogress.preparing, hcovered⟩, ?_, ?_⟩
      · show round.persister.endDrain = _
        rw [hprogress.same]
        rfl
      · exact hprogress.outside
    · next fault round hrun =>
      rw [toDrain, hrun] at hbatches
      obtain ⟨⟨handed, hprogress⟩, hrough⟩ := hbatches
      simp only [ends_bind, ends_set, ends_throw]
      refine ⟨trivial, hrough, _, handed, hprogress.preparing.synced_of_failed, ?_,
        hprogress.outside⟩
      show (round.persister.abandon round.writes).endDrain = _
      rw [abandon_eq, hprogress.same]
      rfl

/-! ## A whole round -/

/-- A round of a persister, built at `now` and ended at `later`, with the writes it has executed. -/
inductive Round (persister : Persister M) (store : RowStore) (now later : Int) :
    List (Write M) → Persister M → RowStore → Prop where
  | satOut {store' : RowStore} (due : persister.isDue = false)
      (wrote : Wrote persister.model.storageName ([] : List (Write M)) store store') :
      Round persister store now later []
        ({ persister with rounds := persister.rounds + 1 }.endRound later) store'
  | executed {sessions : Sessions M} {writes : List (Write M)} {store' : RowStore}
      (due : persister.isDue = true) (built : persister.Built store now sessions writes)
      (wrote : Wrote persister.model.storageName writes store store') :
      Round persister store now later writes
        ((persister.drainedTo (sessions.settleAll (outcomes writes .executed))).endRound later) store'
  | failed {sessions : Sessions M} {writes : List (Write M)} {store' : RowStore}
      (due : persister.isDue = true) (built : persister.Built store now sessions writes)
      (failing : store.failures.writes = true)
      (wrote : Wrote persister.model.storageName ([] : List (Write M)) store store') :
      Round persister store now later []
        ((persister.drainedTo (sessions.settleAll (outcomes writes .failed))).endRound later) store'

theorem Round.frame {persister persister' : Persister M} {store store' : RowStore} {now later : Int}
    {writes : List (Write M)} (h : persister.Round store now later writes persister' store')
    (hsound : persister.Sound) : persister'.Sound ∧ persister'.model = persister.model ∧
      persister'.settings = persister.settings := by
  cases h with
  | satOut => exact ⟨⟨hsound.closed, hsound.keyed, hsound.loadBatch⟩, rfl, rfl⟩
  | executed => exact ⟨⟨.empty, .empty, hsound.loadBatch⟩, rfl, rfl⟩
  | failed => exact ⟨⟨.empty, .empty, hsound.loadBatch⟩, rfl, rfl⟩

end Persister

end Rollup
