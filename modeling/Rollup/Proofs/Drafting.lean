import Mathlib.Logic.Relation
import Rollup.Proofs.Building

/-!
# Drafting

What a round may do to its session cache and its writes, whatever the persister's surroundings do: any
call on them may answer with an error, or break the round off. The steps are said once; invariants of a
round are proved step by step.
-/

namespace Rollup

open Rollup.Action

variable {σ M : Type} [Record M]

/-- Surroundings that do as they like, but for two things: a load that answers, answers from the rows
of `store`, and a write that is prepared is the one that was asked for. Once these writes were prepared
and these records handed on, `after` holds outside. -/
structure Surroundings.Honest (env : Surroundings σ M) (store : RowStore) (now : Int)
    (after : List (Write M) → List M → σ → Prop) : Prop where
  load : ∀ (model : Model) (ids : List MetricId) {writes : List (Write M)} {handed : List M} {s : σ},
    after writes handed s → Ends (env.load model ids) s
      (fun answer s' => after writes handed s' ∧
        ∀ loaded, answer = .ok loaded → store.Loads model.storageName ids loaded)
      (fun _ s' => after writes handed s')
  prepare : ∀ (kind : RequestKind) (model : Model) (record : M) {writes : List (Write M)}
    {handed : List M} {s : σ}, after writes handed s → Ends (env.prepare kind model record) s
      (fun answer s' => match answer with
        | .ok () => after (writes ++ [.of kind model record now]) handed s'
        | .error _ => after writes handed s')
      (fun _ s' => after writes handed s')
  dispatch : ∀ (record : M) (kind : EventKind) {writes : List (Write M)} {handed : List M} {s : σ},
    after writes handed s → Ends (env.dispatch record kind) s (fun _ s' => after writes handed s')
      (fun _ s' => after writes handed s')
  forward : ∀ (record : M) {writes : List (Write M)} {handed : List M} {s : σ},
    after writes handed s → Ends (env.forward record) s
      (fun _ s' => after writes (handed ++ [record]) s')
      (fun _ s' => ∃ handed', after writes handed' s')

/-! ## Steps -/

/-- What a round has made so far of the session cache, and the writes it has prepared. -/
structure Draft (M : Type) where
  sessions : Sessions M
  writes : List (Write M) := []

namespace Draft

def ids (draft : Draft M) : List MetricId := draft.writes.map (·.id)

/-- One step of a round. It touches only identities that it has not written. -/
inductive Advances (store : RowStore) (model : Model) (now : Int) : Draft M → Draft M → Prop
  /-- Entries are forgotten, or loaded. -/
  | refresh {draft : Draft M} {sessions : Sessions M} (unwritten : ∀ id ∈ draft.ids,
        sessions.session? id = draft.sessions.session? id)
      (since : Sessions.Since now draft.sessions sessions)
      (entries : ∀ id held, sessions.session? id = some held →
        draft.sessions.session? id = some held ∨ store.Decodes model.storageName id held.record) :
      Advances store model now draft { draft with sessions }
  /-- The write of a row that is not there. It is cached when it is confirmed. -/
  | insert {draft : Draft M} {whole : M} (unwritten : Record.id whole ∉ draft.ids)
      (uncached : draft.sessions.session? (Record.id whole) = none)
      (absent : store.row? ⟨model.storageName, Record.id whole⟩ = none) :
      Advances store model now draft
        { draft with writes := draft.writes ++ [.of .insert model whole now] }
  /-- The write of a cached row. It is cached at once. -/
  | update {draft : Draft M} {whole : M} {held : Session M} (unwritten : Record.id whole ∉ draft.ids)
      (cached : draft.sessions.session? (Record.id whole) = some held)
      (allowed : model.supportUpdate = true) :
      Advances store model now draft
        ⟨draft.sessions.put whole now, draft.writes ++ [.of .update model whole now]⟩

abbrev Advanced (store : RowStore) (model : Model) (now : Int) : Draft M → Draft M → Prop :=
  Relation.ReflTransGen (Advances store model now)

/-- Where a round may break off: between two steps, or when an update was prepared and not cached. -/
inductive Halts (model : Model) (now : Int) (draft : Draft M) : Draft M → Prop
  | between : Halts model now draft draft
  | uncached {whole : M} {held : Session M} (unwritten : Record.id whole ∉ draft.ids)
      (cached : draft.sessions.session? (Record.id whole) = some held)
      (allowed : model.supportUpdate = true) :
      Halts model now draft { draft with writes := draft.writes ++ [.of .update model whole now] }

end Draft

/-! ## Entries -/

def Sessions.Keyed (sessions : Sessions M) : Prop :=
  ∀ id held, sessions.session? id = some held → Record.id held.record = id

theorem Sessions.Keyed.put {sessions : Sessions M} (h : sessions.Keyed) (record : M) (now : Int) :
    (sessions.put record now).Keyed := by
  intro id held hheld
  rw [session?_put] at hheld
  split_ifs at hheld with hput
  · cases hheld
    exact hput.1
  · exact h id held hheld

theorem Sessions.Keyed.of_entries [KeepsIdentity M] {before sessions : Sessions M}
    (h : before.Keyed) {store : RowStore} {table : String}
    (hentries : ∀ id held, sessions.session? id = some held →
      before.session? id = some held ∨ store.Decodes table id held.record) : sessions.Keyed := by
  intro id held hheld
  rcases hentries id held hheld with hbefore | hdecodes
  · exact h id held hbefore
  · exact hdecodes.id_eq

theorem Sessions.Keyed.empty : (Sessions.empty : Sessions M).Keyed := by
  intro id held hheld
  rw [session?_empty] at hheld
  cases hheld

theorem Sessions.Keyed.settle {sessions : Sessions M} (h : sessions.Keyed) (callback : SessionCallback M)
    (verdict : Verdict) : (sessions.settle callback verdict).Keyed := by
  unfold Sessions.settle
  split
  · exact h.put callback.record callback.stamp
  · intro id held hheld
    rw [session?_removeIfNotNewer] at hheld
    split_ifs at hheld
    exact h id held hheld
  · exact h

theorem Sessions.Keyed.evict {sessions : Sessions M} (h : sessions.Keyed) (now : Int) (timeout : Duration) :
    (sessions.evict now timeout).Keyed :=
  fun id held hheld => h id held (session?_evict.mp hheld).1

namespace Preparation

variable {store : RowStore} {after : List (Write M) → List M → σ → Prop} {env : Surroundings σ M}
  {now : Int} {persister : Persister M} {done handed : List M} {round : Preparation σ M}

def draft (round : Preparation σ M) : Draft M := ⟨round.persister.sessions, round.writes⟩

/-- How far the round of a persister has come: it has worked on `done`, and handed on `handed`. -/
structure Underway (store : RowStore) (after : List (Write M) → List M → σ → Prop) (now : Int)
    (persister : Persister M) (done handed : List M) (round : Preparation σ M) : Prop where
  same : round.persister = { persister with sessions := round.persister.sessions }
  advanced : Draft.Advanced store persister.model now ⟨persister.sessions, []⟩ round.draft
  outside : after round.writes handed round.outside
  worked : ∀ id ∈ round.draft.ids, id ∈ done.map Record.id
  keyed : round.persister.sessions.Keyed

structure Halted (store : RowStore) (after : List (Write M) → List M → σ → Prop) (now : Int)
    (persister : Persister M) (round : Preparation σ M) : Prop where
  same : round.persister = { persister with sessions := round.persister.sessions }
  advanced : ∃ draft, Draft.Advanced store persister.model now ⟨persister.sessions, []⟩ draft ∧
    draft.Halts persister.model now round.draft
  outside : ∃ handed, after round.writes handed round.outside

namespace Underway

theorem model_eq (h : Underway store after now persister done handed round) :
    round.persister.model = persister.model := by
  rw [h.same]

theorem goOn {handed' : List M} (h : Underway store after now persister done handed round)
    {outside : σ} (hafter : after round.writes handed' outside) :
    Underway store after now persister done handed' { round with outside } :=
  ⟨h.same, h.advanced, hafter, h.worked, h.keyed⟩

theorem mono {more : List M} (h : Underway store after now persister done handed round)
    (hmore : ∀ record ∈ done, record ∈ more) :
    Underway store after now persister more handed round := by
  refine ⟨h.same, h.advanced, h.outside, fun id hid => ?_, h.keyed⟩
  obtain ⟨record, hrecord, rfl⟩ := List.mem_map.mp (h.worked id hid)
  exact List.mem_map_of_mem (hmore record hrecord)

theorem halt (h : Underway store after now persister done handed round) {outside : σ}
    (hafter : ∃ handed', after round.writes handed' outside) :
    Halted store after now persister { round with outside } :=
  ⟨h.same, ⟨_, h.advanced, .between⟩, hafter⟩

theorem refresh [KeepsIdentity M] (h : Underway store after now persister done handed round)
    {ids : List MetricId} (hfresh : ∀ id ∈ ids, id ∉ done.map Record.id) {sessions : Sessions M}
    {outside : σ} (hafter : after round.writes handed outside)
    (hsince : Sessions.Since now round.persister.sessions sessions)
    (hentries : ∀ id held, sessions.session? id = some held →
      round.persister.sessions.session? id = some held ∨
        store.Decodes persister.model.storageName id held.record)
    (hothers : ∀ id, id ∉ ids → sessions.session? id = round.persister.sessions.session? id) :
    Underway store after now persister done handed (round.leaving sessions outside) := by
  refine ⟨?_, h.advanced.tail (.refresh ?_ hsince hentries), hafter, h.worked,
    h.keyed.of_entries hentries⟩
  · show { round.persister with sessions } = { persister with sessions }
    rw [h.same]
  · intro id hid
    exact hothers id fun hmem => hfresh id hmem (h.worked id hid)

end Underway

/-! ## Calls -/

theorem loadMissing_underway [KeepsIdentity M] (henv : env.Honest store now after) {batch : List M}
    (h : Underway store after now persister done handed round)
    (hdistinct : ((done ++ batch).map Record.id).Nodup) :
    Ends (loadMissing env now batch) round
      (fun answer round' => Underway store after now persister done handed round' ∧
        (answer = .ok () → ∀ record ∈ batch,
          round'.persister.sessions.session? (Record.id record) = none →
          store.row? ⟨persister.model.storageName, Record.id record⟩ = none))
      (fun _ round' => Halted store after now persister round') := by
  rw [List.map_append, List.nodup_append] at hdistinct
  have hfresh : ∀ id ∈ batch.map Record.id, id ∉ done.map Record.id :=
    fun id hid hdone => hdistinct.2.2 id hdone id hid rfl
  -- Expired entries go before the load, so they are gone also where it fails.
  have hpruned : ∀ {sessions : Sessions M} {outside : σ},
      Pruned round.persister.sessions (batch.map Record.id) sessions →
      after round.writes handed outside →
      Underway store after now persister done handed (round.leaving sessions outside) := by
    intro sessions outside hsessions hafter
    exact h.refresh hfresh hafter (hsessions.since now)
      (fun id held hheld => Or.inl (hsessions.kept id held hheld)) hsessions.others
  have hfilled : ∀ {sessions : Sessions M} {outside : σ}, Filled now round.persister.sessions
      (batch.map Record.id) store persister.model.storageName sessions →
      after round.writes handed outside →
      Underway store after now persister done handed (round.leaving sessions outside) ∧
        ∀ record ∈ batch, sessions.session? (Record.id record) = none →
          store.row? ⟨persister.model.storageName, Record.id record⟩ = none := by
    intro sessions outside hsessions hafter
    refine ⟨h.refresh hfresh hafter hsessions.since hsessions.synced hsessions.others, ?_⟩
    exact fun record hrecord => hsessions.absent _ (List.mem_map_of_mem hrecord)
  unfold loadMissing
  rw [ends_bind]
  refine (filterM_isMissing_ends hdistinct.2.1 round).mono ?_ ?_
  · rintro missing _ ⟨sessions, rfl, hchecked⟩
    split_ifs with hempty
    · rw [List.isEmpty_iff] at hempty
      subst hempty
      obtain ⟨hround', habsent⟩ := hfilled (hchecked.fill hdistinct.2.1 (RowStore.loads_nil store _) now)
        h.outside
      exact ⟨hround', fun _ => habsent⟩
    · simp only [ends_bind, ends_get, ends_calling]
      refine (henv.load _ missing h.outside).mono ?_ ?_
      · rintro (error | loaded) outside ⟨hafter, hloaded⟩
        · exact ⟨hpruned hchecked.toPruned hafter, by simp⟩
        · rw [ends_bind, ends_changeSessions, ends_pure]
          have hloads := hloaded loaded rfl
          have hmodel : (round.leaving sessions round.outside).persister.model = persister.model :=
            h.model_eq
          rw [hmodel] at hloads
          obtain ⟨hround', habsent⟩ := hfilled (hchecked.fill hdistinct.2.1 hloads now) hafter
          exact ⟨hround', fun _ => habsent⟩
      · intro _ outside hafter
        exact (hpruned hchecked.toPruned hafter).halt ⟨handed, hafter⟩
  · rintro _ _ ⟨sessions, rfl, hsessions, _⟩
    exact (hpruned hsessions h.outside).halt ⟨handed, h.outside⟩

theorem prepareWrite_underway (henv : env.Honest store now after) (kind : RequestKind) (whole : M)
    (hafter : after round.writes handed round.outside) :
    Ends (prepareWrite env now kind whole) round
      (fun answer round' => match answer with
        | .ok () => ∃ outside, after (round.writes ++ [.of kind round.persister.model whole now]) handed
            outside ∧ round' = { round with
              writes := round.writes ++ [.of kind round.persister.model whole now], outside }
        | .error _ => ∃ outside, after round.writes handed outside ∧ round' = { round with outside })
      (fun _ round' => ∃ writes outside, after writes handed outside ∧
        round' = { round with writes, outside } ∧
        (writes = round.writes ∨
          writes = round.writes ++ [.of kind round.persister.model whole now])) := by
  unfold prepareWrite
  simp only [ends_bind, ends_get, ends_calling]
  refine (henv.prepare kind _ whole hafter).mono ?_ ?_
  · rintro (error | _) outside hafter
    · exact ⟨outside, hafter, rfl⟩
    · simp only [ends_bind, ends_push, ends_calling, ends_pure]
      refine (henv.dispatch whole .total hafter).mono ?_ ?_
      · exact fun _ outside hafter => ⟨outside, hafter, rfl⟩
      · exact fun _ outside hafter => ⟨_, outside, hafter, rfl, Or.inr rfl⟩
  · exact fun _ outside hafter => ⟨_, outside, hafter, rfl, Or.inl rfl⟩

theorem Underway.push {drained whole : M}
    (h : Underway store after now persister done handed round)
    (hid : Record.id whole = Record.id drained) {kind : RequestKind} {sessions : Sessions M} {outside : σ}
    (hstep : Draft.Advances store persister.model now round.draft
      ⟨sessions, round.writes ++ [.of kind persister.model whole now]⟩)
    (hafter : after (round.writes ++ [.of kind persister.model whole now]) handed outside)
    (hkeyed : sessions.Keyed) :
    Underway store after now persister (done ++ [drained]) handed
      { round.leaving sessions outside with
        writes := round.writes ++ [.of kind persister.model whole now] } := by
  refine ⟨?_, h.advanced.tail hstep, hafter, ?_, hkeyed⟩
  · show { round.persister with sessions } = { persister with sessions }
    rw [h.same]
  · intro id hmem
    have hids : Draft.ids ⟨sessions, round.writes ++ [.of kind persister.model whole now]⟩ =
        round.draft.ids ++ [Record.id whole] := List.map_append
    rw [List.map_append, List.map_singleton, ← hid]
    exact (List.mem_append.mp (hids ▸ hmem)).elim
      (fun hmem => List.mem_append_left _ (h.worked id hmem)) (List.mem_append_right _)

theorem prepareRecord_underway [KeepsIdentity M] (henv : env.Honest store now after) {drained : M}
    (h : Underway store after now persister done handed round)
    (hfresh : Record.id drained ∉ done.map Record.id)
    (habsent : round.persister.sessions.session? (Record.id drained) = none →
      store.row? ⟨persister.model.storageName, Record.id drained⟩ = none) :
    Ends (prepareRecord env now drained) round
      (fun _ round' => Underway store after now persister (done ++ [drained]) handed round' ∧
        ∀ id, id ≠ Record.id drained →
          round'.persister.sessions.session? id = round.persister.sessions.session? id)
      (fun _ round' => Halted store after now persister round') := by
  have hmore : ∀ record ∈ done, record ∈ done ++ [drained] := fun _ => List.mem_append_left _
  have hunwritten : Record.id drained ∉ round.draft.ids := fun hmem => hfresh (h.worked _ hmem)
  have hmodel := h.model_eq
  unfold prepareRecord
  simp only [ends_bind, ends_get]
  cases hheld : round.persister.sessions.session? (Record.id drained) with
  | none =>
    simp only [Sessions.get?_eq_none_iff.mpr hheld]
    rw [ends_bind, ends_liftM]
    refine ⟨fun whole hwhole => ?_, fun _ _ => h.halt ⟨handed, h.outside⟩⟩
    have hid : Record.id whole = Record.id drained := KeepsIdentity.id_calculate hwhole
    rw [ends_bind]
    refine (prepareWrite_underway henv .insert whole h.outside).mono ?_ ?_
    · rintro (error | _) _ ⟨outside, hafter, rfl⟩
      · exact ⟨(h.mono hmore).goOn hafter, fun _ _ => rfl⟩
      · rw [hmodel] at hafter ⊢
        refine ⟨h.push hid (.insert ?_ ?_ ?_) hafter h.keyed, fun _ _ => rfl⟩
        · rwa [hid]
        · rwa [hid]
        · rw [hid]
          exact habsent hheld
    · rintro _ _ ⟨writes, outside, hafter, rfl, rfl | rfl⟩
      · exact h.halt ⟨handed, hafter⟩
      · -- The record could not be shown, and its insert stands all the same.
        rw [hmodel] at hafter ⊢
        have hpushed := h.push hid (.insert (by rwa [hid]) (by rwa [hid]) (by
          rw [hid]
          exact habsent hheld)) hafter h.keyed
        exact hpushed.halt ⟨handed, hafter⟩
  | some held =>
    simp only [Sessions.get?_eq_some_iff.mpr ⟨held, hheld, rfl⟩]
    split_ifs with hrefuses
    · exact ⟨h.mono hmore, fun _ _ => rfl⟩
    · simp only [Bool.or_eq_true, Bool.not_eq_true', not_or, Bool.not_eq_false] at hrefuses
      rw [ends_bind, ends_liftM]
      refine ⟨fun whole hwhole => ?_, fun _ _ => h.halt ⟨handed, h.outside⟩⟩
      have hid : Record.id whole = Record.id drained := by
        rw [KeepsIdentity.id_calculate hwhole, ← h.keyed _ _ hheld]
        exact KeepsIdentity.id_combine _ _
      rw [← hid] at hunwritten hheld
      rw [hmodel] at hrefuses
      simp only [ends_bind]
      refine (prepareWrite_underway henv .update whole h.outside).mono ?_ ?_
      · rintro (error | _) _ ⟨outside, hafter, rfl⟩
        · exact ⟨(h.mono hmore).goOn hafter, fun _ _ => rfl⟩
        · rw [hmodel] at hafter
          simp only [ends_bind, ends_changeSessions, ends_pure]
          have hpushed := h.push hid (.update hunwritten hheld hrefuses.1) hafter
            (h.keyed.put whole now)
          rw [← hmodel] at hpushed
          refine ⟨hpushed, fun id hne => ?_⟩
          rw [Sessions.session?_put, if_neg fun hput => hne (hput.1.symm.trans hid)]
      · rintro _ _ ⟨writes, outside, hafter, rfl, rfl | rfl⟩
        · exact h.halt ⟨handed, hafter⟩
        · -- The update stands, and its record did not get into the cache.
          rw [hmodel] at hafter ⊢
          refine ⟨h.same, ⟨_, h.advanced, .uncached hunwritten hheld hrefuses.1⟩, handed, hafter⟩

theorem prepareRecords_underway [KeepsIdentity M] (henv : env.Honest store now after) (failed : Bool)
    {batch : List M} (h : Underway store after now persister done handed round)
    (hdistinct : ((done ++ batch).map Record.id).Nodup)
    (habsent : failed = false → ∀ record ∈ batch,
      round.persister.sessions.session? (Record.id record) = none →
      store.row? ⟨persister.model.storageName, Record.id record⟩ = none) :
    Ends (prepareRecords env now failed batch) round
      (fun _ round' => Underway store after now persister (done ++ batch) (handed ++ batch) round')
      (fun _ round' => Halted store after now persister round') := by
  induction batch generalizing failed done handed round with
  | nil =>
    rw [prepareRecords, ends_pure, List.append_nil, List.append_nil]
    exact h
  | cons drained rest ih =>
    rw [List.append_cons] at hdistinct
    obtain ⟨hfresh, hlater⟩ := distinct_next hdistinct
    -- Every record is handed on, and the rest is worked on as the record leaves it.
    have hrest : ∀ (failed : Bool) (round' : Preparation σ M),
        Underway store after now persister (done ++ [drained]) handed round' →
        (failed = false → ∀ record ∈ rest,
          round'.persister.sessions.session? (Record.id record) = none →
          store.row? ⟨persister.model.storageName, Record.id record⟩ = none) →
        Ends (do calling (env.forward drained); prepareRecords env now failed rest) round'
          (fun _ last => Underway store after now persister (done ++ drained :: rest)
            (handed ++ drained :: rest) last)
          (fun _ last => Halted store after now persister last) := by
      intro failed round' hround' habsent'
      rw [ends_bind, ends_calling, List.append_cons done, List.append_cons handed]
      refine (henv.forward drained hround'.outside).mono ?_ fun _ _ hafter => hround'.halt hafter
      exact fun _ outside hafter => ih failed (hround'.goOn hafter) hdistinct habsent'
    cases failed with
    | true =>
      rw [prepareRecords]
      exact hrest true round (h.mono fun _ => List.mem_append_left _) (by simp)
    | false =>
      rw [prepareRecords, ends_bind]
      refine (prepareRecord_underway henv h hfresh (habsent rfl drained List.mem_cons_self)).mono ?_
        fun _ _ hhalted => hhalted
      rintro answer round' ⟨hround', hothers⟩
      have habsent' : ∀ record ∈ rest,
          round'.persister.sessions.session? (Record.id record) = none →
          store.row? ⟨persister.model.storageName, Record.id record⟩ = none := by
        intro record hrecord hnone
        rw [hothers _ (hlater record hrecord)] at hnone
        exact habsent rfl record (List.mem_cons_of_mem _ hrecord) hnone
      cases answer with
      | error _ => exact hrest true round' hround' (by simp)
      | ok pushed =>
        cases pushed with
        | false => exact hrest false round' hround' fun _ => habsent'
        | true =>
          rw [ends_bind, ends_calling]
          refine (henv.dispatch drained .increment hround'.outside).mono ?_
            fun _ _ hafter => hround'.halt ⟨handed, hafter⟩
          exact fun _ outside hafter => hrest false _ (hround'.goOn hafter) fun _ => habsent'

theorem prepareBatch_underway [KeepsIdentity M] (henv : env.Honest store now after) {batch : List M}
    (h : Underway store after now persister done handed round)
    (hdistinct : ((done ++ batch).map Record.id).Nodup) :
    Ends (prepareBatch env now batch) round
      (fun _ round' => Underway store after now persister (done ++ batch) (handed ++ batch) round')
      (fun _ round' => Halted store after now persister round') := by
  unfold prepareBatch
  rw [ends_bind]
  refine (loadMissing_underway henv h hdistinct).mono ?_ fun _ _ hhalted => hhalted
  rintro (error | _) round' ⟨hround', habsent⟩
  · exact prepareRecords_underway henv true hround' hdistinct (by simp)
  · exact prepareRecords_underway henv false hround' hdistinct fun _ => habsent rfl

theorem prepareBatches_underway [KeepsIdentity M] (henv : env.Honest store now after)
    {batches : List (List M)} (h : Underway store after now persister [] [] round)
    (hdistinct : (batches.flatten.map Record.id).Nodup) :
    Ends (batches.forM (prepareBatch env now)) round
      (fun _ round' =>
        Underway store after now persister batches.flatten batches.flatten round')
      (fun _ round' => Halted store after now persister round') := by
  apply Ends.forM fun seen round' =>
    Underway store after now persister seen.flatten seen.flatten round'
  · exact h
  · intro seen batch rest round' hbatches hround'
    have hbatch : ((seen.flatten ++ batch).map Record.id).Nodup := by
      rw [hbatches, List.flatten_append, List.flatten_cons, ← List.append_assoc,
        List.map_append] at hdistinct
      exact hdistinct.sublist (List.sublist_append_left _ _)
    rw [List.flatten_append, List.flatten_singleton]
    exact prepareBatch_underway henv hround' hbatch

end Preparation

/-! ## A whole round -/

namespace Persister

variable {store : RowStore} {after : List (Write M) → List M → σ → Prop} {env : Surroundings σ M}
  {now : Int} {persister : Persister M} {outside : σ}

/-- The round as it begins: the drain is open, and its records were taken. -/
def opening (persister : Persister M) (outside : σ) : Preparation σ M where
  persister := { persister with
    window := { active := .empty, inactive := .empty, draining := true }
    rounds := persister.rounds + 1 }
  outside

/-- The work on all drained records. -/
def working (env : Surroundings σ M) (now : Int) (persister : Persister M) :
    Action (Preparation σ M) Unit :=
  (chunks persister.settings.loadBatch persister.toDrain).forM (Preparation.prepareBatch env now)

/-- The persister after a round that broke off, with its writes given up. -/
def unwound (round : Preparation σ M) : Persister M :=
  (round.persister.abandon round.writes).endDrain

/-- What a round makes of a persister in honest surroundings. -/
theorem build_drafts [KeepsIdentity M] (henv : env.Honest store now after) (hsound : persister.Sound)
    (hkeyed : persister.sessions.Keyed) (hafter : after [] [] outside) :
    Ends (build env now) (persister, outside)
      (fun writes last =>
        (persister.isDue = false ∧ writes = [] ∧
          last = ({ persister with rounds := persister.rounds + 1 }, outside)) ∨
        (persister.isDue = true ∧ ∃ sessions,
          Draft.Advanced store persister.model now ⟨persister.sessions, []⟩ ⟨sessions, writes⟩ ∧
          last.1 = persister.drainedTo sessions ∧ after writes persister.toDrain last.2))
      (fun fault last => persister.isDue = true ∧ ∃ round,
        (working env now persister).run.run (persister.opening outside) = (.error fault, round) ∧
        Preparation.Halted store after now (persister.opening outside).persister round ∧
        last = (unwound round, round.outside)) := by
  unfold build
  simp only [ends_bind, ends_get, ends_set]
  cases hdue : persister.isDue with
  | false =>
    simp only [Bool.not_false, if_true, ends_pure]
    exact Or.inl ⟨trivial, trivial, trivial⟩
  | true =>
    simp only [Bool.not_true, Bool.false_eq_true, if_false]
    rw [hsound.closed.beginDrain, ends_bind, ends_liftM_ok]
    have hflatten := flatten_chunks hsound.loadBatch persister.toDrain
    have hstart : Preparation.Underway store after now (persister.opening outside).persister [] []
        (persister.opening outside) :=
      ⟨rfl, .refl, hafter, by simp [Draft.ids, Preparation.draft, opening], hkeyed⟩
    have hworked : Ends (working env now persister) (persister.opening outside) _ _ :=
      Preparation.prepareBatches_underway henv hstart (by
        rw [hflatten]
        exact hsound.keyed.distinct)
    rw [hflatten] at hworked
    unfold Ends at hworked
    split
    · next round hrun =>
      have hrun : (working env now persister).run.run (persister.opening outside) = (.ok (), round) :=
        hrun
      rw [hrun] at hworked
      simp only [ends_bind, ends_set, ends_pure]
      refine Or.inr ⟨trivial, round.persister.sessions, hworked.advanced, ?_, hworked.outside⟩
      show round.persister.endDrain = _
      rw [hworked.same]
      rfl
    · next fault round hrun =>
      have hrun : (working env now persister).run.run (persister.opening outside) =
        (.error fault, round) := hrun
      rw [hrun] at hworked
      simp only [ends_bind, ends_set, ends_throw]
      exact ⟨trivial, round, hrun, hworked, rfl⟩

theorem unwound_eq {round : Preparation σ M}
    (h : Preparation.Halted store after now (persister.opening outside).persister round) :
    unwound round = persister.drainedTo
      (round.persister.sessions.settleAll (outcomes round.writes .failed)) := by
  unfold unwound
  rw [abandon_eq, h.same]
  rfl

end Persister

end Rollup
