import Rollup.Proofs.TableMatch

/-!
# Insertions

A round that nothing keeps from its writes inserts each drained record that has no row. For that the
cached records need not be those that the rows read back as: it is enough that a cached identity has a
row, and that what is drained merges with what is cached.
-/

namespace Rollup

open Rollup.Action

variable {σ M : Type} [Record M]

/-- A cached record whose row is there, and with which a drained record of its identity merges. -/
structure Workable (store : RowStore) (model : Model) (drained : List M) (id : MetricId) (held : M) :
    Prop where
  holds : store.Holds model.storageName id held
  merges : ∀ record ∈ drained, Record.id record = id → (Record.combine held record).1 = true →
    ∃ whole, Record.calculate (Record.absorb held record) = .ok whole

theorem Workable.of_decodes [KeepsIdentity M] {store : RowStore} {model : Model} {ttlDays : Nat}
    {now : Int} {drained : List M} (hsmooth : Smooth store model ttlDays now drained) {id : MetricId}
    {held : M} (h : store.Decodes model.storageName id held) : Workable store model drained id held := by
  refine ⟨(RowStore.backs_holds store _).of_decodes h, ?_⟩
  rintro record hrecord rfl hcombined
  exact hsmooth.updates record hrecord held h hcombined

namespace Preparation

variable {store : RowStore} {after : List M → σ → Prop} {env : Surroundings σ M} {now : Int}
  {persister : Persister M} {drained done handed : List M} {round : Preparation σ M}

/-- How far a round has come: it has worked on `done`, and inserted what had no row. -/
structure Inserting (store : RowStore) (after : List M → σ → Prop) (now : Int)
    (persister : Persister M) (drained done handed : List M) (round : Preparation σ M) : Prop where
  same : round.persister = { persister with sessions := round.persister.sessions }
  outside : after handed round.outside
  entries : ∀ id held, id ∉ done.map Record.id → round.persister.sessions.session? id = some held →
    Workable store persister.model drained id held.record
  inserted : ∀ record ∈ done, store.row? ⟨persister.model.storageName, Record.id record⟩ = none →
    ∃ whole, Record.calculate record = .ok whole ∧
      Write.of .insert persister.model whole now ∈ round.writes

namespace Inserting

theorem model_eq (h : Inserting store after now persister drained done handed round) :
    round.persister.model = persister.model := by
  rw [h.same]

theorem settings_eq (h : Inserting store after now persister drained done handed round) :
    round.persister.settings = persister.settings := by
  rw [h.same]

theorem goOn {handed' : List M} (h : Inserting store after now persister drained done handed round)
    {outside : σ} (hafter : after handed' outside) :
    Inserting store after now persister drained done handed' { round with outside } :=
  ⟨h.same, hafter, h.entries, h.inserted⟩

theorem advance (h : Inserting store after now persister drained done handed round) {record : M}
    {sessions : Sessions M} {writes : List (Write M)} {outside : σ} (hafter : after handed outside)
    (hothers : ∀ id, id ≠ Record.id record →
      sessions.session? id = round.persister.sessions.session? id)
    (hwrites : ∀ write ∈ round.writes, write ∈ writes)
    (hrecord : store.row? ⟨persister.model.storageName, Record.id record⟩ = none →
      ∃ whole, Record.calculate record = .ok whole ∧
        Write.of .insert persister.model whole now ∈ writes) :
    Inserting store after now persister drained (done ++ [record]) handed
      { round.leaving sessions outside with writes } := by
  refine ⟨?_, hafter, fun id held hid hheld => ?_, fun other hother hrow => ?_⟩
  · show { round.persister with sessions } = { persister with sessions }
    rw [h.same]
  · rw [List.map_append, List.mem_append, not_or] at hid
    have hne : id ≠ Record.id record := fun heq => hid.2 (heq ▸ List.mem_singleton_self _)
    exact h.entries id held hid.1 ((hothers id hne).symm.trans hheld)
  · rcases List.mem_append.mp hother with hother | hother
    · obtain ⟨whole, hwhole, hwrite⟩ := h.inserted other hother hrow
      exact ⟨whole, hwhole, hwrites _ hwrite⟩
    · rw [List.mem_singleton.mp hother] at hrow ⊢
      exact hrecord hrow

end Inserting

variable [KeepsIdentity M]

theorem loadMissing_inserting (hserves : env.Serves store after)
    (hsmooth : Smooth store persister.model persister.settings.ttlDays now drained)
    (h : Inserting store after now persister drained done handed round) {batch : List M}
    (hbatch : ∀ record ∈ batch, record ∈ drained)
    (hdistinct : ((done ++ batch).map Record.id).Nodup) :
    Ends (loadMissing env now batch) round
      (fun answer round' => answer = .ok () ∧
        Inserting store after now persister drained done handed round' ∧
        Absent store persister.model round'.persister.sessions batch)
      (fun _ _ => False) := by
  rw [List.map_append, List.nodup_append] at hdistinct
  have hfresh : ∀ id ∈ batch.map Record.id, id ∉ done.map Record.id :=
    fun id hid hdone => hdistinct.2.2 id hdone id hid rfl
  have hkeyed : ∀ id ∈ batch.map Record.id, ∀ held,
      round.persister.sessions.session? id = some held → Record.id held.record = id :=
    fun id hid held hheld => (h.entries id held (hfresh id hid) hheld).holds.1
  have hpart := hsmooth.mono hbatch
  refine (loadMissing_ends hserves h.outside hdistinct.2.1 hkeyed).mono ?_ ?_
  · rw [h.model_eq, h.settings_eq]
    rintro (error | _) _ ⟨sessions, outside, rfl, hafter, hanswer⟩
    · exact absurd hpart hanswer.2
    · refine ⟨rfl, ⟨?_, hafter, fun id held hid hheld => ?_, h.inserted⟩, fun record hrecord => ?_⟩
      · show { round.persister with sessions } = { persister with sessions }
        rw [h.same]
      · rcases hanswer.synced id held hheld with hbefore | hdecodes
        · exact h.entries id held hid hbefore
        · exact .of_decodes hsmooth hdecodes
      · exact hanswer.absent _ (List.mem_map_of_mem hrecord)
  · rw [h.model_eq, h.settings_eq]
    rintro _ _ ⟨_, _, _, _, _, hrough⟩
    exact hrough hpart

theorem prepareRecord_inserting (hserves : env.Serves store after)
    (hsmooth : Smooth store persister.model persister.settings.ttlDays now drained)
    (h : Inserting store after now persister drained done handed round) {record : M}
    (hrecord : record ∈ drained) (hfresh : Record.id record ∉ done.map Record.id)
    (habsent : round.persister.sessions.session? (Record.id record) = none →
      store.row? ⟨persister.model.storageName, Record.id record⟩ = none) :
    Ends (prepareRecord env now record) round
      (fun answer round' => answer.isOk = true ∧
        Inserting store after now persister drained (done ++ [record]) handed round' ∧
        ∀ id, id ≠ Record.id record →
          round'.persister.sessions.session? id = round.persister.sessions.session? id)
      (fun _ _ => False) := by
  have hprepares : ¬ store.failures.prepares = true := by simp [hsmooth.prepares]
  unfold prepareRecord
  simp only [ends_bind, ends_get]
  cases hheld : round.persister.sessions.session? (Record.id record) with
  | none =>
    obtain ⟨whole, hwhole⟩ := hsmooth.inserts record hrecord (habsent hheld)
    simp only [Sessions.get?_eq_none_iff.mpr hheld, hwhole]
    rw [ends_bind, ends_liftM_ok, ends_bind]
    refine (prepareWrite_ends hserves .insert whole h.outside).mono ?_ fun _ _ h => h
    rintro (error | _) round' ⟨hafter, hround⟩
    · exact absurd hround.2 hprepares
    · rw [hround, h.model_eq]
      refine ⟨rfl, h.advance hafter (fun _ _ => rfl) (fun _ => List.mem_append_left _) fun _ => ?_,
        fun _ _ => rfl⟩
      exact ⟨whole, hwhole, by simp⟩
  | some held =>
    have hentry := h.entries _ held hfresh hheld
    have hthere : ∀ {writes : List (Write M)},
        store.row? ⟨persister.model.storageName, Record.id record⟩ = none →
        ∃ whole, Record.calculate record = .ok whole ∧
          Write.of .insert persister.model whole now ∈ writes :=
      fun hrow => absurd hrow hentry.holds.2
    simp only [Sessions.get?_eq_some_iff.mpr ⟨held, hheld, rfl⟩]
    split_ifs with hrefuses
    · exact ⟨rfl, h.advance h.outside (fun _ _ => rfl) (fun _ => id) hthere, fun _ _ => rfl⟩
    · simp only [Bool.or_eq_true, Bool.not_eq_true', not_or, Bool.not_eq_false] at hrefuses
      obtain ⟨whole, hwhole⟩ := hentry.merges record hrecord rfl hrefuses.2
      have hid : Record.id whole = Record.id record := by
        rw [KeepsIdentity.id_calculate hwhole, ← hentry.holds.1]
        exact KeepsIdentity.id_combine _ _
      have hothers : ∀ id, id ≠ Record.id record →
          (round.persister.sessions.put whole now).session? id =
            round.persister.sessions.session? id := by
        intro id hne
        rw [Sessions.session?_put, if_neg fun hput => hne (hput.1.symm.trans hid)]
      have hcalculated : Record.calculate (Record.combine held.record record).2 = .ok whole := hwhole
      rw [hcalculated, ends_bind, ends_liftM_ok]
      simp only [ends_bind]
      refine (prepareWrite_ends hserves .update whole h.outside).mono ?_ fun _ _ h => h
      rintro (error | _) round' ⟨hafter, hround⟩
      · exact absurd hround.2 hprepares
      · simp only [ends_bind, ends_changeSessions, ends_pure]
        rw [hround]
        exact ⟨rfl, h.advance hafter hothers (fun _ => List.mem_append_left _) hthere, hothers⟩

theorem prepareRecords_inserting (hserves : env.Serves store after)
    (hsmooth : Smooth store persister.model persister.settings.ttlDays now drained)
    {batch : List M} (h : Inserting store after now persister drained done handed round)
    (hbatch : ∀ record ∈ batch, record ∈ drained)
    (hdistinct : ((done ++ batch).map Record.id).Nodup)
    (habsent : Absent store persister.model round.persister.sessions batch) :
    Ends (prepareRecords env now false batch) round
      (fun _ last => Inserting store after now persister drained (done ++ batch) (handed ++ batch) last)
      (fun _ _ => False) := by
  induction batch generalizing done handed round with
  | nil =>
    rw [prepareRecords, ends_pure, List.append_nil, List.append_nil]
    exact h
  | cons record rest ih =>
    rw [List.append_cons] at hdistinct
    obtain ⟨hfresh, hlater⟩ := distinct_next hdistinct
    -- Every record is handed on, and the rest is worked on as the record leaves it.
    have hrest : ∀ round' : Preparation σ M,
        Inserting store after now persister drained (done ++ [record]) handed round' →
        Absent store persister.model round'.persister.sessions rest →
        Ends (do calling (env.forward record); prepareRecords env now false rest) round'
          (fun _ last => Inserting store after now persister drained (done ++ record :: rest)
            (handed ++ record :: rest) last)
          (fun _ _ => False) := by
      intro round' hround' habsent'
      rw [ends_bind, ends_calling, List.append_cons done, List.append_cons handed]
      refine (hserves.forward record hround'.outside).mono ?_ fun _ _ h => h
      exact fun _ outside hafter => ih (hround'.goOn hafter)
        (fun other hother => hbatch other (List.mem_cons_of_mem _ hother)) hdistinct habsent'
    rw [prepareRecords, ends_bind]
    refine (prepareRecord_inserting hserves hsmooth h (hbatch record List.mem_cons_self) hfresh
      (habsent record List.mem_cons_self)).mono ?_ fun _ _ h => h
    rintro (_ | pushed) round' ⟨hok, hround', hothers⟩
    · cases hok
    · have habsent' := habsent.tail hlater hothers
      cases pushed with
      | false => exact hrest round' hround' habsent'
      | true =>
        rw [ends_bind, ends_calling]
        refine (hserves.dispatch record .increment hround'.outside).mono ?_ fun _ _ h => h
        exact fun _ outside hafter => hrest _ (hround'.goOn hafter) habsent'

theorem prepareBatch_inserting (hserves : env.Serves store after)
    (hsmooth : Smooth store persister.model persister.settings.ttlDays now drained)
    {batch : List M} (h : Inserting store after now persister drained done handed round)
    (hbatch : ∀ record ∈ batch, record ∈ drained)
    (hdistinct : ((done ++ batch).map Record.id).Nodup) :
    Ends (prepareBatch env now batch) round
      (fun _ last => Inserting store after now persister drained (done ++ batch) (handed ++ batch) last)
      (fun _ _ => False) := by
  unfold prepareBatch
  rw [ends_bind]
  refine (loadMissing_inserting hserves hsmooth h hbatch hdistinct).mono ?_ fun _ _ h => h
  rintro _ round' ⟨rfl, hround', habsent⟩
  exact prepareRecords_inserting hserves hsmooth hround' hbatch hdistinct habsent

theorem prepareBatches_inserting (hserves : env.Serves store after)
    (hsmooth : Smooth store persister.model persister.settings.ttlDays now drained)
    (h : Inserting store after now persister drained [] [] round) (batches : List (List M))
    (hbatches : ∀ record ∈ batches.flatten, record ∈ drained)
    (hdistinct : (batches.flatten.map Record.id).Nodup) :
    Ends (batches.forM (prepareBatch env now)) round
      (fun _ last => Inserting store after now persister drained batches.flatten batches.flatten last)
      (fun _ _ => False) := by
  apply Ends.forM fun seen last =>
    Inserting store after now persister drained seen.flatten seen.flatten last
  · exact h
  · intro seen batch rest round' hseen hround'
    have hflatten : batches.flatten = seen.flatten ++ batch ++ rest.flatten := by
      simp [hseen]
    rw [hflatten] at hdistinct hbatches
    rw [List.flatten_append, List.flatten_singleton]
    refine prepareBatch_inserting hserves hsmooth hround' (fun record hrecord => ?_) ?_
    · exact hbatches record (by simp [hrecord])
    · rw [List.map_append] at hdistinct
      exact hdistinct.sublist (List.sublist_append_left _ _)

end Preparation

/-- A round goes through if nothing keeps it from its writes, and inserts all that has no row. -/
theorem Persister.build_inserts [KeepsIdentity M] {store : RowStore} {after : List M → σ → Prop}
    {env : Surroundings σ M} {now : Int} {persister : Persister M} {outside : σ}
    (hserves : env.Serves store after) (hsound : persister.Sound) (hdue : persister.isDue = true)
    (hsmooth : Smooth store persister.model persister.settings.ttlDays now persister.toDrain)
    (hentries : ∀ id held, persister.sessions.session? id = some held →
      Workable store persister.model persister.toDrain id held.record)
    (hafter : after [] outside) :
    Ends (build env now) (persister, outside)
      (fun writes last => after persister.toDrain last.2 ∧ ∀ record ∈ persister.toDrain,
        store.row? ⟨persister.model.storageName, Record.id record⟩ = none →
        ∃ whole, Record.calculate record = .ok whole ∧
          Write.of .insert persister.model whole now ∈ writes)
      (fun _ _ => False) := by
  have hflatten := flatten_chunks hsound.loadBatch persister.toDrain
  have hworked : Ends (working env now persister) (persister.opening outside)
      (fun _ last => Preparation.Inserting store after now (persister.opening outside).persister
        persister.toDrain persister.toDrain persister.toDrain last) (fun _ _ => False) := by
    have hstart : Preparation.Inserting store after now (persister.opening outside).persister
        persister.toDrain [] [] (persister.opening outside) :=
      ⟨rfl, hafter, fun id held _ => hentries id held, by simp⟩
    have hsmooth' : Smooth store (persister.opening outside).persister.model
        (persister.opening outside).persister.settings.ttlDays now persister.toDrain := hsmooth
    have hbatches := Preparation.prepareBatches_inserting hserves hsmooth' hstart
      (chunks persister.settings.loadBatch persister.toDrain)
    rw [hflatten] at hbatches
    exact hbatches (fun _ => id) hsound.keyed.distinct
  unfold build
  simp only [ends_bind, ends_get, ends_set, hdue, Bool.not_true, Bool.false_eq_true, if_false]
  rw [hsound.closed.beginDrain, ends_liftM_ok]
  unfold Ends at hworked
  split
  · next round hrun =>
    have hrun : (working env now persister).run.run (persister.opening outside) = (.ok (), round) := hrun
    rw [hrun] at hworked
    simp only [ends_bind, ends_set, ends_pure]
    exact ⟨hworked.outside, hworked.inserted⟩
  · next fault round hrun =>
    have hrun : (working env now persister).run.run (persister.opening outside) =
      (.error fault, round) := hrun
    rw [hrun] at hworked
    exact hworked.elim

/-! ## Quiet answers -/

/-- The others answer every call, and never with an error. -/
def OutsideAnswers.Quiet (answers : OutsideAnswers σ M) : Prop :=
  ∀ call others, Ends (answers call) others (fun answer _ => answer = none) fun _ _ => False

omit [Record M] in
theorem OutsideAnswers.Quiet.ends_ask {answers : OutsideAnswers σ M} (h : answers.Quiet)
    (call : OutsideCall M) {backend : Backend σ M} :
    Ends (Backend.othersPart.act (answers call)) backend
      (fun answer backend' => answer = none ∧ ∃ others, backend' = { backend with others })
      (fun _ _ => False) := by
  rw [ends_act]
  exact (h call backend.others).mono (fun _ others hanswer => ⟨hanswer, others, rfl⟩) fun _ _ h => h

theorem Backend.surroundings_serve {answers : OutsideAnswers σ M} (hquiet : answers.Quiet)
    (before : Backend σ M) : (surroundings answers).Serves before.store fun _ backend =>
      backend.store = { before.store with loads := backend.store.loads } where
  load model ids _ backend h := by
    have hread : backend.store.readRows (M := M) model.storageName ids =
        before.store.readRows model.storageName ids :=
      RowStore.readRows_congr (by rw [h]) _ _
    show Ends (othersPart.act (answers (.load ids)) >>= _) backend _ _
    rw [ends_bind]
    refine (hquiet.ends_ask (.load ids)).mono ?_ fun _ _ h => h.elim
    rintro _ _ ⟨rfl, others, rfl⟩
    show Ends (storePart.act (RowStore.load model.storageName ids)) _ _ _
    rw [ends_act]
    have hfailures : backend.store.failures = before.store.failures := by rw [h]
    have hloads : ∀ store : RowStore, store = { backend.store with loads := store.loads } →
        store = { before.store with loads := store.loads } := by
      intro store hstore
      rw [hstore, h]
    refine (RowStore.load_ends backend.store model.storageName ids).mono ?_ ?_
    · rintro answer store ⟨hstore, hanswer⟩
      rw [hfailures, hread] at hanswer
      exact ⟨hloads store hstore, hanswer⟩
    · rintro fault store ⟨hstore, hfault⟩
      rw [hfailures, hread] at hfault
      exact ⟨hloads store hstore, hfault⟩
  prepare kind model record _ backend h := by
    show Ends (othersPart.act (answers (.prepare kind record)) >>= _) backend _ _
    rw [ends_bind]
    refine (hquiet.ends_ask (.prepare kind record)).mono ?_ fun _ _ h => h.elim
    rintro _ _ ⟨rfl, others, rfl⟩
    have hprepare : backend.store.prepare = before.store.prepare := by
      rw [h]
      rfl
    simp only [ends_bind, ends_get]
    rw [hprepare]
    cases before.store.prepare <;> exact ⟨h, rfl⟩
  dispatch record kind _ backend h := by
    show Ends (othersPart.act (answers (.dispatch record kind)) >>= _) backend _ _
    rw [ends_bind]
    refine (hquiet.ends_ask (.dispatch record kind)).mono ?_ fun _ _ h => h.elim
    rintro _ _ ⟨_, others, rfl⟩
    exact h
  forward record _ backend h := by
    show Ends (modify _ >>= fun _ => othersPart.act (answers (.forward record)) >>= _) backend _ _
    rw [ends_bind, ends_modify, ends_bind]
    refine (hquiet.ends_ask (.forward record)).mono ?_ fun _ _ h => h.elim
    rintro _ _ ⟨_, others, rfl⟩
    exact h

end Rollup
