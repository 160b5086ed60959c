import Rollup.Proofs.Loading

/-!
# Preparation

What a round has prepared at any point: for each drained record at most one write, made of that record
and of the row that is there. Where it has prepared no write, the session cache and the rows agree.
-/

namespace Rollup

open Rollup.Action

variable {σ M : Type} [Record M]

/-- The write of a whole record. -/
def Write.of (kind : RequestKind) (model : Model) (whole : M) (now : Int) : Write M where
  kind
  model
  id := Record.id whole
  fields := Record.toFields whole
  callback := some ⟨kind, whole, now⟩

theorem Write.of_inj {kind kind' : RequestKind} {model model' : Model} {whole whole' : M}
    {now now' : Int} (h : Write.of kind model whole now = Write.of kind' model' whole' now') :
    kind = kind' ∧ model = model' ∧ whole = whole' := by
  simp only [Write.of, Request.mk.injEq, Option.some.injEq, SessionCallback.mk.injEq] at h
  exact ⟨h.1, h.2.1, h.2.2.2.2.2.1⟩

/-- What a round makes of a drained record that it writes. The merged record of an update is cached,
unless a later entry is there. -/
inductive Prepares (store : RowStore) (model : Model) (now : Int) (sessions : Sessions M)
    (drained : M) : Write M → Prop where
  | insert {whole : M} (absent : store.row? ⟨model.storageName, Record.id drained⟩ = none)
      (calculated : Record.calculate drained = .ok whole)
      (uncached : sessions.session? (Record.id drained) = none) :
      Prepares store model now sessions drained (.of .insert model whole now)
  | update {cached whole : M} {held : Session M}
      (decodes : store.Decodes model.storageName (Record.id drained) cached)
      (combined : (Record.combine cached drained).1 = true)
      (calculated : Record.calculate (Record.absorb cached drained) = .ok whole)
      (entry : sessions.session? (Record.id drained) = some held)
      (touched : held = ⟨whole, now⟩ ∨ held.record = cached ∧ now < held.lastUpdate) :
      Prepares store model now sessions drained (.of .update model whole now)

/-- What a round makes of a drained record that it does not write: the row is not to be changed, or
the record does not combine with it. -/
def Refuses (store : RowStore) (model : Model) (drained : M) : Prop :=
  ∃ cached : M, store.Decodes model.storageName (Record.id drained) cached ∧
    (model.supportUpdate = false ∨ (Record.combine cached drained).1 = false)

section

variable {store : RowStore} {model : Model} {now : Int} {sessions sessions' : Sessions M}
  {drained : M} {write : Write M}

theorem Prepares.id_eq [KeepsIdentity M] (h : Prepares store model now sessions drained write) :
    write.id = Record.id drained := by
  cases h with
  | insert _ calculated _ => exact KeepsIdentity.id_calculate calculated
  | update decodes _ calculated _ _ =>
    rw [← decodes.id_eq]
    exact (KeepsIdentity.id_calculate calculated).trans (KeepsIdentity.id_combine _ _)

theorem Prepares.of_session?_eq (h : Prepares store model now sessions drained write)
    (heq : sessions'.session? (Record.id drained) = sessions.session? (Record.id drained)) :
    Prepares store model now sessions' drained write := by
  cases h with
  | insert absent calculated uncached => exact .insert absent calculated (heq.trans uncached)
  | update decodes combined calculated entry touched =>
    exact .update decodes combined calculated (heq.trans entry) touched

end

/-- What was prepared after these records were worked on. -/
structure Preparing (store : RowStore) (model : Model) (now : Int) (done : List M)
    (sessions : Sessions M) (writes : List (Write M)) : Prop where
  prepared : ∀ write ∈ writes, ∃ drained ∈ done, Prepares store model now sessions drained write
  distinct : (writes.map (·.id)).Nodup
  synced : ∀ id, id ∉ writes.map (·.id) → ∀ held, sessions.session? id = some held →
    store.Decodes model.storageName id held.record

/-- Each of these records was written or refused. -/
def Covers (store : RowStore) (model : Model) (now : Int) (done : List M) (sessions : Sessions M)
    (writes : List (Write M)) : Prop :=
  ∀ drained ∈ done, (∃ write ∈ writes, Prepares store model now sessions drained write) ∨
    Refuses store model drained

namespace Preparing

variable {store : RowStore} {model : Model} {now : Int} {done : List M}
  {sessions sessions' : Sessions M} {writes : List (Write M)}

theorem start (h : sessions.Synced store model.storageName) :
    Preparing store model now done sessions [] :=
  ⟨by simp, List.nodup_nil, fun id _ => h id⟩

theorem mono {done' : List M} (h : Preparing store model now done sessions writes)
    (hdone : ∀ record ∈ done, record ∈ done') : Preparing store model now done' sessions writes := by
  refine ⟨?_, h.distinct, h.synced⟩
  intro write hwrite
  obtain ⟨drained, hdrained, hprepares⟩ := h.prepared write hwrite
  exact ⟨drained, hdone drained hdrained, hprepares⟩

theorem mem_of_write [KeepsIdentity M] (h : Preparing store model now done sessions writes)
    {write : Write M} (hwrite : write ∈ writes) : write.id ∈ done.map Record.id := by
  obtain ⟨drained, hdrained, hprepares⟩ := h.prepared write hwrite
  rw [hprepares.id_eq]
  exact List.mem_map_of_mem hdrained

theorem of_entries [KeepsIdentity M] (h : Preparing store model now done sessions writes)
    {ids : List MetricId} (hfresh : ∀ id ∈ ids, id ∉ done.map Record.id)
    (hentries : ∀ id held, sessions'.session? id = some held →
      sessions.session? id = some held ∨ store.Decodes model.storageName id held.record)
    (hothers : ∀ id, id ∉ ids → sessions'.session? id = sessions.session? id) :
    Preparing store model now done sessions' writes := by
  refine ⟨?_, h.distinct, ?_⟩
  · intro write hwrite
    obtain ⟨drained, hdrained, hprepares⟩ := h.prepared write hwrite
    refine ⟨drained, hdrained, hprepares.of_session?_eq (hothers _ fun hmem => ?_)⟩
    exact hfresh _ hmem (List.mem_map_of_mem hdrained)
  · intro id hid held hheld
    rcases hentries id held hheld with hbefore | hdecodes
    · exact h.synced id hid held hbefore
    · exact hdecodes

theorem push [KeepsIdentity M] (h : Preparing store model now done sessions writes) {drained : M}
    (hfresh : Record.id drained ∉ done.map Record.id)
    (hothers : ∀ id, id ≠ Record.id drained → sessions'.session? id = sessions.session? id)
    {write : Write M} (hwrite : Prepares store model now sessions' drained write) :
    Preparing store model now (done ++ [drained]) sessions' (writes ++ [write]) := by
  refine ⟨?_, ?_, ?_⟩
  · intro other hother
    rcases List.mem_append.mp hother with hother | hother
    · obtain ⟨record, hrecord, hprepares⟩ := h.prepared other hother
      refine ⟨record, List.mem_append_left _ hrecord, hprepares.of_session?_eq (hothers _ ?_)⟩
      rintro heq
      exact hfresh (heq ▸ List.mem_map_of_mem hrecord)
    · rw [List.mem_singleton.mp hother]
      exact ⟨drained, by simp, hwrite⟩
  · rw [List.map_append, List.nodup_append]
    refine ⟨h.distinct, List.nodup_singleton _, ?_⟩
    rintro id hmem _ hlast rfl
    have hlast : id = write.id := List.mem_singleton.mp hlast
    obtain ⟨other, hother, hid⟩ := List.mem_map.mp hmem
    have := h.mem_of_write hother
    rw [hid, hlast, hwrite.id_eq] at this
    exact hfresh this
  · intro id hid held hheld
    rw [List.map_append, List.mem_append, not_or] at hid
    have hne : id ≠ Record.id drained := fun heq => hid.2 (by simp [hwrite.id_eq, heq])
    exact h.synced id hid.1 held (hothers id hne ▸ hheld)

end Preparing

namespace Covers

variable {store : RowStore} {model : Model} {now : Int} {done : List M}
  {sessions sessions' : Sessions M} {writes writes' : List (Write M)}

theorem of_others (h : Covers store model now done sessions writes)
    (hothers : ∀ record ∈ done,
      sessions'.session? (Record.id record) = sessions.session? (Record.id record))
    (hwrites : ∀ write ∈ writes, write ∈ writes') : Covers store model now done sessions' writes' := by
  intro record hrecord
  refine (h record hrecord).imp_left ?_
  rintro ⟨write, hwrite, hprepares⟩
  exact ⟨write, hwrites write hwrite, hprepares.of_session?_eq (hothers record hrecord)⟩

theorem append {more : List M} (h : Covers store model now done sessions writes)
    (hmore : Covers store model now more sessions writes) :
    Covers store model now (done ++ more) sessions writes := by
  intro record hrecord
  rcases List.mem_append.mp hrecord with hrecord | hrecord
  · exact h record hrecord
  · exact hmore record hrecord

end Covers

namespace Preparation

variable {store : RowStore} {after : List M → σ → Prop} {env : Surroundings σ M} {now : Int}
  {persister : Persister M}

/-- How far the round of a persister has come: it has worked on `done`, and handed on `handed`. -/
structure Progress (store : RowStore) (after : List M → σ → Prop) (now : Int)
    (persister : Persister M) (done handed : List M) (round : Preparation σ M) : Prop where
  same : round.persister = { persister with sessions := round.persister.sessions }
  since : Sessions.Since now persister.sessions round.persister.sessions
  outside : after handed round.outside
  preparing : Preparing store persister.model now done round.persister.sessions round.writes

theorem Progress.model_eq {done handed : List M} {round : Preparation σ M}
    (h : Progress store after now persister done handed round) :
    round.persister.model = persister.model := by
  rw [h.same]

theorem Progress.settings_eq {done handed : List M} {round : Preparation σ M}
    (h : Progress store after now persister done handed round) :
    round.persister.settings = persister.settings := by
  rw [h.same]

/-- What the call on one record leaves: its write with the entry of its identity, or nothing new. -/
def Handled (store : RowStore) (now : Int) (drained : M) (round round' : Preparation σ M) :
    Except StorageError Bool → Prop
  | .ok true => ∃ sessions write,
      (∀ id, id ≠ Record.id drained →
        sessions.session? id = round.persister.sessions.session? id) ∧
      Sessions.Since now round.persister.sessions sessions ∧
      Prepares store round.persister.model now sessions drained write ∧
      round' = { round.leaving sessions round'.outside with writes := round.writes ++ [write] }
  | .ok false => round' = { round with outside := round'.outside } ∧
      Refuses store round.persister.model drained
  | .error _ => round' = { round with outside := round'.outside } ∧ store.failures.prepares = true

theorem put_update [KeepsIdentity M] {model : Model} {sessions : Sessions M} {drained whole : M}
    {held : Session M} (hheld : sessions.session? (Record.id drained) = some held)
    (hdecodes : store.Decodes model.storageName (Record.id drained) held.record)
    (hcombined : (Record.combine held.record drained).1 = true)
    (hwhole : Record.calculate (Record.absorb held.record drained) = .ok whole) :
    (∀ id, id ≠ Record.id drained → (sessions.put whole now).session? id = sessions.session? id) ∧
      Sessions.Since now sessions (sessions.put whole now) ∧
      Prepares store model now (sessions.put whole now) drained (.of .update model whole now) := by
  have hid : Record.id whole = Record.id drained := by
    rw [KeepsIdentity.id_calculate hwhole, ← hdecodes.id_eq]
    exact KeepsIdentity.id_combine _ _
  have hothers : ∀ id, id ≠ Record.id drained →
      (sessions.put whole now).session? id = sessions.session? id := by
    intro id hne
    rw [Sessions.session?_put, if_neg fun hput => hne (hput.1.symm.trans hid)]
  have hentry : (sessions.put whole now).session? (Record.id drained) =
      some (if held.lastUpdate ≤ now then ⟨whole, now⟩ else held) := by
    rw [Sessions.session?_put, hid, hheld]
    simp only [true_and, Session.reachedBy_some]
    split_ifs <;> rfl
  refine ⟨hothers, ?_, .update hdecodes hcombined hwhole hentry ?_⟩
  · intro id entry hid
    by_cases hne : id = Record.id drained
    · subst hne
      rw [hentry] at hid
      cases hid
      split_ifs
      · exact Or.inl (Int.le_refl now)
      · exact Or.inr hheld
    · exact Or.inr (hothers id hne ▸ hid)
  · split_ifs with hle
    · exact Or.inl rfl
    · exact Or.inr ⟨rfl, Int.not_le.mp hle⟩

theorem prepareWrite_ends (hserves : env.Serves store after) (kind : RequestKind) (whole : M)
    {round : Preparation σ M} {handed : List M} (hafter : after handed round.outside) :
    Ends (prepareWrite env now kind whole) round
      (fun answer round' => after handed round'.outside ∧ match answer with
        | .ok () => round' = { round with
            writes := round.writes ++ [.of kind round.persister.model whole now]
            outside := round'.outside }
        | .error _ => round' = { round with outside := round'.outside } ∧
            store.failures.prepares = true)
      (fun _ _ => False) := by
  unfold prepareWrite
  simp only [ends_bind, ends_get, ends_calling]
  refine (hserves.prepare kind _ whole hafter).mono ?_ fun _ _ h => h
  rintro answer outside ⟨hafter, rfl⟩
  cases hprepare : store.prepare with
  | error error =>
    refine ⟨hafter, rfl, ?_⟩
    unfold RowStore.prepare at hprepare
    split_ifs at hprepare with hfails
    exact hfails
  | ok _ =>
    simp only [ends_bind, ends_push, ends_calling]
    refine (hserves.dispatch whole .total hafter).mono ?_ fun _ _ h => h
    intro _ outside hafter
    exact ⟨hafter, rfl⟩

theorem prepareRecord_ends [KeepsIdentity M] (hserves : env.Serves store after) {drained : M}
    {round : Preparation σ M} {handed : List M} (hafter : after handed round.outside)
    (hsynced : ∀ held, round.persister.sessions.session? (Record.id drained) = some held →
      store.Decodes round.persister.model.storageName (Record.id drained) held.record)
    (habsent : round.persister.sessions.session? (Record.id drained) = none →
      store.row? ⟨round.persister.model.storageName, Record.id drained⟩ = none) :
    Ends (prepareRecord env now drained) round
      (fun answer round' => after handed round'.outside ∧
        Handled store now drained round round' answer)
      (fun _ round' => round' = round ∧
        ¬ Smooth store round.persister.model round.persister.settings.ttlDays now [drained]) := by
  unfold prepareRecord
  simp only [ends_bind, ends_get]
  cases hheld : round.persister.sessions.session? (Record.id drained) with
  | none =>
    simp only [Sessions.get?_eq_none_iff.mpr hheld]
    rw [ends_bind, ends_liftM]
    constructor
    · intro whole hwhole
      rw [ends_bind]
      refine (prepareWrite_ends hserves .insert whole hafter).mono ?_ fun _ _ h => h.elim
      rintro (error | _) round' ⟨hafter, h⟩
      · exact ⟨hafter, h⟩
      · refine ⟨hafter, round.persister.sessions, _, fun _ _ => rfl, .refl _ _,
          .insert (habsent hheld) hwhole hheld, h⟩
    · intro fault hfault
      refine ⟨rfl, fun hsmooth => ?_⟩
      obtain ⟨whole, hwhole⟩ := hsmooth.inserts drained List.mem_cons_self (habsent hheld)
      cases hwhole.symm.trans hfault
  | some held =>
    have hdecodes := hsynced held hheld
    simp only [Sessions.get?_eq_some_iff.mpr ⟨held, hheld, rfl⟩]
    split_ifs with hrefuses
    · refine ⟨hafter, rfl, held.record, hdecodes, ?_⟩
      simpa using hrefuses
    · simp only [Bool.or_eq_true, Bool.not_eq_true', not_or, Bool.not_eq_false] at hrefuses
      rw [ends_bind, ends_liftM]
      constructor
      · intro whole hwhole
        simp only [ends_bind]
        refine (prepareWrite_ends hserves .update whole hafter).mono ?_ fun _ _ h => h.elim
        rintro (error | _) round' ⟨hafter, h⟩
        · exact ⟨hafter, h⟩
        · simp only [ends_bind, ends_changeSessions, ends_pure]
          obtain ⟨hothers, hsince, hprepares⟩ := put_update hheld hdecodes hrefuses.2 hwhole
          refine ⟨hafter, round.persister.sessions.put whole now, _, hothers, hsince, hprepares, ?_⟩
          rw [h]
          rfl
      · intro fault hfault
        refine ⟨rfl, fun hsmooth => ?_⟩
        obtain ⟨whole, hwhole⟩ := hsmooth.updates drained List.mem_cons_self _ hdecodes hrefuses.2
        cases hwhole.symm.trans hfault

/-! ## Many records -/

namespace Progress

variable {done handed handed' : List M} {round round' : Preparation σ M}

theorem mono {done' : List M} (h : Progress store after now persister done handed round)
    (hdone : ∀ record ∈ done, record ∈ done') :
    Progress store after now persister done' handed round :=
  ⟨h.same, h.since, h.outside, h.preparing.mono hdone⟩

theorem goOn (h : Progress store after now persister done handed round) {outside : σ}
    (hafter : after handed' outside) :
    Progress store after now persister done handed' { round with outside } :=
  ⟨h.same, h.since, hafter, h.preparing⟩

theorem handle [KeepsIdentity M] (h : Progress store after now persister done handed round)
    {drained : M} (hfresh : Record.id drained ∉ done.map Record.id)
    {answer : Except StorageError Bool} (hhandled : Handled store now drained round round' answer)
    (hafter : after handed' round'.outside) :
    Progress store after now persister (done ++ [drained]) handed' round' ∧
      (∀ id, id ≠ Record.id drained →
        round'.persister.sessions.session? id = round.persister.sessions.session? id) ∧
      (answer.isOk = true →
        Covers store persister.model now done round.persister.sessions round.writes →
        Covers store persister.model now (done ++ [drained]) round'.persister.sessions
          round'.writes) := by
  have hmore : ∀ record ∈ done, record ∈ done ++ [drained] := fun _ => List.mem_append_left _
  match answer, hhandled with
  | .ok true, ⟨sessions, write, hothers, hsince, hwrite, hround⟩ =>
    rw [hround] at hafter ⊢
    rw [h.model_eq] at hwrite
    refine ⟨⟨?_, h.since.trans hsince, hafter, h.preparing.push hfresh hothers hwrite⟩, hothers,
      fun _ hcovers => ?_⟩
    · show { round.persister with sessions } = { persister with sessions }
      rw [h.same]
    · apply (hcovers.of_others _ _).append
      · intro record hrecord
        rw [List.mem_singleton.mp hrecord]
        exact Or.inl ⟨write, by simp, hwrite⟩
      · intro record hrecord
        exact hothers _ fun heq => hfresh (heq ▸ List.mem_map_of_mem hrecord)
      · intro other hother
        exact List.mem_append_left _ hother
  | .ok false, ⟨hround, hrefuses⟩ =>
    rw [hround] at hafter ⊢
    rw [h.model_eq] at hrefuses
    refine ⟨(h.mono hmore).goOn hafter, fun _ _ => rfl, fun _ hcovers => hcovers.append ?_⟩
    intro record hrecord
    rw [List.mem_singleton.mp hrecord]
    exact Or.inr hrefuses
  | .error _, ⟨hround, _⟩ =>
    rw [hround] at hafter ⊢
    exact ⟨(h.mono hmore).goOn hafter, fun _ _ => rfl, fun hok => by cases hok⟩

end Progress

/-- What is asked of the identities of a batch before its records are worked on. -/
def Absent (store : RowStore) (model : Model) (sessions : Sessions M) (batch : List M) : Prop :=
  ∀ record ∈ batch, sessions.session? (Record.id record) = none →
    store.row? ⟨model.storageName, Record.id record⟩ = none

/-- Everything worked on so far was written or refused. -/
def Covered (store : RowStore) (now : Int) (persister : Persister M) (done : List M)
    (round : Preparation σ M) : Prop :=
  Covers store persister.model now done round.persister.sessions round.writes

/-- One more batch was worked on and handed on. All of it was written or refused if all was before and
nothing kept the persister from it. -/
def WorkedOn (store : RowStore) (after : List M → σ → Prop) (now : Int) (persister : Persister M)
    (done handed batch : List M) (before : Prop) (last : Preparation σ M) : Prop :=
  Progress store after now persister (done ++ batch) (handed ++ batch) last ∧
    (before → Smooth store persister.model persister.settings.ttlDays now batch →
      Covered store now persister (done ++ batch) last)

/-- The work on one more batch broke off. -/
def BrokenOff (store : RowStore) (after : List M → σ → Prop) (now : Int) (persister : Persister M)
    (done batch : List M) (last : Preparation σ M) : Prop :=
  (∃ handed, Progress store after now persister (done ++ batch) handed last) ∧
    ¬ Smooth store persister.model persister.settings.ttlDays now batch

theorem WorkedOn.step {drained : M} {rest done handed : List M} {before before' : Prop}
    {last : Preparation σ M}
    (h : WorkedOn store after now persister (done ++ [drained]) (handed ++ [drained]) rest before
      last)
    (hbefore : before' → Smooth store persister.model persister.settings.ttlDays now
      (drained :: rest) → before) :
    WorkedOn store after now persister done handed (drained :: rest) before' last := by
  obtain ⟨hprogress, hcovered⟩ := h
  unfold WorkedOn
  rw [← List.append_cons, ← List.append_cons] at hprogress
  rw [← List.append_cons] at hcovered
  refine ⟨hprogress, fun h hsmooth => hcovered (hbefore h hsmooth) (hsmooth.mono ?_)⟩
  exact fun _ => List.mem_cons_of_mem _

theorem BrokenOff.step {drained : M} {rest done : List M} {last : Preparation σ M}
    (h : BrokenOff store after now persister (done ++ [drained]) rest last) :
    BrokenOff store after now persister done (drained :: rest) last := by
  obtain ⟨⟨handed, hprogress⟩, hrough⟩ := h
  rw [← List.append_cons] at hprogress
  exact ⟨⟨handed, hprogress⟩, fun hsmooth => hrough (hsmooth.mono fun _ => List.mem_cons_of_mem _)⟩

theorem Absent.tail [KeepsIdentity M] {drained : M} {rest : List M} {model : Model}
    {sessions sessions' : Sessions M} (h : Absent store model sessions (drained :: rest))
    (hlater : ∀ record ∈ rest, Record.id record ≠ Record.id drained)
    (hothers : ∀ id, id ≠ Record.id drained → sessions'.session? id = sessions.session? id) :
    Absent store model sessions' rest := by
  intro record hrecord hnone
  rw [hothers _ (hlater record hrecord)] at hnone
  exact h record (List.mem_cons_of_mem _ hrecord) hnone

theorem distinct_next {done rest : List M} {drained : M}
    (h : ((done ++ [drained] ++ rest).map Record.id).Nodup) :
    Record.id drained ∉ done.map Record.id ∧ ∀ record ∈ rest, Record.id record ≠ Record.id drained := by
  rw [List.map_append, List.map_append, List.nodup_append, List.nodup_append] at h
  refine ⟨fun hmem => h.1.2.2 _ hmem _ List.mem_cons_self rfl, ?_⟩
  intro record hrecord heq
  exact h.2.2 (Record.id drained) (by simp) _ (List.mem_map_of_mem hrecord) heq.symm

theorem prepareRecords_ends [KeepsIdentity M] (hserves : env.Serves store after) (failed : Bool)
    {batch done handed : List M} {round : Preparation σ M}
    (hprogress : Progress store after now persister done handed round)
    (hdistinct : ((done ++ batch).map Record.id).Nodup)
    (habsent : failed = false → Absent store persister.model round.persister.sessions batch) :
    Ends (prepareRecords env now failed batch) round
      (fun _ last => WorkedOn store after now persister done handed batch
        (failed = false ∧ Covered store now persister done round) last)
      (fun _ last => BrokenOff store after now persister done batch last) := by
  induction batch generalizing failed done handed round with
  | nil =>
    rw [prepareRecords, ends_pure]
    simp only [WorkedOn, List.append_nil]
    exact ⟨hprogress, fun h _ => h.2⟩
  | cons drained rest ih =>
    rw [List.append_cons] at hdistinct
    obtain ⟨hfresh, hlater⟩ := distinct_next hdistinct
    -- Every record is handed on, and the rest is worked on as the record leaves it.
    have hrest : ∀ (failed : Bool) (round' : Preparation σ M),
        Progress store after now persister (done ++ [drained]) handed round' →
        (failed = false → Absent store persister.model round'.persister.sessions rest) →
        Ends (do calling (env.forward drained); prepareRecords env now failed rest) round'
          (fun _ last => WorkedOn store after now persister (done ++ [drained])
            (handed ++ [drained]) rest
            (failed = false ∧ Covered store now persister (done ++ [drained]) round') last)
          (fun _ last => BrokenOff store after now persister (done ++ [drained]) rest last) := by
      intro failed round' hround' habsent'
      rw [ends_bind, ends_calling]
      refine (hserves.forward drained hround'.outside).mono ?_ fun _ _ h => h.elim
      intro _ outside hafter
      exact ih failed (hround'.goOn hafter) hdistinct habsent'
    cases failed with
    | true =>
      rw [prepareRecords]
      have hmore := hprogress.mono fun record => List.mem_append_left [drained]
      refine (hrest true round hmore nofun).mono ?_ fun _ _ h => h.step
      exact fun _ _ h => h.step fun hfailed => absurd hfailed.1 nofun
    | false =>
      have hunwritten : Record.id drained ∉ round.writes.map (·.id) := by
        intro hmem
        obtain ⟨write, hwrite, hid⟩ := List.mem_map.mp hmem
        exact hfresh (hid ▸ hprogress.preparing.mem_of_write hwrite)
      rw [prepareRecords, ends_bind]
      refine (prepareRecord_ends hserves hprogress.outside ?_ ?_).mono ?_ ?_
      · rw [hprogress.model_eq]
        exact hprogress.preparing.synced _ hunwritten
      · rw [hprogress.model_eq]
        exact habsent rfl drained List.mem_cons_self
      · rintro answer round' ⟨hafter, hhandled⟩
        obtain ⟨hround', hothers, hcovers⟩ := hprogress.handle hfresh hhandled hafter
        have habsent' := (habsent rfl).tail hlater hothers
        match answer with
        | .ok true =>
          rw [ends_bind, ends_calling]
          refine (hserves.dispatch drained .increment hafter).mono ?_ fun _ _ h => h.elim
          intro _ outside hafter
          have hgoOn := hrest false _ (hround'.goOn hafter) fun _ => habsent'
          rw [ends_bind, ends_pure]
          refine hgoOn.mono ?_ fun _ _ h => h.step
          exact fun _ _ h => h.step fun hbefore _ => ⟨rfl, hcovers rfl hbefore.2⟩
        | .ok false =>
          have hgoOn := hrest false round' hround' fun _ => habsent'
          rw [ends_bind, ends_pure]
          refine hgoOn.mono ?_ fun _ _ h => h.step
          exact fun _ _ h => h.step fun hbefore _ => ⟨rfl, hcovers rfl hbefore.2⟩
        | .error error =>
          have hfails : store.failures.prepares = true := hhandled.2
          have hgoOn := hrest true round' hround' nofun
          rw [ends_bind, ends_pure]
          refine hgoOn.mono ?_ fun _ _ h => h.step
          exact fun _ _ h => h.step fun _ hsmooth => absurd (hfails.symm.trans hsmooth.prepares) nofun
      · rintro _ _ ⟨rfl, hrough⟩
        rw [hprogress.model_eq, hprogress.settings_eq] at hrough
        refine ⟨⟨handed, hprogress.mono ?_⟩, fun hsmooth => hrough (hsmooth.mono ?_)⟩
        · exact fun record => List.mem_append_left _
        · simp

theorem Progress.load [KeepsIdentity M] {done handed : List M} {round : Preparation σ M}
    (h : Progress store after now persister done handed round) {batch : List M}
    (hdistinct : ((done ++ batch).map Record.id).Nodup) {sessions : Sessions M} {outside : σ}
    (hafter : after handed outside)
    (hsince : Sessions.Since now round.persister.sessions sessions)
    (hentries : ∀ id held, sessions.session? id = some held →
      round.persister.sessions.session? id = some held ∨
        store.Decodes persister.model.storageName id held.record)
    (hothers : ∀ id, id ∉ batch.map Record.id →
      sessions.session? id = round.persister.sessions.session? id) :
    Progress store after now persister done handed (round.leaving sessions outside) ∧
      (Covered store now persister done round →
        Covered store now persister done (round.leaving sessions outside)) := by
  rw [List.map_append, List.nodup_append] at hdistinct
  have hfresh : ∀ id ∈ batch.map Record.id, id ∉ done.map Record.id :=
    fun id hid hdone => hdistinct.2.2 id hdone id hid rfl
  refine ⟨⟨?_, h.since.trans hsince, hafter, h.preparing.of_entries hfresh hentries hothers⟩, ?_⟩
  · show { round.persister with sessions } = { persister with sessions }
    rw [h.same]
  · intro hcovered
    apply hcovered.of_others _ fun _ hwrite => hwrite
    intro record hrecord
    exact hothers _ fun hmem => hfresh _ hmem (List.mem_map_of_mem hrecord)

theorem prepareBatch_ends [KeepsIdentity M] (hserves : env.Serves store after)
    {batch done handed : List M} {round : Preparation σ M}
    (hprogress : Progress store after now persister done handed round)
    (hdistinct : ((done ++ batch).map Record.id).Nodup) :
    Ends (prepareBatch env now batch) round
      (fun _ last => WorkedOn store after now persister done handed batch
        (Covered store now persister done round) last)
      (fun _ last => BrokenOff store after now persister done batch last) := by
  have hkeyed : ∀ id ∈ batch.map Record.id, ∀ held,
      round.persister.sessions.session? id = some held → Record.id held.record = id := by
    intro id hid held hheld
    refine (hprogress.preparing.synced id ?_ held hheld).id_eq
    intro hmem
    obtain ⟨write, hwrite, rfl⟩ := List.mem_map.mp hmem
    rw [List.map_append, List.nodup_append] at hdistinct
    exact hdistinct.2.2 _ (hprogress.preparing.mem_of_write hwrite) _ hid rfl
  have hbatch : (batch.map Record.id).Nodup := by
    rw [List.map_append] at hdistinct
    exact hdistinct.sublist (List.sublist_append_right _ _)
  unfold prepareBatch
  rw [ends_bind]
  refine (loadMissing_ends hserves hprogress.outside hbatch hkeyed).mono ?_ ?_
  · rw [hprogress.model_eq, hprogress.settings_eq]
    rintro (error | _) _ ⟨sessions, outside, rfl, hafter, h⟩
    · obtain ⟨hpruned, hrough⟩ := h
      obtain ⟨hround', -⟩ := hprogress.load hdistinct hafter (hpruned.since now)
        (fun id held hheld => Or.inl (hpruned.kept id held hheld)) hpruned.others
      refine (prepareRecords_ends hserves true hround' hdistinct nofun).mono ?_ fun _ _ h => h
      exact fun _ _ h => ⟨h.1, fun _ hsmooth => absurd hsmooth hrough⟩
    · obtain ⟨hround', hcovered⟩ := hprogress.load hdistinct hafter h.since h.synced h.others
      have habsent : Absent store persister.model sessions batch :=
        fun record hrecord => h.absent _ (List.mem_map_of_mem hrecord)
      refine (prepareRecords_ends hserves false hround' hdistinct fun _ => habsent).mono ?_
        fun _ _ h => h
      exact fun _ _ h => ⟨h.1, fun hbefore => h.2 ⟨rfl, hcovered hbefore⟩⟩
  · rw [hprogress.model_eq, hprogress.settings_eq]
    rintro _ _ ⟨sessions, outside, rfl, hafter, hpruned, hrough⟩
    obtain ⟨hround', -⟩ := hprogress.load hdistinct hafter (hpruned.since now)
      (fun id held hheld => Or.inl (hpruned.kept id held hheld)) hpruned.others
    exact ⟨⟨handed, hround'.mono fun _ => List.mem_append_left _⟩, hrough⟩

/-- Loads and prepares all drained records, batch by batch. -/
theorem prepareBatches_ends [KeepsIdentity M] (hserves : env.Serves store after)
    {batches : List (List M)} {round : Preparation σ M}
    (hprogress : Progress store after now persister [] [] round)
    (hdistinct : (batches.flatten.map Record.id).Nodup) :
    Ends (batches.forM (prepareBatch env now)) round
      (fun _ last => Progress store after now persister batches.flatten batches.flatten last ∧
        (Smooth store persister.model persister.settings.ttlDays now batches.flatten →
          Covered store now persister batches.flatten last))
      (fun _ last => BrokenOff store after now persister [] batches.flatten last) := by
  apply Ends.forM fun seen last =>
    Progress store after now persister seen.flatten seen.flatten last ∧
      (Smooth store persister.model persister.settings.ttlDays now batches.flatten →
        Covered store now persister seen.flatten last)
  · refine ⟨hprogress, fun _ => ?_⟩
    intro record hrecord
    simp at hrecord
  · rintro seen batch rest round' hbatches ⟨hround', hcovered⟩
    have hflatten : batches.flatten = seen.flatten ++ batch ++ rest.flatten := by
      simp [hbatches]
    have hpart : ∀ record ∈ batch, record ∈ batches.flatten := by
      intro record hrecord
      simp [hflatten, hrecord]
    have hbatch : ((seen.flatten ++ batch).map Record.id).Nodup := by
      rw [hflatten, List.map_append] at hdistinct
      exact hdistinct.sublist (List.sublist_append_left _ _)
    refine (prepareBatch_ends hserves hround' hbatch).mono ?_ ?_
    · rintro _ last ⟨hlast, hcovers⟩
      rw [List.flatten_append, List.flatten_singleton]
      exact ⟨hlast, fun hsmooth => hcovers (hcovered hsmooth) (hsmooth.mono hpart)⟩
    · rintro _ last ⟨⟨handed, hlast⟩, hrough⟩
      refine ⟨⟨handed, hlast.mono ?_⟩, fun hsmooth => hrough (hsmooth.mono hpart)⟩
      intro record hrecord
      rw [List.nil_append, hflatten]
      exact List.mem_append_left _ hrecord

end Preparation

end Rollup
