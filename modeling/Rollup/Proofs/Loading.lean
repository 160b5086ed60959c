import Rollup.Persister
import Rollup.Proofs.Calls
import Rollup.Proofs.Rows
import Rollup.Proofs.Settlement

/-!
# Loading

What a persister relies on outside, and what it knows of the rows once it has loaded a batch: every
entry of the session cache is the record of its row, and an identity of the batch that is not cached
has no row.
-/

namespace Rollup

open Rollup.Action

variable {σ M : Type}

namespace Preparation

/-! ## A round that is being prepared -/

@[simp]
theorem ends_calling {α : Type} (call : Action σ α) {round : Preparation σ M}
    {done : α → Preparation σ M → Prop} {broken : Fault → Preparation σ M → Prop} :
    Ends (calling call) round done broken ↔ Ends call round.outside
      (fun answer outside => done answer { round with outside })
      (fun fault outside => broken fault { round with outside }) := by
  have hrun : ((calling call : Action (Preparation σ M) α).run.run round :
      Except Fault α × Preparation σ M) =
        ((call.run.run round.outside : Except Fault α × σ).1,
          { round with outside := (call.run.run round.outside : Except Fault α × σ).2 }) := rfl
  unfold Ends
  rw [hrun]
  rcases (call.run.run round.outside : Except Fault α × σ) with ⟨_ | _, _⟩ <;> rfl

@[simp]
theorem ends_changeSessions (change : Sessions M → Sessions M) {round : Preparation σ M}
    {done : Unit → Preparation σ M → Prop} {broken : Fault → Preparation σ M → Prop} :
    Ends (changeSessions change) round done broken ↔
      done () { round with persister := { round.persister with
        sessions := change round.persister.sessions } } := Iff.rfl

@[simp]
theorem ends_push (write : Write M) {round : Preparation σ M}
    {done : Unit → Preparation σ M → Prop} {broken : Fault → Preparation σ M → Prop} :
    Ends (push write) round done broken ↔
      done () { round with writes := round.writes ++ [write] } := Iff.rfl

/-- The same round with another session cache and other surroundings. -/
def leaving (round : Preparation σ M) (sessions : Sessions M) (outside : σ) : Preparation σ M :=
  { round with persister := { round.persister with sessions }, outside }

end Preparation

variable [Record M]

/-! ## The surroundings -/

/-- What a persister relies on while the rows stay those of `store`. Once records were handed on,
`after` holds outside of them. -/
structure Surroundings.Serves (env : Surroundings σ M) (store : RowStore)
    (after : List M → σ → Prop) : Prop where
  load : ∀ (model : Model) (ids : List MetricId) {handed : List M} {s : σ}, after handed s →
    Ends (env.load model ids) s
      (fun answer s' => after handed s' ∧
        if store.failures.loads then ∃ error, answer = .error error
        else store.readRows model.storageName ids = .ok answer)
      (fun _ s' => after handed s' ∧
        (store.failures.brokenTable = some model.storageName ∨
          ∃ fault, store.readRows (M := M) model.storageName ids = .error fault))
  prepare : ∀ (kind : RequestKind) (model : Model) (record : M) {handed : List M} {s : σ},
    after handed s → Ends (env.prepare kind model record) s
      (fun answer s' => after handed s' ∧ answer = store.prepare) (fun _ _ => False)
  dispatch : ∀ (record : M) (kind : EventKind) {handed : List M} {s : σ}, after handed s →
    Ends (env.dispatch record kind) s (fun _ s' => after handed s') (fun _ _ => False)
  forward : ∀ (record : M) {handed : List M} {s : σ}, after handed s →
    Ends (env.forward record) s (fun _ s' => after (handed ++ [record]) s') (fun _ _ => False)

/-- Nothing keeps a persister from writing these drained records. -/
structure Smooth (store : RowStore) (model : Model) (ttlDays : Nat) (now : Int) (drained : List M) :
    Prop where
  loads : store.failures.loads = false
  prepares : store.failures.prepares = false
  unbroken : store.failures.brokenTable ≠ some model.storageName
  readable : ∀ record ∈ drained, store.row? ⟨model.storageName, Record.id record⟩ ≠ none →
    ∃ held : M, store.Decodes model.storageName (Record.id record) held
  inserts : ∀ record ∈ drained, store.row? ⟨model.storageName, Record.id record⟩ = none →
    ∃ whole, Record.calculate record = .ok whole
  updates : ∀ record ∈ drained, ∀ held,
    store.Decodes model.storageName (Record.id record) held → (Record.combine held record).1 →
    ∃ whole, Record.calculate (Record.absorb held record) = .ok whole
  expires : model.timeRelativeId = false → model.supportUpdate = true → ∀ record ∈ drained,
    ∃ expired, Retention.isExpired (Record.id record).bucket now ttlDays = .ok expired

theorem Smooth.mono {store : RowStore} {model : Model} {ttlDays : Nat} {now : Int}
    {drained fewer : List M} (h : Smooth store model ttlDays now drained)
    (hfewer : ∀ record ∈ fewer, record ∈ drained) : Smooth store model ttlDays now fewer where
  loads := h.loads
  prepares := h.prepares
  unbroken := h.unbroken
  readable record hrecord := h.readable record (hfewer record hrecord)
  inserts record hrecord := h.inserts record (hfewer record hrecord)
  updates record hrecord := h.updates record (hfewer record hrecord)
  expires hmodel hupdate record hrecord := h.expires hmodel hupdate record (hfewer record hrecord)

theorem Smooth.exists_readRows {store : RowStore} {model : Model} {ttlDays : Nat} {now : Int}
    {drained : List M} (h : Smooth store model ttlDays now drained) {ids : List MetricId}
    (hids : ∀ id ∈ ids, id ∈ drained.map Record.id) :
    ∃ loaded : List M, store.readRows model.storageName ids = .ok (.ok loaded) := by
  apply RowStore.exists_readRows
  intro id hid hrow
  obtain ⟨record, hmem, rfl⟩ := List.mem_map.mp (hids id hid)
  exact h.readable record hmem hrow

/-! ## The session cache -/

namespace Sessions

/-- Every entry is the record of its row. -/
def Synced (sessions : Sessions M) (store : RowStore) (table : String) : Prop :=
  ∀ id held, sessions.session? id = some held → store.Decodes table id held.record

/-- Entries with a later stamp than `now` are those that were there before. -/
def Since (now : Int) (before sessions : Sessions M) : Prop :=
  ∀ id held, sessions.session? id = some held →
    held.lastUpdate ≤ now ∨ before.session? id = some held

omit [Record M] in
theorem Since.refl (now : Int) (sessions : Sessions M) : Since now sessions sessions :=
  fun _ _ h => Or.inr h

omit [Record M] in
theorem Since.trans {now : Int} {first second third : Sessions M} (h : Since now first second)
    (h' : Since now second third) : Since now first third := by
  intro id held hheld
  rcases h' id held hheld with hle | hheld
  · exact Or.inl hle
  · exact h id held hheld

omit [Record M] in
theorem get?_eq_some_iff {sessions : Sessions M} {id : MetricId} {record : M} :
    sessions.get? id = some record ↔ ∃ held, sessions.session? id = some held ∧ held.record = record := by
  simp [get?]

omit [Record M] in
theorem get?_eq_none_iff {sessions : Sessions M} {id : MetricId} :
    sessions.get? id = none ↔ sessions.session? id = none := by
  simp [get?]

theorem session?_putAll_of_not_mem {records : List M} {id : MetricId}
    (h : id ∉ records.map Record.id) (sessions : Sessions M) (now : Int) :
    (records.foldl (·.put · now) sessions).session? id = sessions.session? id := by
  induction records generalizing sessions with
  | nil => rfl
  | cons first rest ih =>
    rw [List.map_cons, List.mem_cons, not_or] at h
    rw [List.foldl_cons, ih h.2, session?_put, if_neg fun hput => h.1 hput.1.symm]

theorem session?_putAll_of_mem {records : List M} (hdistinct : (records.map Record.id).Nodup)
    {record : M} (hmem : record ∈ records) {sessions : Sessions M}
    (hnone : sessions.session? (Record.id record) = none) (now : Int) :
    (records.foldl (·.put · now) sessions).session? (Record.id record) = some ⟨record, now⟩ := by
  induction records generalizing sessions with
  | nil => simp at hmem
  | cons first rest ih =>
    rw [List.map_cons, List.nodup_cons] at hdistinct
    rw [List.foldl_cons]
    rcases List.mem_cons.mp hmem with rfl | hmem
    · rw [session?_putAll_of_not_mem hdistinct.1, session?_put, hnone]
      exact if_pos ⟨rfl, Session.reachedBy_none now⟩
    · have hne : Record.id first ≠ Record.id record := fun heq =>
        hdistinct.1 (heq ▸ List.mem_map_of_mem hmem)
      apply ih hdistinct.2 hmem
      rw [session?_put, if_neg fun hput => hne hput.1]
      exact hnone

end Sessions

namespace Preparation

variable {store : RowStore} {after : List M → σ → Prop} {env : Surroundings σ M} {now : Int}

/-! ## What is missing -/

/-- Nothing but entries of these identities was removed. -/
structure Pruned (before : Sessions M) (ids : List MetricId) (sessions : Sessions M) : Prop where
  kept : ∀ id held, sessions.session? id = some held → before.session? id = some held
  others : ∀ id, id ∉ ids → sessions.session? id = before.session? id

/-- These identities were checked. Those that turned out missing are not cached. -/
structure Checked (before : Sessions M) (ids missing : List MetricId) (sessions : Sessions M) : Prop
    extends Pruned before ids sessions where
  order : missing.Sublist ids
  absent : ∀ id ∈ missing, sessions.session? id = none
  cached : ∀ id ∈ ids, id ∉ missing → sessions.session? id ≠ none

omit [Record M] in
theorem Checked.refl (sessions : Sessions M) : Checked sessions [] [] sessions :=
  ⟨⟨fun _ _ h => h, fun _ _ => rfl⟩, List.Sublist.refl _, by simp, by simp⟩

omit [Record M] in
theorem Checked.append {first second third : Sessions M} {ids ids' missing missing' : List MetricId}
    (h : Checked first ids missing second) (h' : Checked second ids' missing' third)
    (hdisjoint : ∀ id ∈ ids, id ∉ ids') :
    Checked first (ids ++ ids') (missing ++ missing') third := by
  refine ⟨⟨?_, ?_⟩, h.order.append h'.order, ?_, ?_⟩
  · intro id held hheld
    exact h.kept id held (h'.kept id held hheld)
  · intro id hid
    rw [List.mem_append, not_or] at hid
    rw [h'.others id hid.2, h.others id hid.1]
  · intro id hid
    rcases List.mem_append.mp hid with hid | hid
    · rw [h'.others id (hdisjoint id (h.order.subset hid)), h.absent id hid]
    · exact h'.absent id hid
  · intro id hid hmissing
    rw [List.mem_append, not_or] at hmissing
    rcases List.mem_append.mp hid with hid | hid
    · rw [h'.others id (hdisjoint id hid)]
      exact h.cached id hid hmissing.1
    · exact h'.cached id hid hmissing.2

omit [Record M] in
theorem Pruned.since {before sessions : Sessions M} {ids : List MetricId}
    (h : Pruned before ids sessions) (now : Int) : Sessions.Since now before sessions :=
  fun id held hheld => Or.inr (h.kept id held hheld)

/-- Retention cannot tell whether the row of a cached record was deleted. -/
def Unclear (persister : Persister M) (now : Int) (id : MetricId) : Prop :=
  persister.model.timeRelativeId = false ∧ persister.model.supportUpdate = true ∧
    ∃ held, persister.sessions.session? id = some held ∧ ∀ expired,
      Retention.isExpired (Record.id held.record).bucket now persister.settings.ttlDays ≠
        .ok expired

theorem isMissing_ends (id : MetricId) (round : Preparation σ M) :
    Ends (isMissing now id) round
      (fun missing round' => ∃ sessions, round' = round.leaving sessions round.outside ∧
        Checked round.persister.sessions [id] (if missing then [id] else []) sessions)
      (fun _ round' => round' = round ∧ Unclear round.persister now id) := by
  unfold isMissing
  simp only [ends_bind, ends_get]
  cases hheld : round.persister.sessions.session? id with
  | none =>
    simp only [Sessions.get?_eq_none_iff.mpr hheld, ends_pure]
    refine ⟨round.persister.sessions, rfl, ⟨fun _ _ h => h, fun _ _ => rfl⟩, List.Sublist.refl _,
      ?_, ?_⟩
    · simpa using hheld
    · simp
  | some held =>
    have hcached : Checked round.persister.sessions [id] [] round.persister.sessions := by
      refine ⟨⟨fun _ _ h => h, fun _ _ => rfl⟩, List.nil_sublist _, by simp, ?_⟩
      simp [hheld]
    simp only [Sessions.get?_eq_some_iff.mpr ⟨held, hheld, rfl⟩]
    split_ifs with hkept
    · exact ⟨round.persister.sessions, rfl, hcached⟩
    · rw [ends_bind, ends_liftM]
      constructor
      · rintro (_ | _) -
        · exact ⟨round.persister.sessions, rfl, hcached⟩
        · refine ⟨round.persister.sessions.remove id, rfl, ⟨?_, ?_⟩, List.Sublist.refl _, ?_,
            by simp⟩
          · intro other entry hother
            rw [Sessions.session?_remove] at hother
            split_ifs at hother
            exact hother
          · intro other hother
            rw [Sessions.session?_remove, if_neg fun heq => hother (by simp [heq])]
          · simp [Sessions.session?_remove]
      · intro fault hfault
        refine ⟨rfl, ?_, ?_, held, hheld, ?_⟩
        · simp_all
        · simp_all
        · intro expired hexpired
          rw [hexpired] at hfault
          cases hfault

theorem filterM_isMissing_ends {ids : List MetricId} (hdistinct : ids.Nodup)
    (round : Preparation σ M) :
    Ends (ids.filterM (isMissing now)) round
      (fun missing round' => ∃ sessions, round' = round.leaving sessions round.outside ∧
        Checked round.persister.sessions ids missing sessions)
      (fun _ round' => ∃ sessions, round' = round.leaving sessions round.outside ∧
        Pruned round.persister.sessions ids sessions ∧ ∃ id ∈ ids, Unclear round.persister now id) := by
  apply Ends.filterM fun seen missing round' => ∃ sessions,
    round' = round.leaving sessions round.outside ∧
      Checked round.persister.sessions seen missing sessions
  · exact ⟨round.persister.sessions, rfl, Checked.refl _⟩
  · rintro seen missing id rest _ hids ⟨sessions, rfl, hseen⟩
    have hfresh : ∀ other ∈ seen, other ∉ [id] := by
      intro other hother heq
      rw [hids] at hdistinct
      have := (List.nodup_append.mp hdistinct).2.2 other hother id List.mem_cons_self
      exact this (List.mem_singleton.mp heq)
    refine (isMissing_ends id _).mono ?_ ?_
    · rintro isMissing _ ⟨sessions', rfl, hid⟩
      refine ⟨sessions', rfl, ?_⟩
      have := hseen.append hid hfresh
      cases isMissing <;> simpa using this
    · rintro _ _ ⟨rfl, hmodel, hupdate, held, hheld, hunclear⟩
      refine ⟨sessions, rfl, ⟨hseen.kept, ?_⟩, id, by simp [hids], hmodel, hupdate, held,
        hseen.kept id held hheld, hunclear⟩
      intro other hother
      apply hseen.others
      intro hmem
      exact hother (by simp [hids, hmem])

/-! ## Loading a batch -/

/-- These identities were looked up in storage where they were not cached. -/
structure Filled (now : Int) (before : Sessions M) (ids : List MetricId) (store : RowStore)
    (table : String) (sessions : Sessions M) : Prop where
  since : Sessions.Since now before sessions
  synced : ∀ id held, sessions.session? id = some held →
    before.session? id = some held ∨ store.Decodes table id held.record
  others : ∀ id, id ∉ ids → sessions.session? id = before.session? id
  absent : ∀ id ∈ ids, sessions.session? id = none → store.row? ⟨table, id⟩ = none

theorem Checked.fill {before sessions : Sessions M} {ids missing : List MetricId}
    {table : String} {loaded : List M} (h : Checked before ids missing sessions)
    (hdistinct : ids.Nodup) (hloads : store.Loads table missing loaded) (now : Int) :
    Filled now before ids store table (loaded.foldl (·.put · now) sessions) := by
  have hloaded : (loaded.map Record.id).Nodup := (hdistinct.sublist h.order).sublist hloads.order
  have hentries : ∀ id held, (loaded.foldl (·.put · now) sessions).session? id = some held →
      before.session? id = some held ∨
        held.lastUpdate = now ∧ store.Decodes table id held.record := by
    intro id held hheld
    by_cases hid : id ∈ loaded.map Record.id
    · obtain ⟨record, hmem, rfl⟩ := List.mem_map.mp hid
      have hnone := h.absent _ (hloads.order.subset hid)
      rw [Sessions.session?_putAll_of_mem hloaded hmem hnone] at hheld
      cases hheld
      exact Or.inr ⟨rfl, hloads.decodes record hmem⟩
    · rw [Sessions.session?_putAll_of_not_mem hid] at hheld
      exact Or.inl (h.kept id held hheld)
  refine ⟨?_, ?_, ?_, ?_⟩
  · intro id held hheld
    rcases hentries id held hheld with hbefore | ⟨hnow, -⟩
    · exact Or.inr hbefore
    · exact Or.inl (Int.le_of_eq hnow)
  · intro id held hheld
    exact (hentries id held hheld).imp_right (·.2)
  · intro id hid
    rw [Sessions.session?_putAll_of_not_mem, h.others id hid]
    intro hmem
    exact hid (h.order.subset (hloads.order.subset hmem))
  · intro id hid hnone
    by_contra hrow
    by_cases hmissing : id ∈ missing
    · obtain ⟨record, hmem, rfl⟩ := List.mem_map.mp (hloads.complete id hmissing hrow)
      rw [Sessions.session?_putAll_of_mem hloaded hmem (h.absent _ hmissing)] at hnone
      cases hnone
    · rw [Sessions.session?_putAll_of_not_mem fun hmem => hmissing (hloads.order.subset hmem)]
        at hnone
      exact h.cached id hid hmissing hnone

theorem not_smooth_of_unclear {round : Preparation σ M} {batch : List M}
    (hkeyed : ∀ id ∈ batch.map Record.id, ∀ held,
      round.persister.sessions.session? id = some held → Record.id held.record = id)
    {id : MetricId} (hid : id ∈ batch.map Record.id) (h : Unclear round.persister now id) :
    ¬ Smooth store round.persister.model round.persister.settings.ttlDays now batch := by
  intro hsmooth
  obtain ⟨hmodel, hupdate, held, hheld, hunclear⟩ := h
  obtain ⟨record, hmem, rfl⟩ := List.mem_map.mp hid
  obtain ⟨expired, hexpired⟩ := hsmooth.expires hmodel hupdate record hmem
  apply hunclear expired
  rwa [hkeyed _ hid held hheld]

/-- Loads what is not cached. -/
theorem loadMissing_ends [KeepsIdentity M] (hserves : env.Serves store after)
    {round : Preparation σ M} {handed : List M} (hafter : after handed round.outside)
    {batch : List M} (hdistinct : (batch.map Record.id).Nodup)
    (hkeyed : ∀ id ∈ batch.map Record.id, ∀ held,
      round.persister.sessions.session? id = some held → Record.id held.record = id) :
    Ends (loadMissing env now batch) round
      (fun answer round' => ∃ sessions outside, round' = round.leaving sessions outside ∧
        after handed outside ∧
        match answer with
        | .ok () => Filled now round.persister.sessions (batch.map Record.id) store
            round.persister.model.storageName sessions
        | .error _ => Pruned round.persister.sessions (batch.map Record.id) sessions ∧
            ¬ Smooth store round.persister.model round.persister.settings.ttlDays now batch)
      (fun _ round' => ∃ sessions outside, round' = round.leaving sessions outside ∧
        after handed outside ∧ Pruned round.persister.sessions (batch.map Record.id) sessions ∧
        ¬ Smooth store round.persister.model round.persister.settings.ttlDays now batch) := by
  unfold loadMissing
  rw [ends_bind]
  refine (filterM_isMissing_ends hdistinct round).mono ?_ ?_
  · rintro missing _ ⟨sessions, rfl, hchecked⟩
    split_ifs with hempty
    · rw [List.isEmpty_iff] at hempty
      subst hempty
      refine ⟨sessions, round.outside, rfl, hafter, ?_⟩
      exact hchecked.fill hdistinct (RowStore.loads_nil store _) now
    · simp only [ends_bind, ends_get, ends_calling]
      refine (hserves.load _ missing hafter).mono ?_ ?_
      · rintro answer outside ⟨hafter, hanswer⟩
        cases answer with
        | error error =>
          refine ⟨sessions, outside, rfl, hafter, hchecked.toPruned, fun hsmooth => ?_⟩
          obtain ⟨loaded, hloaded⟩ := hsmooth.exists_readRows fun id hid => hchecked.order.subset hid
          have hread := hanswer
          rw [if_neg (by simp [hsmooth.loads])] at hread
          cases hloaded.symm.trans hread
        | ok loaded =>
          split_ifs at hanswer with hfails
          · obtain ⟨error, herror⟩ := hanswer
            cases herror
          · rw [ends_bind, ends_changeSessions, ends_pure]
            refine ⟨_, outside, rfl, hafter, ?_⟩
            exact hchecked.fill hdistinct (RowStore.loads_of_readRows hanswer) now
      · rintro _ outside ⟨hafter, hfault⟩
        refine ⟨sessions, outside, rfl, hafter, hchecked.toPruned, fun hsmooth => ?_⟩
        obtain ⟨loaded, hloaded⟩ := hsmooth.exists_readRows fun id hid => hchecked.order.subset hid
        rcases hfault with hbroken | ⟨fault, hfault⟩
        · exact hsmooth.unbroken hbroken
        · cases hloaded.symm.trans hfault
  · rintro _ _ ⟨sessions, rfl, hpruned, id, hid, hunclear⟩
    exact ⟨sessions, round.outside, rfl, hafter, hpruned, not_smooth_of_unclear hkeyed hid hunclear⟩

end Preparation

end Rollup
