import Rollup.Proofs.Building

/-!
# What a round makes of the rows

The rows of a table stand for records up to their derived columns. A round that nothing keeps from its
writes merges what it has drained into what the rows stand for.
-/

namespace Rollup

variable {M : Type} [Record M]

open Record

/-- The row of an identity was made of a record like this one, and reads back. With no record there is
no row. -/
def RowStore.RowIs [Accumulating M] (store : RowStore) (table : String) (id : MetricId) :
    Option M → Prop
  | none => store.row? ⟨table, id⟩ = none
  | some whole => ∃ record : M, store.row? ⟨table, id⟩ = some (toFields record) ∧
      ofFields id (toFields record) = .ok (.ok record) ∧ Alike record whole

namespace RowStore

variable [Accumulating M] {store store' : RowStore} {table : String} {id : MetricId}

theorem RowIs.of_row?_eq {held : Option M} (h : store.RowIs table id held)
    (hrow : store'.row? ⟨table, id⟩ = store.row? ⟨table, id⟩) : store'.RowIs table id held := by
  cases held with
  | none => exact hrow.trans h
  | some whole =>
    obtain ⟨record, hfields, hread, halike⟩ := h
    exact ⟨record, hrow.trans hfields, hread, halike⟩

theorem RowIs.alike {whole other : M} (h : store.RowIs table id (some whole))
    (halike : Alike whole other) : store.RowIs table id (some other) := by
  obtain ⟨record, hfields, hread, hrecord⟩ := h
  exact ⟨record, hfields, hread, hrecord.trans halike⟩

theorem RowIs.eq_none {held : Option M} (h : store.RowIs table id held)
    (hrow : store.row? ⟨table, id⟩ = none) : held = none := by
  cases held with
  | none => rfl
  | some whole =>
    obtain ⟨record, hfields, _⟩ := h
    rw [hrow] at hfields
    cases hfields

theorem RowIs.exists_decodes {held : Option M} (h : store.RowIs table id held)
    (hrow : store.row? ⟨table, id⟩ ≠ none) : ∃ record : M, store.Decodes table id record := by
  cases held with
  | none => exact absurd h hrow
  | some whole =>
    obtain ⟨record, hfields, hread, _⟩ := h
    exact ⟨record, _, hfields, hread⟩

theorem RowIs.of_decodes {held : Option M} (h : store.RowIs table id held) {cached : M}
    (hdecodes : store.Decodes table id cached) : ∃ whole, held = some whole ∧ Alike cached whole := by
  cases held with
  | none =>
    obtain ⟨fields, hfields, _⟩ := hdecodes
    have hnone : store.row? ⟨table, id⟩ = none := h
    rw [hnone] at hfields
    cases hfields
  | some whole =>
    obtain ⟨record, hfields, hread, halike⟩ := h
    have hrecord : store.Decodes table id record := ⟨_, hfields, hread⟩
    exact ⟨whole, rfl, hdecodes.unique hrecord ▸ halike⟩

end RowStore

namespace Persister

variable [Accumulating M] [LawfulRecord M] {persister : Persister M} {store store' : RowStore}
  {now : Int} {sessions : Sessions M} {writes : List (Write M)} {rows : MetricId → Option M}

omit [Accumulating M] [LawfulRecord M] in
theorem Sound.mem_toDrain (h : persister.Sound) {record : M} :
    record ∈ persister.toDrain ↔
      persister.window.active.get? (Record.id record) = some record :=
  h.keyed.mem_toList_iff

/-- What the rows stand for once the window was drained. -/
def merged (persister : Persister M) (rows : MetricId → Option M) (id : MetricId) : Option M :=
  match persister.window.active.get? id with
  | some drained => some (joined (rows id) drained)
  | none => rows id

/-- At this time it can be told of all that is drained whether its rows are gone, if that is asked. -/
def Expires (persister : Persister M) (now : Int) : Prop :=
  persister.model.timeRelativeId = false → ∀ record ∈ persister.toDrain, ∃ expired,
    Retention.isExpired (Record.id record).bucket now persister.settings.ttlDays = .ok expired

omit [Accumulating M] [LawfulRecord M] in
theorem Expires.of_relative (h : persister.model.timeRelativeId = true) : persister.Expires now := by
  intro hfalse
  rw [h] at hfalse
  cases hfalse

theorem smooth_of_rows (hsound : persister.Sound) (hfailures : store.failures = {})
    (hexpires : persister.Expires now)
    (hrows : ∀ id, store.RowIs persister.model.storageName id (rows id))
    (hcalculate : ∀ id drained, persister.window.active.get? id = some drained →
      ∃ whole, calculate (joined (rows id) drained) = .ok whole) :
    Smooth store persister.model persister.settings.ttlDays now persister.toDrain where
  loads := by rw [hfailures]
  prepares := by rw [hfailures]
  unbroken := by simp [hfailures]
  readable record _ hrow := (hrows _).exists_decodes hrow
  inserts record hrecord hrow := by
    obtain ⟨whole, hwhole⟩ := hcalculate _ _ (hsound.mem_toDrain.mp hrecord)
    rw [(hrows _).eq_none hrow] at hwhole
    exact ⟨whole, hwhole⟩
  updates record hrecord held hheld _ := by
    obtain ⟨other, hother, halike⟩ := (hrows _).of_decodes hheld
    obtain ⟨whole, hwhole⟩ := hcalculate _ _ (hsound.mem_toDrain.mp hrecord)
    rw [hother] at hwhole
    exact LawfulRecord.calculate_of_alike (LawfulRecord.absorb_alike halike.symm (.refl record)) hwhole
  expires hrelative _ := hexpires hrelative

omit [LawfulRecord M] in
/-- All that is about to be merged has a scale that a column can hold. -/
def Storing (persister : Persister M) (rows : MetricId → Option M) : Prop :=
  (∀ id drained, persister.window.active.get? id = some drained → Storable drained) ∧
    ∀ id whole, rows id = some whole → Storable whole

omit [LawfulRecord M] in
theorem storable_of_scale {a b : M} (h : Accumulating.scale a = Accumulating.scale b)
    (hb : Storable b) : Storable a := by
  unfold Storable
  rwa [h]

theorem Built.written (built : persister.Built store now sessions writes) (hsound : persister.Sound)
    (hrows : ∀ id, store.RowIs persister.model.storageName id (rows id))
    (hstoring : persister.Storing rows) {write : Write M} (hwrite : write ∈ writes) :
    ∃ kind drained whole, write = .of kind persister.model whole now ∧
      persister.window.active.get? write.id = some drained ∧
      ofFields write.id write.fields = .ok (.ok whole) ∧
      Alike whole (joined (rows write.id) drained) := by
  obtain ⟨drained, hdrained, hprepares⟩ := built.preparing.prepared write hwrite
  have hid := hprepares.id_eq
  have hget := hsound.mem_toDrain.mp hdrained
  have hstorable := hstoring.1 _ _ hget
  cases hprepares with
  | @insert whole absent calculated _ =>
    refine ⟨.insert, drained, whole, rfl, hid ▸ hget, ?_, ?_⟩
    · exact LawfulRecord.ofFields_calculated hstorable calculated
    · rw [hid, (hrows _).eq_none absent]
      exact LawfulRecord.calculate_alike calculated
  | @update cached whole held decodes combined calculated _ _ =>
    obtain ⟨other, hother, halike⟩ := (hrows _).of_decodes decodes
    refine ⟨.update, drained, whole, rfl, hid ▸ hget, ?_, ?_⟩
    · apply LawfulRecord.ofFields_calculated _ calculated
      apply storable_of_scale (LawfulRecord.scale_absorb cached drained)
      exact storable_of_scale (LawfulRecord.scale_alike halike) (hstoring.2 _ _ hother)
    · rw [hid, hother]
      exact (LawfulRecord.calculate_alike calculated).trans
        (LawfulRecord.absorb_alike halike (.refl drained))

theorem Built.readBack (built : persister.Built store now sessions writes) (hsound : persister.Sound)
    (hrows : ∀ id, store.RowIs persister.model.storageName id (rows id))
    (hstoring : persister.Storing rows) : ReadBack writes := by
  intro write hwrite callback hcallback
  obtain ⟨kind, drained, whole, rfl, _, hread, _⟩ := built.written hsound hrows hstoring hwrite
  cases hcallback
  exact hread

theorem Built.merges (built : persister.Built store now sessions writes)
    (hsmooth : Smooth store persister.model persister.settings.ttlDays now persister.toDrain)
    (hsound : persister.Sound) (hupdate : persister.model.supportUpdate = true)
    (wrote : Wrote persister.model.storageName writes store store')
    (hrows : ∀ id, store.RowIs persister.model.storageName id (rows id))
    (hstoring : persister.Storing rows) (id : MetricId) :
    store'.RowIs persister.model.storageName id (persister.merged rows id) := by
  by_cases hid : id ∈ writes.map (·.id)
  · obtain ⟨write, hwrite, rfl⟩ := List.mem_map.mp hid
    obtain ⟨kind, drained, whole, rfl, hget, hread, halike⟩ :=
      built.written hsound hrows hstoring hwrite
    rw [merged, hget]
    exact ⟨whole, wrote.written _ hwrite, hread, halike⟩
  · have hsame := (hrows id).of_row?_eq (wrote.others id hid)
    cases hget : persister.window.active.get? id with
    | none =>
      rw [merged, hget]
      exact hsame
    | some drained =>
      have hdrained : Record.id drained = id := hsound.keyed id drained hget
      rw [← hdrained] at hget hsame hid ⊢
      rcases built.covers hsmooth drained (hsound.mem_toDrain.mpr hget) with
        ⟨write, hwrite, hprepares⟩ | ⟨cached, hcached, hrefused⟩
      · exact absurd (hprepares.id_eq ▸ List.mem_map_of_mem hwrite) hid
      · obtain ⟨other, hother, halike⟩ := (hrows _).of_decodes hcached
        rcases hrefused with hno | hrefused
        · rw [hupdate] at hno
          cases hno
        · rw [merged, hget, hother]
          rw [hother] at hsame
          apply hsame.alike
          have hkept : absorb cached drained = cached := LawfulRecord.absorb_refused hrefused
          refine halike.symm.trans ?_
          rw [← hkept]
          exact LawfulRecord.absorb_alike (hkept.symm ▸ halike) (.refl drained)

end Persister

end Rollup
