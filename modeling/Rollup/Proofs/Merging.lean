import Mathlib.Data.List.Nodup
import Rollup.Proofs.RecordLaws
import Rollup.Window

/-!
# Merging

What a buffer holds of the records that came in: for each identity the fold of those about it, in the
order in which they came.
-/

namespace Rollup

variable {M : Type} [Record M]

namespace Record

/-- What is held of an identity once one more record about it has come in. -/
def joined (held : Option M) (incoming : M) : M :=
  match held with
  | some held => absorb held incoming
  | none => incoming

/-- What is held of an identity once all these have come in. -/
def joinedAll (held : Option M) (records : List M) : Option M :=
  records.foldl (fun held incoming => some (joined held incoming)) held

/-- The records about an identity. -/
def about (id : MetricId) (records : List M) : List M := records.filter (Record.id · = id)

@[simp]
theorem joinedAll_nil (held : Option M) : joinedAll held [] = held := rfl

@[simp]
theorem joinedAll_cons (held : Option M) (first : M) (rest : List M) :
    joinedAll held (first :: rest) = joinedAll (some (joined held first)) rest := rfl

theorem joinedAll_append (held : Option M) (records more : List M) :
    joinedAll held (records ++ more) = joinedAll (joinedAll held records) more := List.foldl_append

theorem about_cons (id : MetricId) (first : M) (rest : List M) :
    about id (first :: rest) =
      if Record.id first = id then first :: about id rest else about id rest := by
  simp [about, List.filter_cons]

theorem about_append (id : MetricId) (records more : List M) :
    about id (records ++ more) = about id records ++ about id more := List.filter_append ..

theorem mem_about {id : MetricId} {records : List M} {record : M} :
    record ∈ about id records ↔ record ∈ records ∧ Record.id record = id := by
  simp [about]

theorem id_joined [KeepsIdentity M] {held : Option M} {incoming : M} {id : MetricId}
    (hheld : ∀ record ∈ held, Record.id record = id) (hincoming : Record.id incoming = id) :
    Record.id (joined held incoming) = id := by
  cases held with
  | none => exact hincoming
  | some record => exact (KeepsIdentity.id_combine _ _).trans (hheld record rfl)

theorem id_joinedAll [KeepsIdentity M] {held : Option M} {records : List M} {id : MetricId}
    (hheld : ∀ record ∈ held, Record.id record = id)
    (hrecords : ∀ record ∈ records, Record.id record = id) :
    ∀ record ∈ joinedAll held records, Record.id record = id := by
  induction records generalizing held with
  | nil => exact hheld
  | cons first rest ih =>
    apply ih _ fun record hrecord => hrecords record (List.mem_cons_of_mem _ hrecord)
    rintro _ ⟨rfl⟩
    exact id_joined hheld (hrecords first List.mem_cons_self)

theorem joinedAll_ne_none {held : Option M} {records : List M} (h : records ≠ []) :
    joinedAll held records ≠ none := by
  induction records generalizing held with
  | nil => exact absurd rfl h
  | cons first rest ih =>
    cases rest with
    | nil => simp
    | cons second rest => exact ih (List.cons_ne_nil _ _)

section Folds

variable [Accumulating M] [LawfulRecord M]

theorem joinedAll_alike {a b : M} (h : Alike a b) (records : List M) :
    ∃ whole whole', joinedAll (some a) records = some whole ∧
      joinedAll (some b) records = some whole' ∧ Alike whole whole' := by
  induction records generalizing a b with
  | nil => exact ⟨a, b, rfl, rfl, h⟩
  | cons first rest ih => exact ih (LawfulRecord.absorb_alike h (.refl first))

theorem scale_joinedAll {held whole : M} {records : List M}
    (h : joinedAll (some held) records = some whole) :
    Accumulating.scale whole = Accumulating.scale held := by
  induction records generalizing held with
  | nil => cases h; rfl
  | cons first rest ih => exact (ih h).trans (LawfulRecord.scale_absorb held first)

theorem absorb_joinedAll {held : M} {records : List M}
    (hscale : ∀ record ∈ records, Accumulating.scale record = Accumulating.scale held) {part : M}
    (hpart : joinedAll none records = some part) :
    ∃ whole, joinedAll (some held) records = some whole ∧ Alike (absorb held part) whole := by
  cases records with
  | nil => cases hpart
  | cons first rest =>
    have hfirst : Accumulating.scale first = Accumulating.scale held :=
      hscale first List.mem_cons_self
    have hrest : ∀ record ∈ rest, Accumulating.scale record = Accumulating.scale held :=
      fun record hrecord => hscale record (List.mem_cons_of_mem _ hrecord)
    clear hscale
    change joinedAll (some first) rest = some part at hpart
    show ∃ whole, joinedAll (some (absorb held first)) rest = some whole ∧ _
    induction rest generalizing first with
    | nil =>
      cases hpart
      exact ⟨_, rfl, .refl _⟩
    | cons second rest ih =>
      have hsecond : Accumulating.scale second = Accumulating.scale held :=
        hrest second List.mem_cons_self
      have hmerged : Accumulating.scale (absorb first second) = Accumulating.scale held :=
        (LawfulRecord.scale_absorb first second).trans hfirst
      obtain ⟨whole, hwhole, halike⟩ := ih (absorb first second) hmerged
        (fun record hrecord => hrest record (List.mem_cons_of_mem _ hrecord)) hpart
      have hassoc : Alike (absorb held (absorb first second)) (absorb (absorb held first) second) :=
        (LawfulRecord.absorb_assoc hfirst.symm (hfirst.trans hsecond.symm)).symm
      obtain ⟨whole₁, whole₂, hwhole₁, hwhole₂, hsame⟩ := joinedAll_alike hassoc rest
      cases hwhole.symm.trans hwhole₁
      exact ⟨whole₂, hwhole₂, halike.trans hsame⟩

end Folds

end Record

open Record

/-! ## Buffers -/

namespace Buffer

/-- Each record is held under its own identity. -/
def Keyed (buffer : Buffer M) : Prop := ∀ id record, buffer.get? id = some record → Record.id record = id

omit [Record M] in
@[simp]
theorem get?_empty (id : MetricId) : (empty : Buffer M).get? id = none := by
  simp [get?, empty]

theorem get?_accept (buffer : Buffer M) (record : M) (id : MetricId) :
    (buffer.accept record).get? id =
      if Record.id record = id then some (joined (buffer.get? id) record) else buffer.get? id := by
  have hinsert : ∀ held : M, get? ⟨buffer.records.insert (Record.id record) held⟩ id =
      if Record.id record = id then some held else buffer.get? id := by
    intro held
    simp [get?, Std.ExtTreeMap.getElem?_insert]
  unfold accept
  split_ifs with hid
  · subst hid
    cases h : buffer.get? (Record.id record) <;> simp [h, hinsert, joined]
  · cases h : buffer.get? (Record.id record) <;> simp [h, hinsert, hid]

theorem get?_acceptAll (buffer : Buffer M) (records : List M) (id : MetricId) :
    (buffer.acceptAll records).get? id = joinedAll (buffer.get? id) (about id records) := by
  induction records generalizing buffer with
  | nil => rfl
  | cons first rest ih =>
    show ((buffer.accept first).acceptAll rest).get? id = _
    rw [ih, get?_accept, about_cons]
    split_ifs <;> rfl

theorem Keyed.empty : Keyed (Buffer.empty : Buffer M) := by
  intro id record h
  simp at h

theorem Keyed.accept [KeepsIdentity M] {buffer : Buffer M} (h : buffer.Keyed) (record : M) :
    (buffer.accept record).Keyed := by
  intro id held hheld
  rw [get?_accept] at hheld
  split_ifs at hheld with hid
  · cases hheld
    exact id_joined (fun other hother => h id other hother) hid
  · exact h id held hheld

theorem Keyed.acceptAll [KeepsIdentity M] {buffer : Buffer M} (h : buffer.Keyed)
    (records : List M) : (buffer.acceptAll records).Keyed := by
  induction records generalizing buffer with
  | nil => exact h
  | cons first rest ih => exact ih (h.accept first)

omit [Record M] in
theorem mem_toList {buffer : Buffer M} {record : M} :
    record ∈ buffer.toList ↔ ∃ id, buffer.get? id = some record := by
  simp [toList, get?, Std.ExtTreeMap.mem_toList_iff_getElem?_eq_some]

theorem Keyed.mem_toList_iff {buffer : Buffer M} (h : buffer.Keyed) {record : M} :
    record ∈ buffer.toList ↔ buffer.get? (Record.id record) = some record := by
  rw [mem_toList]
  constructor
  · rintro ⟨id, hid⟩
    rwa [h id record hid]
  · intro hid
    exact ⟨_, hid⟩

theorem Keyed.distinct {buffer : Buffer M} (h : buffer.Keyed) :
    (buffer.toList.map Record.id).Nodup := by
  have hkeys : buffer.toList.map Record.id = buffer.records.keys := by
    rw [toList, ← Std.ExtTreeMap.map_fst_toList_eq_keys, List.map_map]
    apply List.map_congr_left
    rintro ⟨id, record⟩ hmem
    exact h id record (Std.ExtTreeMap.mem_toList_iff_getElem?_eq_some.mp hmem)
  rw [hkeys]
  exact Std.ExtTreeMap.nodup_keys

omit [Record M] in
@[simp]
theorem toList_empty : (empty : Buffer M).toList = [] := by
  simp [toList, empty]

end Buffer

/-! ## Windows -/

namespace Window

/-- No drain is open, and nothing is left from the last one. -/
def Closed (window : Window M) : Prop := window.draining = false ∧ window.inactive = .empty

omit [Record M] in
theorem Closed.empty : Closed (Window.empty : Window M) := ⟨rfl, rfl⟩

theorem Closed.write {window : Window M} (h : window.Closed) (record : M) :
    (window.write record).Closed := h

omit [Record M] in
theorem Closed.beginDrain {window : Window M} (h : window.Closed) :
    window.beginDrain = .ok { active := .empty, inactive := window.active, draining := true } := by
  obtain ⟨hdraining, hinactive⟩ := h
  simp [Window.beginDrain, hdraining, hinactive]

end Window

end Rollup
