import Mathlib.Data.List.Nodup
import Rollup.Proofs.Calls
import Rollup.Proofs.RecordLaws
import Rollup.RowStore

/-!
# Rows

What the rows of a store read back as, what a load answers, and what a flush makes of the rows.
-/

namespace Rollup.RowStore

variable {M : Type} [Record M]

/-- The row of an identity reads back as this record. -/
def Decodes (store : RowStore) (table : String) (id : MetricId) (record : M) : Prop :=
  ∃ fields, store.row? ⟨table, id⟩ = some fields ∧ Record.ofFields id fields = .ok (.ok record)

theorem Decodes.unique {store : RowStore} {table : String} {id : MetricId} {a b : M}
    (ha : store.Decodes table id a) (hb : store.Decodes table id b) : a = b := by
  obtain ⟨fields, hrow, ha⟩ := ha
  obtain ⟨fields', hrow', hb⟩ := hb
  rw [hrow] at hrow'
  cases hrow'
  rw [ha] at hb
  cases hb
  rfl

theorem Decodes.id_eq [KeepsIdentity M] {store : RowStore} {table : String} {id : MetricId}
    {record : M} (h : store.Decodes table id record) : Record.id record = id :=
  KeepsIdentity.id_ofFields h.choose_spec.2

theorem Decodes.of_row?_eq {store store' : RowStore} {table : String} {id : MetricId} {record : M}
    (h : store.Decodes table id record) (hrow : store'.row? ⟨table, id⟩ = store.row? ⟨table, id⟩) :
    store'.Decodes table id record := by
  obtain ⟨fields, hfields, hread⟩ := h
  exact ⟨fields, hrow.trans hfields, hread⟩

/-! ## Loading -/

/-- A load answers with a record for each row among those asked for. -/
structure Loads (store : RowStore) (table : String) (ids : List MetricId) (loaded : List M) :
    Prop where
  decodes : ∀ record ∈ loaded, store.Decodes table (Record.id record) record
  complete : ∀ id ∈ ids, store.row? ⟨table, id⟩ ≠ none → id ∈ loaded.map Record.id
  order : (loaded.map Record.id).Sublist ids

theorem loads_nil (store : RowStore) (table : String) : store.Loads table [] ([] : List M) :=
  ⟨by simp, by simp, List.Sublist.refl _⟩

theorem readRows_cons (store : RowStore) (table : String) (id : MetricId) (rest : List MetricId) :
    store.readRows (M := M) table (id :: rest) =
      match store.row? ⟨table, id⟩ with
      | none => store.readRows table rest
      | some fields => do
        match ← Record.ofFields (M := M) id fields with
        | .error cause => return .error (.schema cause)
        | .ok record => return (← store.readRows table rest).map (record :: ·) := rfl

theorem loads_of_readRows [KeepsIdentity M] {store : RowStore} {table : String}
    {ids : List MetricId} {loaded : List M} (h : store.readRows table ids = .ok (.ok loaded)) :
    store.Loads table ids loaded := by
  induction ids generalizing loaded with
  | nil =>
    cases h
    exact loads_nil store table
  | cons id rest ih =>
    rw [readRows_cons] at h
    cases hrow : store.row? ⟨table, id⟩ with
    | none =>
      rw [hrow] at h
      have hrest := ih h
      refine ⟨hrest.decodes, ?_, hrest.order.cons id⟩
      intro other hmem hother
      rcases List.mem_cons.mp hmem with rfl | hmem
      · exact absurd hrow hother
      · exact hrest.complete other hmem hother
    | some fields =>
      simp only [hrow, bind_eq_ok_iff] at h
      obtain ⟨read, hread, h⟩ := h
      cases read with
      | error cause => cases h
      | ok record =>
        obtain ⟨others, hothers, h⟩ := bind_eq_ok_iff.mp h
        cases others with
        | error cause => cases h
        | ok others =>
          cases h
          have hrest := ih hothers
          have hdecodes : store.Decodes table id record := ⟨fields, hrow, hread⟩
          have hid := hdecodes.id_eq
          refine ⟨?_, ?_, ?_⟩
          · intro other hmem
            rcases List.mem_cons.mp hmem with rfl | hmem
            · rwa [hid]
            · exact hrest.decodes other hmem
          · intro other hmem hother
            rcases List.mem_cons.mp hmem with rfl | hmem
            · simp [hid]
            · exact List.mem_cons_of_mem _ (hrest.complete other hmem hother)
          · simp only [List.map_cons, hid]
            exact hrest.order.cons_cons id

theorem exists_readRows {store : RowStore} {table : String} {ids : List MetricId}
    (h : ∀ id ∈ ids, store.row? ⟨table, id⟩ ≠ none → ∃ record : M, store.Decodes table id record) :
    ∃ loaded : List M, store.readRows table ids = .ok (.ok loaded) := by
  induction ids with
  | nil => exact ⟨[], rfl⟩
  | cons id rest ih =>
    obtain ⟨others, hothers⟩ := ih fun other hmem => h other (List.mem_cons_of_mem _ hmem)
    rw [readRows_cons]
    cases hrow : store.row? ⟨table, id⟩ with
    | none => exact ⟨others, hothers⟩
    | some fields =>
      obtain ⟨record, fields', hfields, hread⟩ := h id List.mem_cons_self (by simp [hrow])
      rw [hrow] at hfields
      cases hfields
      refine ⟨record :: others, ?_⟩
      simp only [hread, hothers, bind, Except.bind, pure, Except.pure, Except.map]

theorem readRows_congr {store store' : RowStore} (h : store'.rows = store.rows) (table : String)
    (ids : List MetricId) :
    store'.readRows (M := M) table ids = store.readRows table ids := by
  have hrow : ∀ key, store'.row? key = store.row? key := fun key => by simp only [row?, h]
  induction ids with
  | nil => rfl
  | cons id rest ih => rw [readRows_cons, readRows_cons, hrow, ih]

theorem load_ends (store : RowStore) (table : String) (ids : List MetricId) :
    Action.Ends (load (M := M) table ids) store
      (fun answer store' => store' = { store with loads := store'.loads } ∧
        if store.failures.loads then ∃ error, answer = .error error
        else store.readRows table ids = .ok answer)
      (fun _ store' => store' = { store with loads := store'.loads } ∧
        (store.failures.brokenTable = some table ∨
          ∃ fault, store.readRows (M := M) table ids = .error fault)) := by
  unfold load
  rw [Action.ends_bind, Action.ends_get]
  by_cases hbroken : store.failures.brokenTable = some table
  · simp only [if_pos hbroken, Action.ends_bind, Action.ends_throw]
    exact ⟨trivial, Or.inl hbroken⟩
  · simp only [if_neg hbroken, Action.ends_bind, Action.ends_set]
    by_cases hfails : store.failures.loads = true
    · simp only [if_pos hfails, Action.ends_pure]
      exact ⟨trivial, _, rfl⟩
    · simp only [if_neg hfails, Action.ends_liftM]
      exact ⟨fun _ hanswer => ⟨trivial, hanswer⟩, fun fault hfault => ⟨trivial, Or.inr ⟨fault, hfault⟩⟩⟩

/-! ## Writing -/

variable {κ : Type}

@[simp]
theorem row?_write (store : RowStore) (request : Request κ) (key : RowKey) :
    (store.write request).row? key = if request.key = key then some request.fields
      else store.row? key := by
  simp [row?, write, Std.ExtTreeMap.getElem?_insert]

theorem fits_eq (store : RowStore) (kind : RequestKind) (key : RowKey) :
    store.fits kind key = match kind with
      | .insert => (store.row? key).isNone
      | .update => (store.row? key).isSome := by
  cases kind <;> simp [fits, row?]

theorem fits_congr {store store' : RowStore} {key : RowKey}
    (h : store'.row? key = store.row? key) (kind : RequestKind) :
    store'.fits kind key = store.fits kind key := by
  rw [fits_eq, fits_eq, h]

theorem apply_cons_of_fits {store : RowStore} {request : Request κ}
    (h : store.fits request.kind request.key) (rest : List (Request κ)) :
    store.apply (request :: rest) = (request.confirm.toList ++ ((store.write request).apply rest).1,
      ((store.write request).apply rest).2) := by
  rw [apply, if_pos h]

/-- Writes of different rows that all fit. -/
structure Fit (store : RowStore) (requests : List (Request κ)) : Prop where
  distinct : (requests.map (·.key)).Nodup
  fits : ∀ request ∈ requests, store.fits request.kind request.key

theorem Fit.of_row?_eq {store store' : RowStore} {requests : List (Request κ)}
    (h : store.Fit requests) (hrow : ∀ key, store'.row? key = store.row? key) :
    store'.Fit requests := by
  refine ⟨h.distinct, fun request hrequest => ?_⟩
  rw [fits_congr (hrow request.key)]
  exact h.fits request hrequest

theorem Fit.append {store : RowStore} {requests more : List (Request κ)} (h : store.Fit requests)
    (hmore : store.Fit more) (hne : ∀ request ∈ requests, ∀ other ∈ more, request.key ≠ other.key) :
    store.Fit (requests ++ more) := by
  constructor
  · rw [List.map_append]
    refine h.distinct.append hmore.distinct ?_
    intro key hkey hkey'
    obtain ⟨request, hrequest, rfl⟩ := List.mem_map.mp hkey
    obtain ⟨other, hother, heq⟩ := List.mem_map.mp hkey'
    exact hne request hrequest other hother heq.symm
  · intro request hrequest
    rcases List.mem_append.mp hrequest with hrequest | hrequest
    · exact h.fits request hrequest
    · exact hmore.fits request hrequest

theorem Fit.tail {store : RowStore} {request : Request κ} {rest : List (Request κ)}
    (h : store.Fit (request :: rest)) : (store.write request).Fit rest := by
  obtain ⟨hdistinct, hfits⟩ := h
  rw [List.map_cons, List.nodup_cons] at hdistinct
  refine ⟨hdistinct.2, ?_⟩
  intro other hmem
  have hne : request.key ≠ other.key := fun heq =>
    hdistinct.1 (heq ▸ List.mem_map_of_mem hmem)
  have hsame : (store.write request).row? other.key = store.row? other.key := by
    rw [row?_write, if_neg hne]
  rw [fits_congr hsame]
  exact hfits other (List.mem_cons_of_mem _ hmem)

variable {store : RowStore} {requests : List (Request κ)}

theorem told_apply (h : store.Fit requests) :
    (store.apply requests).1 = requests.flatMap (·.confirm.toList) := by
  induction requests generalizing store with
  | nil => rfl
  | cons request rest ih =>
    rw [apply_cons_of_fits (h.fits request List.mem_cons_self), List.flatMap_cons, ih h.tail]

theorem flush_of_failing (hfails : store.failures.writes = true) (requests : List (Request κ)) :
    store.flush requests = (.error (.unavailable "injected write failure"),
      requests.flatMap (·.reject.toList), store) := if_pos hfails

theorem flush_of_fit (hworks : store.failures.writes = false) (h : store.Fit requests) :
    store.flush requests =
      (.ok (), requests.flatMap (·.confirm.toList), (store.apply requests).2) := by
  rw [flush, if_neg (by simp [hworks]), ← told_apply h]

theorem Fit.fits_next {before behind : List (Request κ)} {request : Request κ}
    (h : store.Fit (before ++ request :: behind)) :
    (store.apply before).2.fits request.kind request.key = true := by
  induction before generalizing store with
  | nil => exact h.fits request List.mem_cons_self
  | cons first rest ih =>
    rw [apply_cons_of_fits (h.fits first List.mem_cons_self)]
    exact ih h.tail

theorem row?_apply_of_not_mem (h : store.Fit requests) {key : RowKey}
    (hkey : ∀ request ∈ requests, request.key ≠ key) :
    (store.apply requests).2.row? key = store.row? key := by
  induction requests generalizing store with
  | nil => rfl
  | cons request rest ih =>
    rw [apply_cons_of_fits (h.fits request List.mem_cons_self),
      ih h.tail fun other hmem => hkey other (List.mem_cons_of_mem _ hmem), row?_write,
      if_neg (hkey request List.mem_cons_self)]

theorem row?_apply_of_mem (h : store.Fit requests) {request : Request κ}
    (hmem : request ∈ requests) :
    (store.apply requests).2.row? request.key = some request.fields := by
  induction requests generalizing store with
  | nil => simp at hmem
  | cons first rest ih =>
    rw [apply_cons_of_fits (h.fits first List.mem_cons_self)]
    rcases List.mem_cons.mp hmem with rfl | hmem
    · have hdistinct := h.distinct
      rw [List.map_cons, List.nodup_cons] at hdistinct
      rw [row?_apply_of_not_mem h.tail, row?_write, if_pos rfl]
      intro other hother heq
      exact hdistinct.1 (heq ▸ List.mem_map_of_mem hother)
    · exact ih h.tail hmem

theorem failures_apply (store : RowStore) (requests : List (Request κ)) :
    (store.apply requests).2.failures = store.failures := by
  induction requests generalizing store with
  | nil => rfl
  | cons request rest ih =>
    rw [apply]
    split
    · exact ih (store.write request)
    · exact ih store

theorem executed_apply (h : store.Fit requests) :
    (store.apply requests).2.executed = store.executed ++
      requests.map fun request =>
        ⟨request.kind, request.model.storageName, request.id, request.fields⟩ := by
  induction requests generalizing store with
  | nil => simp [apply]
  | cons request rest ih =>
    rw [apply_cons_of_fits (h.fits request List.mem_cons_self), ih h.tail]
    simp [write]

end Rollup.RowStore
