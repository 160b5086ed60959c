import Rollup.Proofs.Drafting

/-!
# Accounts

What the entries and the writes of a round have to do with the rows. An entry is backed by its row, or
it is the record of an update of this round; what backs an entry is left open. From that it follows
that all writes of a round fit, and what the session cache is like once they have failed or were
executed.
-/

namespace Rollup

variable {M : Type} [Record M]

/-- What backs an entry: at least a row of its own, and never less than the row itself. -/
structure Backs (store : RowStore) (table : String) (backed : MetricId → M → Prop) : Prop where
  keyed : ∀ {id record}, backed id record → Record.id record = id
  present : ∀ {id record}, backed id record → store.row? ⟨table, id⟩ ≠ none
  of_decodes : ∀ {id record}, store.Decodes table id record → backed id record

def Sessions.Backed (sessions : Sessions M) (backed : MetricId → M → Prop) : Prop :=
  ∀ id held, sessions.session? id = some held → backed id held.record

omit [Record M] in
theorem Sessions.Backed.evict {sessions : Sessions M} {backed : MetricId → M → Prop}
    (h : sessions.Backed backed) (now : Int) (timeout : Duration) :
    (sessions.evict now timeout).Backed backed :=
  fun id held hheld => h id held (session?_evict.mp hheld).1

theorem Sessions.Backed.keyed {sessions : Sessions M} {store : RowStore} {table : String}
    {backed : MetricId → M → Prop} (h : sessions.Backed backed) (hbacks : Backs store table backed) :
    sessions.Keyed :=
  fun id held hheld => hbacks.keyed (h id held hheld)

namespace Draft

/-- Whether a write of a whole record fits the rows. Updates are made only where they are allowed. -/
def Suits (store : RowStore) (model : Model) (whole : M) : RequestKind → Prop
  | .insert => store.row? ⟨model.storageName, Record.id whole⟩ = none
  | .update => store.row? ⟨model.storageName, Record.id whole⟩ ≠ none ∧ model.supportUpdate = true

/-- The accounts of a round. -/
structure Accounts (store : RowStore) (model : Model) (now : Int) (backed : MetricId → M → Prop)
    (draft : Draft M) : Prop where
  distinct : draft.ids.Nodup
  written : ∀ write ∈ draft.writes, ∃ kind whole, write = .of kind model whole now ∧
    Suits store model whole kind
  entries : ∀ id held, draft.sessions.session? id = some held → backed id held.record ∨
    ∃ whole, Write.of .update model whole now ∈ draft.writes ∧ held = ⟨whole, now⟩ ∧
      Record.id whole = id

variable {store : RowStore} {model : Model} {now : Int} {backed : MetricId → M → Prop}
  {draft draft' : Draft M}

namespace Accounts

theorem start {sessions : Sessions M} (h : sessions.Backed backed) :
    Accounts store model now backed ⟨sessions, []⟩ :=
  ⟨List.nodup_nil, by simp, fun id held hheld => Or.inl (h id held hheld)⟩

theorem backed_of_unwritten (h : Accounts store model now backed draft) {id : MetricId}
    (hid : id ∉ draft.ids) {held : Session M} (hheld : draft.sessions.session? id = some held) :
    backed id held.record := by
  rcases h.entries id held hheld with hbacked | ⟨whole, hwrite, _, rfl⟩
  · exact hbacked
  · exact absurd (List.mem_map_of_mem hwrite) hid

theorem push (h : Accounts store model now backed draft) {kind : RequestKind} {whole : M}
    (hunwritten : Record.id whole ∉ draft.ids) (hsuits : Suits store model whole kind)
    {sessions : Sessions M} (hentries : ∀ id held, sessions.session? id = some held →
      draft.sessions.session? id = some held ∨
        kind = .update ∧ held = ⟨whole, now⟩ ∧ Record.id whole = id) :
    Accounts store model now backed ⟨sessions, draft.writes ++ [.of kind model whole now]⟩ := by
  refine ⟨?_, ?_, ?_⟩
  · have hids : Draft.ids ⟨sessions, draft.writes ++ [.of kind model whole now]⟩ =
        draft.ids ++ [Record.id whole] := List.map_append
    rw [hids, List.nodup_append]
    refine ⟨h.distinct, List.nodup_singleton _, ?_⟩
    rintro id hid _ hlast rfl
    exact hunwritten (List.mem_singleton.mp hlast ▸ hid)
  · intro write hwrite
    rcases List.mem_append.mp hwrite with hwrite | hwrite
    · exact h.written write hwrite
    · exact ⟨kind, whole, List.mem_singleton.mp hwrite, hsuits⟩
  · intro id held hheld
    rcases hentries id held hheld with hbefore | ⟨rfl, rfl, hid⟩
    · refine (h.entries id held hbefore).imp_right ?_
      rintro ⟨other, hwrite, hother⟩
      exact ⟨other, List.mem_append_left _ hwrite, hother⟩
    · exact Or.inr ⟨whole, by simp, rfl, hid⟩

theorem suits_of_cached (h : Accounts store model now backed draft)
    (hbacks : Backs store model.storageName backed) {whole : M} {held : Session M}
    (hunwritten : Record.id whole ∉ draft.ids)
    (hcached : draft.sessions.session? (Record.id whole) = some held)
    (hallowed : model.supportUpdate = true) : Suits store model whole .update :=
  ⟨hbacks.present (h.backed_of_unwritten hunwritten hcached), hallowed⟩

theorem step (h : Accounts store model now backed draft)
    (hbacks : Backs store model.storageName backed) (hstep : Advances store model now draft draft') :
    Accounts store model now backed draft' := by
  cases hstep with
  | refresh unwritten _ entries =>
    refine ⟨h.distinct, h.written, fun id held hheld => ?_⟩
    rcases entries id held hheld with hbefore | hdecodes
    · exact h.entries id held hbefore
    · exact Or.inl (hbacks.of_decodes hdecodes)
  | insert unwritten _ absent =>
    have hsuits : Suits store model _ .insert := absent
    exact h.push unwritten hsuits fun _ _ hheld => Or.inl hheld
  | update unwritten cached allowed =>
    refine h.push unwritten (h.suits_of_cached hbacks unwritten cached allowed) ?_
    intro id held hheld
    rw [Sessions.session?_put] at hheld
    split_ifs at hheld with hput
    · cases hheld
      exact Or.inr ⟨rfl, rfl, hput.1⟩
    · exact Or.inl hheld

theorem run (h : Accounts store model now backed draft)
    (hbacks : Backs store model.storageName backed) (hrun : Advanced store model now draft draft') :
    Accounts store model now backed draft' := by
  induction hrun with
  | refl => exact h
  | tail _ hstep ih => exact ih.step hbacks hstep

theorem halt (h : Accounts store model now backed draft)
    (hbacks : Backs store model.storageName backed) (hhalts : draft.Halts model now draft') :
    Accounts store model now backed draft' := by
  cases hhalts with
  | between => exact h
  | uncached unwritten cached allowed =>
    exact h.push unwritten (h.suits_of_cached hbacks unwritten cached allowed)
      fun _ _ hheld => Or.inl hheld

/-! ## Rows -/

theorem tied (h : Accounts store model now backed draft) : Tied now draft.writes := by
  intro write hwrite
  obtain ⟨kind, whole, rfl, _⟩ := h.written write hwrite
  exact ⟨kind, model, whole, rfl⟩

theorem key_eq (h : Accounts store model now backed draft) {write : Write M}
    (hwrite : write ∈ draft.writes) : write.key = ⟨model.storageName, write.id⟩ := by
  obtain ⟨_, _, rfl, _⟩ := h.written write hwrite
  rfl

theorem fit (h : Accounts store model now backed draft) : store.Fit draft.writes := by
  constructor
  · have hkeys : draft.writes.map (·.key) = draft.ids.map (RowKey.mk model.storageName) := by
      rw [ids, List.map_map]
      exact List.map_congr_left fun write hwrite => h.key_eq hwrite
    rw [hkeys]
    exact h.distinct.map fun _ _ heq => (RowKey.mk.inj heq).2
  · intro write hwrite
    obtain ⟨kind, whole, rfl, hsuits⟩ := h.written write hwrite
    rw [h.key_eq hwrite, RowStore.fits_eq]
    cases kind with
    | insert =>
      have habsent : store.row? ⟨model.storageName, Record.id whole⟩ = none := hsuits
      simp [Write.of, habsent]
    | update => simpa [Write.of, Option.isSome_iff_ne_none] using hsuits.1

theorem kind_iff (h : Accounts store model now backed draft) {write : Write M}
    (hwrite : write ∈ draft.writes) : write.kind = .insert ↔ store.row? write.key = none := by
  rw [h.key_eq hwrite]
  obtain ⟨kind, whole, rfl, hsuits⟩ := h.written write hwrite
  cases kind with
  | insert => exact iff_of_true rfl hsuits
  | update => exact iff_of_false nofun hsuits.1

theorem write_unique (h : Accounts store model now backed draft) {write other : Write M}
    (hwrite : write ∈ draft.writes) (hother : other ∈ draft.writes) (hid : write.id = other.id) :
    write = other :=
  List.inj_on_of_nodup_map h.distinct hwrite hother hid

/-! ## Outcomes -/

theorem backed_of_failed (h : Accounts store model now backed draft) :
    (draft.sessions.settleAll (outcomes draft.writes .failed)).Backed backed := by
  intro id held hheld
  by_cases hid : id ∈ draft.ids
  · obtain ⟨write, hwrite, rfl⟩ := List.mem_map.mp hid
    obtain ⟨kind, whole, rfl, _⟩ := h.written write hwrite
    have hsettled := Sessions.session?_outcomes_of_mem h.tied h.distinct .failed hwrite draft.sessions
    have hwhole : (Write.of kind model whole now).id = Record.id whole := rfl
    rw [hwhole] at hheld ⊢
    rw [hsettled] at hheld
    cases kind with
    | insert =>
      rcases h.entries _ held hheld with hbacked | ⟨other, hother, _, hid⟩
      · exact hbacked
      · -- An update would be a second write of the identity.
        have := (Write.of_inj (h.write_unique hwrite hother hid.symm)).1
        cases this
    | update =>
      simp only [Session.settle] at hheld
      split_ifs at hheld with hreached
      rcases h.entries _ held hheld with hbacked | ⟨_, _, rfl, _⟩
      · exact hbacked
      · -- The entry has the stamp of the update, and does not outlive it.
        exact absurd (fun entry hentry => by
          rw [hheld] at hentry
          cases hentry
          exact Int.le_refl now) hreached
  · rw [Sessions.session?_outcomes_of_not_mem h.tied .failed hid] at hheld
    exact h.backed_of_unwritten hid hheld

theorem entries_of_executed (h : Accounts store model now backed draft) {id : MetricId}
    {held : Session M}
    (hheld : (draft.sessions.settleAll (outcomes draft.writes .executed)).session? id = some held) :
    draft.sessions.session? id = some held ∧ backed id held.record ∨
      ∃ kind whole, Write.of kind model whole now ∈ draft.writes ∧ held = ⟨whole, now⟩ ∧
        Record.id whole = id := by
  have hbefore : draft.sessions.session? id = some held →
      draft.sessions.session? id = some held ∧ backed id held.record ∨
        ∃ kind whole, Write.of kind model whole now ∈ draft.writes ∧ held = ⟨whole, now⟩ ∧
          Record.id whole = id := fun hsame =>
    (h.entries id held hsame).imp (And.intro hsame) fun ⟨whole, hwhole⟩ => ⟨.update, whole, hwhole⟩
  by_cases hid : id ∈ draft.ids
  · obtain ⟨write, hwrite, rfl⟩ := List.mem_map.mp hid
    obtain ⟨kind, whole, rfl, _⟩ := h.written write hwrite
    have hsettled := Sessions.session?_outcomes_of_mem h.tied h.distinct .executed hwrite draft.sessions
    have hwhole : (Write.of kind model whole now).id = Record.id whole := rfl
    rw [hwhole] at hheld hbefore ⊢
    rw [hsettled] at hheld
    cases kind with
    | insert =>
      simp only [Session.settle] at hheld
      split_ifs at hheld
      · cases hheld
        exact Or.inr ⟨_, whole, hwrite, rfl, rfl⟩
      · -- An entry of a later stamp stays.
        exact hbefore hheld
    | update => exact hbefore hheld
  · rw [Sessions.session?_outcomes_of_not_mem h.tied .executed hid] at hheld
    exact hbefore hheld

end Accounts

end Draft

end Rollup
