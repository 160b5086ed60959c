import Rollup.Proofs.Audiences

/-!
# Nested fan-outs

However fan-outs are nested, a record gets to the same consumers in the same order as if they were
registered side by side in one fan-out. An event that no consumer of a group wants is not sent into it.
-/

namespace Rollup.Fanout

variable {ι σ M : Type}

/-! ## Reading the leaves off -/

mutual

theorem map_listeners : (fanout : Fanout ι) → (listeners fanout).map (·.1) = leaves fanout
  | .single _ _ => rfl
  | .group members => map_allListeners members

theorem map_allListeners : (members : List (Fanout ι)) →
    (allListeners members).map (·.1) = allLeaves members
  | [] => rfl
  | member :: rest => by
    rw [allListeners, allLeaves, List.map_append, map_listeners member, map_allListeners rest]

end

mutual

theorem interested_eq (kind : EventKind) : (fanout : Fanout ι) →
    interested kind fanout = (listeners fanout).any fun listener => takes listener.2 kind
  | .single _ interest => (Bool.or_false (takes interest kind)).symm
  | .group members => anyInterested_eq kind members

theorem anyInterested_eq (kind : EventKind) : (members : List (Fanout ι)) →
    anyInterested kind members = (allListeners members).any fun listener => takes listener.2 kind
  | [] => rfl
  | member :: rest => by
    rw [anyInterested, allListeners, List.any_append, interested_eq kind member,
      anyInterested_eq kind rest]

end

theorem allListeners_members (fanout : Fanout ι) : allListeners fanout.members = listeners fanout := by
  cases fanout with
  | single consumer interest => rfl
  | group members => rfl

theorem mem_interestedIn {kind : EventKind} {listeners : List (ι × Interest)} {consumer : ι} :
    consumer ∈ interestedIn kind listeners ↔
      ∃ interest, (consumer, interest) ∈ listeners ∧ takes interest kind = true := by
  simp [interestedIn]

theorem interestedIn_sublist (kind : EventKind) (fanout : Fanout ι) :
    (interestedIn kind (listeners fanout)).Sublist (leaves fanout) := by
  rw [← map_listeners]
  exact List.filter_sublist.map _

/-! ## One level of leaves -/

/-- The leaves, registered in one fan-out in reading order. -/
def flatten (fanout : Fanout ι) : Fanout ι :=
  ((listeners fanout).map fun listener => .single listener.1 listener.2).foldl register empty

theorem members_foldl_register (fanout : Fanout ι) (consumers : List (Fanout ι)) :
    (consumers.foldl register fanout).members = fanout.members ++ consumers := by
  induction consumers generalizing fanout with
  | nil => exact (List.append_nil _).symm
  | cons consumer rest ih =>
    rw [List.foldl_cons, ih]
    exact List.append_assoc fanout.members [consumer] rest

theorem allListeners_singles (given : List (ι × Interest)) :
    allListeners (given.map fun listener => Fanout.single listener.1 listener.2) = given := by
  induction given with
  | nil => rfl
  | cons listener rest ih =>
    rw [List.map_cons, allListeners, ih]
    rfl

@[simp]
theorem listeners_flatten (fanout : Fanout ι) : listeners fanout.flatten = listeners fanout := by
  rw [← allListeners_members, flatten, members_foldl_register]
  exact allListeners_singles (listeners fanout)

theorem dispatch_members (kind : EventKind) (fanout : Fanout ι) :
    dispatch kind fanout.members = interestedIn kind (listeners fanout) := by
  rw [dispatch_eq, allListeners_members]

theorem dispatch_flatten (kind : EventKind) (fanout : Fanout ι) :
    dispatch kind fanout.flatten.members = dispatch kind fanout.members := by
  simp only [dispatch_members, listeners_flatten]

theorem showing_flatten (env : Surroundings σ M) (fanout : Fanout ι)
    (accept : ι → M → EventKind → Action σ Unit) :
    env.showing fanout accept = env.showing fanout.flatten accept := by
  unfold Surroundings.showing
  simp only [dispatch_flatten]

/-- A group of fan-outs and consumers, a copy of it and one fan-out of its leaves all hand a record on
to the leaves that are interested in its kind, to each once and in reading order. The group is
interested in what some leaf is interested in. -/
theorem nested_fanouts_flatten (members : List (Fanout ι)) (kind : EventKind) :
    let nested : Fanout ι := .group members
    let reached := interestedIn kind (listeners nested)
    (dispatch kind nested.members = reached ∧ receivers kind nested = reached) ∧
    (dispatch kind nested.copy.members = reached ∧ receivers kind nested.copy = reached) ∧
    dispatch kind nested.flatten.members = reached ∧
    (reached.Sublist (leaves nested) ∧ ∀ consumer, consumer ∈ reached ↔
      ∃ interest, (consumer, interest) ∈ listeners nested ∧ takes interest kind = true) ∧
    (interested kind nested = true ↔
      ∃ listener ∈ listeners nested, takes listener.2 kind = true) ∧
    ∀ {σ M : Type} (env : Surroundings σ M) (accept : ι → M → EventKind → Action σ Unit),
      env.showing nested accept = env.showing nested.flatten accept := by
  intro nested reached
  have hreached : dispatch kind members = reached := dispatch_members kind nested
  refine ⟨⟨hreached, hreached⟩, ⟨hreached, hreached⟩, (dispatch_flatten kind nested).trans hreached,
    ⟨interestedIn_sublist kind nested, fun _ => mem_interestedIn⟩, ?_,
    fun env accept => showing_flatten env nested accept⟩
  rw [interested_eq, List.any_eq_true]

/-- An empty group and one that wants no totals stand in between. -/
example : receivers .total (.group [.leaf 1 none, .group [],
    .group [.leaf 2 (some .increment), .group [.leaf 3 (some .total)], .leaf 4 none]]) = [1, 3, 4] :=
  rfl

end Rollup.Fanout
