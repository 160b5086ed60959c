import Mathlib.Data.Finset.Card
import Rollup.Proofs.Wiring

/-!
# Circles

A graph builder refuses every circle: from no stage of a builder that passes the check can one go on
along the edges for ever.
-/

namespace Rollup.GraphBuilder

variable {ν : Type} {builder : GraphBuilder ν}

/-- Every edge joins stages that are there. -/
def Complete (builder : GraphBuilder ν) : Prop :=
  ∀ source target, builder.Feeds source target → source ∈ builder.stages ∧ target ∈ builder.stages

/-- Every way from this stage along the edges comes to an end. -/
abbrev Ending (builder : GraphBuilder ν) (stage : String) : Prop :=
  Acc (fun target source => builder.Feeds source target) stage

/-- What a search makes of the stages that are done. -/
structure Extends (builder : GraphBuilder ν) (done done' : Std.ExtTreeSet String) : Prop where
  kept : ∀ stage ∈ done, stage ∈ done'
  ending : ∀ stage ∈ done', builder.Ending stage

theorem Extends.refl {done : Std.ExtTreeSet String} (h : ∀ stage ∈ done, builder.Ending stage) :
    builder.Extends done done := ⟨fun _ hstage => hstage, h⟩

variable (builder) in
theorem foldlM_extends
    {visit : Std.ExtTreeSet String → String → Except GraphError (Std.ExtTreeSet String)}
    {stages : List String}
    (h : ∀ stage ∈ stages, ∀ done done', (∀ other ∈ done, builder.Ending other) →
      visit done stage = Except.ok done' → builder.Extends done done' ∧ stage ∈ done')
    {done last : Std.ExtTreeSet String} (hdone : ∀ stage ∈ done, builder.Ending stage)
    (hlast : stages.foldlM visit done = Except.ok last) :
    builder.Extends done last ∧ ∀ stage ∈ stages, stage ∈ last := by
  induction stages generalizing done with
  | nil =>
    obtain rfl : done = last := Except.ok.inj hlast
    exact ⟨.refl hdone, by simp⟩
  | cons stage rest ih =>
    rw [List.foldlM_cons] at hlast
    cases hvisit : visit done stage with
    | error error =>
      rw [hvisit] at hlast
      cases hlast
    | ok done' =>
      rw [hvisit] at hlast
      obtain ⟨hfirst, hstage⟩ := h stage List.mem_cons_self done done' hdone hvisit
      obtain ⟨hrest, hall⟩ := ih (fun other hother => h other (List.mem_cons_of_mem _ hother))
        hfirst.ending hlast
      refine ⟨⟨fun other hother => hrest.kept other (hfirst.kept other hother), hrest.ending⟩, ?_⟩
      exact List.forall_mem_cons.mpr ⟨hrest.kept stage hstage, hall⟩

theorem length_le_size {path : List String} (hdistinct : path.Nodup)
    (hpath : ∀ stage ∈ path, stage ∈ builder.stages) : path.length ≤ builder.stages.size := by
  rw [← Std.ExtTreeSet.length_toList]
  refine (hdistinct.subperm fun stage hstage => ?_).length_le
  exact Std.ExtTreeSet.mem_toList.mpr (hpath stage hstage)

theorem visitWithin_extends (hcomplete : builder.Complete) (depth : Nat) {path : List String}
    {stage : String} {done done' : Std.ExtTreeSet String} (hdistinct : path.Nodup)
    (hpath : ∀ before ∈ path, before ∈ builder.stages) (hstage : stage ∈ builder.stages)
    (hdepth : builder.stages.size ≤ depth + path.length)
    (hdone : ∀ other ∈ done, builder.Ending other)
    (h : builder.visitWithin depth path done stage = .ok done') :
    builder.Extends done done' ∧ stage ∈ done' := by
  induction depth generalizing path stage done done' with
  | zero =>
    unfold visitWithin at h
    split at h
    · next hin =>
      obtain rfl : done = done' := Except.ok.inj h
      exact ⟨.refl hdone, by simpa using hin⟩
    · split at h
      · cases h
      · next hnew =>
        -- The path is full, so there is no room for one more stage.
        have hlonger : (stage :: path).Nodup := List.nodup_cons.mpr ⟨by simpa using hnew, hdistinct⟩
        have := length_le_size hlonger (List.forall_mem_cons.mpr ⟨hstage, hpath⟩)
        rw [List.length_cons] at this
        omega
  | succ depth ih =>
    unfold visitWithin at h
    split at h
    · next hin =>
      obtain rfl : done = done' := Except.ok.inj h
      exact ⟨.refl hdone, by simpa using hin⟩
    · split at h
      · cases h
      · next hnew =>
        have hlonger : (stage :: path).Nodup := List.nodup_cons.mpr ⟨by simpa using hnew, hdistinct⟩
        cases hsearch : (builder.successors stage).foldlM (builder.visitWithin depth (stage :: path))
            done with
        | error error =>
          simp only [hsearch] at h
          cases h
        | ok last =>
          simp only [hsearch] at h
          obtain rfl : last.insert stage = done' := Except.ok.inj h
          obtain ⟨hlast, hnext⟩ := foldlM_extends builder (fun next hnext done done' hdone hvisit =>
            ih hlonger (List.forall_mem_cons.mpr ⟨hstage, hpath⟩) (hcomplete stage next hnext).2
              (by rw [List.length_cons]; omega) hdone hvisit) hdone hsearch
          refine ⟨⟨fun other hother => mem_insert.mpr (.inr (hlast.kept other hother)), ?_⟩,
            mem_insert.mpr (.inl rfl)⟩
          intro other hother
          rcases mem_insert.mp hother with rfl | hother
          · exact .intro other fun next hfeeds => hlast.ending next (hnext next hfeeds)
          · exact hlast.ending other hother

theorem ending_of_checkAcyclic (hcomplete : builder.Complete) (h : builder.checkAcyclic = .ok ())
    (stage : String) : builder.Ending stage := by
  unfold checkAcyclic at h
  cases hsearch : builder.stages.toList.foldlM (builder.visitWithin builder.stages.size []) {} with
  | error error =>
    rw [hsearch] at h
    cases h
  | ok last =>
    obtain ⟨hlast, hall⟩ := foldlM_extends builder
      (fun stage hstage done done' hdone hvisit => visitWithin_extends hcomplete builder.stages.size
        .nil (by simp) (Std.ExtTreeSet.mem_toList.mp hstage) (Nat.le_refl _) hdone hvisit)
      (by simp) hsearch
    refine .intro stage fun next hfeeds => ?_
    have hnext := (hcomplete stage next hfeeds).2
    exact hlast.ending next (hall next (Std.ExtTreeSet.mem_toList.mpr hnext))

theorem checkAcyclic_eq_ok_iff (hcomplete : builder.Complete) :
    builder.checkAcyclic = .ok () ↔ builder.Acyclic := by
  refine ⟨fun h stage hback => ?_, checkAcyclic_ok⟩
  have hwell : WellFounded fun target source => builder.Feeds source target :=
    ⟨ending_of_checkAcyclic hcomplete h⟩
  have hround := Relation.transGen_swap.mpr hback
  exact hwell.transGen.asymmetric _ _ hround hround

end Rollup.GraphBuilder
