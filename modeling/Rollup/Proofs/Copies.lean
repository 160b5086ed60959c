import Rollup.Downsampler
import Rollup.Proofs.MergeOrder

/-!
# Coarser copies

A copy is the record under the identity of the enclosing bucket. A target is handed one copy of each
record that is not coarser than it, and what was merged before it was copied comes to the same as what
is merged afterwards.
-/

namespace Rollup

open Record

variable {M : Type} [Record M]

/-- The copies of some records at a level. -/
def copiesAt (level : Level) (records : List M) : List M := records.filterMap (coarsen · level)

namespace Downsampler

variable {τ : Type} [DecidableEq τ]

/-- What one of the targets is handed of a record that is sent to all of them. -/
def copiesFor (sampler : Downsampler τ) (target : τ) (record : M) : List M :=
  (sampler.copies record).filterMap fun (receiver, copy) =>
    if receiver = target then some copy else none

def received (sampler : Downsampler τ) (target : τ) (records : List M) : List M :=
  records.flatMap (sampler.copiesFor target)

end Downsampler

/-- One copy for each record that is not coarser than the level, in their order. -/
def CopyEach (level : Level) (records copies : List M) : Prop :=
  List.Forall₂ (fun record copy => coarsen record level = some copy ∧
      (Record.id record).coarsen level = some (Record.id copy))
    (records.filter fun record => (Record.id record).bucket.level ≤ level) copies

/-- A coarser copy differs from its record in the identity, and in what is derived. -/
class Rekeys (M : Type) [Record M] [Accumulating M] where
  /-- The record under another identity. -/
  rekey : M → MetricId → M
  coarsen_eq (record : M) (level : Level) :
    coarsen record level = ((Record.id record).coarsen level).map (rekey record)
  id_rekey (record : M) (id : MetricId) : Record.id (rekey record id) = id
  rekey_alike {a b : M} (h : Alike a b) (id : MetricId) : Alike (rekey a id) (rekey b id)
  rekey_absorb (a b : M) (id : MetricId) :
    Alike (rekey (absorb a b) id) (absorb (rekey a id) (rekey b id))

/-! ## What a target is handed -/

namespace Downsampler

variable {τ : Type} [DecidableEq τ] {targets : List (Level × τ)} {level : Level} {target : τ}

theorem copiesFor_cons (own : Level × τ) (rest : List (Level × τ)) (target : τ) (record : M) :
    (⟨own :: rest⟩ : Downsampler τ).copiesFor target record =
      (if own.2 = target then (coarsen record own.1).toList else []) ++
        (⟨rest⟩ : Downsampler τ).copiesFor target record := by
  simp only [copiesFor, copies, List.filterMap_cons]
  cases coarsen record own.1 with
  | none => simp
  | some copy => by_cases hown : own.2 = target <;> simp [hown]

theorem copiesFor_eq_nil (htarget : target ∉ targets.map (·.2)) (record : M) :
    (⟨targets⟩ : Downsampler τ).copiesFor target record = [] := by
  induction targets with
  | nil => rfl
  | cons own rest ih =>
    rw [List.map_cons, List.mem_cons, not_or] at htarget
    obtain ⟨hown, hrest⟩ := htarget
    rw [copiesFor_cons, if_neg (Ne.symm hown), ih hrest]
    rfl

theorem copiesFor_eq (hdistinct : (targets.map (·.2)).Nodup) (htarget : (level, target) ∈ targets)
    (record : M) :
    (⟨targets⟩ : Downsampler τ).copiesFor target record = (coarsen record level).toList := by
  induction targets with
  | nil => cases htarget
  | cons own rest ih =>
    obtain ⟨hfresh, hdistinct⟩ := List.nodup_cons.mp hdistinct
    rw [copiesFor_cons]
    rcases List.mem_cons.mp htarget with rfl | htarget
    · rw [if_pos rfl, copiesFor_eq_nil hfresh, List.append_nil]
    · have hne : own.2 ≠ target := fun heq =>
        hfresh (List.mem_map.mpr ⟨(level, target), htarget, heq.symm⟩)
      rw [if_neg hne, List.nil_append, ih hdistinct htarget]

theorem received_eq {sampler : Downsampler τ} (hdistinct : (sampler.targets.map (·.2)).Nodup)
    (htarget : (level, target) ∈ sampler.targets) (records : List M) :
    sampler.received target records = copiesAt level records := by
  rw [copiesAt, List.filterMap_eq_flatMap_toList, received]
  exact congrArg records.flatMap (funext (copiesFor_eq hdistinct htarget))

end Downsampler

variable [Accumulating M] [Rekeys M]

theorem copyEach_copiesAt (level : Level) (records : List M) :
    CopyEach level records (copiesAt level records) := by
  induction records with
  | nil => exact .nil
  | cons first rest ih =>
    have hfirst := Rekeys.coarsen_eq first level
    have hid : (Record.id first).coarsen level =
        if (Record.id first).bucket.level ≤ level then
          some ⟨(Record.id first).entity, .containing (Record.id first).bucket.start level
            (Record.id first).bucket.inRange⟩
        else none := by
      rw [MetricId.coarsen, TimeBucket.coarsen]
      split_ifs <;> rfl
    rw [CopyEach, copiesAt, List.filterMap_cons, List.filter_cons]
    rw [hid] at hfirst
    split_ifs at hid hfirst with hle
    · simp only [hfirst, Option.map_some, hle, decide_true, if_true]
      refine .cons ⟨hfirst, ?_⟩ ih
      rw [hid, Rekeys.id_rekey]
    · simp only [hfirst, Option.map_none, hle, decide_false]
      exact ih

/-! ## Copying what was merged -/

theorem Record.HeldAlike.rekey {a b : Option M} (h : HeldAlike a b) (id : MetricId) :
    HeldAlike (a.map (Rekeys.rekey · id)) (b.map (Rekeys.rekey · id)) := by
  cases h with
  | none => exact .none
  | some h => exact .some (Rekeys.rekey_alike h id)

theorem filter_coarsen (record : M) (level : Level) (id : MetricId) :
    (coarsen record level).filter (Record.id · = id) =
      if (Record.id record).coarsen level = some id then some (Rekeys.rekey record id) else none := by
  rw [Rekeys.coarsen_eq]
  cases (Record.id record).coarsen level with
  | none => rfl
  | some own => by_cases hown : own = id <;> simp [Option.filter, Rekeys.id_rekey, hown]

section

variable [LawfulRecord M]

theorem joinedAll_rekey (id : MetricId) (held : Option M) (records : List M) :
    HeldAlike ((joinedAll held records).map (Rekeys.rekey · id))
      (joinedAll (held.map (Rekeys.rekey · id)) (records.map (Rekeys.rekey · id))) := by
  induction records generalizing held with
  | nil => exact .refl _
  | cons first rest ih =>
    have hfirst : Alike (Rekeys.rekey (joined held first) id)
        (joined (held.map (Rekeys.rekey · id)) (Rekeys.rekey first id)) := by
      cases held with
      | none => exact .refl _
      | some held => exact Rekeys.rekey_absorb held first id
    exact (ih (some (joined held first))).trans (HeldAlike.joinedAll (.some hfirst) _)

theorem Folds.rekey {part : M} {group : List M} (h : Folds part group) (id : MetricId) :
    Folds (Rekeys.rekey part id) (group.map (Rekeys.rekey · id)) := by
  refine ⟨fun copy hcopy => ?_, ?_⟩
  · obtain ⟨record, _, rfl⟩ := List.mem_map.mp hcopy
    rw [Rekeys.id_rekey, Rekeys.id_rekey]
  · exact (h.fold.rekey id).trans (joinedAll_rekey id none group)

theorem Merges.copies {records parts : List M} (h : Merges records parts) (level : Level)
    (id : MetricId) :
    Merges (about id (copiesAt level records)) (about id (copiesAt level parts)) := by
  simp only [about, copiesAt, List.filter_filterMap, filter_coarsen]
  refine h.filterMap _ fun part group hfold => ?_
  -- All of a group are about the same, so either each of them is copied to `id` or none is.
  by_cases hpart : (Record.id part).coarsen level = some id
  · refine Or.inr ⟨Rekeys.rekey part id, if_pos hpart, ?_⟩
    have hgroup : group.filterMap (fun record =>
        if (Record.id record).coarsen level = some id then some (Rekeys.rekey record id) else none) =
        group.map (Rekeys.rekey · id) := by
      rw [← List.filterMap_eq_map]
      refine List.filterMap_congr fun record hrecord => if_pos ?_
      rw [hfold.about record hrecord, hpart]
    rw [hgroup]
    exact hfold.rekey id
  · refine Or.inl ⟨if_neg hpart, List.filterMap_eq_nil_iff.mpr fun record hrecord => if_neg ?_⟩
    rw [hfold.about record hrecord]
    exact hpart

/-- What was merged and then copied comes to the same as what was copied at once, in whatever order
the copies arrive. -/
theorem Merges.rollUp {records parts copies : List M} (h : Merges records parts) {level : Level}
    {id : MetricId} (hcopies : copies.Perm (copiesAt level parts))
    (hswappable : (about id (copiesAt level records)).Pairwise Swappable) :
    HeldAlike (joinedAll none (about id copies))
      (joinedAll none (about id (copiesAt level records))) :=
  ((h.copies level id).perm_parts (hcopies.filter _)).fold hswappable

end

/-! ## The stock records -/

instance : Rekeys SumRecord where
  rekey record id := { record with id }
  coarsen_eq _ _ := rfl
  id_rekey _ _ := rfl
  rekey_alike h _ := SumRecord.alike_iff.mpr ⟨rfl, (SumRecord.alike_iff.mp h).2⟩
  rekey_absorb _ _ _ := .refl _

instance : Rekeys PeakRecord where
  rekey record id := { record with id }
  coarsen_eq _ _ := rfl
  id_rekey _ _ := rfl
  rekey_alike h _ := PeakRecord.alike_iff.mpr ⟨rfl, (PeakRecord.alike_iff.mp h).2⟩
  rekey_absorb _ _ _ := .refl _

instance : Rekeys RateRecord where
  rekey record id := { record with id, value := 0 }
  coarsen_eq _ _ := rfl
  id_rekey _ _ := rfl
  rekey_alike h _ := RateRecord.alike_iff.mpr ⟨rfl, (RateRecord.alike_iff.mp h).2⟩
  rekey_absorb _ _ _ := .refl _

instance : Rekeys AverageRecord where
  rekey record id := { record with id, value := 0 }
  coarsen_eq _ _ := rfl
  id_rekey _ _ := rfl
  rekey_alike h _ := AverageRecord.alike_iff.mpr ⟨rfl, (AverageRecord.alike_iff.mp h).2⟩
  rekey_absorb _ _ _ := .refl _

instance : Rekeys LatestRecord where
  rekey record id := { record with id }
  coarsen_eq _ _ := rfl
  id_rekey _ _ := rfl
  rekey_alike h _ := LatestRecord.alike_iff.mpr ⟨rfl, (LatestRecord.alike_iff.mp h).2⟩
  rekey_absorb a b id := by
    rw [LatestRecord.absorb_eq, LatestRecord.absorb_eq]
    split_ifs <;> exact .refl _

instance : Rekeys PercentileRecord where
  rekey record id := { record with id, percentiles := [] }
  coarsen_eq _ _ := rfl
  id_rekey _ _ := rfl
  rekey_alike h _ := PercentileRecord.alike_iff.mpr ⟨rfl, (PercentileRecord.alike_iff.mp h).2⟩
  rekey_absorb a b id := by
    rw [PercentileRecord.absorb_eq, PercentileRecord.absorb_eq]
    split_ifs <;> exact .refl _

end Rollup
