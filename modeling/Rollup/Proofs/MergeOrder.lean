import Mathlib.Data.List.Perm.Basic
import Rollup.Proofs.Merging
import Rollup.Proofs.Percentiles

/-!
# The order of merges

Records that come to the same whichever of two comes first can be merged in any order, and in any
groups. What is merged before it is copied to a coarser level comes to the same as what is copied
before it is merged.
-/

namespace Rollup

open Record

variable {M : Type} [Record M]

/-! ## Identities -/

theorem about_filter_ne {id other : MetricId} (hne : other ≠ id) (records : List M) :
    about other (records.filter fun record => !decide (Record.id record = id)) =
      about other records := by
  simp only [about, List.filter_filter]
  apply List.filter_congr
  intro record _
  by_cases hrecord : Record.id record = other <;> simp [hrecord, hne]

theorem perm_flatMap_about {ids : List MetricId} (hids : ids.Nodup) {records : List M}
    (hcovers : ∀ record ∈ records, Record.id record ∈ ids) :
    records.Perm (ids.flatMap (about · records)) := by
  induction ids generalizing records with
  | nil =>
    have hempty : records = [] := List.eq_nil_iff_forall_not_mem.mpr fun record hrecord => by
      cases hcovers record hrecord
    rw [hempty]
    exact .nil
  | cons id ids ih =>
    obtain ⟨hfresh, hids⟩ := List.nodup_cons.mp hids
    let rest := records.filter fun record => !decide (Record.id record = id)
    have hrest : rest.Perm (ids.flatMap (about · rest)) := ih hids fun record hrecord => by
      obtain ⟨hmem, hne⟩ := List.mem_filter.mp hrecord
      rcases List.mem_cons.mp (hcovers record hmem) with hid | hid
      · simp [hid] at hne
      · exact hid
    have hsame : ids.flatMap (about · rest) = ids.flatMap (about · records) :=
      List.flatMap_congr fun other hother =>
        about_filter_ne (ne_of_mem_of_not_mem hother hfresh) records
    rw [List.flatMap_cons, ← hsame]
    have hsplit : (about id records ++ rest).Perm records := List.filter_append_perm _ records
    exact hsplit.symm.trans (hrest.append_left _)

/-! ## Orders -/

variable [Accumulating M]

namespace Record

/-- Two records come to the same whichever of them comes first. -/
structure Swappable (a b : M) : Prop where
  scale_eq : Accumulating.scale a = Accumulating.scale b
  alike : Alike (absorb a b) (absorb b a)

theorem Swappable.symm {a b : M} (h : Swappable a b) : Swappable b a := ⟨h.scale_eq.symm, h.alike.symm⟩

theorem exists_scale {relates : M → M → Prop} {records : List M} (h : records.Pairwise relates)
    (hscale : ∀ a b, relates a b → Accumulating.scale a = Accumulating.scale b) :
    ∃ scale, ∀ record ∈ records, Accumulating.scale record = scale := by
  cases h with
  | nil => exact ⟨0, by simp⟩
  | @cons first rest hfirst _ =>
    refine ⟨Accumulating.scale first, List.forall_mem_cons.mpr ⟨rfl, fun record hrecord => ?_⟩⟩
    exact (hscale _ _ (hfirst record hrecord)).symm

/-- Nothing is held in both places, or two records that are alike. -/
abbrev HeldAlike : Option M → Option M → Prop := Option.Rel Alike

theorem HeldAlike.refl (held : Option M) : HeldAlike held held := by
  cases held with
  | none => exact .none
  | some held => exact .some (.refl held)

theorem HeldAlike.symm {a b : Option M} (h : HeldAlike a b) : HeldAlike b a := by
  cases h with
  | none => exact .none
  | some h => exact .some h.symm

theorem HeldAlike.trans {a b c : Option M} (hab : HeldAlike a b) (hbc : HeldAlike b c) :
    HeldAlike a c := by
  cases hab with
  | none => exact hbc
  | some hab =>
    cases hbc with
    | some hbc => exact .some (hab.trans hbc)

variable [LawfulRecord M] {scale : UInt64}

theorem HeldAlike.joinedAll {a b : Option M} (h : HeldAlike a b) (records : List M) :
    HeldAlike (joinedAll a records) (joinedAll b records) := by
  cases h with
  | none => exact .refl _
  | some h =>
    obtain ⟨_, _, hwhole, hwhole', halike⟩ := joinedAll_alike h records
    rw [hwhole, hwhole']
    exact .some halike

theorem scale_joined {held : Option M} {record : M}
    (hheld : ∀ whole ∈ held, Accumulating.scale whole = scale)
    (hrecord : Accumulating.scale record = scale) :
    Accumulating.scale (joined held record) = scale := by
  cases held with
  | none => exact hrecord
  | some whole => exact (LawfulRecord.scale_absorb whole record).trans (hheld whole rfl)

theorem scale_held {held : Option M} {records : List M}
    (hheld : ∀ whole ∈ held, Accumulating.scale whole = scale)
    (hrecords : ∀ record ∈ records, Accumulating.scale record = scale) :
    ∀ whole ∈ joinedAll held records, Accumulating.scale whole = scale := by
  induction records generalizing held with
  | nil => exact hheld
  | cons first rest ih =>
    have hfirst := scale_joined hheld (hrecords first List.mem_cons_self)
    refine ih ?_ fun record hrecord => hrecords record (List.mem_cons_of_mem _ hrecord)
    rintro _ ⟨rfl⟩
    exact hfirst

theorem joined_comm {held : Option M} {a b : M} (h : Swappable a b)
    (hheld : ∀ whole ∈ held, Accumulating.scale whole = Accumulating.scale a) :
    Alike (joined (some (joined held a)) b) (joined (some (joined held b)) a) := by
  cases held with
  | none => exact h.alike
  | some whole =>
    have hwhole := hheld whole rfl
    show Alike (absorb (absorb whole a) b) (absorb (absorb whole b) a)
    -- What is held moves out of the way, and only the two that swap places meet.
    have hab := LawfulRecord.absorb_assoc hwhole h.scale_eq
    have hba := LawfulRecord.absorb_assoc (hwhole.trans h.scale_eq) h.scale_eq.symm
    exact (hab.trans (LawfulRecord.absorb_alike (.refl whole) h.alike)).trans hba.symm

theorem joinedAll_perm {records others : List M} (hperm : records.Perm others)
    (hswappable : records.Pairwise Swappable) {held : Option M}
    (hheld : ∀ whole ∈ held, ∀ record ∈ records,
      Accumulating.scale whole = Accumulating.scale record) :
    HeldAlike (joinedAll held records) (joinedAll held others) := by
  induction hperm generalizing held with
  | nil => exact .refl _
  | cons first _ ih =>
    obtain ⟨hfirst, hrest⟩ := List.pairwise_cons.mp hswappable
    refine ih hrest ?_
    rintro _ ⟨rfl⟩ record hrecord
    have hscale : Accumulating.scale (joined held first) = Accumulating.scale first :=
      scale_joined (fun whole hwhole => hheld whole hwhole first List.mem_cons_self) rfl
    exact hscale.trans (hfirst record hrecord).scale_eq
  | swap first second rest =>
    obtain ⟨hsecond, _⟩ := List.pairwise_cons.mp hswappable
    have hswap := joined_comm (hsecond first List.mem_cons_self)
      fun whole hwhole => hheld whole hwhole second List.mem_cons_self
    exact HeldAlike.joinedAll (.some hswap) rest
  | trans hfirst _ ih ih' =>
    refine (ih hswappable hheld).trans (ih' (hfirst.pairwise hswappable .symm) ?_)
    exact fun whole hwhole record hrecord => hheld whole hwhole record (hfirst.mem_iff.mpr hrecord)

end Record

/-! ## Groups -/

/-- A record is the fold of a group of records that are about the same. -/
structure Folds (part : M) (group : List M) : Prop where
  about : ∀ record ∈ group, Record.id record = Record.id part
  fold : HeldAlike (some part) (joinedAll none group)

/-- These records are the folds of groups into which the first ones fall apart. -/
def Merges (records parts : List M) : Prop :=
  ∃ groups, List.Forall₂ Folds parts groups ∧ records.Perm groups.flatten

namespace Merges

theorem nil : Merges ([] : List M) [] := ⟨[], .nil, .nil⟩

theorem append {records parts records' parts' : List M} (h : Merges records parts)
    (h' : Merges records' parts') : Merges (records ++ records') (parts ++ parts') := by
  obtain ⟨groups, hfolds, hperm⟩ := h
  obtain ⟨groups', hfolds', hperm'⟩ := h'
  refine ⟨groups ++ groups', List.rel_append hfolds hfolds', ?_⟩
  rw [List.flatten_append]
  exact hperm.append hperm'

theorem perm_parts {records parts parts' : List M} (h : Merges records parts)
    (hparts : parts'.Perm parts) : Merges records parts' := by
  obtain ⟨groups, hfolds, hperm⟩ := h
  obtain ⟨groups', hfolds', hgroups⟩ := List.perm_comp_forall₂ hparts hfolds
  exact ⟨groups', hfolds', hperm.trans hgroups.symm.flatten⟩

theorem of_distinct {records parts : List M} (hparts : (parts.map Record.id).Nodup)
    (hfolds : ∀ part ∈ parts, joinedAll none (about (Record.id part) records) = some part)
    (hcovers : ∀ record ∈ records, Record.id record ∈ parts.map Record.id) :
    Merges records parts := by
  refine ⟨parts.map fun part => about (Record.id part) records, ?_, ?_⟩
  · rw [List.forall₂_map_right_iff, List.forall₂_same]
    intro part hpart
    refine ⟨fun record hrecord => (mem_about.mp hrecord).2, ?_⟩
    rw [hfolds part hpart]
    exact .refl _
  · have hperm := perm_flatMap_about hparts hcovers
    rwa [List.flatMap_map] at hperm

theorem filterMap {records parts : List M} (h : Merges records parts) (f : M → Option M)
    (hf : ∀ part group, Folds part group → (f part = none ∧ group.filterMap f = []) ∨
      ∃ part', f part = some part' ∧ Folds part' (group.filterMap f)) :
    Merges (records.filterMap f) (parts.filterMap f) := by
  obtain ⟨groups, hfolds, hperm⟩ := h
  have hgroups : ∃ groups', List.Forall₂ Folds (parts.filterMap f) groups' ∧
      groups.flatten.filterMap f = groups'.flatten := by
    clear hperm
    induction hfolds with
    | nil => exact ⟨[], .nil, rfl⟩
    | @cons part group parts groups hfold _ ih =>
      obtain ⟨groups', hfolds', hflatten⟩ := ih
      rw [List.flatten_cons, List.filterMap_append, hflatten]
      rcases hf part group hfold with ⟨hpart, hgroup⟩ | ⟨part', hpart, hfold'⟩
      · rw [List.filterMap_cons_none hpart, hgroup]
        exact ⟨groups', hfolds', rfl⟩
      · rw [List.filterMap_cons_some hpart]
        exact ⟨_ :: groups', .cons hfold' hfolds', rfl⟩
  obtain ⟨groups', hfolds', hflatten⟩ := hgroups
  exact ⟨groups', hfolds', hflatten ▸ hperm.filterMap f⟩

end Merges

section Folds

variable [LawfulRecord M] {scale : UInt64}

theorem Folds.joined_alike {part : M} {group : List M} (h : Folds part group) {held : Option M}
    (hheld : ∀ whole ∈ held, Accumulating.scale whole = scale)
    (hgroup : ∀ record ∈ group, Accumulating.scale record = scale) :
    HeldAlike (some (joined held part)) (joinedAll held group) := by
  have hfold := h.fold
  cases hwhole : joinedAll none group with
  | none =>
    rw [hwhole] at hfold
    cases hfold
  | some whole =>
    rw [hwhole] at hfold
    obtain ⟨hfold⟩ := hfold
    cases held with
    | none =>
      rw [hwhole]
      exact .some hfold
    | some held =>
      have hscale : ∀ record ∈ group, Accumulating.scale record = Accumulating.scale held :=
        fun record hrecord => (hgroup record hrecord).trans (hheld held rfl).symm
      obtain ⟨merged, hmerged, halike⟩ := absorb_joinedAll hscale hwhole
      rw [hmerged]
      exact .some ((LawfulRecord.absorb_alike (.refl held) hfold).trans halike)

theorem joinedAll_alike_of_folds {parts : List M} {groups : List (List M)}
    (h : List.Forall₂ Folds parts groups)
    (hgroups : ∀ record ∈ groups.flatten, Accumulating.scale record = scale) {held : Option M}
    (hheld : ∀ whole ∈ held, Accumulating.scale whole = scale) :
    HeldAlike (joinedAll held parts) (joinedAll held groups.flatten) := by
  induction h generalizing held with
  | nil => exact .refl held
  | @cons part group parts groups hfold _ ih =>
    rw [List.flatten_cons, List.forall_mem_append] at hgroups
    rw [List.flatten_cons, joinedAll_append]
    exact ((hfold.joined_alike hheld hgroups.1).joinedAll parts).trans
      (ih hgroups.2 (scale_held hheld hgroups.1))

/-- Whatever was merged before, and in whatever order, it all comes to the same. -/
theorem Merges.fold {records parts : List M} (h : Merges records parts)
    (hswappable : records.Pairwise Swappable) :
    HeldAlike (joinedAll none parts) (joinedAll none records) := by
  obtain ⟨groups, hfolds, hperm⟩ := h
  obtain ⟨scale, hscale⟩ := exists_scale hswappable fun _ _ h => h.scale_eq
  have hgroups : ∀ record ∈ groups.flatten, Accumulating.scale record = scale :=
    fun record hrecord => hscale record (hperm.mem_iff.mpr hrecord)
  have hparts : HeldAlike (joinedAll none parts) (joinedAll none groups.flatten) :=
    joinedAll_alike_of_folds hfolds hgroups nofun
  exact hparts.trans (joinedAll_perm hperm.symm (hperm.pairwise hswappable .symm) nofun)

end Folds

/-! ## What is swappable -/

namespace SumRecord

theorem swappable {a b : SumRecord} (hid : a.id = b.id) : Swappable a b :=
  ⟨rfl, alike_iff.mpr ⟨hid, Int64.add_comm _ _⟩⟩

end SumRecord

namespace PeakRecord

theorem greater_comm (x y : Int64) : greater x y = greater y x := by
  unfold greater
  simp only [Int64.lt_iff_toInt_lt]
  split_ifs with hxy hyx
  · omega
  · rfl
  · rfl
  · exact Int64.toInt_inj.mp (by omega)

theorem swappable {a b : PeakRecord} (hid : a.id = b.id) : Swappable a b := by
  refine ⟨rfl, ?_⟩
  rw [absorb_eq, absorb_eq, greater_comm]
  exact alike_iff.mpr ⟨hid, rfl⟩

end PeakRecord

namespace RateRecord

theorem swappable {a b : RateRecord} (hid : a.id = b.id) : Swappable a b :=
  ⟨rfl, alike_iff.mpr ⟨hid, Int64.add_comm _ _⟩⟩

end RateRecord

namespace AverageRecord

theorem swappable {a b : AverageRecord} (hid : a.id = b.id) : Swappable a b :=
  ⟨rfl, alike_iff.mpr ⟨hid, Int64.add_comm _ _, Int64.add_comm _ _⟩⟩

end AverageRecord

namespace LatestRecord

theorem swappable {a b : LatestRecord} (hid : a.id = b.id)
    (hmoment : a.observedAt.value ≠ b.observedAt.value) : Swappable a b := by
  -- Two records of one moment are not swappable: the one that comes second stands.
  refine ⟨rfl, ?_⟩
  rw [absorb_eq, absorb_eq, alike_iff]
  rcases Int64.lt_or_lt_of_ne hmoment with hlt | hlt
  · rw [if_neg (Int64.lt_asymm hlt), if_pos hlt]
    exact ⟨hid, rfl, rfl⟩
  · rw [if_pos hlt, if_neg (Int64.lt_asymm hlt)]
    exact ⟨hid, rfl, rfl⟩

end LatestRecord

namespace Histogram

theorem merge_comm (a b : Histogram) : a.merge b = b.merge a := by
  apply ext_counts
  intro bucket
  rw [getElem?_merge, getElem?_merge, count_eq, count_eq]
  cases a.counts[bucket]? with
  | none => cases b.counts[bucket]? <;> simp
  | some count => cases b.counts[bucket]? <;> simp [UInt64.add_comm]

end Histogram

namespace PercentileRecord

theorem swappable {a b : PercentileRecord} (hid : a.id = b.id)
    (hprecision : a.precision.value = b.precision.value) : Swappable a b := by
  refine ⟨hprecision, ?_⟩
  rw [absorb_eq, absorb_eq, if_pos hprecision.symm, if_pos hprecision, Histogram.merge_comm]
  exact alike_iff.mpr ⟨hid, hprecision, rfl⟩

end PercentileRecord

end Rollup
