import Rollup.Proofs.MergeOrder
import Rollup.Proofs.Settlement

/-!
# Groupings

Records about one identity are merged along a tree: some of them in the buffers of the first level, what
came of those in the window, and that into what the cache holds. What they come to depends neither on
their order nor on the tree.
-/

namespace Rollup

open Record

/-- A tree of merges, with records at its leaves. -/
inductive Grouping (M : Type) where
  | leaf (record : M)
  | merge (held incoming : Grouping M)

namespace Grouping

variable {M : Type}

/-- The records, in the order in which they come in. -/
def leaves : Grouping M → List M
  | leaf record => [record]
  | merge held incoming => held.leaves ++ incoming.leaves

variable [Record M]

/-- What they come to. -/
def result : Grouping M → M
  | leaf record => record
  | merge held incoming => absorb held.result incoming.result

theorem id_result [KeepsIdentity M] {tree : Grouping M} {id : MetricId}
    (h : ∀ record ∈ tree.leaves, Record.id record = id) : Record.id tree.result = id := by
  induction tree with
  | leaf record => exact h record List.mem_cons_self
  | merge held incoming ihheld _ =>
    exact (KeepsIdentity.id_combine _ _).trans (ihheld (List.forall_mem_append.mp h).1)

variable [Accumulating M] [LawfulRecord M]

theorem scale_result {tree : Grouping M} {scale : UInt64}
    (h : ∀ record ∈ tree.leaves, Accumulating.scale record = scale) :
    Accumulating.scale tree.result = scale := by
  induction tree with
  | leaf record => exact h record List.mem_cons_self
  | merge held incoming ihheld _ =>
    exact (LawfulRecord.scale_absorb _ _).trans (ihheld (List.forall_mem_append.mp h).1)

theorem folds {tree : Grouping M} {id : MetricId} {scale : UInt64}
    (hid : ∀ record ∈ tree.leaves, Record.id record = id)
    (hscale : ∀ record ∈ tree.leaves, Accumulating.scale record = scale) :
    Folds tree.result tree.leaves := by
  refine ⟨fun record hrecord => (hid record hrecord).trans (id_result hid).symm, ?_⟩
  induction tree with
  | leaf record => exact .refl _
  | merge held incoming ihheld ihincoming =>
    obtain ⟨hidheld, hidincoming⟩ := List.forall_mem_append.mp hid
    obtain ⟨hscaleheld, hscaleincoming⟩ := List.forall_mem_append.mp hscale
    have hfolds : Folds incoming.result incoming.leaves :=
      ⟨fun record hrecord => (hidincoming record hrecord).trans (id_result hidincoming).symm,
        ihincoming hidincoming hscaleincoming⟩
    have hheld : ∀ whole ∈ some held.result, Accumulating.scale whole = scale := by
      rintro _ ⟨rfl⟩
      exact scale_result hscaleheld
    have hmerged : HeldAlike (some (absorb held.result incoming.result))
        (joinedAll (some held.result) incoming.leaves) := hfolds.joined_alike hheld hscaleincoming
    rw [leaves, joinedAll_append]
    exact hmerged.trans ((ihheld hidheld hscaleheld).joinedAll incoming.leaves)

theorem alike_of_perm {a b : Grouping M} {id : MetricId}
    (hid : ∀ record ∈ a.leaves, Record.id record = id) (hswappable : a.leaves.Pairwise Swappable)
    (hperm : a.leaves.Perm b.leaves) : Alike a.result b.result := by
  obtain ⟨scale, hscale⟩ := exists_scale hswappable fun _ _ h => h.scale_eq
  have ha := (folds hid hscale).fold
  have hb := (folds (fun record hrecord => hid record (hperm.mem_iff.mpr hrecord))
    (fun record hrecord => hscale record (hperm.mem_iff.mpr hrecord))).fold
  -- Nothing is held before the first record, so there is no scale to agree with.
  have hleaves : HeldAlike (joinedAll none a.leaves) (joinedAll none b.leaves) :=
    joinedAll_perm hperm hswappable nofun
  obtain ⟨hab⟩ := (ha.trans hleaves).trans hb.symm
  exact hab

end Grouping

/-! ## Records that merge in any order -/

/-- Records any two of which are `mixable` come to the same in whatever order and along whatever tree
they are merged. If what they come to is `definite`, this holds of the calculated record too, and if it
is `calculable`, then there is one. -/
structure MergesInAnyOrder (M : Type) [Record M] [Accumulating M] (mixable : M → M → Prop)
    (definite calculable : M → Prop) : Prop where
  alike {a b : Grouping M} {id : MetricId} : (∀ record ∈ a.leaves, Record.id record = id) →
    a.leaves.Pairwise mixable → a.leaves.Perm b.leaves → Alike a.result b.result
  calculate_eq {a b : Grouping M} {id : MetricId} : (∀ record ∈ a.leaves, Record.id record = id) →
    a.leaves.Pairwise mixable → a.leaves.Perm b.leaves → definite a.result →
    calculate a.result = calculate b.result
  exists_calculate {record : M} : calculable record → ∃ whole, calculate record = .ok whole
  /-- This asks nothing of the two records. -/
  refused {held incoming : M} : (combine held incoming).1 = false →
    (combine held incoming).2 = held

theorem MergesInAnyOrder.of_swappable {M : Type} [Record M] [Accumulating M] [LawfulRecord M]
    {mixable : M → M → Prop} {definite calculable : M → Prop}
    (hswappable : ∀ {a b : M}, Record.id a = Record.id b → mixable a b → Swappable a b)
    (halike : ∀ {a b : M}, Alike a b → definite a → calculate a = calculate b)
    (hcalculable : ∀ {record : M}, calculable record → ∃ whole, calculate record = .ok whole) :
    MergesInAnyOrder M mixable definite calculable := by
  have hsame : ∀ {a b : Grouping M} {id : MetricId}, (∀ record ∈ a.leaves, Record.id record = id) →
      a.leaves.Pairwise mixable → a.leaves.Perm b.leaves → Alike a.result b.result := by
    intro a b id hid hmixable hperm
    refine Grouping.alike_of_perm hid (hmixable.imp_of_mem ?_) hperm
    exact fun hfirst hsecond => hswappable ((hid _ hfirst).trans (hid _ hsecond).symm)
  exact ⟨hsame, fun hid hmixable hperm => halike (hsame hid hmixable hperm), hcalculable,
    LawfulRecord.absorb_refused⟩

/-! ## Calculation reads the accumulators -/

namespace SumRecord

theorem eq_of_alike {a b : SumRecord} (h : Alike a b) : a = b := by
  obtain ⟨id, ⟨value⟩⟩ := a
  obtain ⟨rfl, rfl⟩ := alike_iff.mp h
  rfl

end SumRecord

namespace PeakRecord

theorem eq_of_alike {a b : PeakRecord} (h : Alike a b) : a = b := by
  obtain ⟨id, ⟨value⟩⟩ := a
  obtain ⟨rfl, rfl⟩ := alike_iff.mp h
  rfl

end PeakRecord

namespace LatestRecord

theorem eq_of_alike {a b : LatestRecord} (h : Alike a b) : a = b := by
  obtain ⟨id, ⟨value⟩, ⟨observedAt⟩⟩ := a
  obtain ⟨rfl, rfl, rfl⟩ := alike_iff.mp h
  rfl

end LatestRecord

namespace RateRecord

theorem calculate_eq_of_alike {a b : RateRecord} (h : Alike a b) : a.calculate = b.calculate := by
  obtain ⟨id, ⟨total⟩, value⟩ := a
  obtain ⟨rfl, rfl⟩ := alike_iff.mp h
  rfl

theorem exists_calculate {record : RateRecord} (h : ∃ finish, record.id.bucket.endMillis = .ok finish) :
    ∃ whole, record.calculate = .ok whole := by
  obtain ⟨_, hfinish⟩ := h
  obtain ⟨finish, hfinish, -⟩ := bind_eq_ok_iff.mp hfinish
  have hspan : record.id.bucket.spanMinutes =
      .ok (finish.toMinutes - record.id.bucket.start.toMinutes) :=
    bind_eq_ok_iff.mpr ⟨finish, hfinish, rfl⟩
  exact ⟨_, calculate_eq_ok_iff.mpr ⟨_, hspan, rfl⟩⟩

end RateRecord

namespace AverageRecord

theorem calculate_eq_of_alike {a b : AverageRecord} (h : Alike a b) (hcount : a.count.value ≠ 0) :
    a.calculate = b.calculate := by
  -- With a count of 0 the derived value is what it was, and may differ.
  obtain ⟨id, ⟨summation⟩, ⟨count⟩, value⟩ := a
  obtain ⟨rfl, rfl, rfl⟩ := alike_iff.mp h
  unfold calculate
  rw [if_neg hcount, if_neg hcount]

end AverageRecord

namespace Histogram

theorem mem_of_firstCovering {target seen : Nat} {pairs : List (UInt64 × UInt64)} {bucket : UInt64}
    (h : firstCovering target seen pairs = some bucket) : bucket ∈ pairs.map (·.1) := by
  induction pairs generalizing seen with
  | nil => cases h
  | cons first rest ih =>
    simp only [firstCovering] at h
    split_ifs at h
    · cases h
      exact List.mem_cons_self
    · exact List.mem_cons_of_mem _ (ih h)

/-- No edge of a bucket is beyond the words. -/
def EdgesFit (histogram : Histogram) (precision : UInt64) : Prop :=
  ∀ pair ∈ histogram.pairs, pair.1.toNat * (max precision 1).toNat ≤ limit

theorem EdgesFit.exists_percentile {histogram : Histogram} {precision : UInt64}
    (h : histogram.EdgesFit precision) (rank : Nat) :
    ∃ value, histogram.percentile rank precision = .ok value := by
  unfold percentile
  split_ifs
  · exact ⟨0, rfl⟩
  · cases hcovering : firstCovering (target histogram.total rank) 0 histogram.pairs with
    | none => exact ⟨0, rfl⟩
    | some bucket =>
      obtain ⟨pair, hpair, rfl⟩ := List.mem_map.mp (mem_of_firstCovering hcovering)
      exact ⟨_, if_pos (h pair hpair)⟩

end Histogram

namespace PercentileRecord

theorem calculate_eq_of_alike {a b : PercentileRecord} (h : Alike a b) :
    a.calculate = b.calculate := by
  obtain ⟨id, ⟨precision⟩, ⟨dataset⟩, percentiles⟩ := a
  obtain ⟨rfl, rfl, rfl⟩ := alike_iff.mp h
  rfl

theorem exists_calculate {record : PercentileRecord}
    (h : record.dataset.value.EdgesFit record.precision.value) :
    ∃ whole, record.calculate = .ok whole := by
  have hranks : ∀ ranks : List Nat, ∃ percentiles,
      ranks.mapM (record.dataset.value.percentile · record.precision.value) = .ok percentiles := by
    intro ranks
    induction ranks with
    | nil => exact ⟨[], rfl⟩
    | cons rank rest ih =>
      obtain ⟨value, hvalue⟩ := h.exists_percentile rank
      obtain ⟨values, hvalues⟩ := ih
      refine ⟨value :: values, ?_⟩
      rw [List.mapM_cons, hvalue, hvalues]
      rfl
  obtain ⟨percentiles, hpercentiles⟩ := hranks ranks
  exact ⟨_, calculate_eq_ok_iff.mpr ⟨percentiles, hpercentiles, rfl⟩⟩

end PercentileRecord

/-! ## The stock records -/

/-- The stock records merge in any order and along any tree: percentiles if they are of one precision,
latest values if no two of them were observed at one moment. A record that is refused changes nothing. -/
theorem stock_records_merge_in_any_order :
    MergesInAnyOrder SumRecord (fun _ _ => True) (fun _ => True) (fun _ => True) ∧
    MergesInAnyOrder RateRecord (fun _ _ => True) (fun _ => True)
      (fun record => ∃ finish, record.id.bucket.endMillis = .ok finish) ∧
    MergesInAnyOrder AverageRecord (fun _ _ => True) (fun record => record.count.value ≠ 0)
      (fun record => ¬ (record.summation.value = Int64.minValue ∧ record.count.value = -1)) ∧
    MergesInAnyOrder PeakRecord (fun _ _ => True) (fun _ => True) (fun _ => True) ∧
    MergesInAnyOrder PercentileRecord (fun a b => a.precision.value = b.precision.value)
      (fun _ => True) (fun record => record.dataset.value.EdgesFit record.precision.value) ∧
    MergesInAnyOrder LatestRecord (fun a b => a.observedAt.value ≠ b.observedAt.value)
      (fun _ => True) (fun _ => True) := by
  refine ⟨?sum, ?rate, ?average, ?peak, ?percentile, ?latest⟩
  case sum =>
    exact .of_swappable (fun hid _ => SumRecord.swappable hid)
      (fun h _ => congrArg calculate (SumRecord.eq_of_alike h)) (fun _ => ⟨_, rfl⟩)
  case rate =>
    exact .of_swappable (fun hid _ => RateRecord.swappable hid)
      (fun h _ => RateRecord.calculate_eq_of_alike h) RateRecord.exists_calculate
  case average =>
    exact .of_swappable (fun hid _ => AverageRecord.swappable hid)
      AverageRecord.calculate_eq_of_alike AverageRecord.exists_calculate
  case peak =>
    exact .of_swappable (fun hid _ => PeakRecord.swappable hid)
      (fun h _ => congrArg calculate (PeakRecord.eq_of_alike h)) (fun _ => ⟨_, rfl⟩)
  case percentile =>
    exact .of_swappable PercentileRecord.swappable
      (fun h _ => PercentileRecord.calculate_eq_of_alike h) PercentileRecord.exists_calculate
  case latest =>
    exact .of_swappable LatestRecord.swappable
      (fun h _ => congrArg calculate (LatestRecord.eq_of_alike h)) (fun _ => ⟨_, rfl⟩)

/-- Three averages, one after another and with the last two merged before they come in. -/
theorem stock_records_merge_in_any_order_of_averages :
    let id := MetricId.onFirstDay (.single "checkout")
    let one := AverageRecord.new id 6
    let two := AverageRecord.new id 9
    let three := AverageRecord.new id 3
    let a : Grouping AverageRecord := .merge (.merge (.leaf one) (.leaf two)) (.leaf three)
    let b : Grouping AverageRecord := .merge (.leaf three) (.merge (.leaf two) (.leaf one))
    calculate a.result = calculate b.result ∧
      calculate a.result = .ok { AverageRecord.withCount id 18 3 with value := 6 } := by
  intro id one two three a b
  have haverage := stock_records_merge_in_any_order.2.2.1
  have hid : ∀ record ∈ a.leaves, Record.id record = id := by decide +kernel
  have hmixable : a.leaves.Pairwise fun _ _ => True := by decide +kernel
  have hperm : a.leaves.Perm b.leaves := List.reverse_perm b.leaves
  exact ⟨haverage.calculate_eq hid hmixable hperm (by decide +kernel), by decide +kernel⟩

end Rollup
