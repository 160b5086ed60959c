import Rollup.Proofs.Percentiles
import Rollup.Proofs.Settlement

/-!
# Rebuilding records

A row is read back as the record that was stored, derived members included. Precisions are words, but
the column that holds one is signed: a precision beyond the signed range is read back as 1.
-/

namespace Rollup

open Record

/-- What is read back from the row of a record is that record. -/
def Record.Rebuilds {M : Type} [Record M] (record : M) : Prop :=
  ofFields (id record) (toFields record) = .ok (.ok record)

namespace PercentileRecord

/-- The first precision that a signed column cannot hold. -/
def signedLimit : Nat := 0x8000000000000000

/-- The records that the operations give. -/
inductive Made : PercentileRecord → Prop where
  | new (id : MetricId) (precision : UInt64) : Made (new id precision)
  | observe {record : PercentileRecord} (value : UInt64) : Made record → Made (record.observe value)
  | combine {held incoming : PercentileRecord} : Made held → Made incoming →
      Made (Record.combine held incoming).2
  | calculate {record whole : PercentileRecord} : Made record → record.calculate = .ok whole →
      Made whole
  | coarsen {record copy : PercentileRecord} {level : Level} : Made record →
      Record.coarsen record level = some copy → Made copy
  | ofFields {id : MetricId} {fields : Fields} {record : PercentileRecord} :
      Record.ofFields id fields = .ok (.ok record) → Made record

/-! ## Precisions -/

theorem max_one_pos (word : UInt64) : 0 < max word 1 := by
  show 0 < if word ≤ 1 then 1 else word
  split_ifs with hle
  · decide
  · exact UInt64.lt_trans (by decide) (UInt64.not_le.mp hle)

theorem precision_of_calculate {record whole : PercentileRecord} (h : record.calculate = .ok whole) :
    whole.precision = record.precision := by
  obtain ⟨_, _, rfl⟩ := calculate_eq_ok_iff.mp h
  rfl

theorem Made.precision_pos {record : PercentileRecord} (h : record.Made) :
    0 < record.precision.value := by
  induction h with
  | new id precision => exact max_one_pos precision
  | observe value _ ih => exact ih
  | @combine held incoming _ _ ih =>
    rwa [show (Record.combine held incoming).2.precision.value = held.precision.value from
      LawfulRecord.scale_absorb held incoming]
  | calculate _ hwhole ih => rwa [precision_of_calculate hwhole]
  | coarsen _ hcopy ih =>
    obtain ⟨_, _, rfl⟩ := Option.map_eq_some_iff.mp hcopy
    exact ih
  | ofFields hrecord =>
    obtain ⟨precision, dataset, _, _, hwhole⟩ := ofFields_eq_ok hrecord
    rw [precision_of_calculate hwhole]
    exact max_one_pos (precisionOf precision)

theorem precisionOf_toInt64_of_le {precision : UInt64} (h : signedLimit ≤ precision.toNat) :
    precisionOf precision.toInt64 = 1 := if_pos (toInt64_neg_iff.mpr h)

/-! ## Rows -/

theorem ofFields_toFields (record : PercentileRecord) :
    ofFields record.id (toFields record) = .ok <$> calculate { record with
      precision := ⟨max (precisionOf record.precision.value.toInt64) 1⟩, percentiles := [] } := by
  rw [ofFields_of_columns (get?_precision record) (get?_dataset record), Histogram.ofPairs_pairs]
  rfl

theorem calculate_forgotten (record : PercentileRecord) (percentiles : List UInt64) :
    calculate { record with percentiles } = calculate record := rfl

theorem calculate_calculated {record whole : PercentileRecord} (h : record.calculate = .ok whole) :
    whole.calculate = .ok whole := by
  obtain ⟨percentiles, _, rfl⟩ := calculate_eq_ok_iff.mp h
  exact h

theorem ofFields_of_lt {record whole : PercentileRecord} (hmade : record.Made)
    (hwhole : record.calculate = .ok whole) (hlt : whole.precision.value.toNat < signedLimit) :
    Rebuilds whole := by
  have hpos : 0 < whole.precision.value := (hmade.calculate hwhole).precision_pos
  exact LawfulRecord.ofFields_calculated ⟨hpos, hlt⟩ (calculate_calculated hwhole)

theorem ofFields_of_le {record : PercentileRecord} (hle : signedLimit ≤ record.precision.value.toNat) :
    ofFields record.id (toFields record) =
      .ok <$> calculate { record with precision := ⟨1⟩ } := by
  rw [ofFields_toFields, precisionOf_toInt64_of_le hle]
  exact congrArg _ (calculate_forgotten { record with precision := ⟨1⟩ } [])

theorem not_rebuilds_of_le {record : PercentileRecord}
    (hle : signedLimit ≤ record.precision.value.toNat) : ¬ Rebuilds record := by
  intro hrebuilds
  have hread : Except.ok <$> calculate { record with precision := ⟨1⟩ } =
      Except.ok (ε := Fault) (Except.ok (ε := FieldError) record) :=
    (ofFields_of_le hle).symm.trans hrebuilds
  cases hcalculate : calculate { record with precision := ⟨1⟩ } with
  | error fault => rw [hcalculate] at hread; cases hread
  | ok whole =>
    rw [hcalculate] at hread
    cases hread
    have hone : record.precision = ⟨1⟩ := precision_of_calculate hcalculate
    rw [hone] at hle
    exact absurd hle (by decide)

end PercentileRecord

/-- Records of five types are all rebuilt from their rows. A percentile record is rebuilt, once it is
calculated, exactly if its precision is within the signed range. Beyond it the record that is read back
has the same histogram, but precision 1. -/
theorem stock_records_rebuild_iff (sum : SumRecord) (rate : RateRecord) (average : AverageRecord)
    (peak : PeakRecord) (latest : LatestRecord) {record whole : PercentileRecord}
    (hmade : record.Made) (hwhole : record.calculate = .ok whole) :
    Rebuilds sum ∧ Rebuilds rate ∧ Rebuilds average ∧ Rebuilds peak ∧ Rebuilds latest ∧
      (Rebuilds whole ↔ whole.precision.value.toNat < PercentileRecord.signedLimit) ∧
      (PercentileRecord.signedLimit ≤ whole.precision.value.toNat →
        ofFields whole.id (toFields whole) = .ok <$> calculate { whole with precision := ⟨1⟩ }) := by
  refine ⟨RoundTrips.ofFields_toFields sum, RoundTrips.ofFields_toFields rate,
    RoundTrips.ofFields_toFields average, RoundTrips.ofFields_toFields peak,
    RoundTrips.ofFields_toFields latest, ⟨?_, ?_⟩, ?_⟩
  · intro hrebuilds
    by_contra hge
    exact PercentileRecord.not_rebuilds_of_le (Nat.le_of_not_lt hge) hrebuilds
  · exact PercentileRecord.ofFields_of_lt hmade hwhole
  · exact PercentileRecord.ofFields_of_le

/-- One observation, in the widest steps that are still signed and in steps that are one wider. -/
theorem stock_records_rebuild_iff_of_one_observation :
    let id := MetricId.onFirstDay (.single "checkout")
    let observed (precision : UInt64) : PercentileRecord :=
      (PercentileRecord.new id precision).observe precision
    Rebuilds (SumRecord.new id 2) ∧
    ∃ narrow wide, (observed 9223372036854775807).calculate = .ok narrow ∧ Rebuilds narrow ∧
      (observed 9223372036854775808).calculate = .ok wide ∧ ¬ Rebuilds wide ∧
      ofFields wide.id (toFields wide) =
        .ok (.ok { wide with precision := ⟨1⟩, percentiles := [1, 1, 1, 1, 1] }) := by
  intro id observed
  have hmade (precision : UInt64) : (observed precision).Made := .observe _ (.new id precision)
  have hnarrow : (observed 9223372036854775807).calculate = .ok { observed 9223372036854775807 with
      percentiles := List.replicate 5 9223372036854775807 } := by decide +kernel
  have hwide : (observed 9223372036854775808).calculate = .ok { observed 9223372036854775808 with
      percentiles := List.replicate 5 9223372036854775808 } := by decide +kernel
  have hrebuild := @stock_records_rebuild_iff (.new id 2) (.new id 3) (.new id 4) (.new id 5)
    (.new id 6 1000)
  refine ⟨(hrebuild (hmade _) hnarrow).1, _, _, hnarrow, ?_, hwide, fun hrebuilds => ?_, ?_⟩
  · exact (hrebuild (hmade _) hnarrow).2.2.2.2.2.1.mpr (by decide +kernel)
  · exact absurd ((hrebuild (hmade _) hwide).2.2.2.2.2.1.mp hrebuilds) (by decide +kernel)
  · exact ((hrebuild (hmade _) hwide).2.2.2.2.2.2 (by decide +kernel)).trans (by decide +kernel)

end Rollup
