import Rollup.Proofs.RecordLaws
import Rollup.Record.Percentile

/-!
# Laws of histograms and percentiles

Histograms merge bucket by bucket, and a merged bucket is there if it is in one of the two. The laws of
percentile records follow from that.
-/

namespace Rollup

/-! ## Histograms -/

namespace Histogram

theorem count_eq (histogram : Histogram) (bucket : UInt64) :
    histogram.count bucket = histogram.counts[bucket]?.getD 0 :=
  Std.ExtTreeMap.getD_eq_getD_getElem?

theorem ext_counts {a b : Histogram} (h : ∀ bucket : UInt64, a.counts[bucket]? = b.counts[bucket]?) :
    a = b := by
  cases a; cases b
  exact congrArg mk (Std.ExtTreeMap.ext_getElem? h)

@[simp]
theorem getElem?_addBucket (histogram : Histogram) (bucket other count : UInt64) :
    (histogram.addBucket bucket count).counts[other]? =
      if bucket = other then some (histogram.count bucket + count)
      else histogram.counts[other]? := by
  simp [addBucket, Std.ExtTreeMap.getElem?_insert]

theorem getElem?_addPairs_of_not_mem {pairs : List (UInt64 × UInt64)} {bucket : UInt64}
    (h : ∀ pair ∈ pairs, pair.1 ≠ bucket) (histogram : Histogram) :
    (histogram.addPairs pairs).counts[bucket]? = histogram.counts[bucket]? := by
  induction pairs generalizing histogram with
  | nil => rfl
  | cons first rest ih =>
    have hfirst := h first List.mem_cons_self
    show ((histogram.addBucket first.1 first.2).addPairs rest).counts[bucket]? = _
    rw [ih fun pair hmem => h pair (List.mem_cons_of_mem _ hmem), getElem?_addBucket,
      if_neg hfirst]

theorem getElem?_addPairs_of_mem {pairs : List (UInt64 × UInt64)} {bucket count : UInt64}
    (hdistinct : pairs.Pairwise fun a b => a.1 ≠ b.1) (hmem : (bucket, count) ∈ pairs)
    (histogram : Histogram) :
    (histogram.addPairs pairs).counts[bucket]? = some (histogram.count bucket + count) := by
  induction pairs generalizing histogram with
  | nil => simp at hmem
  | cons first rest ih =>
    rw [List.pairwise_cons] at hdistinct
    show ((histogram.addBucket first.1 first.2).addPairs rest).counts[bucket]? = _
    rcases List.mem_cons.mp hmem with rfl | hrest
    · rw [getElem?_addPairs_of_not_mem fun pair hpair => (hdistinct.1 pair hpair).symm]
      simp
    · rw [ih hdistinct.2 hrest, count_eq, count_eq, getElem?_addBucket,
        if_neg (hdistinct.1 _ hrest)]

theorem pairs_distinct (histogram : Histogram) :
    histogram.pairs.Pairwise fun a b => a.1 ≠ b.1 := by
  refine List.Pairwise.imp ?_ (Std.ExtTreeMap.distinct_keys_toList (t := histogram.counts))
  intro a b h heq
  exact h (Std.LawfulEqCmp.compare_eq_iff_eq.mpr heq)

theorem mem_pairs_iff {histogram : Histogram} {bucket count : UInt64} :
    (bucket, count) ∈ histogram.pairs ↔ histogram.counts[bucket]? = some count :=
  Std.ExtTreeMap.mem_toList_iff_getElem?_eq_some

theorem getElem?_merge (held incoming : Histogram) (bucket : UInt64) :
    (held.merge incoming).counts[bucket]? =
      match incoming.counts[bucket]? with
      | some count => some (held.count bucket + count)
      | none => held.counts[bucket]? := by
  unfold merge
  cases h : incoming.counts[bucket]? with
  | some count =>
    exact getElem?_addPairs_of_mem incoming.pairs_distinct (mem_pairs_iff.mpr h) held
  | none =>
    apply getElem?_addPairs_of_not_mem
    rintro ⟨other, count⟩ hmem rfl
    rw [mem_pairs_iff.mp hmem] at h
    cases h

theorem count_merge (held incoming : Histogram) (bucket : UInt64) :
    (held.merge incoming).count bucket = held.count bucket + incoming.count bucket := by
  rw [count_eq, getElem?_merge, count_eq incoming]
  cases incoming.counts[bucket]? with
  | some count => rfl
  | none => simp [count_eq]

theorem merge_assoc (a b c : Histogram) : (a.merge b).merge c = a.merge (b.merge c) := by
  apply ext_counts
  intro bucket
  rw [getElem?_merge, getElem?_merge a (b.merge c), getElem?_merge b c]
  cases c.counts[bucket]? with
  | some count => simp only [count_merge, UInt64.add_assoc]
  | none => exact getElem?_merge a b bucket

theorem empty_merge (histogram : Histogram) : empty.merge histogram = histogram := by
  apply ext_counts
  intro bucket
  rw [getElem?_merge, count_eq]
  cases histogram.counts[bucket]? <;> simp [empty]

theorem ofPairs_pairs (histogram : Histogram) : ofPairs histogram.pairs = histogram :=
  empty_merge histogram

theorem pairs_inj {a b : Histogram} : a.pairs = b.pairs ↔ a = b := by
  constructor
  · intro h
    rw [← ofPairs_pairs a, h, ofPairs_pairs]
  · rintro rfl
    rfl

end Histogram

/-! ## Percentiles -/

namespace PercentileRecord

open Record

theorem get?_foldl_insert {name : String} {columns : List (Nat × UInt64)}
    (h : ∀ rank ∈ columns.map (·.1), column rank ≠ name) (fields : Fields) :
    (columns.foldl (fun fields (rank, value) => fields.insert (column rank) (.long value.toInt64))
      fields).get? name = fields.get? name := by
  induction columns generalizing fields with
  | nil => rfl
  | cons first rest ih =>
    have hrest : ∀ rank ∈ rest.map (·.1), column rank ≠ name := fun rank hmem =>
      h rank (List.mem_cons_of_mem _ hmem)
    rw [List.foldl_cons, ih hrest, Fields.get?_insert, if_neg (h first.1 List.mem_cons_self)]

theorem get?_toFields {name : String} (h : ∀ rank ∈ ranks, column rank ≠ name)
    (record : PercentileRecord) :
    (toFields record).get? name =
      if "dataset" = name then some (.buckets record.dataset.value.pairs)
      else if "precision" = name then some (.long record.precision.value.toInt64)
      else none := by
  unfold toFields
  rw [get?_foldl_insert]
  · simp
  · intro rank hmem
    obtain ⟨pair, hpair, rfl⟩ := List.mem_map.mp hmem
    exact h pair.1 (List.of_mem_zip hpair).1

theorem get?_precision (record : PercentileRecord) :
    (toFields record).get? "precision" = some (.long record.precision.value.toInt64) := by
  rw [get?_toFields (by decide)]
  rfl

theorem get?_dataset (record : PercentileRecord) :
    (toFields record).get? "dataset" = some (.buckets record.dataset.value.pairs) := by
  rw [get?_toFields (by decide)]
  rfl

theorem calculate_eq_ok_iff {record whole : PercentileRecord} :
    record.calculate = .ok whole ↔ ∃ percentiles,
      ranks.mapM (record.dataset.value.percentile · record.precision.value) = .ok percentiles ∧
        whole = { record with percentiles } := by
  unfold calculate
  rw [bind_eq_ok_iff]
  constructor
  · rintro ⟨percentiles, hpercentiles, hwhole⟩
    cases hwhole
    exact ⟨percentiles, hpercentiles, rfl⟩
  · rintro ⟨percentiles, hpercentiles, rfl⟩
    exact ⟨percentiles, hpercentiles, rfl⟩

theorem absorb_eq (held incoming : PercentileRecord) :
    absorb held incoming =
      if incoming.precision.value = held.precision.value then
        { held with dataset := ⟨held.dataset.value.merge incoming.dataset.value⟩ }
      else held := by
  show (held.combine incoming).2 = _
  unfold combine
  split_ifs <;> rfl

theorem combine_fst (held incoming : PercentileRecord) :
    (Record.combine held incoming).1 =
      decide (incoming.precision.value = held.precision.value) := by
  show (held.combine incoming).1 = _
  unfold combine
  split_ifs with h <;> simp [h]

theorem ofFields_eq_ok {id : MetricId} {fields : Fields} {record : PercentileRecord}
    (h : ofFields id fields = .ok (.ok record)) : ∃ precision dataset,
      fields.long "precision" = .ok precision ∧ fields.buckets "dataset" = .ok dataset ∧
        calculate { new id (precisionOf precision) with dataset := ⟨dataset⟩ } = .ok record := by
  unfold ofFields at h
  cases hprecision : fields.long "precision" with
  | error error => simp [hprecision, bind, Except.bind] at h
  | ok precision =>
    cases hdataset : fields.buckets "dataset" with
    | error error => simp [hprecision, hdataset, bind, Except.bind] at h
    | ok dataset =>
      refine ⟨precision, dataset, rfl, rfl, ?_⟩
      simp only [hprecision, hdataset, bind, Except.bind, pure, Except.pure] at h
      cases hcalculate : calculate { new id (precisionOf precision) with dataset := ⟨dataset⟩ } with
      | error fault => rw [hcalculate] at h; cases h
      | ok whole => rw [hcalculate] at h; cases h; rfl

theorem ofFields_of_columns {id : MetricId} {fields : Fields} {precision : Int64}
    {pairs : List (UInt64 × UInt64)} (hprecision : fields.get? "precision" = some (.long precision))
    (hdataset : fields.get? "dataset" = some (.buckets pairs)) :
    ofFields id fields =
      .ok <$> calculate { new id (precisionOf precision) with dataset := ⟨.ofPairs pairs⟩ } := by
  simp [ofFields, Fields.long, Fields.buckets, Fields.required, hprecision, hdataset, bind,
    Except.bind, pure, Except.pure]

instance : KeepsIdentity PercentileRecord where
  id_combine held incoming := by
    show Record.id (absorb held incoming) = held.id
    rw [absorb_eq]
    split_ifs <;> rfl
  id_calculate h := by
    obtain ⟨_, _, rfl⟩ := calculate_eq_ok_iff.mp h
    rfl
  id_ofFields h := by
    obtain ⟨_, _, _, _, hwhole⟩ := ofFields_eq_ok h
    obtain ⟨_, _, rfl⟩ := calculate_eq_ok_iff.mp hwhole
    rfl

instance : Accumulating PercentileRecord where
  columns := ["precision", "dataset"]
  scale record := record.precision.value

theorem alike_iff {a b : PercentileRecord} : Alike a b ↔
    a.id = b.id ∧ a.precision.value = b.precision.value ∧ a.dataset.value = b.dataset.value := by
  have hword : a.precision.value.toInt64 = b.precision.value.toInt64 ↔
      a.precision.value = b.precision.value := ⟨congrArg Int64.toUInt64, congrArg UInt64.toInt64⟩
  simp [Alike, Accumulating.columns, Record.id, Record.toFields, get?_precision, get?_dataset,
    Histogram.pairs_inj, hword]

theorem toInt64_neg_iff {word : UInt64} : word.toInt64 < 0 ↔ 0x8000000000000000 ≤ word.toNat := by
  rw [Int64.lt_iff_toInt_lt]
  show word.toBitVec.toInt < 0 ↔ _
  rw [BitVec.toInt_eq_toNat_cond]
  have hword : word.toBitVec.toNat = word.toNat := rfl
  have hlt : word.toNat < 18446744073709551616 := word.toNat_lt_size
  split <;> omega

theorem precisionOf_toInt64 {precision : UInt64} (h : precision.toNat < 0x8000000000000000) :
    precisionOf precision.toInt64 = precision :=
  if_neg (toInt64_neg_iff.not.mpr (Nat.not_le_of_lt h))

theorem max_one {word : UInt64} (h : 0 < word) : max word 1 = word := by
  show (if word ≤ 1 then 1 else word) = word
  split_ifs with hle
  · rw [UInt64.le_iff_toNat_le] at hle
    rw [UInt64.lt_iff_toNat_lt] at h
    apply UInt64.toNat_inj.mp
    simp at *
    omega
  · rfl

instance : LawfulRecord PercentileRecord where
  absorb_alike {a a' b b'} ha hb := by
    obtain ⟨hid, hprecision, hdataset⟩ := alike_iff.mp ha
    obtain ⟨-, hprecision', hdataset'⟩ := alike_iff.mp hb
    rw [alike_iff, absorb_eq, absorb_eq, hprecision, hprecision', hdataset, hdataset']
    split_ifs
    · exact ⟨hid, hprecision, rfl⟩
    · exact ⟨hid, hprecision, hdataset⟩
  absorb_assoc {a b c} hab hbc := by
    have hab : a.precision.value = b.precision.value := hab
    have hbc : b.precision.value = c.precision.value := hbc
    simp [alike_iff, absorb_eq, hab, hbc, Histogram.merge_assoc]
  absorb_refused {a b} h := by
    rw [combine_fst] at h
    rw [absorb_eq, if_neg (by simpa using h)]
  scale_absorb a b := by
    show (absorb a b).precision.value = a.precision.value
    rw [absorb_eq]
    split_ifs <;> rfl
  scale_alike h := (alike_iff.mp h).2.1
  calculate_alike h := by
    obtain ⟨_, _, rfl⟩ := calculate_eq_ok_iff.mp h
    exact alike_iff.mpr ⟨rfl, rfl, rfl⟩
  calculate_of_alike h hwhole := by
    obtain ⟨-, hprecision, hdataset⟩ := alike_iff.mp h
    obtain ⟨percentiles, hpercentiles, -⟩ := calculate_eq_ok_iff.mp hwhole
    rw [hprecision, hdataset] at hpercentiles
    exact ⟨_, calculate_eq_ok_iff.mpr ⟨percentiles, hpercentiles, rfl⟩⟩
  ofFields_calculated {a whole} hstorable hwhole := by
    obtain ⟨percentiles, hpercentiles, rfl⟩ := calculate_eq_ok_iff.mp hwhole
    have hprecision : precisionOf a.precision.value.toInt64 = a.precision.value :=
      precisionOf_toInt64 hstorable.2
    have hread : calculate { new a.id (precisionOf a.precision.value.toInt64) with
        dataset := ⟨.ofPairs a.dataset.value.pairs⟩ } = .ok { a with percentiles } := by
      have hone : max a.precision.value 1 = a.precision.value := max_one hstorable.1
      rw [hprecision, Histogram.ofPairs_pairs, calculate_eq_ok_iff]
      simp only [new, hone]
      exact ⟨percentiles, hpercentiles, rfl⟩
    show ofFields a.id (toFields { a with percentiles }) = _
    rw [ofFields_of_columns (get?_precision _) (get?_dataset _), hread]
    rfl

end PercentileRecord

end Rollup
