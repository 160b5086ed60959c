import Rollup.Proofs.Ranks
import Rollup.Proofs.Rebuilding

/-!
# Decoding rows

Whatever a row holds, reading a record back from it ends with the record or with an error that names
the first column that is missing or of another type. The one exception is a percentile record whose
stored buckets begin beyond the words: recomputing its percentiles breaks off.
-/

namespace Rollup

open Record Histogram

/-! ## Required columns -/

/-- A column that a reader asks for. -/
structure Column where
  name : String
  /-- The name of the type it has to be of. -/
  kind : String

namespace Fields

/-- What is wrong with a column, if anything is. -/
def lack? (fields : Fields) (column : Column) : Option FieldError :=
  match fields.get? column.name with
  | none => some (.missing column.name)
  | some value =>
    if value.kind = column.kind then none
    else some (.mismatch column.name column.kind value.kind)

/-- A reading that asks for these columns in turn, and fails at the first one with which something is
wrong. -/
def Asks {α : Type} (fields : Fields) (columns : List Column) (read : Except FieldError α) : Prop :=
  ∀ error, read = .error error ↔ columns.findSome? fields.lack? = some error

variable {fields : Fields}

theorem asks_pure {α : Type} (a : α) : fields.Asks [] (pure a) := by
  intro error
  simp [pure, Except.pure]

theorem Asks.bind {α β : Type} {column : Column} {rest : List Column} {first : Except FieldError α}
    {next : α → Except FieldError β} (hfirst : fields.Asks [column] first)
    (hnext : ∀ a, fields.Asks rest (next a)) : fields.Asks (column :: rest) (first >>= next) := by
  intro error
  cases first with
  | error found =>
    have hlack := (hfirst found).mp rfl
    rw [List.findSome?_singleton] at hlack
    rw [List.findSome?_cons, hlack, show (Except.error found >>= next) = .error found from rfl,
      Except.error.injEq, Option.some.injEq]
  | ok a =>
    have hlack : fields.lack? column = none := by
      cases hlack : fields.lack? column with
      | none => rfl
      | some found => cases (hfirst found).mpr (by rw [List.findSome?_singleton, hlack])
    rw [List.findSome?_cons, hlack]
    exact hnext a error

theorem asks_required {α : Type} {name kind : String} {read : FieldValue → Except FieldError α}
    (h : ∀ value error, read value = .error error ↔
      value.kind ≠ kind ∧ .mismatch name kind value.kind = error) :
    fields.Asks [⟨name, kind⟩] (fields.required name >>= read) := by
  intro error
  rw [List.findSome?_singleton, lack?, required]
  cases fields.get? name with
  | none => simp [bind, Except.bind]
  | some value =>
    show read value = .error error ↔ _
    rw [h]
    by_cases hkind : value.kind = kind <;> simp [hkind]

theorem asks_long (name : String) : fields.Asks [⟨name, "long"⟩] (fields.long name) :=
  asks_required fun value error => by
    cases value <;> simp [pure, Except.pure, throw, throwThe, MonadExceptOf.throw, FieldValue.kind]

theorem asks_buckets (name : String) : fields.Asks [⟨name, "buckets"⟩] (fields.buckets name) :=
  asks_required fun value error => by
    cases value <;> simp [pure, Except.pure, throw, throwThe, MonadExceptOf.throw, FieldValue.kind]

theorem buckets_eq_ok_iff {name : String} {dataset : Histogram} :
    fields.buckets name = .ok dataset ↔
      ∃ pairs, fields.get? name = some (.buckets pairs) ∧ dataset = .ofPairs pairs := by
  unfold buckets required
  cases fields.get? name with
  | none => simp [Bind.bind, Except.bind]
  | some value =>
    cases value <;> simp [Bind.bind, Except.bind, pure, Except.pure, throw, throwThe,
      MonadExceptOf.throw, eq_comm]

theorem Asks.exists_ok_iff {α : Type} {columns : List Column} {read : Except FieldError α}
    (h : fields.Asks columns read) :
    (∃ a, read = .ok a) ↔ columns.findSome? fields.lack? = none := by
  cases read with
  | error found => simp [(h found).mp rfl]
  | ok a =>
    refine iff_of_true ⟨a, rfl⟩ (Option.eq_none_iff_forall_ne_some.mpr fun error hlack => ?_)
    cases (h error).mpr hlack

end Fields

/-! ## Recomputing percentiles -/

theorem exists_of_mapM_eq_error {ε α β : Type} {call : α → Except ε β} {items : List α} {error : ε}
    (h : items.mapM call = .error error) : ∃ item ∈ items, call item = .error error := by
  induction items with
  | nil => cases h
  | cons first rest ih =>
    rw [List.mapM_cons] at h
    cases hfirst : call first with
    | error found =>
      rw [hfirst] at h
      cases h
      exact ⟨first, List.mem_cons_self, hfirst⟩
    | ok b =>
      rw [hfirst] at h
      cases hrest : rest.mapM call with
      | error found =>
        rw [hrest] at h
        cases h
        obtain ⟨item, hitem, herror⟩ := ih hrest
        exact ⟨item, List.mem_cons_of_mem _ hitem, herror⟩
      | ok _ =>
        rw [hrest] at h
        cases h

theorem exists_of_mapM_eq_ok {ε α β : Type} {call : α → Except ε β} {items : List α}
    {results : List β} (h : items.mapM call = .ok results) :
    ∀ item ∈ items, ∃ b, call item = .ok b := by
  induction items generalizing results with
  | nil => simp
  | cons first rest ih =>
    rw [List.mapM_cons] at h
    obtain ⟨b, hfirst, h⟩ := bind_eq_ok_iff.mp h
    obtain ⟨others, hrest, _⟩ := bind_eq_ok_iff.mp h
    exact List.forall_mem_cons.mpr ⟨⟨b, hfirst⟩, ih hrest⟩

namespace PercentileRecord

theorem le_of_mem_ranks {rank : Nat} (h : rank ∈ ranks) : rank ≤ 99 := by
  revert rank
  decide

theorem calculate_eq_error_iff {record : PercentileRecord} {fault : Fault} :
    record.calculate = .error fault ↔
      record.dataset.value.percentile 99 record.precision.value = .error fault := by
  unfold calculate
  cases hall : ranks.mapM (record.dataset.value.percentile · record.precision.value) with
  | ok percentiles =>
    obtain ⟨value, hvalue⟩ := exists_of_mapM_eq_ok hall 99 (by decide)
    rw [hvalue]
    exact iff_of_false nofun nofun
  | error found =>
    obtain ⟨rank, hrank, herror⟩ := exists_of_mapM_eq_error hall
    rw [percentile_eq_error_of_le (le_of_mem_ranks hrank) herror]
    simp [bind, Except.bind]

/-- The columns are as they should be, and yet the bucket that covers 99 of 100 stored observations
begins beyond the words. -/
def Overflows (fields : Fields) : Prop :=
  ∃ precision pairs bucket, fields.get? "precision" = some (.long precision) ∧
    fields.get? "dataset" = some (.buckets pairs) ∧ (ofPairs pairs).total ≠ 0 ∧
    (ofPairs pairs).Reaches (target (ofPairs pairs).total 99) bucket ∧
    limit < bucket.toNat * (max (precisionOf precision) 1).toNat

end PercentileRecord

/-! ## Rows -/

/-- What becomes of reading a record back from a row that should have these columns. -/
structure Decodes (M : Type) [Record M] (id : MetricId) (fields : Fields) (columns : List Column)
    (overflow : Prop) : Prop where
  refused : ∀ error, ofFields (M := M) id fields = .ok (.error error) ↔
    columns.findSome? fields.lack? = some error
  decoded : (∃ record : M, ofFields id fields = .ok (.ok record)) ↔
    columns.findSome? fields.lack? = none ∧ ¬ overflow
  broken : ∀ fault, ofFields (M := M) id fields = .error fault ↔
    fault = .outOfRange ∧ columns.findSome? fields.lack? = none ∧ overflow

theorem decodes_of_asks {M : Type} [Record M] {id : MetricId} {fields : Fields}
    {columns : List Column} {read : Except FieldError M} (hread : ofFields id fields = .ok read)
    (h : fields.Asks columns read) : Decodes M id fields columns False where
  refused error := by rw [hread, Except.ok.injEq, h error]
  decoded := by simp [hread, ← h.exists_ok_iff]
  broken fault := by simp [hread]

namespace PercentileRecord

/-- The record that the columns hold, its percentiles not calculated yet. -/
def raw (id : MetricId) (fields : Fields) : Except FieldError PercentileRecord := do
  let precision ← fields.long "precision"
  let dataset ← fields.buckets "dataset"
  return { new id (precisionOf precision) with dataset := ⟨dataset⟩ }

theorem ofFields_eq (id : MetricId) (fields : Fields) :
    Record.ofFields (M := PercentileRecord) id fields =
      match raw id fields with
      | .ok record => .ok <$> record.calculate
      | .error error => .ok (.error error) := rfl

theorem asks_raw (id : MetricId) (fields : Fields) :
    fields.Asks [⟨"precision", "long"⟩, ⟨"dataset", "buckets"⟩] (raw id fields) :=
  (Fields.asks_long "precision").bind fun _ =>
    (Fields.asks_buckets "dataset").bind fun _ => Fields.asks_pure _

theorem raw_eq_ok {id : MetricId} {fields : Fields} {record : PercentileRecord}
    (h : raw id fields = .ok record) : ∃ precision pairs,
      fields.get? "precision" = some (.long precision) ∧
      fields.get? "dataset" = some (.buckets pairs) ∧
      record = { new id (precisionOf precision) with dataset := ⟨ofPairs pairs⟩ } := by
  obtain ⟨precision, hprecision, h⟩ := bind_eq_ok_iff.mp h
  obtain ⟨dataset, hdataset, h⟩ := bind_eq_ok_iff.mp h
  cases h
  obtain ⟨pairs, hpairs, rfl⟩ := Fields.buckets_eq_ok_iff.mp hdataset
  exact ⟨precision, pairs, Fields.long_eq_ok_iff.mp hprecision, hpairs, rfl⟩

theorem calculate_raw_eq_error_iff {id : MetricId} {fields : Fields} {record : PercentileRecord}
    (h : raw id fields = .ok record) {fault : Fault} :
    record.calculate = .error fault ↔ fault = .outOfRange ∧ Overflows fields := by
  obtain ⟨precision, pairs, hprecision, hdataset, rfl⟩ := raw_eq_ok h
  have hone : max (max (precisionOf precision) 1) 1 = max (precisionOf precision) 1 :=
    max_one (max_one_pos _)
  rw [calculate_eq_error_iff, percentile_eq_error_iff]
  refine and_congr_right fun _ => ?_
  simp only [new, hone]
  constructor
  · rintro ⟨hsome, bucket, hreaches, hbeyond⟩
    exact ⟨precision, pairs, bucket, hprecision, hdataset, hsome, hreaches, hbeyond⟩
  · rintro ⟨precision', pairs', bucket, hprecision', hdataset', hsome, hreaches, hbeyond⟩
    cases hprecision.symm.trans hprecision'
    cases hdataset.symm.trans hdataset'
    exact ⟨hsome, bucket, hreaches, hbeyond⟩

theorem decodes (id : MetricId) (fields : Fields) :
    Decodes PercentileRecord id fields [⟨"precision", "long"⟩, ⟨"dataset", "buckets"⟩]
      (Overflows fields) := by
  have hasks := asks_raw id fields
  have hread := ofFields_eq id fields
  cases hraw : raw id fields with
  | error found =>
    rw [hraw] at hread hasks
    have hlack := (hasks found).mp rfl
    constructor <;> simp [hread, hlack]
  | ok record =>
    rw [hraw] at hread hasks
    dsimp only at hread
    have hlack := hasks.exists_ok_iff.mp ⟨record, rfl⟩
    have hbreaks {fault : Fault} := @calculate_raw_eq_error_iff id fields record hraw fault
    cases hcalculate : record.calculate with
    | error fault =>
      obtain ⟨rfl, hoverflow⟩ := hbreaks.mp hcalculate
      rw [hcalculate] at hread
      constructor <;> simp [hread, hlack, hoverflow, eq_comm]
    | ok whole =>
      have hfits : ¬ Overflows fields := fun hoverflow => by
        rw [hbreaks.mpr ⟨rfl, hoverflow⟩] at hcalculate
        cases hcalculate
      rw [hcalculate] at hread
      constructor <;> simp [hread, hlack, hfits]

end PercentileRecord

/-- Rows of five record types are decoded, or refused for the first column that is missing or of
another type. So are rows of percentile records, except for those whose percentiles leave the words. -/
theorem rows_decode_unless_percentiles_overflow (id : MetricId) (fields : Fields) :
    Decodes SumRecord id fields [⟨"value", "long"⟩] False ∧
    Decodes PeakRecord id fields [⟨"value", "long"⟩] False ∧
    Decodes RateRecord id fields [⟨"total", "long"⟩, ⟨"value", "long"⟩] False ∧
    Decodes AverageRecord id fields [⟨"value", "long"⟩, ⟨"summation", "long"⟩, ⟨"count", "long"⟩] False ∧
    Decodes LatestRecord id fields [⟨"value", "long"⟩, ⟨"observed_at", "long"⟩] False ∧
    Decodes PercentileRecord id fields [⟨"precision", "long"⟩, ⟨"dataset", "buckets"⟩]
      (PercentileRecord.Overflows fields) := by
  have hlong := @Fields.asks_long fields
  refine ⟨decodes_of_asks rfl ?_, decodes_of_asks rfl ?_, decodes_of_asks rfl ?_,
    decodes_of_asks rfl ?_, decodes_of_asks rfl ?_, PercentileRecord.decodes id fields⟩
  · exact (hlong "value").bind fun _ => Fields.asks_pure _
  · exact (hlong "value").bind fun _ => Fields.asks_pure _
  · exact (hlong "total").bind fun _ => (hlong "value").bind fun _ => Fields.asks_pure _
  · exact (hlong "value").bind fun _ => (hlong "summation").bind fun _ =>
      (hlong "count").bind fun _ => Fields.asks_pure _
  · exact (hlong "value").bind fun _ => (hlong "observed_at").bind fun _ => Fields.asks_pure _

/-- One observation in the middle bucket of all, in steps of two: its lower edge is no word. -/
theorem a_stored_bucket_breaks_decoding :
    ¬ ∀ (id : MetricId) (fields : Fields), ∃ answer : Except FieldError PercentileRecord,
      ofFields id fields = .ok answer := by
  intro h
  obtain ⟨answer, hanswer⟩ := h (.onFirstDay (.single "checkout"))
    (.ofList [("precision", .long 2), ("dataset", .buckets [(9223372036854775808, 1)])])
  have hbroken : PercentileRecord.ofFields (.onFirstDay (.single "checkout"))
      (.ofList [("precision", .long 2), ("dataset", .buckets [(9223372036854775808, 1)])]) =
        .error .outOfRange := by decide +kernel
  cases hbroken.symm.trans hanswer

end Rollup
