import Mathlib.Data.List.Basic
import Rollup.Record.Average
import Rollup.Record.Latest
import Rollup.Record.Peak
import Rollup.Record.Rate
import Rollup.Record.Sum

/-!
# Laws of records

What the stock records have in common: their identity never changes, what they accumulated merges
associatively and survives calculation, and a stored row reads back as the record it was made from.
-/

namespace Rollup

/-! ## The laws -/

/-- Nothing that is done to a record changes what it is about. -/
class KeepsIdentity (M : Type) [Record M] : Prop where
  id_combine (held incoming : M) : Record.id (Record.combine held incoming).2 = Record.id held
  id_calculate {record whole : M} : Record.calculate record = .ok whole →
    Record.id whole = Record.id record
  id_ofFields {id : MetricId} {fields : Fields} {record : M} :
    Record.ofFields id fields = .ok (.ok record) → Record.id record = id

/-- A row reads back as the record it was made from. -/
class RoundTrips (M : Type) [Record M] : Prop where
  ofFields_toFields (record : M) :
    Record.ofFields (Record.id record) (Record.toFields record) = .ok (.ok record)

/-- What a record accumulates. -/
class Accumulating (M : Type) [Record M] where
  /-- The columns that hold accumulators. The others are derived from them. -/
  columns : List String
  /-- Records of different scale do not merge. -/
  scale : M → UInt64

namespace Record

variable {M : Type} [Record M] [Accumulating M]

/-- Two records are about the same and have the same accumulators. -/
def Alike (a b : M) : Prop :=
  id a = id b ∧ ∀ column ∈ Accumulating.columns M, (toFields a).get? column = (toFields b).get? column

theorem Alike.refl (a : M) : Alike a a := ⟨rfl, fun _ _ => rfl⟩

theorem Alike.symm {a b : M} (h : Alike a b) : Alike b a :=
  ⟨h.1.symm, fun column hmem => (h.2 column hmem).symm⟩

theorem Alike.trans {a b c : M} (hab : Alike a b) (hbc : Alike b c) : Alike a c :=
  ⟨hab.1.trans hbc.1, fun column hmem => (hab.2 column hmem).trans (hbc.2 column hmem)⟩

/-- A scale that a signed column can hold. -/
def Storable (record : M) : Prop :=
  0 < Accumulating.scale record ∧ (Accumulating.scale record).toNat < 0x8000000000000000

end Record

open Record

/-- Accumulators merge associatively, are left alone by calculation, and read back. -/
class LawfulRecord (M : Type) [Record M] [Accumulating M] : Prop extends KeepsIdentity M where
  absorb_alike {a a' b b' : M} : Alike a a' → Alike b b' → Alike (absorb a b) (absorb a' b')
  absorb_assoc {a b c : M} : Accumulating.scale a = Accumulating.scale b →
    Accumulating.scale b = Accumulating.scale c →
    Alike (absorb (absorb a b) c) (absorb a (absorb b c))
  /-- What is not taken in changes nothing. -/
  absorb_refused {a b : M} : (combine a b).1 = false → absorb a b = a
  scale_absorb (a b : M) : Accumulating.scale (absorb a b) = Accumulating.scale a
  scale_alike {a b : M} : Alike a b → Accumulating.scale a = Accumulating.scale b
  calculate_alike {a whole : M} : calculate a = .ok whole → Alike whole a
  /-- Whether calculation breaks off depends on the accumulators alone. -/
  calculate_of_alike {a b whole : M} : Alike a b → calculate a = .ok whole →
    ∃ whole', calculate b = .ok whole'
  ofFields_calculated {a whole : M} : Storable a → calculate a = .ok whole →
    ofFields (id whole) (toFields whole) = .ok (.ok whole)

/-! ## Columns -/

namespace Fields

@[simp]
theorem get?_empty (name : String) : empty.get? name = none := by
  simp [get?, empty]

@[simp]
theorem get?_insert (fields : Fields) (name other : String) (value : FieldValue) :
    (fields.insert name value).get? other = if name = other then some value else fields.get? other := by
  simp [get?, insert, Std.ExtTreeMap.getElem?_insert]

theorem long_eq_ok_iff {fields : Fields} {name : String} {value : Int64} :
    fields.long name = .ok value ↔ fields.get? name = some (.long value) := by
  unfold long required
  cases h : fields.get? name with
  | none => simp [bind, Except.bind]
  | some found =>
    cases found <;> simp [bind, Except.bind, pure, Except.pure, throw, throwThe,
      MonadExceptOf.throw]

end Fields

theorem bind_eq_ok_iff {ε α β : Type} {call : Except ε α} {next : α → Except ε β} {b : β} :
    (call >>= next) = .ok b ↔ ∃ a, call = .ok a ∧ next a = .ok b := by
  cases call <;> simp [bind, Except.bind]

/-! ## Sums -/

namespace SumRecord

theorem ofFields_iff {id : MetricId} {fields : Fields} {record : SumRecord} :
    Record.ofFields id fields = .ok (.ok record) ↔
      record.id = id ∧ fields.get? "value" = some (.long record.value.value) := by
  simp only [Record.ofFields, Except.ok.injEq, bind_eq_ok_iff, Fields.long_eq_ok_iff]
  constructor
  · rintro ⟨value, hvalue, hrecord⟩
    cases hrecord
    exact ⟨rfl, hvalue⟩
  · rintro ⟨rfl, hvalue⟩
    exact ⟨_, hvalue, rfl⟩

instance : KeepsIdentity SumRecord where
  id_combine _ _ := rfl
  id_calculate h := by cases h; rfl
  id_ofFields h := (ofFields_iff.mp h).1

instance : RoundTrips SumRecord where
  ofFields_toFields record := ofFields_iff.mpr ⟨rfl, by simp [Record.toFields]⟩

instance : Accumulating SumRecord where
  columns := ["value"]
  scale _ := 1

theorem alike_iff {a b : SumRecord} : Alike a b ↔ a.id = b.id ∧ a.value.value = b.value.value := by
  simp [Alike, Accumulating.columns, Record.id, Record.toFields]

instance : LawfulRecord SumRecord where
  absorb_alike {a a' b b'} ha hb := by
    obtain ⟨hid, ha⟩ := alike_iff.mp ha
    have hb := (alike_iff.mp hb).2
    refine alike_iff.mpr ⟨hid, ?_⟩
    show a.value.value + b.value.value = a'.value.value + b'.value.value
    rw [ha, hb]
  absorb_assoc _ _ := alike_iff.mpr ⟨rfl, Int64.add_assoc _ _ _⟩
  absorb_refused h := by cases h
  scale_absorb _ _ := rfl
  scale_alike _ := rfl
  calculate_alike h := by cases h; exact Alike.refl _
  calculate_of_alike _ _ := ⟨_, rfl⟩
  ofFields_calculated _ _ := RoundTrips.ofFields_toFields _

end SumRecord

/-! ## Greatest values -/

namespace PeakRecord

theorem ofFields_iff {id : MetricId} {fields : Fields} {record : PeakRecord} :
    Record.ofFields id fields = .ok (.ok record) ↔
      record.id = id ∧ fields.get? "value" = some (.long record.value.value) := by
  simp only [Record.ofFields, Except.ok.injEq, bind_eq_ok_iff, Fields.long_eq_ok_iff]
  constructor
  · rintro ⟨value, hvalue, hrecord⟩
    cases hrecord
    exact ⟨rfl, hvalue⟩
  · rintro ⟨rfl, hvalue⟩
    exact ⟨_, hvalue, rfl⟩

instance : KeepsIdentity PeakRecord where
  id_combine _ _ := rfl
  id_calculate h := by cases h; rfl
  id_ofFields h := (ofFields_iff.mp h).1

instance : RoundTrips PeakRecord where
  ofFields_toFields record := ofFields_iff.mpr ⟨rfl, by simp [Record.toFields]⟩

instance : Accumulating PeakRecord where
  columns := ["value"]
  scale _ := 1

theorem alike_iff {a b : PeakRecord} : Alike a b ↔ a.id = b.id ∧ a.value.value = b.value.value := by
  simp [Alike, Accumulating.columns, Record.id, Record.toFields]

/-- The greater of two values, the first one if neither is. -/
def greater (held incoming : Int64) : Int64 := if held < incoming then incoming else held

theorem greater_assoc (x y z : Int64) : greater (greater x y) z = greater x (greater y z) := by
  unfold greater
  simp only [Int64.lt_iff_toInt_lt]
  split_ifs <;> first | rfl | (exfalso; omega)

theorem absorb_eq (held incoming : PeakRecord) :
    Record.absorb held incoming = ⟨held.id, ⟨greater held.value.value incoming.value.value⟩⟩ := rfl

instance : LawfulRecord PeakRecord where
  absorb_alike {a a' b b'} ha hb := by
    obtain ⟨hid, ha⟩ := alike_iff.mp ha
    have hb := (alike_iff.mp hb).2
    rw [alike_iff, absorb_eq, absorb_eq, ha, hb]
    exact ⟨hid, rfl⟩
  absorb_assoc _ _ := by
    simp only [alike_iff, absorb_eq, greater_assoc, and_self]
  absorb_refused h := by cases h
  scale_absorb _ _ := rfl
  scale_alike _ := rfl
  calculate_alike h := by cases h; exact Alike.refl _
  calculate_of_alike _ _ := ⟨_, rfl⟩
  ofFields_calculated _ _ := RoundTrips.ofFields_toFields _

end PeakRecord

/-! ## Calls per minute -/

namespace RateRecord

theorem ofFields_iff {id : MetricId} {fields : Fields} {record : RateRecord} :
    Record.ofFields id fields = .ok (.ok record) ↔
      record.id = id ∧ fields.get? "total" = some (.long record.total.value) ∧
        fields.get? "value" = some (.long record.value) := by
  simp only [Record.ofFields, Except.ok.injEq, bind_eq_ok_iff, Fields.long_eq_ok_iff]
  constructor
  · rintro ⟨total, htotal, value, hvalue, hrecord⟩
    cases hrecord
    exact ⟨rfl, htotal, hvalue⟩
  · rintro ⟨rfl, htotal, hvalue⟩
    exact ⟨_, htotal, _, hvalue, rfl⟩

theorem calculate_eq_ok_iff {record whole : RateRecord} :
    record.calculate = .ok whole ↔ ∃ span, record.id.bucket.spanMinutes = .ok span ∧
      whole = { record with value := record.total.value / Int64.ofInt (max span 1) } := by
  unfold calculate
  rw [bind_eq_ok_iff]
  constructor
  · rintro ⟨span, hspan, hwhole⟩
    cases hwhole
    exact ⟨span, hspan, rfl⟩
  · rintro ⟨span, hspan, rfl⟩
    exact ⟨span, hspan, rfl⟩

instance : KeepsIdentity RateRecord where
  id_combine _ _ := rfl
  id_calculate h := by
    obtain ⟨_, _, rfl⟩ := calculate_eq_ok_iff.mp h
    rfl
  id_ofFields h := (ofFields_iff.mp h).1

instance : RoundTrips RateRecord where
  ofFields_toFields record := ofFields_iff.mpr ⟨rfl, by simp [Record.toFields], by
    simp [Record.toFields]⟩

instance : Accumulating RateRecord where
  columns := ["total"]
  scale _ := 1

theorem alike_iff {a b : RateRecord} : Alike a b ↔ a.id = b.id ∧ a.total.value = b.total.value := by
  simp [Alike, Accumulating.columns, Record.id, Record.toFields]

instance : LawfulRecord RateRecord where
  absorb_alike {a a' b b'} ha hb := by
    obtain ⟨hid, ha⟩ := alike_iff.mp ha
    have hb := (alike_iff.mp hb).2
    refine alike_iff.mpr ⟨hid, ?_⟩
    show a.total.value + b.total.value = a'.total.value + b'.total.value
    rw [ha, hb]
  absorb_assoc _ _ := alike_iff.mpr ⟨rfl, Int64.add_assoc _ _ _⟩
  absorb_refused h := by cases h
  scale_absorb _ _ := rfl
  scale_alike _ := rfl
  calculate_alike h := by
    obtain ⟨_, _, rfl⟩ := calculate_eq_ok_iff.mp h
    exact alike_iff.mpr ⟨rfl, rfl⟩
  calculate_of_alike h hwhole := by
    obtain ⟨span, hspan, -⟩ := calculate_eq_ok_iff.mp hwhole
    exact ⟨_, calculate_eq_ok_iff.mpr ⟨span, (alike_iff.mp h).1 ▸ hspan, rfl⟩⟩
  ofFields_calculated _ _ := RoundTrips.ofFields_toFields _

end RateRecord

/-! ## Averages -/

namespace AverageRecord

theorem ofFields_iff {id : MetricId} {fields : Fields} {record : AverageRecord} :
    Record.ofFields id fields = .ok (.ok record) ↔
      record.id = id ∧ fields.get? "value" = some (.long record.value) ∧
        fields.get? "summation" = some (.long record.summation.value) ∧
        fields.get? "count" = some (.long record.count.value) := by
  simp only [Record.ofFields, Except.ok.injEq, bind_eq_ok_iff, Fields.long_eq_ok_iff]
  constructor
  · rintro ⟨value, hvalue, summation, hsummation, count, hcount, hrecord⟩
    cases hrecord
    exact ⟨rfl, hvalue, hsummation, hcount⟩
  · rintro ⟨rfl, hvalue, hsummation, hcount⟩
    exact ⟨_, hvalue, _, hsummation, _, hcount, rfl⟩

theorem calculate_eq_ok {record whole : AverageRecord} (h : record.calculate = .ok whole) :
    ¬ (record.summation.value = Int64.minValue ∧ record.count.value = -1) ∧
      ∃ value, whole = { record with value } := by
  unfold calculate at h
  split_ifs at h with hzero hleast
  · cases h
    refine ⟨fun hboth => ?_, _, rfl⟩
    rw [hboth.2] at hzero
    exact absurd hzero (by decide)
  · cases h
    exact ⟨hleast, _, rfl⟩

theorem exists_calculate {record : AverageRecord}
    (h : ¬ (record.summation.value = Int64.minValue ∧ record.count.value = -1)) :
    ∃ whole, record.calculate = .ok whole := by
  unfold calculate
  rw [if_neg h]
  split_ifs
  · exact ⟨_, rfl⟩
  · exact ⟨_, rfl⟩

instance : KeepsIdentity AverageRecord where
  id_combine _ _ := rfl
  id_calculate h := by
    obtain ⟨-, _, rfl⟩ := calculate_eq_ok h
    rfl
  id_ofFields h := (ofFields_iff.mp h).1

instance : RoundTrips AverageRecord where
  ofFields_toFields record := ofFields_iff.mpr ⟨rfl, by simp [Record.toFields], by
    simp [Record.toFields], by simp [Record.toFields]⟩

instance : Accumulating AverageRecord where
  columns := ["summation", "count"]
  scale _ := 1

theorem alike_iff {a b : AverageRecord} : Alike a b ↔ a.id = b.id ∧
    a.summation.value = b.summation.value ∧ a.count.value = b.count.value := by
  simp [Alike, Accumulating.columns, Record.id, Record.toFields]

instance : LawfulRecord AverageRecord where
  absorb_alike {a a' b b'} ha hb := by
    obtain ⟨hid, hsummation, hcount⟩ := alike_iff.mp ha
    obtain ⟨-, hsummation', hcount'⟩ := alike_iff.mp hb
    refine alike_iff.mpr ⟨hid, ?_, ?_⟩
    · show a.summation.value + b.summation.value = a'.summation.value + b'.summation.value
      rw [hsummation, hsummation']
    · show a.count.value + b.count.value = a'.count.value + b'.count.value
      rw [hcount, hcount']
  absorb_assoc _ _ := alike_iff.mpr ⟨rfl, Int64.add_assoc _ _ _, Int64.add_assoc _ _ _⟩
  absorb_refused h := by cases h
  scale_absorb _ _ := rfl
  scale_alike _ := rfl
  calculate_alike h := by
    obtain ⟨-, _, rfl⟩ := calculate_eq_ok h
    exact alike_iff.mpr ⟨rfl, rfl, rfl⟩
  calculate_of_alike h hwhole := by
    obtain ⟨-, hsummation, hcount⟩ := alike_iff.mp h
    apply exists_calculate
    rw [← hsummation, ← hcount]
    exact (calculate_eq_ok hwhole).1
  ofFields_calculated _ _ := RoundTrips.ofFields_toFields _

end AverageRecord

/-! ## Latest values -/

namespace LatestRecord

theorem ofFields_iff {id : MetricId} {fields : Fields} {record : LatestRecord} :
    Record.ofFields id fields = .ok (.ok record) ↔
      record.id = id ∧ fields.get? "value" = some (.long record.value.value) ∧
        fields.get? "observed_at" = some (.long record.observedAt.value) := by
  simp only [Record.ofFields, Except.ok.injEq, bind_eq_ok_iff, Fields.long_eq_ok_iff]
  constructor
  · rintro ⟨value, hvalue, observedAt, hobserved, hrecord⟩
    cases hrecord
    exact ⟨rfl, hvalue, hobserved⟩
  · rintro ⟨rfl, hvalue, hobserved⟩
    exact ⟨_, hvalue, _, hobserved, rfl⟩

theorem absorb_eq (held incoming : LatestRecord) :
    Record.absorb held incoming =
      if incoming.observedAt.value < held.observedAt.value then held
      else { held with value := incoming.value, observedAt := incoming.observedAt } := by
  show (held.combine incoming).2 = _
  unfold combine
  split_ifs <;> rfl

theorem observedAt_absorb (held incoming : LatestRecord) :
    (Record.absorb held incoming).observedAt.value =
      if incoming.observedAt.value < held.observedAt.value then held.observedAt.value
      else incoming.observedAt.value := by
  rw [absorb_eq]
  split_ifs <;> rfl

theorem combine_fst (held incoming : LatestRecord) :
    (Record.combine held incoming).1 =
      !decide (incoming.observedAt.value < held.observedAt.value) := by
  show (held.combine incoming).1 = _
  unfold combine
  split_ifs with h <;> simp [h]

instance : KeepsIdentity LatestRecord where
  id_combine held incoming := by
    show Record.id (Record.absorb held incoming) = held.id
    rw [absorb_eq]
    split_ifs <;> rfl
  id_calculate h := by cases h; rfl
  id_ofFields h := (ofFields_iff.mp h).1

instance : RoundTrips LatestRecord where
  ofFields_toFields record := ofFields_iff.mpr ⟨rfl, by simp [Record.toFields], by
    simp [Record.toFields]⟩

instance : Accumulating LatestRecord where
  columns := ["value", "observed_at"]
  scale _ := 1

theorem alike_iff {a b : LatestRecord} : Alike a b ↔ a.id = b.id ∧
    a.value.value = b.value.value ∧ a.observedAt.value = b.observedAt.value := by
  simp [Alike, Accumulating.columns, Record.id, Record.toFields]

instance : LawfulRecord LatestRecord where
  absorb_alike {a a' b b'} ha hb := by
    obtain ⟨hid, hvalue, hobserved⟩ := alike_iff.mp ha
    obtain ⟨-, hvalue', hobserved'⟩ := alike_iff.mp hb
    rw [alike_iff, absorb_eq, absorb_eq, hobserved, hobserved']
    split_ifs
    · exact ⟨hid, hvalue, hobserved⟩
    · exact ⟨hid, hvalue', hobserved'⟩
  absorb_assoc {a b c} _ _ := by
    by_cases hbefore : c.observedAt.value < b.observedAt.value
    · have hboth : c.observedAt.value < (Record.absorb a b).observedAt.value := by
        rw [observedAt_absorb]
        split_ifs with hstale
        · exact Int64.lt_trans hbefore hstale
        · exact hbefore
      rw [absorb_eq b c, if_pos hbefore, absorb_eq _ c, if_pos hboth]
      exact .refl _
    · rw [absorb_eq b c, if_neg hbefore]
      by_cases hstale : b.observedAt.value < a.observedAt.value
      · rw [absorb_eq a b, if_pos hstale, absorb_eq a c, absorb_eq a]
        exact .refl _
      · -- None of them is older than the one before it, so the last one prevails.
        have hab := Int64.not_lt.mp hstale
        have hac := Int64.le_trans hab (Int64.not_lt.mp hbefore)
        rw [absorb_eq a b, if_neg hstale, absorb_eq _ c, if_neg hbefore, absorb_eq a,
          if_neg (Int64.not_lt.mpr hac)]
        exact .refl _
  absorb_refused {a b} h := by
    rw [combine_fst] at h
    rw [absorb_eq, if_pos (by simpa using h)]
  scale_absorb _ _ := rfl
  scale_alike _ := rfl
  calculate_alike h := by cases h; exact Alike.refl _
  calculate_of_alike _ _ := ⟨_, rfl⟩
  ofFields_calculated _ _ := RoundTrips.ofFields_toFields _

end LatestRecord

end Rollup
