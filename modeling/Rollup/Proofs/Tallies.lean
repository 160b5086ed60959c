import Mathlib.Data.List.Nodup
import Mathlib.Data.List.Perm.Basic
import Rollup.Proofs.Merging
import Rollup.Record.Sum

/-!
# Tallies of sums

The tally of some sums is their total, and nothing if there are none. Merging and copying change the
records but not their tally, in whatever order they come.
-/

namespace Rollup

open Record

namespace SumRecord

/-- Two tallies together. -/
def plus : Option Int64 → Option Int64 → Option Int64 := Option.merge (· + ·)

instance : Std.Commutative plus := inferInstanceAs (Std.Commutative (Option.merge (· + ·)))

instance : Std.Associative plus := inferInstanceAs (Std.Associative (Option.merge (· + ·)))

@[simp]
theorem plus_none (a : Option Int64) : plus a none = a := Option.merge_none_right

@[simp]
theorem none_plus (a : Option Int64) : plus none a = a := Option.merge_none_left

theorem plus_assoc (a b c : Option Int64) : plus (plus a b) c = plus a (plus b c) :=
  Std.Associative.assoc a b c

theorem plus_comm (a b : Option Int64) : plus a b = plus b a := Std.Commutative.comm a b

theorem plus_eq_none_iff {a b : Option Int64} : plus a b = none ↔ a = none ∧ b = none :=
  Option.merge_eq_none_iff

/-- What a record adds to the tally of the identities that count. -/
def amount (counts : MetricId → Bool) (record : SumRecord) : Option Int64 :=
  if counts record.id then some record.value.value else none

def tally (counts : MetricId → Bool) (records : List SumRecord) : Option Int64 :=
  records.foldr (fun record total => plus (amount counts record) total) none

variable {counts : MetricId → Bool} {records : List SumRecord}

@[simp]
theorem tally_nil : tally counts [] = none := rfl

theorem tally_cons (record : SumRecord) (rest : List SumRecord) :
    tally counts (record :: rest) = plus (amount counts record) (tally counts rest) := rfl

theorem tally_append (records more : List SumRecord) :
    tally counts (records ++ more) = plus (tally counts records) (tally counts more) := by
  induction records with
  | nil => simp
  | cons first rest ih => rw [List.cons_append, tally_cons, ih, tally_cons, plus_assoc]

theorem tally_singleton (record : SumRecord) : tally counts [record] = amount counts record := by
  rw [tally_cons, tally_nil, plus_none]

theorem tally_perm {more : List SumRecord} (h : records.Perm more) :
    tally counts records = tally counts more := by
  induction h with
  | nil => rfl
  | cons record _ ih => rw [tally_cons, ih, tally_cons]
  | swap a b rest =>
    rw [tally_cons, tally_cons, tally_cons, tally_cons, ← plus_assoc, ← plus_assoc,
      plus_comm (amount counts b)]
  | trans _ _ ihab ihbc => exact ihab.trans ihbc

theorem tally_eq_none_iff :
    tally counts records = none ↔ ∀ record ∈ records, counts record.id = false := by
  induction records with
  | nil => simp
  | cons first rest ih =>
    rw [tally_cons, plus_eq_none_iff, ih, List.forall_mem_cons]
    simp [amount]

/-! ## Folds -/

theorem amount_absorb (held incoming : SumRecord) (h : held.id = incoming.id) :
    amount counts (absorb held incoming) =
      plus (amount counts held) (amount counts incoming) := by
  have hid : (absorb held incoming).id = held.id := rfl
  unfold amount
  rw [hid, ← h]
  cases counts held.id <;> rfl

theorem map_joined (held : Option SumRecord) (incoming : SumRecord) :
    (some (joined held incoming)).map (·.value.value) =
      plus (held.map (·.value.value)) (some incoming.value.value) := by
  cases held <;> rfl

theorem map_joinedAll (id : MetricId) (held : Option SumRecord) (records : List SumRecord) :
    (joinedAll held (about id records)).map (·.value.value) =
      plus (held.map (·.value.value)) (tally (fun own => decide (own = id)) records) := by
  induction records generalizing held with
  | nil => simp [about]
  | cons first rest ih =>
    have hid : Record.id first = first.id := rfl
    rw [about_cons, tally_cons]
    by_cases hfirst : first.id = id
    · have hamount : amount (fun own => decide (own = id)) first = some first.value.value := by
        simp [amount, hfirst]
      rw [hid, if_pos hfirst, joinedAll_cons, ih, map_joined, hamount, plus_assoc]
    · have hamount : amount (fun own => decide (own = id)) first = none := by
        simp [amount, hfirst]
      rw [hid, if_neg hfirst, ih, hamount, none_plus]

/-- The copies of records for a coarser level. -/
def coarsened (level : Level) (records : List SumRecord) : List SumRecord :=
  records.filterMap (Record.coarsen · level)

/-- The identities whose records are copied for this one. -/
def within (level : Level) (id own : MetricId) : Bool := decide (own.coarsen level = some id)

theorem tally_coarsened (level : Level) (id : MetricId) (records : List SumRecord) :
    tally (fun own => decide (own = id)) (coarsened level records) =
      tally (within level id) records := by
  induction records with
  | nil => rfl
  | cons first rest ih =>
    have hcoarsen : Record.coarsen first level =
        (first.id.coarsen level).map ({ first with id := · }) := rfl
    unfold coarsened at ih ⊢
    rw [List.filterMap_cons, hcoarsen, tally_cons]
    cases hid : first.id.coarsen level with
    | none =>
      have hamount : amount (within level id) first = none := by simp [amount, within, hid]
      simp only [Option.map_none, ih, hamount, none_plus]
    | some coarse =>
      simp only [Option.map_some, tally_cons, ih]
      congr 1
      simp [amount, within, hid]

end SumRecord

/-! ## Buffers -/

namespace Buffer

open SumRecord

variable {M : Type} {buffer : Buffer M} {id : MetricId}

/-- The records that are held under another identity. -/
def others (buffer : Buffer M) (id : MetricId) : List (MetricId × M) :=
  buffer.records.toList.filter (·.1 ≠ id)

theorem nodup_toList (buffer : Buffer M) : buffer.records.toList.Nodup := by
  have hkeys : (buffer.records.toList.map (·.1)).Nodup := by
    rw [Std.ExtTreeMap.map_fst_toList_eq_keys]
    exact Std.ExtTreeMap.nodup_keys
  exact hkeys.of_map

theorem toList_perm_cons {held : M} (h : buffer.get? id = some held) :
    buffer.records.toList.Perm ((id, held) :: buffer.others id) := by
  rw [List.perm_ext_iff_of_nodup buffer.nodup_toList]
  · rintro ⟨own, record⟩
    by_cases hown : own = id
    · subst hown
      have hget : buffer.records[own]? = some held := h
      simp [others, Std.ExtTreeMap.mem_toList_iff_getElem?_eq_some, hget, eq_comm]
    · simp [others, hown]
  · refine List.nodup_cons.mpr ⟨by simp [others], buffer.nodup_toList.filter _⟩

theorem others_eq_toList (h : buffer.get? id = none) : buffer.others id = buffer.records.toList := by
  refine List.filter_eq_self.mpr ?_
  rintro ⟨own, record⟩ hmem
  have hget := Std.ExtTreeMap.mem_toList_iff_getElem?_eq_some.mp hmem
  have hnone : buffer.records[id]? = none := h
  simp only [ne_eq, decide_not, Bool.not_eq_true', decide_eq_false_iff_not]
  rintro rfl
  rw [hnone] at hget
  cases hget

theorem others_perm {buffer' : Buffer M} (h : ∀ own, own ≠ id → buffer'.get? own = buffer.get? own) :
    (buffer'.others id).Perm (buffer.others id) := by
  unfold others
  rw [List.perm_ext_iff_of_nodup (buffer'.nodup_toList.filter _) (buffer.nodup_toList.filter _)]
  rintro ⟨own, record⟩
  by_cases hown : own = id
  · simp [hown]
  · have hget : buffer'.records[own]? = buffer.records[own]? := h own hown
    simp [Std.ExtTreeMap.mem_toList_iff_getElem?_eq_some, hget]

theorem tally_toList (counts : MetricId → Bool) (buffer : Buffer SumRecord) (id : MetricId) :
    tally counts buffer.toList =
      plus (tally counts (buffer.get? id).toList) (tally counts ((buffer.others id).map (·.2))) := by
  cases hheld : buffer.get? id with
  | none =>
    rw [others_eq_toList hheld]
    exact (none_plus _).symm
  | some held =>
    have hperm := (toList_perm_cons hheld).map (·.2)
    refine (tally_perm hperm).trans ?_
    rw [Option.toList_some, tally_singleton]
    rfl

theorem tally_accept (counts : MetricId → Bool) {buffer : Buffer SumRecord} (h : buffer.Keyed)
    (record : SumRecord) : tally counts (buffer.accept record).toList =
      plus (tally counts buffer.toList) (amount counts record) := by
  have hsame : ∀ own, own ≠ record.id → (buffer.accept record).get? own = buffer.get? own := by
    intro own hown
    rw [get?_accept, if_neg]
    exact fun heq => hown heq.symm
  have hget : (buffer.accept record).get? record.id =
      some (joined (buffer.get? record.id) record) := by
    rw [get?_accept, if_pos]
    rfl
  rw [tally_toList counts _ record.id, tally_perm ((others_perm hsame).map _), hget,
    tally_toList counts buffer record.id]
  cases hheld : buffer.get? record.id with
  | none =>
    simp only [joined, Option.toList_some, Option.toList_none, tally_singleton, tally_nil, none_plus]
    exact plus_comm _ _
  | some held =>
    simp only [joined, Option.toList_some, tally_singleton, amount_absorb held record (h _ _ hheld)]
    rw [plus_assoc, plus_assoc, plus_comm (amount counts record)]

theorem tally_acceptAll (counts : MetricId → Bool) {buffer : Buffer SumRecord} (h : buffer.Keyed)
    (records : List SumRecord) : tally counts (buffer.acceptAll records).toList =
      plus (tally counts buffer.toList) (tally counts records) := by
  induction records generalizing buffer with
  | nil => exact (plus_none _).symm
  | cons first rest ih =>
    have hstep : buffer.acceptAll (first :: rest) = (buffer.accept first).acceptAll rest := rfl
    rw [hstep, ih (h.accept first), tally_accept counts h, plus_assoc, tally_cons]

end Buffer

end Rollup
