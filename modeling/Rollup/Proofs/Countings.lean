import Rollup.Proofs.Ranks

/-!
# Countings

Observations are counted one by one, or as additions to their buckets, or in histograms of their own
that are merged later, in any order. All of that comes to the same counts, which wrap around. Only
counting one by one does not wrap: it breaks off at a bucket that is full.
-/

namespace Rollup.Histogram

/-- A value that was observed, and the precision that it is counted with. -/
structure Observation where
  value : UInt64
  precision : UInt64

namespace Observation

def bucket (observation : Observation) : UInt64 := bucketOf observation.value observation.precision

/-- How many of them fall into a bucket. -/
def countIn (bucket : UInt64) (observations : List Observation) : Nat :=
  observations.countP fun observation => observation.bucket = bucket

end Observation

open Observation

/-! ## Three ways of counting -/

/-- Counts one observation after another. -/
def recordAll (histogram : Histogram) (observations : List Observation) : Except Fault Histogram :=
  observations.foldlM (fun held observation => held.record observation.value observation.precision)
    histogram

/-- Adds one to the bucket of each observation. -/
def addAll (histogram : Histogram) (observations : List Observation) : Histogram :=
  observations.foldl (fun held observation => held.addBucket observation.bucket 1) histogram

/-- Merges other histograms in, one after another. -/
def mergeAll (histogram : Histogram) (parts : List Histogram) : Histogram :=
  parts.foldl merge histogram

/-- On top of what was there the observations were counted, each in any of these ways. -/
inductive Counts : Histogram → List Observation → Histogram → Prop
  | start (histogram : Histogram) : Counts histogram [] histogram
  | record {histogram held last : Histogram} {counted : List Observation} {next : Observation}
      (before : Counts histogram counted held)
      (recorded : held.record next.value next.precision = .ok last) :
      Counts histogram (counted ++ [next]) last
  | add {histogram held : Histogram} {counted : List Observation} (next : Observation)
      (before : Counts histogram counted held) :
      Counts histogram (counted ++ [next]) (held.addBucket next.bucket 1)
  | merge {histogram held part : Histogram} {counted more : List Observation}
      (before : Counts histogram counted held) (apart : Counts empty more part) :
      Counts histogram (counted ++ more) (held.merge part)

variable {histogram held last : Histogram} {observations : List Observation}

/-! ## Adding to buckets -/

theorem count_addBucket (histogram : Histogram) (bucket other count : UInt64) :
    (histogram.addBucket bucket count).count other =
      if bucket = other then histogram.count other + count else histogram.count other := by
  rw [count_eq, getElem?_addBucket]
  split_ifs with h
  · rw [h]
    rfl
  · exact (count_eq histogram other).symm

theorem addBucket_comm (histogram : Histogram) (bucket other count more : UInt64) :
    (histogram.addBucket bucket count).addBucket other more =
      (histogram.addBucket other more).addBucket bucket count := by
  apply ext_counts
  intro asked
  simp only [getElem?_addBucket, count_addBucket]
  by_cases hsame : bucket = other
  · subst hsame
    simp only [if_true, UInt64.add_assoc, UInt64.add_comm count more]
    split_ifs <;> rfl
  · simp only [if_neg hsame, if_neg (Ne.symm hsame)]
    split_ifs with hother hbucket
    · exact absurd (hbucket.trans hother.symm) hsame
    all_goals rfl

theorem merge_empty (histogram : Histogram) : histogram.merge empty = histogram := by
  apply ext_counts
  intro bucket
  rw [getElem?_merge]
  simp [empty]

theorem merge_addBucket (held incoming : Histogram) (bucket count : UInt64) :
    held.merge (incoming.addBucket bucket count) = (held.merge incoming).addBucket bucket count := by
  apply ext_counts
  intro other
  rw [getElem?_merge, getElem?_addBucket, getElem?_addBucket, count_merge]
  split_ifs with h
  · rw [← h, UInt64.add_assoc]
  · exact (getElem?_merge held incoming other).symm

theorem addAll_append (histogram : Histogram) (observations more : List Observation) :
    histogram.addAll (observations ++ more) = (histogram.addAll observations).addAll more :=
  List.foldl_append

theorem merge_addAll (held incoming : Histogram) (observations : List Observation) :
    held.merge (incoming.addAll observations) = (held.merge incoming).addAll observations := by
  induction observations generalizing incoming with
  | nil => rfl
  | cons first rest ih =>
    show held.merge ((incoming.addBucket first.bucket 1).addAll rest) =
      ((held.merge incoming).addBucket first.bucket 1).addAll rest
    rw [ih, merge_addBucket]

theorem addAll_perm {more : List Observation} (h : observations.Perm more) (histogram : Histogram) :
    histogram.addAll observations = histogram.addAll more :=
  h.foldl_eq' (fun _ _ _ _ held => addBucket_comm held _ _ _ _) histogram

theorem count_addAll (histogram : Histogram) (observations : List Observation) (bucket : UInt64) :
    (histogram.addAll observations).count bucket =
      histogram.count bucket + UInt64.ofNat (countIn bucket observations) := by
  induction observations generalizing histogram with
  | nil => exact (UInt64.add_zero _).symm
  | cons first rest ih =>
    show ((histogram.addBucket first.bucket 1).addAll rest).count bucket = _
    rw [ih, count_addBucket, countIn, countIn, List.countP_cons, UInt64.ofNat_add]
    simp only [decide_eq_true_eq]
    split_ifs
    · rw [UInt64.add_assoc, UInt64.add_comm 1]
      rfl
    · exact congrArg _ (UInt64.add_zero _).symm

/-! ## Totals -/

/-- What the other buckets hold. -/
def elsewhere (histogram : Histogram) (bucket : UInt64) : Nat :=
  observationsIn (histogram.pairs.filter (·.1 ≠ bucket))

theorem observationsIn_perm {pairs more : List (UInt64 × UInt64)} (h : pairs.Perm more) :
    observationsIn pairs = observationsIn more := by
  refine h.foldr_eq' ?_ 0
  intro _ _ _ _ sum
  exact Nat.add_left_comm _ _ _

theorem nodup_pairs (histogram : Histogram) : histogram.pairs.Nodup :=
  histogram.pairs_distinct.imp fun h heq => h (congrArg Prod.fst heq)

theorem observations_eq (histogram : Histogram) (bucket : UInt64) :
    histogram.observations = (histogram.count bucket).toNat + histogram.elsewhere bucket := by
  rw [count_eq]
  cases h : histogram.counts[bucket]? with
  | none =>
    have hothers : histogram.pairs.filter (·.1 ≠ bucket) = histogram.pairs := by
      refine List.filter_eq_self.mpr fun pair hpair => decide_eq_true ?_
      rintro rfl
      cases h.symm.trans (mem_pairs_iff.mp hpair)
    rw [elsewhere, hothers]
    exact (Nat.zero_add _).symm
  | some count =>
    have hsplit : histogram.pairs.Perm ((bucket, count) :: histogram.pairs.filter (·.1 ≠ bucket)) := by
      rw [List.perm_ext_iff_of_nodup histogram.nodup_pairs
        (List.nodup_cons.mpr ⟨by simp, histogram.nodup_pairs.filter _⟩)]
      rintro ⟨own, other⟩
      by_cases hown : own = bucket
      · simp [hown, mem_pairs_iff, h, eq_comm]
      · simp [hown]
    exact observationsIn_perm hsplit

theorem elsewhere_addBucket (histogram : Histogram) (bucket count : UInt64) :
    (histogram.addBucket bucket count).elsewhere bucket = histogram.elsewhere bucket := by
  apply observationsIn_perm
  rw [List.perm_ext_iff_of_nodup ((nodup_pairs _).filter _) ((nodup_pairs _).filter _)]
  rintro ⟨own, other⟩
  by_cases hown : own = bucket
  · simp [hown]
  · simp [hown, mem_pairs_iff, Ne.symm hown]

theorem total_addBucket (histogram : Histogram) (bucket count : UInt64) :
    (histogram.addBucket bucket count).total = histogram.total + count := by
  apply UInt64.toNat_inj.mp
  rw [UInt64.toNat_add, toNat_total, toNat_total, observations_eq _ bucket,
    observations_eq histogram bucket, elsewhere_addBucket, count_addBucket, if_pos rfl,
    UInt64.toNat_add]
  simp only [UInt64.size]
  omega

theorem total_addAll (histogram : Histogram) (observations : List Observation) :
    (histogram.addAll observations).total =
      histogram.total + UInt64.ofNat observations.length := by
  induction observations generalizing histogram with
  | nil => exact (UInt64.add_zero _).symm
  | cons first rest ih =>
    show ((histogram.addBucket first.bucket 1).addAll rest).total = _
    rw [ih, total_addBucket, List.length_cons, UInt64.ofNat_add, UInt64.add_assoc, UInt64.add_comm 1]
    rfl

/-! ## Counting one by one -/

/-- No bucket gets more than a word can count. -/
def HasRoom (histogram : Histogram) (observations : List Observation) : Prop :=
  ∀ bucket, (histogram.count bucket).toNat + countIn bucket observations ≤ limit

theorem record_of_lt {value precision : UInt64}
    (h : (histogram.count (bucketOf value precision)).toNat < limit) :
    histogram.record value precision = .ok (histogram.addBucket (bucketOf value precision) 1) := by
  refine if_neg fun hfull => ?_
  rw [hfull] at h
  exact absurd h (by decide)

theorem record_of_full {value precision : UInt64}
    (h : limit ≤ (histogram.count (bucketOf value precision)).toNat) :
    histogram.record value precision = .error .outOfRange := by
  refine if_pos (UInt64.toNat_inj.mp ?_)
  have hword := (histogram.count (bucketOf value precision)).toNat_lt_size
  exact Nat.le_antisymm (Nat.le_pred_of_lt hword) h

theorem hasRoom_nil (histogram : Histogram) : histogram.HasRoom [] :=
  fun bucket => Nat.le_pred_of_lt (histogram.count bucket).toNat_lt_size

theorem hasRoom_cons (histogram : Histogram) (first : Observation) (rest : List Observation) :
    histogram.HasRoom (first :: rest) ↔ (histogram.count first.bucket).toNat < limit ∧
      (histogram.addBucket first.bucket 1).HasRoom rest := by
  have hcons : ∀ bucket, countIn bucket (first :: rest) =
      countIn bucket rest + if first.bucket = bucket then 1 else 0 := by
    intro bucket
    simp [countIn, List.countP_cons]
  have hadded : (histogram.count first.bucket).toNat < limit → ∀ bucket,
      ((histogram.addBucket first.bucket 1).count bucket).toNat =
        (histogram.count bucket).toNat + if first.bucket = bucket then 1 else 0 := by
    intro hlt bucket
    rw [count_addBucket]
    split_ifs with hbucket
    · subst hbucket
      rw [UInt64.toNat_add]
      exact Nat.mod_eq_of_lt (Nat.add_lt_of_lt_sub hlt)
    · rfl
  constructor
  · intro h
    have hlt : (histogram.count first.bucket).toNat < limit := by
      have hfirst := h first.bucket
      rw [hcons, if_pos rfl] at hfirst
      omega
    refine ⟨hlt, fun bucket => ?_⟩
    have hbucket := h bucket
    rw [hcons] at hbucket
    rw [hadded hlt]
    omega
  · rintro ⟨hlt, h⟩ bucket
    have hbucket := h bucket
    rw [hadded hlt] at hbucket
    rw [hcons]
    omega

theorem recordAll_of_hasRoom (h : histogram.HasRoom observations) :
    histogram.recordAll observations = .ok (histogram.addAll observations) := by
  induction observations generalizing histogram with
  | nil => rfl
  | cons first rest ih =>
    obtain ⟨hlt, hrest⟩ := (hasRoom_cons histogram first rest).mp h
    show (histogram.record first.value first.precision >>= fun held => held.recordAll rest) = _
    rw [record_of_lt hlt]
    exact ih hrest

theorem recordAll_of_not_hasRoom (h : ¬ histogram.HasRoom observations) :
    histogram.recordAll observations = .error .outOfRange := by
  induction observations generalizing histogram with
  | nil => exact absurd histogram.hasRoom_nil h
  | cons first rest ih =>
    show (histogram.record first.value first.precision >>= fun held => held.recordAll rest) = _
    by_cases hlt : (histogram.count first.bucket).toNat < limit
    · rw [record_of_lt hlt]
      exact ih fun hrest => h ((hasRoom_cons histogram first rest).mpr ⟨hlt, hrest⟩)
    · rw [record_of_full (Nat.not_lt.mp hlt)]
      rfl

/-! ## All ways at once -/

theorem Counts.eq_addAll (h : Counts histogram observations last) :
    last = histogram.addAll observations := by
  induction h with
  | start => rfl
  | @record histogram _ _ counted next _ recorded ih =>
    subst ih
    rw [addAll_append]
    by_cases hlt : ((histogram.addAll counted).count next.bucket).toNat < limit
    · rw [record_of_lt hlt] at recorded
      exact (Except.ok.inj recorded).symm
    · rw [record_of_full (Nat.not_lt.mp hlt)] at recorded
      cases recorded
  | add next _ ih =>
    rw [addAll_append, ih]
    rfl
  | merge _ _ ihheld ihpart => rw [addAll_append, ihheld, ihpart, merge_addAll, merge_empty]

theorem Counts.mergeAll {groups : List (List Observation)} {parts : List Histogram}
    (hparts : List.Forall₂ (Counts empty) groups parts) (h : Counts histogram observations held) :
    Counts histogram (observations ++ groups.flatten) (held.mergeAll parts) := by
  induction hparts generalizing observations held with
  | nil =>
    rw [List.flatten_nil, List.append_nil]
    exact h
  | cons hpart _ ih =>
    rw [List.flatten_cons, ← List.append_assoc]
    exact ih (h.merge hpart)

/-- Adding and merging always come to the same counts and wrap. Counting one by one comes to them as
long as every bucket has room for what falls into it, and breaks off if one has not. -/
theorem ways_of_counting_agree_while_there_is_room (histogram : Histogram)
    (observations : List Observation) :
    (∀ groups parts, groups.flatten.Perm observations → List.Forall₂ (Counts empty) groups parts →
      histogram.mergeAll parts = histogram.addAll observations) ∧
    (histogram.HasRoom observations →
      histogram.recordAll observations = .ok (histogram.addAll observations)) ∧
    (¬ histogram.HasRoom observations → histogram.recordAll observations = .error .outOfRange) ∧
    (∀ bucket, (histogram.addAll observations).count bucket =
      histogram.count bucket + UInt64.ofNat (countIn bucket observations)) ∧
    (histogram.addAll observations).total =
      histogram.total + UInt64.ofNat observations.length := by
  refine ⟨?_, recordAll_of_hasRoom, recordAll_of_not_hasRoom, count_addAll histogram observations,
    total_addAll histogram observations⟩
  intro groups parts hperm hparts
  have hmerged : Counts histogram ([] ++ groups.flatten) (histogram.mergeAll parts) :=
    Counts.mergeAll hparts (.start histogram)
  rw [hmerged.eq_addAll]
  exact addAll_perm hperm histogram

/-- Two observations, one of them in a bucket that is full. Each is merged in on its own. -/
theorem ways_of_counting_agree_around_the_greatest_word :
    let histogram := ofPairs [(0, 18446744073709551615), (3, 5)]
    let observations : List Observation := [⟨0, 0⟩, ⟨7, 2⟩]
    let parts := [empty.addAll [⟨7, 2⟩], empty.addAll [⟨0, 0⟩]]
    (histogram.addAll observations).pairs = [(0, 0), (3, 6)] ∧
      histogram.mergeAll parts = histogram.addAll observations ∧
      histogram.recordAll [⟨7, 2⟩] = .ok (histogram.addAll [⟨7, 2⟩]) ∧
      histogram.recordAll observations = .error .outOfRange := by
  intro histogram observations parts
  have hall := ways_of_counting_agree_while_there_is_room histogram observations
  refine ⟨by decide +kernel, ?_, ?_, ?_⟩
  · refine hall.1 [[⟨7, 2⟩], [⟨0, 0⟩]] parts (.swap _ _ _) ?_
    exact .cons (.add ⟨7, 2⟩ (.start empty)) (.cons (.add ⟨0, 0⟩ (.start empty)) .nil)
  · refine (ways_of_counting_agree_while_there_is_room histogram [⟨7, 2⟩]).2.1 ?_
    exact (hasRoom_cons _ _ _).mpr ⟨by decide +kernel, hasRoom_nil _⟩
  · refine hall.2.2.1 fun hroom => ?_
    exact absurd ((hasRoom_cons _ _ _).mp hroom).1 (by decide +kernel)

/-- A bucket that holds the greatest word: an addition wraps it to none, counting breaks off. -/
theorem a_full_bucket_breaks_counting_off :
    ¬ ∀ (histogram : Histogram) (observations : List Observation),
      histogram.recordAll observations = .ok (histogram.addAll observations) := by
  intro h
  have hfull := h (ofPairs [(0, 18446744073709551615)]) [⟨0, 1⟩]
  have hbroken : (ofPairs [(0, 18446744073709551615)]).recordAll [⟨0, 1⟩] = .error .outOfRange := by
    decide +kernel
  cases hbroken.symm.trans hfull

end Rollup.Histogram
