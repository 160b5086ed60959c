import Rollup.Proofs.Percentiles

/-!
# Nearest ranks

The percentile of a histogram is the lower edge of the smallest bucket up to which enough observations
were counted. Sums of counts wrap, the running count and the product with the rank are cut off at the
greatest word, and even so the search always ends at a bucket that holds observations.
-/

namespace Rollup.Histogram

/-! ## Observations -/

/-- How many observations these buckets hold, as a number that does not wrap. -/
def observationsIn (pairs : List (UInt64 × UInt64)) : Nat :=
  pairs.foldr (fun pair sum => pair.2.toNat + sum) 0

/-- The true number of observations. -/
def observations (histogram : Histogram) : Nat := observationsIn histogram.pairs

/-- How many observations fell into this bucket or one before it. -/
def covered (histogram : Histogram) (bucket : UInt64) : Nat :=
  observationsIn (histogram.pairs.filter (·.1 ≤ bucket))

@[simp]
theorem observationsIn_nil : observationsIn [] = 0 := rfl

@[simp]
theorem observationsIn_cons (pair : UInt64 × UInt64) (rest : List (UInt64 × UInt64)) :
    observationsIn (pair :: rest) = pair.2.toNat + observationsIn rest := rfl

theorem observationsIn_append (before after : List (UInt64 × UInt64)) :
    observationsIn (before ++ after) = observationsIn before + observationsIn after := by
  induction before with
  | nil => simp
  | cons pair rest ih => rw [List.cons_append, observationsIn_cons, ih, observationsIn_cons, Nat.add_assoc]

theorem toNat_foldl_add (pairs : List (UInt64 × UInt64)) (sum : UInt64) :
    (pairs.foldl (fun sum pair => sum + pair.2) sum).toNat =
      (sum.toNat + observationsIn pairs) % UInt64.size := by
  induction pairs generalizing sum with
  | nil => exact (Nat.mod_eq_of_lt sum.toNat_lt_size).symm
  | cons pair rest ih =>
    rw [List.foldl_cons, ih, UInt64.toNat_add, observationsIn_cons, Nat.mod_add_mod, Nat.add_assoc]

theorem toNat_total (histogram : Histogram) :
    histogram.total.toNat = histogram.observations % UInt64.size := by
  have h := toNat_foldl_add histogram.pairs 0
  rwa [show (0 : UInt64).toNat = 0 from rfl, Nat.zero_add] at h

theorem total_le_observations (histogram : Histogram) :
    histogram.total.toNat ≤ histogram.observations := by
  rw [toNat_total]
  exact Nat.mod_le _ _

theorem total_le_limit (total : UInt64) : total.toNat ≤ limit := Nat.le_pred_of_lt total.toNat_lt_size

/-! ## Targets -/

theorem one_le_target (total : UInt64) (rank : Nat) : 1 ≤ target total rank := Nat.le_max_right _ _

theorem target_mono (total : UInt64) {rank higher : Nat} (h : rank ≤ higher) :
    target total rank ≤ target total higher := by
  have hshare : total.toNat * min rank 100 ≤ total.toNat * min higher 100 :=
    Nat.mul_le_mul_left _ (by omega)
  unfold target
  omega

theorem target_of_hundred_le (total : UInt64) {rank : Nat} (h : 100 ≤ rank) :
    target total rank = target total 100 := by
  unfold target
  rw [Nat.min_eq_right h, Nat.min_self]

theorem target_le_total {total : UInt64} (h : total ≠ 0) (rank : Nat) :
    target total rank ≤ total.toNat := by
  have hpos : 0 < total.toNat := Nat.pos_of_ne_zero fun hzero => h (UInt64.toNat_inj.mp hzero)
  have hshare : total.toNat * min rank 100 ≤ total.toNat * 100 := Nat.mul_le_mul_left _ (by omega)
  unfold target
  omega

theorem target_le_iff {total : UInt64} (h : 100 * total.toNat ≤ limit) (rank count : Nat) :
    target total rank ≤ count ↔ 1 ≤ count ∧ min rank 100 * total.toNat ≤ 100 * count := by
  have hshare : min rank 100 * total.toNat ≤ 100 * total.toNat := Nat.mul_le_mul_right _ (by omega)
  unfold target
  rw [Nat.mul_comm total.toNat]
  omega

/-! ## The search -/

theorem firstCovering_eq_some_iff {wanted seen : Nat} {pairs : List (UInt64 × UInt64)}
    {bucket : UInt64} (hwanted : wanted ≤ limit) (hseen : seen < wanted) :
    firstCovering wanted seen pairs = some bucket ↔ ∃ before count after,
      pairs = before ++ (bucket, count) :: after ∧ seen + observationsIn before < wanted ∧
        wanted ≤ seen + observationsIn before + count.toNat := by
  -- The search ends at the first bucket with which the target is reached. Targets are words, so
  -- that a running count that was cut off reaches them as well.
  induction pairs generalizing seen with
  | nil => simp [firstCovering]
  | cons first rest ih =>
    obtain ⟨key, count⟩ := first
    rw [firstCovering]
    by_cases hreached : wanted ≤ seen + count.toNat
    · rw [if_pos (by omega), Option.some.injEq]
      constructor
      · rintro rfl
        exact ⟨[], count, rest, rfl, hseen, hreached⟩
      · rintro ⟨before, held, after, hsplit, hbefore, _⟩
        cases before with
        | nil => exact (Prod.mk.inj (List.cons.inj hsplit).1).1
        | cons other more =>
          obtain ⟨rfl, _⟩ := List.cons.inj hsplit
          rw [observationsIn_cons] at hbefore
          dsimp only at hbefore
          omega
    · have hcut : min (seen + count.toNat) limit = seen + count.toNat := by omega
      rw [hcut, if_neg hreached, ih (by omega)]
      constructor
      · rintro ⟨before, held, after, rfl, hbefore, hheld⟩
        refine ⟨(key, count) :: before, held, after, rfl, ?_⟩
        rw [observationsIn_cons, ← Nat.add_assoc]
        exact ⟨hbefore, hheld⟩
      · rintro ⟨before, held, after, hsplit, hbefore, hheld⟩
        cases before with
        | nil =>
          obtain ⟨hsame, _⟩ := List.cons.inj hsplit
          obtain ⟨_, rfl⟩ := Prod.mk.inj hsame
          exact absurd hheld hreached
        | cons other more =>
          obtain ⟨rfl, hrest⟩ := List.cons.inj hsplit
          rw [observationsIn_cons, ← Nat.add_assoc] at hbefore hheld
          exact ⟨more, held, after, hrest, hbefore, hheld⟩

theorem exists_firstCovering {wanted seen : Nat} {pairs : List (UInt64 × UInt64)}
    (hwanted : wanted ≤ limit) (hseen : seen < wanted)
    (hreached : wanted ≤ seen + observationsIn pairs) :
    ∃ bucket, firstCovering wanted seen pairs = some bucket := by
  induction pairs generalizing seen with
  | nil =>
    rw [observationsIn_nil] at hreached
    omega
  | cons first rest ih =>
    rw [observationsIn_cons] at hreached
    rw [firstCovering]
    split
    · exact ⟨_, rfl⟩
    · exact ih (by omega) (by omega)

theorem pairs_ascending (histogram : Histogram) :
    histogram.pairs.Pairwise fun a b => a.1 < b.1 := by
  refine List.Pairwise.imp ?_ (Std.ExtTreeMap.ordered_keys_toList (t := histogram.counts))
  intro a b h
  exact Std.compare_eq_lt.mp h

theorem observationsIn_filter_le (keep : UInt64 × UInt64 → Bool) (pairs : List (UInt64 × UInt64)) :
    observationsIn (pairs.filter keep) ≤ observationsIn pairs := by
  induction pairs with
  | nil => exact Nat.le_refl _
  | cons pair rest ih =>
    rw [List.filter_cons, observationsIn_cons]
    split
    · exact Nat.add_le_add_left ih _
    · exact Nat.le_trans ih (Nat.le_add_left _ _)

/-- The bucket where so many observations are reached. It holds some itself. -/
structure Reaches (histogram : Histogram) (wanted : Nat) (bucket : UInt64) : Prop where
  filled : histogram.count bucket ≠ 0
  least : ∀ key, wanted ≤ histogram.covered key ↔ bucket ≤ key

theorem Reaches.mono {histogram : Histogram} {wanted more : Nat} {bucket higher : UInt64}
    (h : histogram.Reaches wanted bucket) (hmore : histogram.Reaches more higher)
    (hle : wanted ≤ more) : bucket ≤ higher :=
  (h.least higher).mp (Nat.le_trans hle ((hmore.least higher).mpr (UInt64.le_refl higher)))

theorem reaches_of_firstCovering {histogram : Histogram} {wanted : Nat} {bucket : UInt64}
    (hwanted : 1 ≤ wanted) (hlimit : wanted ≤ limit)
    (h : firstCovering wanted 0 histogram.pairs = some bucket) :
    histogram.Reaches wanted bucket := by
  obtain ⟨before, count, after, hpairs, hbefore, hreached⟩ :=
    (firstCovering_eq_some_iff hlimit hwanted).mp h
  have hascending := hpairs ▸ histogram.pairs_ascending
  obtain ⟨_, hrest, hcross⟩ := List.pairwise_append.mp hascending
  have hbelow : ∀ pair ∈ before, pair.1 < bucket := fun pair hpair =>
    hcross pair hpair _ List.mem_cons_self
  have habove : ∀ pair ∈ after, bucket < pair.1 := (List.pairwise_cons.mp hrest).1
  rw [Nat.zero_add] at hbefore hreached
  refine ⟨fun hempty => ?_, fun key => ⟨fun hcovers => ?_, fun hle => ?_⟩⟩
  · have hcount : histogram.counts[bucket]? = some count := mem_pairs_iff.mp (by simp [hpairs])
    obtain rfl : count = 0 := by rwa [count_eq, hcount] at hempty
    rw [show (0 : UInt64).toNat = 0 from rfl] at hreached
    omega
  · -- Up to a smaller key there is at most what stands before the bucket.
    by_contra hlt
    have hlt := UInt64.not_le.mp hlt
    have hnone : ((bucket, count) :: after).filter (·.1 ≤ key) = [] := by
      rw [List.filter_eq_nil_iff]
      intro pair hpair
      rcases List.mem_cons.mp hpair with rfl | hpair
      · simpa using hlt
      · simpa using UInt64.lt_trans hlt (habove pair hpair)
    rw [covered, hpairs, List.filter_append, hnone, List.append_nil] at hcovers
    have := observationsIn_filter_le (·.1 ≤ key) before
    omega
  · have hall : before.filter (·.1 ≤ key) = before := by
      rw [List.filter_eq_self]
      intro pair hpair
      simpa using UInt64.le_trans (UInt64.le_of_lt (hbelow pair hpair)) hle
    rw [covered, hpairs, List.filter_append, hall, List.filter_cons_of_pos (by simpa using hle),
      observationsIn_append, observationsIn_cons]
    dsimp only
    omega

/-! ## Percentiles -/

theorem exists_reaches {histogram : Histogram} (h : histogram.total ≠ 0) (rank : Nat) :
    ∃ bucket, firstCovering (target histogram.total rank) 0 histogram.pairs = some bucket ∧
      histogram.Reaches (target histogram.total rank) bucket := by
  have htotal := target_le_total h rank
  have hlimit := Nat.le_trans htotal (total_le_limit _)
  have hreached : target histogram.total rank ≤ 0 + histogram.observations := by
    have := histogram.total_le_observations
    omega
  obtain ⟨bucket, hbucket⟩ := exists_firstCovering hlimit (one_le_target _ _) hreached
  exact ⟨bucket, hbucket, reaches_of_firstCovering (one_le_target _ _) hlimit hbucket⟩

theorem percentile_of_total_eq_zero {histogram : Histogram} (h : histogram.total = 0) (rank : Nat)
    (precision : UInt64) : histogram.percentile rank precision = .ok 0 := if_pos h

theorem percentile_of_total_ne_zero {histogram : Histogram} (h : histogram.total ≠ 0) (rank : Nat)
    (precision : UInt64) : ∃ bucket,
      firstCovering (target histogram.total rank) 0 histogram.pairs = some bucket ∧
      histogram.Reaches (target histogram.total rank) bucket ∧
      histogram.percentile rank precision = edge bucket precision := by
  obtain ⟨bucket, hbucket, hreaches⟩ := exists_reaches h rank
  refine ⟨bucket, hbucket, hreaches, ?_⟩
  rw [percentile, if_neg h, hbucket]

theorem edge_eq_ok_iff {bucket precision value : UInt64} : edge bucket precision = .ok value ↔
    value.toNat = bucket.toNat * (max precision 1).toNat := by
  unfold edge
  dsimp only
  have hvalue := total_le_limit value
  split_ifs with hfits
  · rw [Except.ok.injEq, ← UInt64.toNat_inj, UInt64.toNat_ofNat_of_lt' (Nat.lt_succ_of_le hfits)]
    exact eq_comm
  · constructor
    · intro h
      cases h
    · intro h
      omega

theorem edge_eq_error_iff {bucket precision : UInt64} {fault : Fault} :
    edge bucket precision = .error fault ↔
      fault = .outOfRange ∧ limit < bucket.toNat * (max precision 1).toNat := by
  unfold edge
  dsimp only
  split_ifs with hfits
  · simp [Nat.not_lt.mpr hfits]
  · simp [Nat.lt_of_not_le hfits, eq_comm]

theorem percentile_eq_error_iff {histogram : Histogram} {rank : Nat} {precision : UInt64}
    {fault : Fault} : histogram.percentile rank precision = .error fault ↔
      fault = .outOfRange ∧ histogram.total ≠ 0 ∧
        ∃ bucket, histogram.Reaches (target histogram.total rank) bucket ∧
          limit < bucket.toNat * (max precision 1).toNat := by
  by_cases hnone : histogram.total = 0
  · simp [percentile_of_total_eq_zero hnone, hnone]
  · obtain ⟨bucket, _, hreaches, hpercentile⟩ := percentile_of_total_ne_zero hnone rank precision
    rw [hpercentile, edge_eq_error_iff]
    refine and_congr_right fun _ => ⟨fun h => ⟨hnone, bucket, hreaches, h⟩, ?_⟩
    rintro ⟨_, other, hother, h⟩
    have hsame := UInt64.le_antisymm (hreaches.mono hother (Nat.le_refl _))
      (hother.mono hreaches (Nat.le_refl _))
    rwa [hsame]

theorem percentile_eq_error_of_le {histogram : Histogram} {rank higher : Nat} {precision : UInt64}
    {fault : Fault} (hle : rank ≤ higher)
    (h : histogram.percentile rank precision = .error fault) :
    histogram.percentile higher precision = .error fault := by
  obtain ⟨hfault, hsome, bucket, hreaches, hbeyond⟩ := percentile_eq_error_iff.mp h
  obtain ⟨last, _, hlast⟩ := exists_reaches hsome higher
  refine percentile_eq_error_iff.mpr ⟨hfault, hsome, last, hlast, Nat.lt_of_lt_of_le hbeyond ?_⟩
  exact Nat.mul_le_mul_right _
    (UInt64.le_iff_toNat_le.mp (hreaches.mono hlast (target_mono _ hle)))

theorem percentile_of_edges {histogram : Histogram} {precision : UInt64}
    (hedges : ∀ pair ∈ histogram.pairs, pair.1.toNat * (max precision 1).toNat ≤ limit)
    (h : histogram.total ≠ 0) (rank : Nat) : ∃ bucket value,
      firstCovering (target histogram.total rank) 0 histogram.pairs = some bucket ∧
      histogram.Reaches (target histogram.total rank) bucket ∧
      histogram.percentile rank precision = .ok value ∧
      value.toNat = bucket.toNat * (max precision 1).toNat := by
  obtain ⟨bucket, hbucket, hreaches, hpercentile⟩ := percentile_of_total_ne_zero h rank precision
  obtain ⟨count, hcount⟩ : ∃ count, histogram.counts[bucket]? = some count := by
    cases hcount : histogram.counts[bucket]? with
    | none => exact absurd (by rw [count_eq, hcount]; rfl) hreaches.filled
    | some count => exact ⟨count, rfl⟩
  have hfits := hedges _ (mem_pairs_iff.mpr hcount)
  have hvalue := UInt64.toNat_ofNat_of_lt' (Nat.lt_succ_of_le hfits)
  exact ⟨bucket, _, hbucket, hreaches, hpercentile.trans (edge_eq_ok_iff.mpr hvalue), hvalue⟩

/-- Percentiles are by nearest rank, if the edges of all buckets are words. -/
theorem percentiles_are_nearest_ranks {histogram : Histogram} {precision : UInt64}
    (hedges : ∀ pair ∈ histogram.pairs, pair.1.toNat * (max precision 1).toNat ≤ limit) :
    (histogram.total = 0 → ∀ rank, histogram.percentile rank precision = .ok 0) ∧
    (histogram.total ≠ 0 → ∀ rank, ∃ bucket value,
      firstCovering (target histogram.total rank) 0 histogram.pairs = some bucket ∧
      histogram.count bucket ≠ 0 ∧ histogram.percentile rank precision = .ok value ∧
      value.toNat = bucket.toNat * (max precision 1).toNat ∧
      (100 * histogram.observations ≤ limit → ∀ key, bucket ≤ key ↔ 1 ≤ histogram.covered key ∧
        min rank 100 * histogram.observations ≤ 100 * histogram.covered key)) ∧
    (∀ rank higher, rank ≤ higher → ∃ value more, histogram.percentile rank precision = .ok value ∧
      histogram.percentile higher precision = .ok more ∧ value ≤ more) ∧
    ∀ rank, 100 ≤ rank →
      histogram.percentile rank precision = histogram.percentile 100 precision := by
  have hranked := percentile_of_edges hedges
  refine ⟨fun hnone rank => percentile_of_total_eq_zero hnone rank precision,
    fun hsome rank => ?_, fun rank higher hle => ?_, fun rank hle => ?_⟩
  · obtain ⟨bucket, value, hbucket, hreaches, hpercentile, hvalue⟩ := hranked hsome rank
    refine ⟨bucket, value, hbucket, hreaches.filled, hpercentile, hvalue, fun hfew key => ?_⟩
    have htotal : histogram.total.toNat = histogram.observations := by
      have hwords : limit < UInt64.size := by decide
      rw [toNat_total]
      exact Nat.mod_eq_of_lt (by omega)
    rw [← hreaches.least, target_le_iff (by rw [htotal]; exact hfew), htotal]
  · by_cases hnone : histogram.total = 0
    · have hzero rank := percentile_of_total_eq_zero hnone rank precision
      exact ⟨0, 0, hzero rank, hzero higher, UInt64.le_refl 0⟩
    · obtain ⟨bucket, value, _, hreaches, hpercentile, hvalue⟩ := hranked hnone rank
      obtain ⟨bucket', value', _, hreaches', hpercentile', hvalue'⟩ := hranked hnone higher
      refine ⟨value, value', hpercentile, hpercentile', ?_⟩
      rw [UInt64.le_iff_toNat_le, hvalue, hvalue']
      exact Nat.mul_le_mul_right _
        (UInt64.le_iff_toNat_le.mp (hreaches.mono hreaches' (target_mono _ hle)))
  · rw [percentile, percentile, target_of_hundred_le _ hle]

/-- Three observations in buckets of ten, an empty bucket before them. The other histogram holds so many
that its total wraps around to 2, and the search still finds a bucket for the highest rank. -/
theorem percentiles_are_nearest_ranks_of_few_and_many :
    let few := ofPairs [(0, 0), (3, 2), (5, 1)]
    let many := ofPairs [(1, 18446744073709551615), (2, 3)]
    few.percentile 50 10 = .ok 30 ∧ few.percentile 99 10 = .ok 50 ∧
      (∀ key, 3 ≤ key ↔ 1 ≤ few.covered key ∧ 50 * 3 ≤ 100 * few.covered key) ∧
      many.total = 2 ∧ many.percentile 250 10 = .ok 10 ∧ many.count 1 ≠ 0 := by
  intro few many
  have hfits : few.pairs.all (·.1.toNat * (max 10 1 : UInt64).toNat ≤ limit) ∧
      many.pairs.all (·.1.toNat * (max 10 1 : UInt64).toNat ≤ limit) := by decide +kernel
  have hfew := @percentiles_are_nearest_ranks few 10 (by simpa using hfits.1)
  have hmany := @percentiles_are_nearest_ranks many 10 (by simpa using hfits.2)
  have hhalf : few.percentile 50 10 = .ok 30 := by decide +kernel
  have htop : many.percentile 100 10 = .ok 10 := by decide +kernel
  have htotal : many.total = 2 := by decide +kernel
  obtain ⟨bucket, value, hbucket, _, hvalue, hedge, hleast⟩ := hfew.2.1 (by decide +kernel) 50
  obtain rfl : bucket = 3 := Option.some.inj (hbucket.symm.trans (by decide +kernel))
  obtain ⟨other, _, hother, hfilled, _⟩ := hmany.2.1 (by decide +kernel) 100
  obtain rfl : other = 1 := Option.some.inj (hother.symm.trans (by decide +kernel))
  exact ⟨hhalf, by decide +kernel, hleast (by decide +kernel), htotal,
    (hmany.2.2.2 250 (by decide)).trans htop, hfilled⟩

end Rollup.Histogram
