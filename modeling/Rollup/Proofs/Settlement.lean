import Mathlib.Data.List.Nodup
import Mathlib.Data.List.Perm.Basic
import Rollup.Record.Sum
import Rollup.Sessions

/-!
# Settlement

What the outcomes of writes do to the entry of one identity, and when their order makes no difference.
-/

namespace Rollup

variable {M : Type}

/-- The identity of an entity on the first day of the epoch. -/
def MetricId.onFirstDay (entity : Entity) : MetricId :=
  ⟨entity, .containing (.midnight (.ofDays 0)) .day (by decide)⟩

/-! ## The entry of one identity -/

/-- Whether what carries this stamp reaches an entry: there is none, or it was not touched later. -/
def Session.reachedBy (held : Option (Session M)) (stamp : Int) : Prop :=
  ∀ entry ∈ held, entry.lastUpdate ≤ stamp

instance (held : Option (Session M)) (stamp : Int) : Decidable (Session.reachedBy held stamp) := by
  unfold Session.reachedBy
  infer_instance

/-- What the outcome of a write makes of the entry of its identity. -/
def Session.settle (held : Option (Session M)) (callback : SessionCallback M) (verdict : Verdict) :
    Option (Session M) :=
  match callback.kind, verdict with
  | .insert, .executed =>
    if Session.reachedBy held callback.stamp then some ⟨callback.record, callback.stamp⟩ else held
  | .update, .failed => if Session.reachedBy held callback.stamp then none else held
  | _, _ => held

namespace Sessions

@[simp]
theorem session?_empty (id : MetricId) : (empty : Sessions M).session? id = none := by
  simp [session?, empty]

theorem session?_put [Record M] (cache : Sessions M) (record : M) (now : Int) (id : MetricId) :
    (cache.put record now).session? id =
      if Record.id record = id ∧ Session.reachedBy (cache.session? (Record.id record)) now then
        some ⟨record, now⟩
      else cache.session? id := by
  have hinsert : ∀ entry : Session M, session? ⟨cache.entries.insert (Record.id record) entry⟩ id =
      if Record.id record = id then some entry else cache.session? id := by
    intro entry
    simp [session?, Std.ExtTreeMap.getElem?_insert]
  unfold Session.reachedBy
  cases h : cache.session? (Record.id record) with
  | none => simp [put, h, hinsert]
  | some held =>
    by_cases hle : held.lastUpdate ≤ now
    · simp [put, h, hle, hinsert]
    · simp [put, h, hle]

theorem session?_remove (cache : Sessions M) (id other : MetricId) :
    (cache.remove id).session? other = if id = other then none else cache.session? other := by
  simp [remove, session?, Std.ExtTreeMap.getElem?_erase]

theorem session?_removeIfNotNewer (cache : Sessions M) (id other : MetricId) (stamp : Int) :
    (cache.removeIfNotNewer id stamp).session? other =
      if id = other ∧ Session.reachedBy (cache.session? id) stamp then none
      else cache.session? other := by
  unfold removeIfNotNewer isNotNewer Session.reachedBy
  cases h : cache.session? id with
  | none =>
    by_cases hid : id = other
    · simp [← hid, h]
    · simp [hid]
  | some held =>
    by_cases hle : held.lastUpdate ≤ stamp
    · simp [hle, session?_remove]
    · simp [hle]

theorem session?_settle [Record M] (cache : Sessions M) (callback : SessionCallback M)
    (verdict : Verdict) (id : MetricId) :
    (cache.settle callback verdict).session? id =
      if Record.id callback.record = id then
        Session.settle (cache.session? id) callback verdict
      else cache.session? id := by
  unfold settle Session.settle
  split <;> by_cases hid : Record.id callback.record = id <;>
    simp_all [session?_put, session?_removeIfNotNewer]

/-- The outcomes of some writes, in the order in which they become known. -/
def settleAll [Record M] (cache : Sessions M) (outcomes : List (SessionCallback M × Verdict)) :
    Sessions M :=
  outcomes.foldl (fun cache outcome => cache.settle outcome.1 outcome.2) cache

end Sessions

/-! ## Many outcomes for one identity -/

namespace Session

/-- A confirmed insert caches its record. -/
def confirms (outcome : SessionCallback M × Verdict) : Prop :=
  outcome.1.kind = .insert ∧ outcome.2 = .executed

/-- A failed update evicts the entry. -/
def evicts (outcome : SessionCallback M × Verdict) : Prop :=
  outcome.1.kind = .update ∧ outcome.2 = .failed

def settleAll (held : Option (Session M)) (outcomes : List (SessionCallback M × Verdict)) :
    Option (Session M) :=
  outcomes.foldl (fun held outcome => settle held outcome.1 outcome.2) held

theorem settle_of_confirms {outcome : SessionCallback M × Verdict} (h : confirms outcome)
    (held : Option (Session M)) :
    settle held outcome.1 outcome.2 =
      if reachedBy held outcome.1.stamp then some ⟨outcome.1.record, outcome.1.stamp⟩ else held := by
  obtain ⟨hkind, hverdict⟩ := h
  simp [settle, hkind, hverdict]

theorem settle_of_evicts {outcome : SessionCallback M × Verdict} (h : evicts outcome)
    (held : Option (Session M)) :
    settle held outcome.1 outcome.2 = if reachedBy held outcome.1.stamp then none else held := by
  obtain ⟨hkind, hverdict⟩ := h
  simp [settle, hkind, hverdict]

theorem settle_of_neither {outcome : SessionCallback M × Verdict} (hc : ¬ confirms outcome)
    (he : ¬ evicts outcome) (held : Option (Session M)) :
    settle held outcome.1 outcome.2 = held := by
  unfold settle
  split
  · exact absurd ⟨by assumption, by assumption⟩ hc
  · exact absurd ⟨by assumption, by assumption⟩ he
  · rfl

theorem settle_eq_some {held : Option (Session M)} {callback : SessionCallback M} {verdict : Verdict}
    {entry : Session M} (h : settle held callback verdict = some entry) :
    entry.lastUpdate = callback.stamp ∨ held = some entry := by
  unfold settle at h
  split at h
  · split at h
    · cases h
      exact Or.inl rfl
    · exact Or.inr h
  · split at h
    · cases h
    · exact Or.inr h
  · exact Or.inr h

@[simp]
theorem settleAll_nil (held : Option (Session M)) : settleAll held [] = held := rfl

@[simp]
theorem settleAll_cons (held : Option (Session M)) (first : SessionCallback M × Verdict)
    (rest : List (SessionCallback M × Verdict)) :
    settleAll held (first :: rest) = settleAll (settle held first.1 first.2) rest := rfl

theorem reachedBy_none (stamp : Int) : reachedBy (none : Option (Session M)) stamp := by
  simp [reachedBy]

theorem settle_none_of_insert (record : M) (stamp : Int) :
    settle none ⟨.insert, record, stamp⟩ .executed = some ⟨record, stamp⟩ := by
  simp [settle, reachedBy_none]

theorem reachedBy_some (held : Session M) (stamp : Int) :
    reachedBy (some held) stamp ↔ held.lastUpdate ≤ stamp := by
  simp [reachedBy]

theorem reachedBy_settle {stamp : Int} {outcome : SessionCallback M × Verdict}
    (h : confirms outcome → outcome.1.stamp ≤ stamp) {held : Option (Session M)}
    (hheld : reachedBy held stamp) : reachedBy (settle held outcome.1 outcome.2) stamp := by
  by_cases hc : confirms outcome
  · rw [settle_of_confirms hc]
    split
    · exact (reachedBy_some _ _).mpr (h hc)
    · exact hheld
  · by_cases he : evicts outcome
    · rw [settle_of_evicts he]
      split
      · exact reachedBy_none stamp
      · exact hheld
    · rwa [settle_of_neither hc he]

theorem reachedBy_settleAll {stamp : Int} {outcomes : List (SessionCallback M × Verdict)}
    (h : ∀ outcome ∈ outcomes, confirms outcome → outcome.1.stamp ≤ stamp)
    {held : Option (Session M)} (hheld : reachedBy held stamp) :
    reachedBy (settleAll held outcomes) stamp := by
  induction outcomes generalizing held with
  | nil => exact hheld
  | cons first rest ih =>
    apply ih (fun outcome hmem => h outcome (List.mem_cons_of_mem _ hmem))
    exact reachedBy_settle (h first List.mem_cons_self) hheld

theorem settleAll_of_not_reached {outcomes : List (SessionCallback M × Verdict)}
    {held : Option (Session M)}
    (h : ∀ outcome ∈ outcomes, confirms outcome ∨ evicts outcome →
      ¬ reachedBy held outcome.1.stamp) : settleAll held outcomes = held := by
  induction outcomes with
  | nil => rfl
  | cons first rest ih =>
    have hfirst : settle held first.1 first.2 = held := by
      by_cases hc : confirms first
      · rw [settle_of_confirms hc, if_neg (h first List.mem_cons_self (Or.inl hc))]
      · by_cases he : evicts first
        · rw [settle_of_evicts he, if_neg (h first List.mem_cons_self (Or.inr he))]
        · exact settle_of_neither hc he held
    rw [settleAll_cons, hfirst]
    exact ih fun outcome hmem => h outcome (List.mem_cons_of_mem _ hmem)

theorem settleAll_none {outcomes : List (SessionCallback M × Verdict)}
    (h : ∀ outcome ∈ outcomes, ¬ confirms outcome) : settleAll none outcomes = none := by
  induction outcomes with
  | nil => rfl
  | cons first rest ih =>
    have hfirst : settle none first.1 first.2 = none := by
      by_cases he : evicts first
      · simp [settle_of_evicts he]
      · exact settle_of_neither (h first List.mem_cons_self) he none
    rw [settleAll_cons, hfirst]
    exact ih fun outcome hmem => h outcome (List.mem_cons_of_mem _ hmem)

theorem settleAll_of_evicts {outcomes : List (SessionCallback M × Verdict)}
    (h : ∀ outcome ∈ outcomes, ¬ confirms outcome) {held : Option (Session M)}
    {failed : SessionCallback M × Verdict} (hmem : failed ∈ outcomes) (hfailed : evicts failed)
    (hreach : reachedBy held failed.1.stamp) : settleAll held outcomes = none := by
  induction outcomes generalizing held with
  | nil => simp at hmem
  | cons first rest ih =>
    have hrest := fun outcome hin => h outcome (List.mem_cons_of_mem first hin)
    rcases List.mem_cons.mp hmem with rfl | hmem
    · rw [settleAll_cons, settle_of_evicts hfailed, if_pos hreach]
      exact settleAll_none hrest
    · apply ih hrest hmem
      exact reachedBy_settle (fun hc => absurd hc (h first List.mem_cons_self)) hreach

/-- Every other outcome that counts is earlier than this one. -/
def Latest (latest : SessionCallback M × Verdict) (outcomes : List (SessionCallback M × Verdict)) :
    Prop :=
  ∀ outcome ∈ outcomes, confirms outcome ∨ evicts outcome → outcome ≠ latest →
    outcome.1.stamp < latest.1.stamp

theorem settleAll_some {latest : SessionCallback M × Verdict} (hlatest : confirms latest)
    {outcomes : List (SessionCallback M × Verdict)} (h : Latest latest outcomes) :
    settleAll (some ⟨latest.1.record, latest.1.stamp⟩) outcomes =
      some ⟨latest.1.record, latest.1.stamp⟩ := by
  induction outcomes with
  | nil => rfl
  | cons first rest ih =>
    have hfirst : settle (some ⟨latest.1.record, latest.1.stamp⟩) first.1 first.2 =
        some ⟨latest.1.record, latest.1.stamp⟩ := by
      by_cases heq : first = latest
      · simp [heq, settle_of_confirms hlatest]
      · have hlt := fun hcounts => h first List.mem_cons_self hcounts heq
        by_cases hc : confirms first
        · rw [settle_of_confirms hc, if_neg]
          rw [reachedBy_some]
          exact Int.not_le.mpr (hlt (Or.inl hc))
        · by_cases he : evicts first
          · rw [settle_of_evicts he, if_neg]
            rw [reachedBy_some]
            exact Int.not_le.mpr (hlt (Or.inr he))
          · exact settle_of_neither hc he _
    rw [settleAll_cons, hfirst]
    exact ih fun outcome hmem => h outcome (List.mem_cons_of_mem _ hmem)

theorem settleAll_latest {latest : SessionCallback M × Verdict} (hlatest : confirms latest)
    {outcomes : List (SessionCallback M × Verdict)} (h : Latest latest outcomes)
    (hmem : latest ∈ outcomes) {held : Option (Session M)}
    (hreach : reachedBy held latest.1.stamp) :
    settleAll held outcomes = some ⟨latest.1.record, latest.1.stamp⟩ := by
  induction outcomes generalizing held with
  | nil => simp at hmem
  | cons first rest ih =>
    have hrest : Latest latest rest := fun outcome hin => h outcome (List.mem_cons_of_mem _ hin)
    by_cases heq : first = latest
    · subst heq
      rw [settleAll_cons, settle_of_confirms hlatest, if_pos hreach]
      exact settleAll_some hlatest hrest
    · apply ih hrest ((List.mem_cons.mp hmem).resolve_left (Ne.symm heq))
      exact reachedBy_settle
        (fun hc => Int.le_of_lt (h first List.mem_cons_self (Or.inl hc) heq)) hreach

theorem exists_latest {outcomes : List (SessionCallback M × Verdict)}
    (h : ∃ put ∈ outcomes, confirms put) :
    ∃ put ∈ outcomes, confirms put ∧
      ∀ other ∈ outcomes, confirms other → other.1.stamp ≤ put.1.stamp := by
  induction outcomes with
  | nil => simp at h
  | cons first rest ih =>
    by_cases hrest : ∃ put ∈ rest, confirms put
    · obtain ⟨put, hmem, hput, hmax⟩ := ih hrest
      by_cases hfirst : confirms first ∧ put.1.stamp ≤ first.1.stamp
      · refine ⟨first, List.mem_cons_self, hfirst.1, ?_⟩
        intro other hother hc
        rcases List.mem_cons.mp hother with rfl | hother
        · exact Int.le_refl _
        · exact Int.le_trans (hmax other hother hc) hfirst.2
      · refine ⟨put, List.mem_cons_of_mem _ hmem, hput, ?_⟩
        intro other hother hc
        rcases List.mem_cons.mp hother with rfl | hother
        · have : ¬ put.1.stamp ≤ other.1.stamp := fun hle => hfirst ⟨hc, hle⟩
          omega
        · exact hmax other hother hc
    · obtain ⟨put, hmem, hput⟩ := h
      rcases List.mem_cons.mp hmem with rfl | hmem
      · refine ⟨put, List.mem_cons_self, hput, ?_⟩
        intro other hother hc
        rcases List.mem_cons.mp hother with rfl | hother
        · exact Int.le_refl _
        · exact absurd ⟨other, hother, hc⟩ hrest
      · exact absurd ⟨put, hmem, hput⟩ hrest

/-- No failed update that reaches the entry is later than all confirmed inserts, if there are any. -/
def EvictionsOutlived (held : Option (Session M)) (outcomes : List (SessionCallback M × Verdict)) :
    Prop :=
  ∀ failed ∈ outcomes, evicts failed → reachedBy held failed.1.stamp →
    (∃ put ∈ outcomes, confirms put) →
      ∃ put ∈ outcomes, confirms put ∧ failed.1.stamp < put.1.stamp

theorem reachedBy_mono {held : Option (Session M)} {stamp later : Int} (h : reachedBy held stamp)
    (hle : stamp ≤ later) : reachedBy held later :=
  fun entry hentry => Int.le_trans (h entry hentry) hle

theorem latest_of_max {outcomes : List (SessionCallback M × Verdict)}
    (hstamps : (outcomes.map (·.1.stamp)).Nodup) {put : SessionCallback M × Verdict}
    (hmem : put ∈ outcomes)
    (hmax : ∀ other ∈ outcomes, confirms other → other.1.stamp ≤ put.1.stamp)
    {held : Option (Session M)} (hreach : reachedBy held put.1.stamp)
    (hevicts : ∀ failed ∈ outcomes, evicts failed → reachedBy held failed.1.stamp →
      failed.1.stamp < put.1.stamp) : Latest put outcomes := by
  -- The latest confirmed insert is later than every other outcome, if it reaches the entry and is
  -- later than the evictions that reach it.
  intro other hother hcounts hne
  rcases hcounts with hc | he
  · have hle := hmax other hother hc
    have : other.1.stamp ≠ put.1.stamp := fun heq =>
      hne (List.inj_on_of_nodup_map hstamps hother hmem heq)
    omega
  · by_contra hlt
    exact hlt (hevicts other hother he (reachedBy_mono hreach (Int.not_lt.mp hlt)))

/-- The outcomes come to the same in every order if no eviction could undo the latest insert. -/
theorem settleAll_perm {held : Option (Session M)}
    {outcomes order : List (SessionCallback M × Verdict)}
    (hstamps : (outcomes.map (·.1.stamp)).Nodup) (houtlived : EvictionsOutlived held outcomes)
    (hperm : order.Perm outcomes) : settleAll held order = settleAll held outcomes := by
  have hmem : ∀ other ∈ order, other ∈ outcomes := fun other => hperm.mem_iff.mp
  have hstill : (∀ other ∈ outcomes, confirms other ∨ evicts other →
      ¬ reachedBy held other.1.stamp) → settleAll held order = settleAll held outcomes := by
    intro h
    rw [settleAll_of_not_reached h,
      settleAll_of_not_reached fun other hother => h other (hmem other hother)]
  by_cases hputs : ∃ put ∈ outcomes, confirms put
  · obtain ⟨put, hputmem, hput, hmax⟩ := exists_latest hputs
    have hearlier : ∀ failed ∈ outcomes, evicts failed → reachedBy held failed.1.stamp →
        failed.1.stamp < put.1.stamp := by
      intro failed hfailed he hr
      obtain ⟨later, hlater, hc, hlt⟩ := houtlived failed hfailed he hr hputs
      exact Int.lt_of_lt_of_le hlt (hmax later hlater hc)
    by_cases hreach : reachedBy held put.1.stamp
    · have hlatest := latest_of_max hstamps hputmem hmax hreach hearlier
      have horder : Latest put order := fun other hother => hlatest other (hmem other hother)
      rw [settleAll_latest hput hlatest hputmem hreach,
        settleAll_latest hput horder (hperm.mem_iff.mpr hputmem) hreach]
    · -- Nothing that counts is later than this insert, so nothing reaches the entry.
      refine hstill fun other hother hcounts hr => hreach (reachedBy_mono hr ?_)
      rcases hcounts with hc | he
      · exact hmax other hother hc
      · exact Int.le_of_lt (hearlier other hother he hr)
  · have hnone : ∀ put ∈ outcomes, ¬ confirms put := fun put hin hc => hputs ⟨put, hin, hc⟩
    by_cases hevicted : ∃ failed ∈ outcomes, evicts failed ∧ reachedBy held failed.1.stamp
    · obtain ⟨failed, hfailed, he, hreach⟩ := hevicted
      rw [settleAll_of_evicts hnone hfailed he hreach,
        settleAll_of_evicts (fun put hin => hnone put (hmem put hin)) (hperm.mem_iff.mpr hfailed) he
          hreach]
    · refine hstill fun other hother hcounts hr => ?_
      rcases hcounts with hc | he
      · exact hnone other hother hc
      · exact hevicted ⟨other, hother, he, hr⟩

theorem settleAll_append (held : Option (Session M))
    (first second : List (SessionCallback M × Verdict)) :
    settleAll held (first ++ second) = settleAll (settleAll held first) second :=
  List.foldl_append

theorem exists_orders_of_not_outlived {held : Option (Session M)}
    {outcomes : List (SessionCallback M × Verdict)} (h : ¬ EvictionsOutlived held outcomes) :
    ∃ first second : List (SessionCallback M × Verdict), first.Perm outcomes ∧
      second.Perm outcomes ∧ settleAll held first = none ∧ settleAll held second ≠ none := by
  -- An eviction that is later than all inserts leaves no entry if it comes last, and does not count
  -- if it comes first.
  simp only [EvictionsOutlived, not_forall] at h
  obtain ⟨failed, hmem, hfailed, hreach, hputs, hnone⟩ := h
  have hlate : ∀ put ∈ outcomes, confirms put → put.1.stamp ≤ failed.1.stamp := by
    intro put hput hc
    by_contra hlt
    exact hnone ⟨put, hput, hc, Int.not_le.mp hlt⟩
  obtain ⟨put, hputmem, hput, hmax⟩ := exists_latest hputs
  obtain ⟨before, after, rfl⟩ := List.append_of_mem hmem
  have hne : put ≠ failed := by
    rintro rfl
    have := hput.1.symm.trans hfailed.1
    cases this
  have hothers : put ∈ before ++ after := by
    simpa [hne] using hputmem
  have hsub : ∀ outcome ∈ before ++ after, outcome ∈ before ++ failed :: after := by
    intro outcome hin
    rcases List.mem_append.mp hin with hin | hin
    · exact List.mem_append_left _ hin
    · exact List.mem_append_right _ (List.mem_cons_of_mem _ hin)
  obtain ⟨left, right, hsplit⟩ := List.append_of_mem hothers
  -- The eviction comes last in the one order. In the other it comes first, and the latest insert last.
  refine ⟨before ++ after ++ [failed], failed :: (left ++ right ++ [put]), ?_, ?_, ?_, ?_⟩
  · exact List.perm_append_singleton _ _ |>.trans List.perm_middle.symm
  · refine List.Perm.trans (List.Perm.cons failed ?_) List.perm_middle.symm
    rw [hsplit]
    exact List.perm_append_singleton _ _ |>.trans List.perm_middle.symm
  · have := reachedBy_settleAll (fun outcome hin hc => hlate outcome (hsub outcome hin) hc) hreach
    rw [settleAll_append, settleAll_cons, settleAll_nil, settle_of_evicts hfailed, if_pos this]
  · have hin : ∀ outcome ∈ left ++ right, outcome ∈ before ++ after := by
      intro outcome hin
      rw [hsplit]
      rcases List.mem_append.mp hin with hin | hin
      · exact List.mem_append_left _ hin
      · exact List.mem_append_right _ (List.mem_cons_of_mem _ hin)
    have : reachedBy (settleAll none (left ++ right)) put.1.stamp :=
      reachedBy_settleAll (fun outcome hmem hc => hmax outcome (hsub outcome (hin outcome hmem)) hc)
        (reachedBy_none _)
    rw [settleAll_cons, settle_of_evicts hfailed, if_pos hreach, settleAll_append, settleAll_cons,
      settleAll_nil, settle_of_confirms hput, if_pos this]
    simp

end Session

namespace Sessions

theorem session?_settleAll_eq [Record M] (cache : Sessions M) (id : MetricId)
    (outcomes : List (SessionCallback M × Verdict)) :
    (cache.settleAll outcomes).session? id = Session.settleAll (cache.session? id)
      (outcomes.filter fun outcome => Record.id outcome.1.record = id) := by
  induction outcomes generalizing cache with
  | nil => rfl
  | cons first rest ih =>
    have hrest := ih (cache.settle first.1 first.2)
    rw [session?_settle] at hrest
    refine hrest.trans ?_
    by_cases hid : Record.id first.1.record = id <;> simp [hid]

theorem session?_settleAll [Record M] (cache : Sessions M) {id : MetricId}
    {outcomes : List (SessionCallback M × Verdict)}
    (hid : ∀ outcome ∈ outcomes, Record.id outcome.1.record = id) :
    (cache.settleAll outcomes).session? id = Session.settleAll (cache.session? id) outcomes := by
  rw [session?_settleAll_eq, List.filter_eq_self.mpr fun outcome hmem => decide_eq_true (hid outcome hmem)]

/-- The outcomes of writes of one identity, each with a stamp of its own, come to the same entry in
every order exactly if no failed update that reaches the entry is later than all confirmed inserts. -/
theorem settle_order_irrelevant_iff [Record M] (cache : Sessions M) (id : MetricId)
    (outcomes : List (SessionCallback M × Verdict))
    (hid : ∀ outcome ∈ outcomes, Record.id outcome.1.record = id)
    (hstamps : (outcomes.map (·.1.stamp)).Nodup) :
    (∀ order : List (SessionCallback M × Verdict), order.Perm outcomes →
      (cache.settleAll order).session? id = (cache.settleAll outcomes).session? id) ↔
    Session.EvictionsOutlived (cache.session? id) outcomes := by
  have hentry : ∀ order : List (SessionCallback M × Verdict), order.Perm outcomes →
      (cache.settleAll order).session? id = Session.settleAll (cache.session? id) order :=
    fun order hperm => session?_settleAll cache fun outcome hmem =>
      hid outcome (hperm.mem_iff.mp hmem)
  constructor
  · intro hsame
    by_contra hout
    obtain ⟨first, second, hfirst, hsecond, hgone, hthere⟩ :=
      Session.exists_orders_of_not_outlived hout
    apply hthere
    rw [← hentry second hsecond, hsame second hsecond, ← hsame first hfirst, hentry first hfirst,
      hgone]
  · intro hout order hperm
    rw [hentry order hperm, hentry outcomes (List.Perm.refl _),
      Session.settleAll_perm hstamps hout hperm]

/-- A confirmed insert of stamp 5 outlives a failed update of stamp 3. -/
theorem settle_order_irrelevant_at_outlived :
    let id := MetricId.onFirstDay (.single "checkout")
    let insert : SessionCallback SumRecord × Verdict :=
      (⟨.insert, .new id 7, 5⟩, .executed)
    let update : SessionCallback SumRecord × Verdict := (⟨.update, .new id 4, 3⟩, .failed)
    ∀ order : List (SessionCallback SumRecord × Verdict), order.Perm [insert, update] →
      (empty.settleAll order).session? id = (empty.settleAll [insert, update]).session? id := by
  intro id insert update
  apply (settle_order_irrelevant_iff empty id [insert, update] (by simp [insert, update]; decide)
    (by decide)).mpr
  intro failed hmem hfailed _ _
  refine ⟨insert, List.mem_cons_self, ⟨rfl, rfl⟩, ?_⟩
  rcases List.mem_cons.mp hmem with rfl | hmem
  · exact absurd hfailed.1 (by decide)
  · rw [List.mem_singleton.mp hmem]
    decide

/-- Without an entry, a failed update later than a confirmed insert evicts what the insert has cached,
or comes too early to evict anything. -/
theorem settle_order_matters :
    ¬ ∀ (cache : Sessions SumRecord) (id : MetricId)
      (outcomes order : List (SessionCallback SumRecord × Verdict)),
      (∀ outcome ∈ outcomes, Record.id outcome.1.record = id) →
      (outcomes.map (·.1.stamp)).Nodup → order.Perm outcomes →
      (cache.settleAll order).session? id = (cache.settleAll outcomes).session? id := by
  intro h
  let id := MetricId.onFirstDay (.single "checkout")
  let insert : SessionCallback SumRecord × Verdict := (⟨.insert, .new id 7, 1⟩, .executed)
  let update : SessionCallback SumRecord × Verdict := (⟨.update, .new id 9, 2⟩, .failed)
  have hsame := h empty id [insert, update] [update, insert] (by simp [insert, update]; decide)
    (by decide) (List.Perm.swap _ _ _)
  rw [session?_settleAll _ (by simp [insert, update]; decide),
    session?_settleAll _ (by simp [insert, update]; decide), session?_empty] at hsame
  revert hsame
  decide

end Sessions

end Rollup
