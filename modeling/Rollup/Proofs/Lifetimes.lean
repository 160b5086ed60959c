import Mathlib.Data.List.Induction
import Mathlib.Data.Set.Card
import Rollup.Proofs.Building

/-!
# Lifetimes of sessions

How long an entry of the session cache lives, and what it holds meanwhile. While it lives it holds the
latest of the records with the greatest stamp that were put since it came into being, in whatever order
the stamps came. An eviction removes what is older than its timeout, to the millisecond.
-/

namespace Rollup

variable {M : Type}

/-- A time that is a timestamp, and not before the epoch. -/
def Timestamp.InRange (time : Int) : Prop := 0 ≤ time ∧ time ≤ greatest

/-! ## What may happen to a session cache -/

inductive SessionStep (M : Type) where
  | put (record : M) (now : Int)
  | settle (callback : SessionCallback M) (verdict : Verdict)
  | remove (id : MetricId)
  | removeIfNotNewer (id : MetricId) (stamp : Int)
  | evict (now : Int) (timeout : Duration)

namespace SessionStep

/-- The times that a step comes with. -/
def stamps : SessionStep M → List Int
  | put _ now => [now]
  | settle callback _ => [callback.stamp]
  | remove _ => []
  | removeIfNotNewer _ stamp => [stamp]
  | evict now _ => [now]

/-- The entry that a step puts, unless a later one is there. -/
def put? : SessionStep M → Option (Session M)
  | put record now => some ⟨record, now⟩
  | settle ⟨.insert, record, stamp⟩ .executed => some ⟨record, stamp⟩
  | _ => none

variable [Record M]

def run (step : SessionStep M) (cache : Sessions M) : Sessions M :=
  match step with
  | put record now => cache.put record now
  | settle callback verdict => cache.settle callback verdict
  | remove id => cache.remove id
  | removeIfNotNewer id stamp => cache.removeIfNotNewer id stamp
  | evict now timeout => cache.evict now timeout

/-- The entry that a step puts for an identity. -/
def putFor? (id : MetricId) (step : SessionStep M) : Option (Session M) :=
  step.put?.filter fun entry => Record.id entry.record = id

end SessionStep

variable [Record M]

namespace Sessions

def after (steps : List (SessionStep M)) (cache : Sessions M) : Sessions M :=
  steps.foldl (fun cache step => step.run cache) cache

/-- The entries that were put for an identity. -/
def putsFor (id : MetricId) (steps : List (SessionStep M)) : List (Session M) :=
  steps.filterMap (·.putFor? id)

theorem after_append (steps more : List (SessionStep M)) (cache : Sessions M) :
    after (steps ++ more) cache = after more (after steps cache) :=
  List.foldl_append

theorem after_snoc (steps : List (SessionStep M)) (step : SessionStep M) (cache : Sessions M) :
    after (steps ++ [step]) cache = step.run (after steps cache) :=
  after_append steps [step] cache

end Sessions

/-! ## One step -/

namespace SessionStep

variable {step : SessionStep M} {cache : Sessions M} {id : MetricId} {entry held held' : Session M}

theorem lastUpdate_mem_stamps (h : step.putFor? id = some entry) : entry.lastUpdate ∈ step.stamps := by
  have hput : step.put? = some entry := (Option.filter_eq_some_iff.mp h).1
  unfold put? at hput
  split at hput <;> cases hput <;> exact List.mem_singleton_self _

theorem session?_run_of_put (h : step.putFor? id = some entry) :
    (step.run cache).session? id =
      if Session.reachedBy (cache.session? id) entry.lastUpdate then some entry
      else cache.session? id := by
  obtain ⟨hput, hid⟩ := Option.filter_eq_some_iff.mp h
  have hid : Record.id entry.record = id := of_decide_eq_true hid
  subst hid
  unfold put? at hput
  split at hput <;> cases hput
  · simp [run, Sessions.session?_put]
  · simp [run, Sessions.session?_settle, Session.settle]

theorem session?_run_of_none (h : step.putFor? id = none) (cache : Sessions M) :
    (step.run cache).session? id = cache.session? id ∨ (step.run cache).session? id = none := by
  have hforeign : ∀ {entry : Session M}, step.put? = some entry → Record.id entry.record ≠ id := by
    intro entry hput heq
    rw [putFor?, hput, Option.filter_some, if_pos (decide_eq_true heq)] at h
    cases h
  cases step with
  | put record now =>
    refine .inl ((Sessions.session?_put cache record now id).trans (if_neg fun hput => ?_))
    exact hforeign rfl hput.1
  | settle callback verdict =>
    obtain ⟨kind, record, stamp⟩ := callback
    rw [run, Sessions.session?_settle]
    by_cases hid : Record.id record = id
    · rw [if_pos hid]
      cases kind <;> cases verdict
      case insert.executed => exact absurd hid (hforeign rfl)
      case update.failed => exact (ite_eq_or_eq _ none (cache.session? id)).symm
      all_goals exact .inl rfl
    · exact .inl (if_neg hid)
  | remove removed =>
    rw [run, Sessions.session?_remove]
    exact (ite_eq_or_eq _ none (cache.session? id)).symm
  | removeIfNotNewer removed stamp =>
    rw [run, Sessions.session?_removeIfNotNewer]
    exact (ite_eq_or_eq _ none (cache.session? id)).symm
  | evict now timeout =>
    rw [run]
    cases hheld : (cache.evict now timeout).session? id with
    | none => exact .inr rfl
    | some held => exact .inl (Sessions.session?_evict.mp hheld).1.symm

theorem lastUpdate_le_run (step : SessionStep M) (hheld : cache.session? id = some held)
    (hheld' : (step.run cache).session? id = some held') : held.lastUpdate ≤ held'.lastUpdate := by
  cases hput : step.putFor? id with
  | none =>
    have heq : cache.session? id = some held' := by
      rcases session?_run_of_none hput cache with hsame | hnone
      · rw [← hsame, hheld']
      · cases hnone.symm.trans hheld'
    cases hheld.symm.trans heq
    exact Int.le_refl _
  | some entry =>
    rw [session?_run_of_put hput, hheld] at hheld'
    split_ifs at hheld' with hreached
    · cases hheld'
      exact hreached held rfl
    · cases hheld'
      exact Int.le_refl _

end SessionStep

/-! ## Whole lives -/

/-- Of these entries it is the latest among those with the greatest stamp. -/
def Session.Prevails (held : Session M) (entries : List (Session M)) : Prop :=
  ∃ earlier later, entries = earlier ++ held :: later ∧
    (∀ entry ∈ earlier, entry.lastUpdate ≤ held.lastUpdate) ∧
    ∀ entry ∈ later, entry.lastUpdate < held.lastUpdate

namespace Session

variable {held entry : Session M} {entries : List (Session M)}

omit [Record M] in
theorem Prevails.lastUpdate_le (h : held.Prevails entries) (hmem : entry ∈ entries) :
    entry.lastUpdate ≤ held.lastUpdate := by
  obtain ⟨earlier, later, rfl, hearlier, hlater⟩ := h
  rcases List.mem_append.mp hmem with hmem | hmem
  · exact hearlier entry hmem
  · rcases List.mem_cons.mp hmem with rfl | hmem
    · exact Int.le_refl _
    · exact Int.le_of_lt (hlater entry hmem)

omit [Record M] in
theorem Prevails.put (h : held.Prevails entries) (entry : Session M) :
    (if held.lastUpdate ≤ entry.lastUpdate then entry else held).Prevails (entries ++ [entry]) := by
  split_ifs with hle
  · exact ⟨entries, [], rfl, fun other hother => (h.lastUpdate_le hother).trans hle, nofun⟩
  · obtain ⟨earlier, later, rfl, hearlier, hlater⟩ := h
    refine ⟨earlier, later ++ [entry], by simp, hearlier, fun other hother => ?_⟩
    rcases List.mem_append.mp hother with hother | hother
    · exact hlater other hother
    · rw [List.mem_singleton.mp hother]
      exact Int.not_le.mp hle

end Session

/-- The entry of an identity came into being with the step `first`, when nothing was cached, and it has
lived since. -/
structure Lifetime (id : MetricId) (held : Session M) (before : List (SessionStep M))
    (first : SessionStep M) (since : List (SessionStep M)) : Prop where
  absent : (Sessions.after before .empty).session? id = none
  present : ∀ during, during <+: since →
    ((Sessions.after (before ++ first :: during) .empty).session? id).isSome = true
  prevails : held.Prevails (Sessions.putsFor id (first :: since))

variable {id : MetricId} {held : Session M} {before since steps : List (SessionStep M)}
  {first step : SessionStep M}

theorem Lifetime.begin (habsent : (Sessions.after before .empty).session? id = none)
    (hheld : (Sessions.after (before ++ [first]) .empty).session? id = some held) :
    Lifetime id held before first [] := by
  have hrun : (first.run (Sessions.after before .empty)).session? id = some held := by
    rw [← Sessions.after_snoc]
    exact hheld
  refine ⟨habsent, fun during hduring => ?_, ?_⟩
  · rw [List.prefix_nil.mp hduring, hheld]
    rfl
  · have hput : first.putFor? id = some held := by
      cases hput : first.putFor? id with
      | none =>
        rcases SessionStep.session?_run_of_none hput (Sessions.after before .empty) with
          hsame | hnone
        · cases (hsame.trans habsent).symm.trans hrun
        · cases hnone.symm.trans hrun
      | some entry =>
        rw [SessionStep.session?_run_of_put hput, habsent, if_pos (Session.reachedBy_none _)] at hrun
        exact hrun
    exact ⟨[], [], by rw [Sessions.putsFor, List.filterMap_cons_some hput]; rfl, nofun, nofun⟩

theorem Lifetime.snoc {held' : Session M} (h : Lifetime id held before first since)
    (hheld : (Sessions.after (before ++ first :: since) .empty).session? id = some held)
    (hheld' : (Sessions.after (before ++ first :: (since ++ [step])) .empty).session? id =
      some held') : Lifetime id held' before first (since ++ [step]) := by
  have hrun : (step.run (Sessions.after (before ++ first :: since) .empty)).session? id =
      some held' := by
    rw [← Sessions.after_snoc, List.append_assoc]
    exact hheld'
  refine ⟨h.absent, fun during hduring => ?_, ?_⟩
  · rcases List.prefix_concat_iff.mp hduring with rfl | hduring
    · rw [hheld']
      rfl
    · exact h.present during hduring
  · rw [← List.cons_append, Sessions.putsFor, List.filterMap_append]
    cases hput : step.putFor? id with
    | none =>
      rw [List.filterMap_cons_none hput, List.filterMap_nil, List.append_nil]
      rcases SessionStep.session?_run_of_none hput
        (Sessions.after (before ++ first :: since) .empty) with hsame | hnone
      · cases (hsame.trans hheld).symm.trans hrun
        exact h.prevails
      · cases hnone.symm.trans hrun
    | some entry =>
      rw [List.filterMap_cons_some hput, List.filterMap_nil]
      have hprevails := h.prevails.put entry
      rw [SessionStep.session?_run_of_put hput, hheld] at hrun
      simp only [Session.reachedBy_some] at hrun
      split_ifs at hrun hprevails <;> cases hrun <;> exact hprevails

theorem exists_lifetime (h : (Sessions.after steps .empty).session? id = some held) :
    ∃ before first since, steps = before ++ first :: since ∧
      Lifetime id held before first since := by
  -- The last step has either found nothing, and the life begins, or an entry with a life so far.
  induction steps using List.reverseRecOn generalizing held with
  | nil => cases (Sessions.session?_empty id).symm.trans h
  | append_singleton steps step ih =>
    cases hbefore : (Sessions.after steps .empty).session? id with
    | none => exact ⟨steps, step, [], rfl, .begin hbefore h⟩
    | some earlier =>
      obtain ⟨before, first, since, rfl, hlife⟩ := ih hbefore
      rw [List.append_assoc, List.cons_append] at h ⊢
      exact ⟨before, first, since ++ [step], rfl, hlife.snoc hbefore h⟩

theorem Lifetime.lastUpdate_le (h : Lifetime id held before first since)
    {during later : List (SessionStep M)} (hduring : during <+: later) (hlater : later <+: since)
    {entry entry' : Session M}
    (hentry : (Sessions.after (before ++ first :: during) .empty).session? id = some entry)
    (hentry' : (Sessions.after (before ++ first :: later) .empty).session? id = some entry') :
    entry.lastUpdate ≤ entry'.lastUpdate := by
  obtain ⟨more, rfl⟩ := hduring
  induction more using List.reverseRecOn generalizing entry' with
  | nil =>
    rw [List.append_nil] at hentry'
    cases hentry.symm.trans hentry'
    exact Int.le_refl _
  | append_singleton more step ih =>
    rw [← List.append_assoc] at hlater hentry'
    have hbetween : during ++ more <+: since := (List.prefix_append _ _).trans hlater
    obtain ⟨between, hheld⟩ := Option.isSome_iff_exists.mp (h.present _ hbetween)
    refine (ih hbetween hheld).trans (step.lastUpdate_le_run hheld ?_)
    rw [← Sessions.after_snoc, List.append_assoc]
    exact hentry'

/-! ## Ages -/

namespace Sessions

variable {cache : Sessions M} {now : Int} {timeout : Duration} {holds : Int → Prop}

/-- At `now` the entry of an identity has not been touched for longer than `timeout`. -/
def Outlived (cache : Sessions M) (now : Int) (timeout : Duration) (id : MetricId) : Prop :=
  ∃ held, cache.session? id = some held ∧ timeout.millis < now - held.lastUpdate

theorem lastUpdate_of_after (hsteps : ∀ step ∈ steps, ∀ stamp ∈ step.stamps, holds stamp)
    (hheld : (after steps .empty).session? id = some held) : holds held.lastUpdate := by
  obtain ⟨before, first, since, rfl, hlife⟩ := exists_lifetime hheld
  obtain ⟨earlier, later, hputs, -, -⟩ := hlife.prevails
  have hmem : held ∈ putsFor id (first :: since) := by simp [hputs]
  obtain ⟨step, hstep, hput⟩ := List.mem_filterMap.mp hmem
  exact hsteps step (List.mem_append_right _ hstep) _ (SessionStep.lastUpdate_mem_stamps hput)

theorem isFresh_iff {touched : Int} (hnow : Timestamp.InRange now)
    (htouched : Timestamp.InRange touched) :
    isFresh now touched timeout = true ↔ now - touched ≤ timeout.millis := by
  unfold Timestamp.InRange Timestamp.greatest at *
  unfold isFresh Timestamp.minus Timestamp.ofDuration Timestamp.least Timestamp.greatest
  rw [decide_eq_true_eq]
  omega

omit [Record M] in
theorem mem_toList {entry : MetricId × Session M} :
    entry ∈ cache.entries.toList ↔ cache.session? entry.1 = some entry.2 :=
  Std.ExtTreeMap.mem_toList_iff_getElem?_eq_some

omit [Record M] in
theorem evicted_eq (cache : Sessions M) (now : Int) (timeout : Duration) :
    cache.evicted now timeout = {id | ∃ held, cache.session? id = some held ∧
      isFresh now held.lastUpdate timeout = false}.ncard := by
  -- Counted in the list of entries, in which no identity comes twice.
  let stale := cache.entries.toList.filter fun entry => !isFresh now entry.2.lastUpdate timeout
  have hcount : cache.evicted now timeout = stale.length := by
    have hsplit := List.length_eq_length_filter_add (l := cache.entries.toList)
      fun entry => isFresh now entry.2.lastUpdate timeout
    rw [evicted, size, size, evict, ← Std.ExtTreeMap.length_toList, ← Std.ExtTreeMap.length_toList,
      Std.ExtTreeMap.toList_filter, hsplit]
    exact Nat.add_sub_cancel_left _ _
  have hdistinct : (stale.map (·.1)).Nodup := by
    refine List.Nodup.sublist (List.filter_sublist.map _) ?_
    have hkeys := cache.entries.nodup_keys
    rwa [← Std.ExtTreeMap.map_fst_toList_eq_keys] at hkeys
  have hset : {id | ∃ held, cache.session? id = some held ∧
      isFresh now held.lastUpdate timeout = false} = ((stale.map (·.1)).toFinset : Set MetricId) := by
    ext id
    simp [stale, mem_toList]
  rw [hcount, hset, Set.ncard_coe_finset, List.toFinset_card_of_nodup hdistinct, List.length_map]

/-- What an eviction does to a cache. -/
structure EvictsExactly (cache : Sessions M) (now : Int) (timeout : Duration) : Prop where
  removed : ∀ id, cache.Outlived now timeout id → (cache.evict now timeout).session? id = none
  left : ∀ id, ¬ cache.Outlived now timeout id →
    (cache.evict now timeout).session? id = cache.session? id
  number : cache.evicted now timeout = {id | cache.Outlived now timeout id}.ncard

omit [Record M] in
theorem evictsExactly (hnow : Timestamp.InRange now)
    (hcache : ∀ id held, cache.session? id = some held → Timestamp.InRange held.lastUpdate)
    (timeout : Duration) : cache.EvictsExactly now timeout := by
  have hfresh : ∀ {id : MetricId} {held : Session M}, cache.session? id = some held →
      (isFresh now held.lastUpdate timeout = true ↔ now - held.lastUpdate ≤ timeout.millis) :=
    fun hheld => isFresh_iff hnow (hcache _ _ hheld)
  constructor
  · rintro id ⟨held, hheld, hold⟩
    rw [Option.eq_none_iff_forall_ne_some]
    intro kept hkept
    obtain ⟨hheld', hkept⟩ := session?_evict.mp hkept
    cases hheld.symm.trans hheld'
    exact absurd ((hfresh hheld).mp hkept) (Int.not_le.mpr hold)
  · intro id hyoung
    cases hheld : cache.session? id with
    | none =>
      rw [Option.eq_none_iff_forall_ne_some]
      intro kept hkept
      cases hheld.symm.trans (session?_evict.mp hkept).1
    | some held =>
      have hage : now - held.lastUpdate ≤ timeout.millis :=
        Int.not_lt.mp fun hold => hyoung ⟨held, hheld, hold⟩
      exact session?_evict.mpr ⟨hheld, (hfresh hheld).mpr hage⟩
  · rw [evicted_eq]
    congr 1
    ext id
    refine exists_congr fun held => and_congr_right fun hheld => ?_
    rw [← Bool.not_eq_true, hfresh hheld, Int.not_le]

end Sessions

end Rollup
