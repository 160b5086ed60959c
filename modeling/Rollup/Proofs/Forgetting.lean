import Rollup.Proofs.Abreast
import Rollup.Proofs.PersisterStates

/-!
# Forgotten entries

An entry whose row is old enough to be gone is as good as none: a persister that still has it prepares
the same writes, and makes the same calls, as one that has forgotten it. Such an entry is looked up
before anything else is done for its identity, and goes. That it is old enough stays true as the clock
goes on.
-/

namespace Rollup

open Rollup.Action

namespace Retention

theorem cutoff_mono {now later day : Int} {ttlDays : Nat} (h : cutoff now ttlDays = .ok day)
    (hle : now ≤ later) : ∃ day', cutoff later ttlDays = .ok day' ∧ day ≤ day' := by
  unfold cutoff at *
  have hlimit : Timestamp.minus now (ttlDays * dayMillis) ≤
      Timestamp.minus later (ttlDays * dayMillis) := by
    unfold Timestamp.minus
    omega
  generalize Timestamp.minus now (ttlDays * dayMillis) = limit at *
  generalize Timestamp.minus later (ttlDays * dayMillis) = limit' at *
  have hday : limit - limit % dayMillis ≤ limit' - limit' % dayMillis := by
    unfold dayMillis
    omega
  dsimp only at h
  split_ifs at h with hleast
  cases h
  exact ⟨_, if_pos (Int.le_trans hleast hday), hday⟩

theorem isExpired_mono {bucket : TimeBucket} {now later : Int} {ttlDays : Nat}
    (h : isExpired bucket now ttlDays = .ok true) (hle : now ≤ later) :
    isExpired bucket later ttlDays = .ok true := by
  unfold isExpired at *
  obtain ⟨day, hday, h⟩ := bind_eq_ok_iff.mp h
  obtain ⟨finish, hfinish, h⟩ := bind_eq_ok_iff.mp h
  obtain ⟨day', hday', hle'⟩ := cutoff_mono hday hle
  have hexpired : finish ≤ day := of_decide_eq_true (Except.ok.inj h)
  rw [hday', hfinish]
  exact congrArg Except.ok (decide_eq_true (Int.le_trans hexpired hle'))

end Retention

variable {σ M : Type} [Record M]

/-! ## Entries -/

/-- An entry whose row may have been deleted by this time. -/
structure Session.Lapsed (ttlDays : Nat) (now : Int) (id : MetricId) (held : Session M) : Prop where
  keyed : Record.id held.record = id
  touched : held.lastUpdate ≤ now
  expired : Retention.isExpired id.bucket now ttlDays = .ok true

theorem Session.Lapsed.mono {ttlDays : Nat} {now later : Int} {id : MetricId} {held : Session M}
    (h : held.Lapsed ttlDays now id) (hle : now ≤ later) : held.Lapsed ttlDays later id :=
  ⟨h.keyed, Int.le_trans h.touched hle, Retention.isExpired_mono h.expired hle⟩

namespace Sessions

/-- The same entries, but for some that have lapsed. -/
def Forgets (ttlDays : Nat) (now : Int) (sessions fewer : Sessions M) : Prop :=
  ∀ id, fewer.session? id = sessions.session? id ∨
    fewer.session? id = none ∧ ∃ held, sessions.session? id = some held ∧ held.Lapsed ttlDays now id

variable {ttlDays : Nat} {now later : Int} {sessions fewer : Sessions M}

theorem Forgets.refl (sessions : Sessions M) : Forgets ttlDays now sessions sessions :=
  fun _ => Or.inl rfl

theorem Forgets.mono (h : Forgets ttlDays now sessions fewer) (hle : now ≤ later) :
    Forgets ttlDays later sessions fewer := by
  intro id
  refine (h id).imp_right fun ⟨hnone, held, hheld, hlapsed⟩ => ?_
  exact ⟨hnone, held, hheld, hlapsed.mono hle⟩

theorem Forgets.remove (h : Forgets ttlDays now sessions fewer) (id : MetricId) :
    Forgets ttlDays now (sessions.remove id) (fewer.remove id) := by
  intro other
  rw [session?_remove, session?_remove]
  split_ifs
  · exact Or.inl rfl
  · exact h other

theorem Forgets.catchUp (h : Forgets ttlDays now sessions fewer) {id : MetricId}
    (hnone : fewer.session? id = none) : Forgets ttlDays now (sessions.remove id) fewer := by
  intro other
  rw [session?_remove]
  split_ifs with hid
  · exact Or.inl (hid ▸ hnone)
  · exact h other

theorem Forgets.evict (h : Forgets ttlDays now sessions fewer) (moment : Int) (timeout : Duration) :
    Forgets ttlDays now (sessions.evict moment timeout) (fewer.evict moment timeout) := by
  have hevict : ∀ (cache : Sessions M) (id : MetricId), (cache.evict moment timeout).session? id =
      (cache.session? id).filter fun held => isFresh moment held.lastUpdate timeout := by
    intro cache id
    ext held
    rw [session?_evict, Option.filter_eq_some_iff]
  intro id
  rw [hevict, hevict]
  rcases h id with hsame | ⟨hnone, held, hheld, hlapsed⟩
  · exact Or.inl (congrArg _ hsame)
  · rw [hnone, hheld, Option.filter_some]
    split_ifs
    · exact Or.inr ⟨rfl, held, rfl, hlapsed⟩
    · exact Or.inl rfl

/-- A write settles the same entry, or one that lapsed and was not touched since. -/
theorem Forgets.settle (h : Forgets ttlDays now sessions fewer) {callback : SessionCallback M}
    (hstamp : callback.stamp = now) (verdict : Verdict) :
    Forgets ttlDays now (sessions.settle callback verdict) (fewer.settle callback verdict) := by
  intro id
  rw [session?_settle, session?_settle]
  split_ifs with hid
  · rcases h id with hsame | ⟨hnone, held, hheld, hlapsed⟩
    · exact Or.inl (congrArg (Session.settle · callback verdict) hsame)
    · have hreached : Session.reachedBy (some held) callback.stamp := by
        rw [Session.reachedBy_some, hstamp]
        exact hlapsed.touched
      rw [hnone, hheld]
      unfold Session.settle
      split
      · exact Or.inl (by rw [if_pos (Session.reachedBy_none _), if_pos hreached])
      · exact Or.inl (by rw [if_pos (Session.reachedBy_none _), if_pos hreached])
      · exact Or.inr ⟨rfl, held, rfl, hlapsed⟩
  · exact h id

theorem Forgets.settleAll {told : List (SessionCallback M × Verdict)}
    (hstamps : ∀ outcome ∈ told, outcome.1.stamp = now) (h : Forgets ttlDays now sessions fewer) :
    Forgets ttlDays now (sessions.settleAll told) (fewer.settleAll told) := by
  induction told generalizing sessions fewer with
  | nil => exact h
  | cons first rest ih =>
    refine ih (fun outcome houtcome => hstamps outcome (List.mem_cons_of_mem _ houtcome)) ?_
    exact h.settle (hstamps first List.mem_cons_self) first.2

theorem Forgets.put (h : Forgets ttlDays now sessions fewer) (record : M) :
    Forgets ttlDays now (sessions.put record now) (fewer.put record now) := by
  -- To cache a record is to settle its insert.
  let callback : SessionCallback M := ⟨.insert, record, now⟩
  have hstamp : callback.stamp = now := rfl
  exact h.settle hstamp .executed

theorem session?_put_congr {id : MetricId} (h : fewer.session? id = sessions.session? id)
    (record : M) (now : Int) :
    (fewer.put record now).session? id = (sessions.put record now).session? id := by
  let callback : SessionCallback M := ⟨.insert, record, now⟩
  show (fewer.settle callback .executed).session? id =
    (sessions.settle callback .executed).session? id
  rw [session?_settle, session?_settle, h]

end Sessions

/-! ## A round that is being prepared -/

namespace Preparation

section

variable (round : Preparation σ M) (sessions : Sessions M) (outside : σ)

omit [Record M]

@[simp]
theorem leaving_sessions : (round.leaving sessions outside).persister.sessions = sessions := rfl

@[simp]
theorem leaving_model : (round.leaving sessions outside).persister.model = round.persister.model := rfl

@[simp]
theorem leaving_settings :
    (round.leaving sessions outside).persister.settings = round.persister.settings := rfl

end

end Preparation

/-- Rows of this model are checked for their age. -/
structure Model.Ages (model : Model) : Prop where
  absolute : model.timeRelativeId = false
  updated : model.supportUpdate = true

namespace Preparation

/-- The same round, but for entries that have lapsed, and none of these identities. -/
structure Shadows (now : Int) (known : List MetricId) (round shadow : Preparation σ M) : Prop where
  same : ∃ sessions, shadow = round.leaving sessions round.outside
  ages : round.persister.model.Ages
  forgets : round.persister.sessions.Forgets round.persister.settings.ttlDays now
    shadow.persister.sessions
  known : ∀ id ∈ known,
    shadow.persister.sessions.session? id = round.persister.sessions.session? id
  stamped : ∀ write ∈ round.writes, ∀ callback ∈ write.callback, callback.stamp = now

variable {env : Surroundings σ M} {now : Int} {known : List MetricId}
  {round shadow : Preparation σ M}

theorem Shadows.forgetAll (h : Shadows now known round shadow) : Shadows now [] round shadow :=
  ⟨h.same, h.ages, h.forgets, by simp, h.stamped⟩

theorem Shadows.change (h : Shadows now known round shadow) {sessions fewer : Sessions M}
    {more : List MetricId}
    (hforgets : sessions.Forgets round.persister.settings.ttlDays now fewer)
    (hknown : ∀ id ∈ more, fewer.session? id = sessions.session? id) :
    Shadows now more (round.leaving sessions round.outside) (shadow.leaving fewer shadow.outside) := by
  obtain ⟨_, rfl⟩ := h.same
  exact ⟨⟨fewer, rfl⟩, h.ages, hforgets, hknown, h.stamped⟩

theorem Shadows.put (h : Shadows now known round shadow) (record : M) :
    Shadows now known (round.leaving (round.persister.sessions.put record now) round.outside)
      (shadow.leaving (shadow.persister.sessions.put record now) shadow.outside) :=
  h.change (h.forgets.put record) fun id hid => Sessions.session?_put_congr (h.known id hid) record now

theorem Shadows.putAll (records : List M) (h : Shadows now known round shadow) :
    Shadows now known
      (round.leaving (records.foldl (·.put · now) round.persister.sessions) round.outside)
      (shadow.leaving (records.foldl (·.put · now) shadow.persister.sessions) shadow.outside) := by
  induction records generalizing round shadow with
  | nil => exact h
  | cons first rest ih => exact ih (h.put first)

theorem Shadows.calling (h : Shadows now known round shadow) {α : Type} (call : Action σ α) :
    Abreast (calling call) round (calling call) shadow (fun _ => Shadows now known)
      (Shadows now []) := by
  obtain ⟨sessions, rfl⟩ := h.same
  have hrun : ∀ sessions : Sessions M,
      (Preparation.calling call).run.run (round.leaving sessions round.outside) =
        ((call.run.run round.outside : Except Fault α × σ).1,
          round.leaving sessions (call.run.run round.outside : Except Fault α × σ).2) := fun _ => rfl
  unfold Abreast
  have hround : (Preparation.calling call).run.run round = _ := hrun round.persister.sessions
  rw [hrun, hround]
  rcases (call.run.run round.outside : Except Fault α × σ) with ⟨fault | answer, outside⟩
  · exact ⟨rfl, ⟨sessions, rfl⟩, h.ages, h.forgets, by simp, h.stamped⟩
  · exact ⟨rfl, ⟨sessions, rfl⟩, h.ages, h.forgets, h.known, h.stamped⟩

section

variable {α : Type} {call : Action (Preparation σ M) α} {change : Sessions M → Sessions M}
  {next : Unit → Action (Preparation σ M) α} {done : α → Preparation σ M → Preparation σ M → Prop}
  {broken : Preparation σ M → Preparation σ M → Prop}

omit [Record M] in
@[simp]
theorem abreast_changeSessions_left :
    Abreast (changeSessions change >>= next) round call shadow done broken ↔
      Abreast (next ()) (round.leaving (change round.persister.sessions) round.outside) call shadow
        done broken := Iff.rfl

omit [Record M] in
@[simp]
theorem abreast_changeSessions_right :
    Abreast call round (changeSessions change >>= next) shadow done broken ↔
      Abreast call round (next ()) (shadow.leaving (change shadow.persister.sessions) shadow.outside)
        done broken := Iff.rfl

end

/-! ## Loading -/

theorem Shadows.know (h : Shadows now known round shadow) {id : MetricId}
    (hsame : shadow.persister.sessions.session? id = round.persister.sessions.session? id) :
    Shadows now (known ++ [id]) round shadow := by
  refine ⟨h.same, h.ages, h.forgets, fun other hother => ?_, h.stamped⟩
  rcases List.mem_append.mp hother with hother | hother
  · exact h.known other hother
  · rwa [List.mem_singleton.mp hother]

theorem Shadows.isMissing (h : Shadows now known round shadow) (id : MetricId) :
    Abreast (isMissing now id) round (Preparation.isMissing now id) shadow
      (fun _ => Shadows now (known ++ [id])) (Shadows now []) := by
  obtain ⟨fewer, rfl⟩ := h.same
  have hforgets : round.persister.sessions.Forgets round.persister.settings.ttlDays now fewer :=
    h.forgets
  have hknown : ∀ other ∈ known,
      fewer.session? other = round.persister.sessions.session? other := h.known
  have hages :
      (round.persister.model.timeRelativeId || !round.persister.model.supportUpdate) = false := by
    rw [h.ages.absolute, h.ages.updated]
    rfl
  unfold Preparation.isMissing
  rw [abreast_get_left, abreast_get_right]
  rcases hforgets id with hsame | ⟨hnone, held, hheld, hlapsed⟩
  · cases hheld : round.persister.sessions.session? id with
    | none =>
      simp only [leaving_sessions, Sessions.get?_eq_none_iff.mpr hheld,
        Sessions.get?_eq_none_iff.mpr (hsame.trans hheld), abreast_pure]
      exact h.know hsame
    | some held =>
      simp only [leaving_sessions, leaving_model, leaving_settings, hages, Bool.false_eq_true, if_false,
        Sessions.get?_eq_some_iff.mpr ⟨held, hheld, rfl⟩,
        Sessions.get?_eq_some_iff.mpr ⟨held, hsame.trans hheld, rfl⟩]
      rcases Retention.isExpired (Record.id held.record).bucket now
          round.persister.settings.ttlDays with fault | _ | _
      · exact (abreast_error fault).mpr h.forgetAll
      · exact (abreast_pure false).mpr (h.know hsame)
      · simp only [abreast_ok_left, abreast_ok_right, if_true, abreast_changeSessions_left,
          abreast_changeSessions_right, abreast_pure]
        refine (h.change (hforgets.remove id) fun other hother => ?_).know ?_
        · rw [Sessions.session?_remove, Sessions.session?_remove, hknown other hother]
        · rw [leaving_sessions, leaving_sessions, Sessions.session?_remove,
            Sessions.session?_remove, hsame]
  · -- What lapsed goes as soon as it is looked up, and is missing for both.
    have hexpired := hlapsed.expired
    rw [← hlapsed.keyed] at hexpired
    simp only [leaving_sessions, Sessions.get?_eq_some_iff.mpr ⟨held, hheld, rfl⟩,
      Sessions.get?_eq_none_iff.mpr hnone, hages, Bool.false_eq_true, if_false, hexpired, if_true,
      abreast_ok_left, abreast_changeSessions_left, abreast_pure]
    refine (h.change (hforgets.catchUp hnone) fun other hother => ?_).know ?_
    · rw [Sessions.session?_remove]
      split_ifs with hid
      · exact hid ▸ hnone
      · exact hknown other hother
    · rw [leaving_sessions, leaving_sessions, Sessions.session?_remove, if_pos rfl, hnone]

theorem Shadows.loadMissing (h : Shadows now [] round shadow) (batch : List M) :
    Abreast (loadMissing env now batch) round (Preparation.loadMissing env now batch) shadow
      (fun _ => Shadows now (batch.map Record.id)) (Shadows now []) := by
  unfold Preparation.loadMissing
  refine (Abreast.filterM (fun seen => Shadows now seen) h fun seen id _ _ h => ?_).bind
    fun missing _ _ h => ?_
  · exact h.isMissing id
  · split_ifs
    · exact (abreast_pure _).mpr h
    · obtain ⟨fewer, rfl⟩ := h.same
      rw [abreast_get_left, abreast_get_right, leaving_model]
      refine (h.calling _).bind ?_
      rintro (error | loaded) _ _ h
      · exact (abreast_pure _).mpr h
      · simp only [abreast_changeSessions_left, abreast_changeSessions_right, abreast_pure]
        exact h.putAll loaded

/-! ## Preparing -/

theorem Shadows.push (h : Shadows now known round shadow) (kind : RequestKind) (model : Model)
    (whole : M) : Shadows now known
      { round with writes := round.writes ++ [.of kind model whole now] }
      { shadow with writes := shadow.writes ++ [.of kind model whole now] } := by
  obtain ⟨fewer, rfl⟩ := h.same
  refine ⟨⟨fewer, rfl⟩, h.ages, h.forgets, h.known, fun write hwrite callback hcallback => ?_⟩
  rcases List.mem_append.mp hwrite with hwrite | hwrite
  · exact h.stamped write hwrite callback hcallback
  · obtain rfl := List.mem_singleton.mp hwrite
    cases hcallback
    rfl

theorem Shadows.prepareWrite (h : Shadows now known round shadow) (kind : RequestKind) (whole : M) :
    Abreast (prepareWrite env now kind whole) round (Preparation.prepareWrite env now kind whole) shadow
      (fun _ => Shadows now known) (Shadows now []) := by
  obtain ⟨fewer, rfl⟩ := h.same
  unfold Preparation.prepareWrite
  rw [abreast_get_left, abreast_get_right, leaving_model]
  refine (h.calling _).bind ?_
  rintro (error | _) _ _ h
  · exact (abreast_pure _).mpr h
  · refine ((h.push kind round.persister.model whole).calling _).bind fun _ _ _ h => ?_
    exact (abreast_pure _).mpr h

theorem Shadows.prepareRecord (h : Shadows now known round shadow) {drained : M}
    (hdrained : Record.id drained ∈ known) :
    Abreast (prepareRecord env now drained) round (Preparation.prepareRecord env now drained) shadow
      (fun _ => Shadows now known) (Shadows now []) := by
  obtain ⟨fewer, rfl⟩ := h.same
  have hsame : fewer.session? (Record.id drained) =
    round.persister.sessions.session? (Record.id drained) := h.known _ hdrained
  unfold Preparation.prepareRecord
  rw [abreast_get_left, abreast_get_right]
  have hget : fewer.get? (Record.id drained) = round.persister.sessions.get? (Record.id drained) := by
    rw [Sessions.get?, Sessions.get?, hsame]
  simp only [leaving_sessions, leaving_model, hget]
  cases round.persister.sessions.get? (Record.id drained) with
  | none =>
    rcases Record.calculate drained with fault | whole
    · exact (abreast_error fault).mpr h.forgetAll
    · refine (h.prepareWrite .insert whole).bind fun _ _ _ h => ?_
      exact (abreast_pure _).mpr h
  | some cached =>
    rcases hrefuses : !round.persister.model.supportUpdate ||
      !(Record.combine cached drained).1 with _ | _
    · simp only [hrefuses, Bool.false_eq_true, if_false]
      rcases Record.calculate (Record.combine cached drained).2 with fault | whole
      · exact (abreast_error fault).mpr h.forgetAll
      · refine (h.prepareWrite .update whole).bind ?_
        rintro (error | _) _ _ h
        · exact (abreast_pure _).mpr h
        · simp only [abreast_changeSessions_left, abreast_changeSessions_right, abreast_pure]
          exact h.put whole
    · simp only [hrefuses, if_true, abreast_pure]
      exact h

theorem Shadows.prepareRecords (failed : Bool) {batch : List M}
    (hbatch : ∀ record ∈ batch, Record.id record ∈ known) (h : Shadows now known round shadow) :
    Abreast (prepareRecords env now failed batch) round
      (Preparation.prepareRecords env now failed batch) shadow
      (fun _ => Shadows now []) (Shadows now []) := by
  induction batch generalizing failed round shadow with
  | nil => exact (abreast_pure ()).mpr h.forgetAll
  | cons drained rest ih =>
    let onward (failed : Bool) : Action (Preparation σ M) Unit := do
      Preparation.calling (env.forward drained)
      Preparation.prepareRecords env now failed rest
    have hrest : ∀ (failed : Bool) (round shadow : Preparation σ M), Shadows now known round shadow →
        Abreast (onward failed) round (onward failed) shadow (fun _ => Shadows now [])
          (Shadows now []) :=
      fun failed _ _ h => (h.calling _).bind fun _ _ _ h =>
        ih failed (fun record hrecord => hbatch record (List.mem_cons_of_mem _ hrecord)) h
    cases failed with
    | true => exact hrest true round shadow h
    | false =>
      rw [Preparation.prepareRecords]
      refine (h.prepareRecord (hbatch drained List.mem_cons_self)).bind ?_
      rintro (_ | _ | _) t t' h
      · exact hrest true t t' h
      · exact hrest false t t' h
      · exact (h.calling _).bind fun _ t t' h => hrest false t t' h

theorem Shadows.prepareBatch (h : Shadows now [] round shadow) (batch : List M) :
    Abreast (prepareBatch env now batch) round (Preparation.prepareBatch env now batch) shadow
      (fun _ => Shadows now []) (Shadows now []) := by
  have hbatch : ∀ record ∈ batch, Record.id record ∈ batch.map Record.id :=
    fun _ => List.mem_map_of_mem
  unfold Preparation.prepareBatch
  refine (h.loadMissing batch).bind ?_
  rintro (_ | _) t t' h
  · exact h.prepareRecords true hbatch
  · exact h.prepareRecords false hbatch

theorem Shadows.prepareBatches (h : Shadows now [] round shadow) (env : Surroundings σ M)
    (batches : List (List M)) :
    Abreast (batches.forM (Preparation.prepareBatch env now)) round
      (batches.forM (Preparation.prepareBatch env now)) shadow
      (fun _ => Shadows now []) (Shadows now []) :=
  .forM (Shadows now []) h fun batch _ _ _ h => h.prepareBatch batch

end Preparation

/-! ## A whole round -/

namespace Persister

/-- The same persister in the same surroundings, but for entries that have lapsed. -/
structure Forgot (now : Int) (state shade : Persister M × σ) : Prop where
  same : ∃ sessions, shade = ({ state.1 with sessions }, state.2)
  ages : state.1.model.Ages
  forgets : state.1.sessions.Forgets state.1.settings.ttlDays now shade.1.sessions

variable {env : Surroundings σ M} {now : Int} {state shade : Persister M × σ}

theorem abandon_forgot {round shadow : Preparation σ M}
    (h : Preparation.Shadows now [] round shadow) :
    Forgot now ((round.persister.abandon round.writes).endDrain, round.outside)
      ((shadow.persister.abandon shadow.writes).endDrain, shadow.outside) := by
  obtain ⟨fewer, rfl⟩ := h.same
  rw [abandon_eq, abandon_eq]
  refine ⟨⟨_, rfl⟩, h.ages, h.forgets.settleAll fun outcome houtcome => ?_⟩
  obtain ⟨write, hwrite, htold⟩ := List.mem_filterMap.mp houtcome
  obtain ⟨callback, hcallback, rfl⟩ := Option.map_eq_some_iff.mp htold
  exact h.stamped write hwrite callback hcallback

theorem Forgot.build (h : Forgot now state shade) :
    Abreast (build env now) state (Persister.build env now) shade
      (fun writes last last' => Forgot now last last' ∧
        ∀ write ∈ writes, ∀ callback ∈ write.callback, callback.stamp = now)
      (Forgot now) := by
  -- Prepared writes carry the stamp of their round.
  obtain ⟨persister, outside⟩ := state
  obtain ⟨fewer, rfl⟩ := h.same
  unfold Persister.build
  rw [abreast_get_left, abreast_get_right]
  simp only [abreast_set_left, abreast_set_right]
  have hdue : ({ persister with sessions := fewer } : Persister M).isDue = persister.isDue := rfl
  rw [hdue]
  cases persister.isDue with
  | false =>
    simp only [Bool.not_false, if_true, abreast_pure]
    exact ⟨⟨⟨fewer, rfl⟩, h.ages, h.forgets⟩, by simp⟩
  | true =>
    simp only [Bool.not_true, Bool.false_eq_true, if_false]
    cases persister.window.beginDrain with
    | error fault => exact (abreast_error fault).mpr ⟨⟨fewer, rfl⟩, h.ages, h.forgets⟩
    | ok window =>
      rw [abreast_ok_left, abreast_ok_right]
      have hstart : Preparation.Shadows now []
          { persister := { persister with window := window.take.2, rounds := persister.rounds + 1 }
            outside }
          { persister := { persister with
              sessions := fewer, window := window.take.2, rounds := persister.rounds + 1 }
            outside } :=
        ⟨⟨fewer, rfl⟩, h.ages, h.forgets, by simp, by simp⟩
      have hbatches := hstart.prepareBatches env (chunks persister.settings.loadBatch window.take.1)
      rcases hbatches.both with ⟨_, round, shadow, hrun, hrun', hshadows⟩ |
        ⟨fault, round, shadow, hrun, hrun', hshadows⟩
      · rw [hrun, hrun']
        simp only [abreast_set_left, abreast_set_right]
        obtain ⟨fewer, rfl⟩ := hshadows.same
        exact (abreast_pure _).mpr ⟨⟨⟨fewer, rfl⟩, hshadows.ages, hshadows.forgets⟩, hshadows.stamped⟩
      · rw [hrun, hrun']
        simp only [abreast_set_left, abreast_set_right]
        exact (abreast_throw fault).mpr (abandon_forgot hshadows)

end Persister

end Rollup
