import Rollup.Proofs.Drafting

/-!
# Decisions

What a round makes of a drained record depends on the entry of its identity alone: whether the cached
record can still be trusted, and which write is due. Nobody outside has a say in it.
-/

namespace Rollup

open Rollup.Action

variable {σ M : Type}

/-! ## What a round goes by -/

/-- What a round goes by besides its records and what is cached. -/
structure Occasion where
  model : Model
  ttlDays : Nat
  now : Int

def Persister.occasion (persister : Persister M) (now : Int) : Occasion :=
  ⟨persister.model, persister.settings.ttlDays, now⟩

namespace Occasion

variable [Record M] (occasion : Occasion)

/-- Whether retention has deleted the row behind a cached record. Only rows that can be written again
and outlive their bucket are asked for that. -/
def lapsed (cached : M) : Except Fault Bool :=
  if occasion.model.timeRelativeId || !occasion.model.supportUpdate then .ok false
  else Retention.isExpired (Record.id cached).bucket occasion.now occasion.ttlDays

/-- It can be told whether the row has lapsed. -/
def Clear (held : Option (Session M)) : Prop :=
  ∀ entry ∈ held, ∃ lapsed, occasion.lapsed entry.record = .ok lapsed

def hasLapsed (cached : M) : Bool :=
  match occasion.lapsed cached with
  | .ok lapsed => lapsed
  | .error _ => false

/-- The entry that a round works with: one whose row has lapsed is forgotten. -/
def trusted (held : Option (Session M)) : Option (Session M) :=
  held.filter fun entry => !occasion.hasLapsed entry.record

/-- The identities whose rows have to be loaded. -/
def missing (sessions : Sessions M) (ids : List MetricId) : List MetricId :=
  ids.filter fun id => (occasion.trusted (sessions.session? id)).isNone

def forget (sessions : Sessions M) (id : MetricId) : Sessions M :=
  match sessions.session? id with
  | none => sessions
  | some entry => if occasion.hasLapsed entry.record then sessions.remove id else sessions

/-- The session cache once these identities were looked up. -/
def pruned (sessions : Sessions M) (ids : List MetricId) : Sessions M :=
  ids.foldl occasion.forget sessions

/-- The write that is due for a drained record, if one is. -/
def decision (cached : Option M) (drained : M) : Except Fault (Option (RequestKind × M)) :=
  match cached with
  | none => (Record.calculate drained).map fun whole => some (.insert, whole)
  | some cached =>
    if !occasion.model.supportUpdate || !(Record.combine cached drained).1 then .ok none
    else (Record.calculate (Record.absorb cached drained)).map fun whole => some (.update, whole)

variable {occasion}

theorem trusted_eq_some {held : Option (Session M)} {entry : Session M}
    (h : occasion.trusted held = some entry) : held = some entry := by
  cases held with
  | none => cases h
  | some other =>
    unfold trusted at h
    rw [Option.filter_some] at h
    split_ifs at h
    exact h

theorem session?_forget (sessions : Sessions M) (id other : MetricId) :
    (occasion.forget sessions id).session? other =
      if other = id then occasion.trusted (sessions.session? id) else sessions.session? other := by
  unfold forget
  cases hheld : sessions.session? id with
  | none =>
    by_cases hother : other = id
    · rw [if_pos hother, hother]
      exact hheld
    · rw [if_neg hother]
  | some entry =>
    have htrusted : occasion.trusted (some entry) =
        if occasion.hasLapsed entry.record then none else some entry := by
      cases hlapsed : occasion.hasLapsed entry.record <;> simp [trusted, hlapsed]
    dsimp only
    rw [htrusted]
    split_ifs with hlapsed hother hother
    · rw [Sessions.session?_remove, if_pos hother.symm]
    · rw [Sessions.session?_remove, if_neg (Ne.symm hother)]
    · rw [hother, hheld]
    · rfl

theorem trusted_trusted (held : Option (Session M)) :
    occasion.trusted (occasion.trusted held) = occasion.trusted held := by
  unfold trusted
  rw [Option.filter_filter]
  simp only [Bool.and_self]

theorem session?_pruned (sessions : Sessions M) (ids : List MetricId) (id : MetricId) :
    (occasion.pruned sessions ids).session? id =
      if id ∈ ids then occasion.trusted (sessions.session? id) else sessions.session? id := by
  induction ids generalizing sessions with
  | nil => rfl
  | cons first rest ih =>
    show (occasion.pruned (occasion.forget sessions first) rest).session? id = _
    rw [ih, session?_forget]
    by_cases hfirst : id = first
    · subst hfirst
      simp [trusted_trusted]
    · simp [hfirst]

theorem keyed_pruned {sessions : Sessions M} (h : sessions.Keyed) (ids : List MetricId) :
    (occasion.pruned sessions ids).Keyed := by
  intro id held hheld
  rw [session?_pruned] at hheld
  split_ifs at hheld
  · exact h id held (trusted_eq_some hheld)
  · exact h id held hheld

theorem mem_missing {sessions : Sessions M} {ids : List MetricId} {id : MetricId} :
    id ∈ occasion.missing sessions ids ↔
      id ∈ ids ∧ occasion.trusted (sessions.session? id) = none := by
  rw [missing, List.mem_filter, Option.isNone_iff_eq_none]

theorem id_decision [KeepsIdentity M] {cached : Option M} {drained whole : M} {kind : RequestKind}
    (hcached : ∀ record ∈ cached, Record.id record = Record.id drained)
    (h : occasion.decision cached drained = .ok (some (kind, whole))) :
    Record.id whole = Record.id drained := by
  have hcalculated : ∀ {record : M} {kind' : RequestKind},
      (Record.calculate record).map (fun whole => some (kind', whole)) = .ok (some (kind, whole)) →
      Record.id whole = Record.id record := by
    intro record kind' h
    cases hwhole : Record.calculate record with
    | error fault =>
      rw [hwhole] at h
      cases h
    | ok calculated =>
      rw [hwhole] at h
      cases h
      exact KeepsIdentity.id_calculate hwhole
  cases cached with
  | none => exact hcalculated h
  | some held =>
    unfold decision at h
    dsimp only at h
    split_ifs at h
    · cases h
    · rw [hcalculated h, ← hcached held rfl]
      exact KeepsIdentity.id_combine held drained

end Occasion

/-! ## Looking identities up -/

namespace Preparation

variable [Record M] {now : Int}

theorem isMissing_decides (now : Int) (id : MetricId) (round : Preparation σ M) :
    let occasion := round.persister.occasion now
    let held := round.persister.sessions.session? id
    Ends (isMissing now id) round
      (fun missing round' => missing = (occasion.trusted held).isNone ∧ occasion.Clear held ∧
        round' = round.leaving (occasion.forget round.persister.sessions id) round.outside)
      (fun _ _ => ¬ occasion.Clear held) := by
  intro occasion held
  unfold isMissing
  simp only [ends_bind, ends_get]
  cases hheld : round.persister.sessions.session? id with
  | none =>
    have hnone : held = none := hheld
    have hforget : occasion.forget round.persister.sessions id = round.persister.sessions := by
      simp [Occasion.forget, hheld]
    simp only [Sessions.get?_eq_none_iff.mpr hheld, ends_pure]
    rw [hforget, hnone]
    exact ⟨rfl, by simp [Occasion.Clear], rfl⟩
  | some entry =>
    have hsome : held = some entry := hheld
    have hforget : ∀ {lapsed}, occasion.lapsed entry.record = .ok lapsed →
        occasion.forget round.persister.sessions id =
          if lapsed then round.persister.sessions.remove id else round.persister.sessions := by
      intro lapsed hlapsed
      simp [Occasion.forget, hheld, Occasion.hasLapsed, hlapsed]
    have htrusted : ∀ {lapsed}, occasion.lapsed entry.record = .ok lapsed →
        lapsed = (occasion.trusted (some entry)).isNone ∧ occasion.Clear (some entry) := by
      intro lapsed hlapsed
      refine ⟨?_, fun other hother => ?_⟩
      · cases lapsed <;> simp [Occasion.trusted, Occasion.hasLapsed, hlapsed]
      · cases hother
        exact ⟨lapsed, hlapsed⟩
    simp only [Sessions.get?_eq_some_iff.mpr ⟨entry, hheld, rfl⟩]
    rw [hsome]
    by_cases hexempt : round.persister.model.timeRelativeId || !round.persister.model.supportUpdate
    · have hlapsed : occasion.lapsed entry.record = .ok false := if_pos hexempt
      rw [if_pos hexempt, ends_pure, hforget hlapsed]
      exact ⟨(htrusted hlapsed).1, (htrusted hlapsed).2, rfl⟩
    · have hasked : occasion.lapsed entry.record =
          Retention.isExpired (Record.id entry.record).bucket now
            round.persister.settings.ttlDays := if_neg hexempt
      rw [if_neg hexempt, ends_bind, ends_liftM, ← hasked]
      refine ⟨fun expired hlapsed => ?_, fun fault hlapsed hclear => ?_⟩
      · rw [hforget hlapsed]
        cases expired <;> exact ⟨(htrusted hlapsed).1, (htrusted hlapsed).2, rfl⟩
      · obtain ⟨lapsed, htold⟩ := hclear entry rfl
        cases htold.symm.trans hlapsed

theorem filterM_isMissing_decides {ids : List MetricId} (hdistinct : ids.Nodup)
    (round : Preparation σ M) :
    let occasion := round.persister.occasion now
    let sessions := round.persister.sessions
    Ends (ids.filterM (isMissing now)) round
      (fun missing round' => missing = occasion.missing sessions ids ∧
        (∀ id ∈ ids, occasion.Clear (sessions.session? id)) ∧
        round' = round.leaving (occasion.pruned sessions ids) round.outside)
      (fun _ _ => ∃ id ∈ ids, ¬ occasion.Clear (sessions.session? id)) := by
  intro occasion sessions
  apply Ends.filterM fun seen missing round' => missing = occasion.missing sessions seen ∧
    (∀ id ∈ seen, occasion.Clear (sessions.session? id)) ∧
    round' = round.leaving (occasion.pruned sessions seen) round.outside
  · exact ⟨rfl, by simp, rfl⟩
  · rintro seen missing id rest _ hids ⟨rfl, hclear, rfl⟩
    have hfresh : id ∉ seen := by
      intro hmem
      rw [hids] at hdistinct
      exact (List.nodup_append.mp hdistinct).2.2 id hmem id List.mem_cons_self rfl
    have hheld : (occasion.pruned sessions seen).session? id = sessions.session? id := by
      rw [Occasion.session?_pruned, if_neg hfresh]
    have hid := isMissing_decides now id
      (round.leaving (occasion.pruned sessions seen) round.outside)
    dsimp only [leaving] at hid
    rw [hheld] at hid
    refine hid.mono ?_ ?_
    · rintro missing _ ⟨rfl, hid, rfl⟩
      refine ⟨?_, fun other hother => ?_, ?_⟩
      · show (if (occasion.trusted (sessions.session? id)).isNone then
            occasion.missing sessions seen ++ [id] else occasion.missing sessions seen) = _
        unfold Occasion.missing
        rw [List.filter_append, List.filter_singleton]
        cases (occasion.trusted (sessions.session? id)).isNone <;> simp
      · rcases List.mem_append.mp hother with hother | hother
        · exact hclear other hother
        · rw [List.mem_singleton.mp hother]
          exact hid
      · have hnext : occasion.pruned sessions (seen ++ [id]) =
            occasion.forget (occasion.pruned sessions seen) id := List.foldl_concat ..
        rw [hnext]
        rfl
    · intro _ _ hunclear
      exact ⟨id, by simp [hids], hunclear⟩

end Preparation

end Rollup
