import Rollup.Proofs.Drafting
import Rollup.Proofs.Lifetimes

/-!
# What a round leaves of a persister

Whatever the others do, and also where one of them breaks the round off, a round changes the session
cache in the steps of a cache alone, each under its own time. But for that it only empties the window
and counts the round.
-/

namespace Rollup

open Rollup.Action

variable {σ M : Type} [Record M]

/-! ## What a round does to the cache -/

theorem Sessions.Keyed.after {cache : Sessions M} (h : cache.Keyed) (steps : List (SessionStep M)) :
    (Sessions.after steps cache).Keyed := by
  refine List.foldlRecOn steps _ (motive := Sessions.Keyed) h fun cache hcache step _ => ?_
  cases step with
  | put record now => exact hcache.put record now
  | settle callback verdict => exact hcache.settle callback verdict
  | evict now timeout => exact hcache.evict now timeout
  | remove id =>
    intro other held hheld
    rw [SessionStep.run, session?_remove] at hheld
    split_ifs at hheld
    exact hcache other held hheld
  | removeIfNotNewer id stamp =>
    intro other held hheld
    rw [SessionStep.run, session?_removeIfNotNewer] at hheld
    split_ifs at hheld
    exact hcache other held hheld

/-- What becomes of the session cache comes of steps whose times satisfy `holds`. -/
structure Persister.Tended (holds : Int → Prop) (persister persister' : Persister M) : Prop where
  settings : persister'.settings = persister.settings
  sessions : ∃ steps : List (SessionStep M), (∀ step ∈ steps, ∀ stamp ∈ step.stamps, holds stamp) ∧
    persister'.sessions = Sessions.after steps persister.sessions

/-- What becomes of a round, and of what its writes owe the session cache. -/
structure Preparation.Tended (holds : Int → Prop) (round round' : Preparation σ M) : Prop where
  same : round'.persister = { round.persister with sessions := round'.persister.sessions }
  persister : round.persister.Tended holds round'.persister
  writes : (∀ write ∈ round.writes, ∀ callback ∈ write.callback, holds callback.stamp) →
    ∀ write ∈ round'.writes, ∀ callback ∈ write.callback, holds callback.stamp

section

variable {holds : Int → Prop}

theorem Persister.Tended.of_steps {persister persister' : Persister M}
    (hsettings : persister'.settings = persister.settings) (steps : List (SessionStep M))
    (hsteps : ∀ step ∈ steps, ∀ stamp ∈ step.stamps, holds stamp)
    (hsessions : persister'.sessions = Sessions.after steps persister.sessions) :
    persister.Tended holds persister' := ⟨hsettings, steps, hsteps, hsessions⟩

theorem Persister.Tended.of_eq {persister persister' : Persister M}
    (hsettings : persister'.settings = persister.settings)
    (hsessions : persister'.sessions = persister.sessions) : persister.Tended holds persister' :=
  .of_steps hsettings [] (List.forall_mem_nil _) hsessions

theorem Persister.Tended.refl (persister : Persister M) : persister.Tended holds persister :=
  .of_eq rfl rfl

theorem Persister.Tended.trans {first second third : Persister M} (h : first.Tended holds second)
    (h' : second.Tended holds third) : first.Tended holds third := by
  obtain ⟨steps, hsteps, hsessions⟩ := h.sessions
  obtain ⟨more, hmore, hsessions'⟩ := h'.sessions
  refine .of_steps (h'.settings.trans h.settings) (steps ++ more)
    (List.forall_mem_append.mpr ⟨hsteps, hmore⟩) ?_
  rw [Sessions.after_append, ← hsessions, hsessions']

namespace Preparation

theorem Tended.refl (round : Preparation σ M) : round.Tended holds round := ⟨rfl, .refl _, id⟩

theorem Tended.trans {first second third : Preparation σ M} (h : first.Tended holds second)
    (h' : second.Tended holds third) : first.Tended holds third := by
  refine ⟨?_, h.persister.trans h'.persister, fun hwrites => h'.writes (h.writes hwrites)⟩
  rw [h'.same, h.same]

/-- However a part of a round ends, it has done nothing else to the session cache. -/
def Tends {α : Type} (holds : Int → Prop) (call : Action (Preparation σ M) α) : Prop :=
  ∀ round, Ends call round (fun _ => round.Tended holds) (fun _ => round.Tended holds)

variable {α β : Type} {now : Int}

theorem Tends.bind {call : Action (Preparation σ M) α} {next : α → Action (Preparation σ M) β}
    (h : Tends holds call) (h' : ∀ answer, Tends holds (next answer)) :
    Tends holds (call >>= next) := by
  intro round
  rw [ends_bind]
  refine (h round).mono (fun answer round' hround' => ?_) fun _ _ => id
  exact (h' answer round').mono (fun _ _ => hround'.trans) fun _ _ => hround'.trans

theorem Tends.pure (answer : α) : Tends holds (pure answer : Action (Preparation σ M) α) :=
  .refl

theorem Tends.get : Tends holds (get : Action (Preparation σ M) (Preparation σ M)) :=
  .refl

theorem Tends.liftM (value : Except Fault α) :
    Tends holds (liftM value : Action (Preparation σ M) α) :=
  fun round => ends_liftM.mpr ⟨fun _ _ => .refl round, fun _ _ => .refl round⟩

theorem Tends.calling (call : Action σ α) : Tends holds (calling call : Action (Preparation σ M) α) :=
  fun _ => (ends_calling call).mpr
    (ends_of_forall (fun _ _ => ⟨rfl, .refl _, id⟩) fun _ _ => ⟨rfl, .refl _, id⟩)

theorem Tends.changeSessions {change : Sessions M → Sessions M} (steps : List (SessionStep M))
    (hsteps : ∀ step ∈ steps, ∀ stamp ∈ step.stamps, holds stamp)
    (hchange : ∀ cache, change cache = Sessions.after steps cache) :
    Tends holds (changeSessions change : Action (Preparation σ M) Unit) :=
  fun _ => (ends_changeSessions change).mpr ⟨rfl, .of_steps rfl steps hsteps (hchange _), id⟩

theorem Tends.push {write : Write M} (hwrite : ∀ callback ∈ write.callback, holds callback.stamp) :
    Tends holds (push write : Action (Preparation σ M) Unit) := by
  refine fun round => (ends_push write).mpr ⟨rfl, .refl _, fun hwrites other hother => ?_⟩
  rcases List.mem_append.mp hother with hother | hother
  · exact hwrites other hother
  · rwa [List.mem_singleton.mp hother]

theorem Tends.forM {call : α → Action (Preparation σ M) Unit} (h : ∀ item, Tends holds (call item))
    (items : List α) : Tends holds (items.forM call) := by
  induction items with
  | nil => exact .pure _
  | cons item rest ih => exact (h item).bind fun _ => ih

theorem Tends.filterM {items : List α} {test : α → Action (Preparation σ M) Bool}
    (h : ∀ item, Tends holds (test item)) : Tends holds (items.filterM test) := by
  refine fun round => Ends.filterM (fun _ _ => round.Tended holds) (.refl round) ?_
  intro _ _ item _ round' _ hround'
  exact (h item round').mono (fun _ _ => hround'.trans) fun _ _ => hround'.trans

/-! ### The parts of a round -/

theorem isMissing_tends (id : MetricId) :
    Tends holds (isMissing now id : Action (Preparation σ M) Bool) := by
  refine .bind .get fun round => ?_
  dsimp only
  split
  · exact .pure _
  · split_ifs
    · exact .pure _
    · refine .bind (.liftM _) fun expired => ?_
      split_ifs
      · refine .bind (.changeSessions [.remove id] ?_ fun _ => rfl) fun _ => .pure _
        exact List.forall_mem_singleton.mpr (List.forall_mem_nil _)
      · exact .pure _

theorem loadMissing_tends (env : Surroundings σ M) (hnow : holds now) (batch : List M) :
    Tends holds (loadMissing env now batch) := by
  refine .bind (.filterM isMissing_tends) fun missing => ?_
  split_ifs
  · exact .pure _
  · refine .bind .get fun round => .bind (.calling _) fun answer => ?_
    cases answer with
    | error error => exact .pure _
    | ok loaded =>
      refine .bind (.changeSessions (loaded.map (.put · now)) ?_ fun cache => ?_) fun _ => .pure _
      · exact List.forall_mem_map.mpr fun _ _ => List.forall_mem_singleton.mpr hnow
      · rw [Sessions.after, List.foldl_map]
        rfl

theorem prepareWrite_tends (env : Surroundings σ M) (hnow : holds now) (kind : RequestKind)
    (whole : M) :
    Tends holds (prepareWrite env now kind whole) := by
  refine .bind .get fun round => .bind (.calling _) fun answer => ?_
  cases answer with
  | error error => exact .pure _
  | ok =>
    refine .bind (.push fun callback hcallback => ?_) fun _ => .bind (.calling _) fun _ => .pure _
    cases hcallback
    exact hnow

theorem prepareRecord_tends (env : Surroundings σ M) (hnow : holds now) (drained : M) :
    Tends holds (prepareRecord env now drained) := by
  refine .bind .get fun round => ?_
  dsimp only
  split
  · exact .bind (.liftM _) fun whole => .bind (prepareWrite_tends env hnow _ _) fun _ => .pure _
  · split_ifs
    · exact .pure _
    · refine .bind (.liftM _) fun whole => .bind (prepareWrite_tends env hnow _ _) fun answer => ?_
      cases answer with
      | error error => exact .pure _
      | ok =>
        refine .bind (.changeSessions [.put whole now] ?_ fun _ => rfl) fun _ => .pure _
        exact List.forall_mem_singleton.mpr (List.forall_mem_singleton.mpr hnow)

theorem prepareRecords_tends (env : Surroundings σ M) (hnow : holds now) (failed : Bool)
    (batch : List M) :
    Tends holds (prepareRecords env now failed batch) := by
  induction batch generalizing failed with
  | nil => cases failed <;> exact .pure _
  | cons drained rest ih =>
    cases failed with
    | true => exact .bind (.calling _) fun _ => ih true
    | false =>
      refine .bind (prepareRecord_tends env hnow drained) fun answer => ?_
      rcases answer with _ | _ | _
      · exact .bind (.pure _) fun failed => .bind (.calling _) fun _ => ih failed
      · exact .bind (.pure _) fun failed => .bind (.calling _) fun _ => ih failed
      · exact .bind (.calling _) fun _ => .bind (.pure _) fun failed =>
          .bind (.calling _) fun _ => ih failed

theorem prepareBatch_tends (env : Surroundings σ M) (hnow : holds now) (batch : List M) :
    Tends holds (prepareBatch env now batch) := by
  refine .bind (loadMissing_tends env hnow batch) fun answer => ?_
  cases answer with
  | error error => exact prepareRecords_tends env hnow true batch
  | ok => exact prepareRecords_tends env hnow false batch

end Preparation

namespace Persister

theorem abandon_tended {writes : List (Write M)}
    (hwrites : ∀ write ∈ writes, ∀ callback ∈ write.callback, holds callback.stamp)
    (persister : Persister M) : persister.Tended holds (persister.abandon writes) := by
  rw [abandon_eq]
  refine .of_steps rfl ((outcomes writes .failed).map fun outcome => .settle outcome.1 outcome.2) ?_ ?_
  · refine List.forall_mem_map.mpr fun outcome houtcome => List.forall_mem_singleton.mpr ?_
    obtain ⟨write, hwrite, hconclude⟩ := List.mem_filterMap.mp houtcome
    obtain ⟨callback, hcallback, rfl⟩ := Option.map_eq_some_iff.mp hconclude
    exact hwrites write hwrite callback hcallback
  · rw [Sessions.after, List.foldl_map]
    rfl

/-- What a build leaves of a persister, however it ends. -/
structure Worked (holds : Int → Prop) (persister last : Persister M) : Prop where
  tended : persister.Tended holds last
  same : last = { persister with
    window := last.window, sessions := last.sessions, rounds := persister.rounds + 1 }
  window : persister.isDue = true → persister.window.Closed → last.window = .empty

theorem Worked.eq_drainedTo {persister last : Persister M} (h : persister.Worked holds last)
    (hdue : persister.isDue = true) (hclosed : persister.window.Closed) :
    last = persister.drainedTo last.sessions := by
  have hsame := h.same
  rwa [h.window hdue hclosed] at hsame

theorem Worked.keyed {persister last : Persister M} (h : persister.Worked holds last)
    (hkeyed : persister.sessions.Keyed) : last.sessions.Keyed := by
  obtain ⟨steps, -, hsessions⟩ := h.tended.sessions
  rw [hsessions]
  exact hkeyed.after steps

/-- A round that got as far as its batches closes the window, and gives up its writes if it broke
off. -/
theorem Worked.of_tended {persister : Persister M} {opened : Window M} {outside : σ}
    {round : Preparation σ M} {writes : List (Write M)}
    (hopened : persister.window.beginDrain = .ok opened)
    (hworked : Preparation.Tended holds { persister := { persister with
      window := opened.take.2, rounds := persister.rounds + 1 }, outside } round)
    (hwrites : ∀ write ∈ writes, ∀ callback ∈ write.callback, holds callback.stamp) :
    persister.Worked holds (round.persister.abandon writes).endDrain := by
  have hopening : persister.Tended holds
      { persister with window := opened.take.2, rounds := persister.rounds + 1 } := .of_eq rfl rfl
  have htended : persister.Tended holds (round.persister.abandon writes) :=
    hopening.trans (hworked.persister.trans (abandon_tended hwrites round.persister))
  have hsame : round.persister.abandon writes = { persister with
      window := opened.take.2, rounds := persister.rounds + 1
      sessions := (round.persister.abandon writes).sessions } := by
    rw [abandon_eq, hworked.same]
  refine ⟨⟨htended.settings, htended.sessions⟩, ?_, fun _ hclosed => ?_⟩
  · rw [hsame]
    rfl
  · rw [hclosed.beginDrain, Except.ok.injEq] at hopened
    rw [hsame, ← hopened]
    rfl

theorem build_worked (env : Surroundings σ M) {now : Int} (hnow : holds now) (persister : Persister M)
    (outside : σ) :
    Ends (build env now) (persister, outside) (fun _ last => persister.Worked holds last.1)
      (fun _ last => persister.Worked holds last.1) := by
  unfold build
  simp only [ends_bind, ends_get, ends_set]
  cases hdue : persister.isDue with
  | false =>
    exact ⟨.of_eq rfl rfl, rfl, fun hdue' => absurd (hdue.symm.trans hdue') Bool.false_ne_true⟩
  | true =>
    simp only [Bool.not_true, Bool.false_eq_true, if_false]
    rw [ends_bind, ends_liftM]
    refine ⟨fun opened hopened => ?_, fun fault hfault => ⟨.of_eq rfl rfl, rfl, fun _ hclosed => ?_⟩⟩
    · have hworks := Preparation.Tends.forM (Preparation.prepareBatch_tends env hnow)
        (chunks persister.settings.loadBatch opened.take.1)
        { persister := { persister with window := opened.take.2, rounds := persister.rounds + 1 }
          outside }
      obtain ⟨_, round, hrun, hworked⟩ | ⟨fault, round, hrun, hworked⟩ := hworks.run_cases <;>
        rw [hrun]
      · rw [ends_bind, ends_set, ends_pure]
        exact .of_tended hopened hworked (List.forall_mem_nil _)
      · -- What a round that broke off owes the cache is stamped like the round itself.
        rw [ends_bind, ends_set, ends_throw]
        exact .of_tended hopened hworked
          (hworked.writes fun _ hwrite => absurd hwrite List.not_mem_nil)
    · rw [hclosed.beginDrain] at hfault
      cases hfault

end Persister

end

end Rollup
