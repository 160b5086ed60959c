import Rollup.Proofs.Entries
import Rollup.Proofs.Interchange
import Rollup.Proofs.Tending

/-!
# Skipped rounds

A persister that takes part in every so many rounds only. A round that it skips touches nothing, and
one that it takes part in works on all that was accepted since the last of that kind, one record for
each identity.
-/

namespace Rollup

open Rollup.Action

variable {σ M : Type}

/-! ## What came of the records of a batch -/

theorem Handling.InTurn.failed_of_passedOver {failed : Bool} {handlings : List (Handling M)}
    (h : InTurn failed handlings) {handling : Handling M} (hmem : handling ∈ handlings)
    (hfate : handling.fate = .passedOver) :
    failed = true ∨ ∃ other ∈ handlings, other.fate.isFailed = true := by
  by_contra hspared
  rw [not_or, not_exists] at hspared
  obtain ⟨hfailed, hspared⟩ := hspared
  rw [Bool.not_eq_true] at hfailed
  subst hfailed
  exact h.ne_passedOver (fun other hother => by simpa [hother] using hspared other) handling hmem hfate

theorem Handling.increments_calls (handling : Handling M) :
    handling.calls.filterMap OutsideCall.increment? = (handling.pair?.map (·.2)).toList := by
  obtain ⟨drained, fate⟩ := handling
  cases fate <;> rfl

theorem Report.increments_calls (reports : List (Report M)) :
    (reports.flatMap (·.calls)).filterMap OutsideCall.increment? =
      ((reports.flatMap (·.handlings)).filterMap (·.pair?)).map (·.2) := by
  rw [filterMap_calls _ fun _ => rfl, List.map_filterMap, List.filterMap_eq_flatMap_toList]
  simp only [Handling.increments_calls]

variable [Record M]

theorem Occasion.decision_eq_none {occasion : Occasion} {cached : Option M} {drained : M}
    (h : occasion.decision cached drained = .ok none) : ∃ held, cached = some held ∧
      (occasion.model.supportUpdate = false ∨ (Record.combine held drained).1 = false) := by
  cases cached with
  | none =>
    unfold decision at h
    cases hwhole : Record.calculate drained <;> rw [hwhole] at h <;> cases h
  | some held =>
    unfold decision at h
    dsimp only at h
    split_ifs at h with hrefuses
    · exact ⟨held, rfl, by simpa using hrefuses⟩
    · cases hwhole : Record.calculate (Record.absorb held drained) <;> rw [hwhole] at h <;> cases h

/-- What came of a drained record: its write was asked for and shown, or what is cached of it is not to
be written over, or a storage error gave up its batch. -/
inductive Accounted (occasion : Occasion) (report : Report M) (cached : Option M) (drained : M)
    (writes : List (Write M)) (calls : List (OutsideCall M)) : Prop
  | written {kind : RequestKind} {whole : M}
      (due : occasion.decision cached drained = .ok (some (kind, whole)))
      (write : .of kind occasion.model whole occasion.now ∈ writes)
      (shown : [.prepare kind whole, .dispatch whole .total, .dispatch drained .increment,
        .forward drained] <:+: calls)
  | kept {held : M} (cached : cached = some held)
      (kept : occasion.model.supportUpdate = false ∨ (Record.combine held drained).1 = false)
  | notLoaded {error : StorageError} (failed : report.loaded = .error error)
  | notPrepared {other : Handling M} {kind : RequestKind} {whole : M}
      (mem : other ∈ report.handlings) (failed : other.fate = .failed kind whole)

section

variable {env : Surroundings σ M} {occasion : Occasion} {found : Sessions M} {report : Report M}
  {reports : List (Report M)}

theorem Report.Fits.accounted (h : report.Fits env occasion found) (hreport : report ∈ reports)
    {handling : Handling M} (hmem : handling ∈ report.handlings) :
    Accounted occasion report ((report.opened occasion found).get? handling.id) handling.drained
      (reports.flatMap (·.writes occasion)) (reports.flatMap (·.calls)) := by
  have hsuits := h.handles.suits handling hmem
  obtain ⟨drained, fate⟩ := handling
  cases hsuits with
  | written due prepared =>
    refine .written due ?_ ?_
    · refine List.mem_flatMap.mpr ⟨report, hreport, List.mem_filterMap.mpr ⟨_, hmem, rfl⟩⟩
    · have hbatch : (⟨drained, .written _ _⟩ : Handling M).calls <:+: report.calls :=
        (List.infix_of_mem_flatten (List.mem_map_of_mem hmem)).trans (List.suffix_append _ _).isInfix
      exact hbatch.trans (List.infix_of_mem_flatten (List.mem_map_of_mem hreport))
  | left due =>
    obtain ⟨held, hcached, hkept⟩ := Occasion.decision_eq_none due
    exact .kept hcached hkept
  | failed => exact .notPrepared hmem rfl
  | passedOver =>
    rcases h.handles.turn.failed_of_passedOver hmem rfl with hload | ⟨other, hother, hfailed⟩
    · cases hloaded : report.loaded with
      | error error => exact .notLoaded hloaded
      | ok loaded =>
        rw [hloaded] at hload
        cases hload
    · obtain ⟨_, fate⟩ := other
      cases fate with
      | failed => exact .notPrepared hother rfl
      | written | left | passedOver => cases hfailed

theorem Report.Fits.about [KeepsIdentity M] (h : report.Fits env occasion found) (hkeyed : found.Keyed)
    {call : OutsideCall M} (hcall : call ∈ report.calls) : ∀ id ∈ call.ids, id ∈ report.ids := by
  rcases List.mem_append.mp hcall with hload | hcall
  · split_ifs at hload
    · cases hload
    · rw [List.mem_singleton.mp hload]
      intro id hid
      rw [OutsideCall.ids, h.asked] at hid
      exact (Occasion.mem_missing.mp hid).1
  · obtain ⟨⟨drained, fate⟩, hmem, hcall⟩ := List.mem_flatMap.mp hcall
    have hid : Record.id drained ∈ report.ids := List.mem_map_of_mem hmem
    have hopened := occasion.keyed_opened hkeyed report.ids report.loaded
    have hdue : ∀ {kind : RequestKind} {whole : M}, occasion.decision
        ((report.opened occasion found).get? (Record.id drained)) drained = .ok (some (kind, whole)) →
        Record.id whole ∈ report.ids := fun hdue => by rwa [Sessions.Keyed.id_of_due hopened hdue]
    cases h.handles.suits _ hmem with
    | written due =>
      have := hdue due
      simp only [Handling.calls, List.mem_cons, List.not_mem_nil, or_false] at hcall
      rcases hcall with rfl | rfl | rfl | rfl <;> simpa [OutsideCall.ids]
    | failed due =>
      have := hdue due
      simp only [Handling.calls, List.mem_cons, List.not_mem_nil, or_false] at hcall
      rcases hcall with rfl | rfl <;> simpa [OutsideCall.ids]
    | left | passedOver =>
      rw [List.mem_singleton.mp hcall]
      simpa [OutsideCall.ids]

end

/-! ## Whole rounds -/

namespace Persister

variable {env : Surroundings σ M} {now : Int} {persister : Persister M} {outside : Witnessed σ M}

/-- What a round leaves that has drained these records and answered with these writes, and what it
reports of its batches. -/
structure Drains (env : Surroundings (Witnessed σ M) M) (now : Int) (persister : Persister M)
    (outside : Witnessed σ M) (drained : List M) (writes : List (Write M))
    (last : Persister M × Witnessed σ M) (reports : List (Report M)) : Prop where
  batches : reports.map (·.batch) = chunks persister.settings.loadBatch drained
  fits : Report.FitsAll env (persister.occasion now) persister.sessions reports
  answer : writes = reports.flatMap (·.writes (persister.occasion now))
  leaves : last.1 = persister.drainedTo
    (Report.settleAll (persister.occasion now) persister.sessions reports)
  calls : last.2.2 = outside.2 ++ reports.flatMap (·.calls)
  accounted : ∀ report ∈ reports, ∃ found, report.Fits env (persister.occasion now) found ∧
    ∀ handling ∈ report.handlings, Accounted (persister.occasion now) report
      ((report.opened (persister.occasion now) found).get? handling.id) handling.drained writes
      (reports.flatMap (·.calls))
  /-- Every drained record is handed on, and nobody is asked about others. -/
  handed : (reports.flatMap (·.calls)).filterMap OutsideCall.forwarded? = drained
  about : ∀ call ∈ reports.flatMap (·.calls), ∀ id ∈ call.ids, id ∈ drained.map Record.id
  /-- Those records are shown that are written, in the order of their writes. -/
  shown : ∃ shown, (reports.flatMap (·.calls)).filterMap OutsideCall.increment? = shown ∧
    shown.Sublist drained ∧ writes.map (·.id) = shown.map Record.id

theorem pairs_of_fits [KeepsIdentity M] {env : Surroundings (Witnessed σ M) M} {reports : List (Report M)}
    (hkeyed : persister.sessions.Keyed)
    (hfits : Report.FitsAll env (persister.occasion now) persister.sessions reports) :
    (reports.flatMap (·.writes (persister.occasion now))).map (·.id) =
      (((reports.flatMap (·.handlings)).filterMap (·.pair?)).map (·.2)).map Record.id := by
  rw [Report.flatMap_writes, Handling.writes, List.map_filterMap, List.map_map, List.map_filterMap]
  apply List.filterMap_congr
  rintro ⟨drained, fate⟩ hmem
  obtain ⟨report, hreport, hhandling⟩ := List.mem_flatMap.mp hmem
  obtain ⟨found, hfound, hreported⟩ := hfits.exists_fits hkeyed hreport
  have hsuits := hreported.handles.suits _ hhandling
  cases fate with
  | written kind whole =>
    exact congrArg some
      (hsuits.id_eq ((persister.occasion now).keyed_opened hfound _ _) rfl)
  | left | failed | passedOver => rfl

theorem drains_of_reports [KeepsIdentity M] {env : Surroundings (Witnessed σ M) M} {drained : List M}
    {last : Persister M × Witnessed σ M} {reports : List (Report M)}
    (hsize : 0 < persister.settings.loadBatch) (hkeyed : persister.sessions.Keyed)
    (hbatches : reports.map (·.batch) = chunks persister.settings.loadBatch drained)
    (hfits : Report.FitsAll env (persister.occasion now) persister.sessions reports)
    (hleaves : last.1 = persister.drainedTo
      (Report.settleAll (persister.occasion now) persister.sessions reports))
    (hcalls : last.2.2 = outside.2 ++ reports.flatMap (·.calls)) :
    Drains env now persister outside drained (reports.flatMap (·.writes (persister.occasion now))) last
      reports where
  batches := hbatches
  fits := hfits
  answer := rfl
  leaves := hleaves
  calls := hcalls
  accounted report hreport := by
    obtain ⟨found, -, hreported⟩ := hfits.exists_fits hkeyed hreport
    exact ⟨found, hreported, fun handling => hreported.accounted hreport⟩
  handed := by rw [Report.forwarded_calls, hbatches, flatten_chunks hsize]
  about call hcall id hid := by
    obtain ⟨report, hreport, hcall⟩ := List.mem_flatMap.mp hcall
    obtain ⟨found, hfound, hreported⟩ := hfits.exists_fits hkeyed hreport
    have hids := List.mem_flatMap.mpr ⟨report, hreport, hreported.about hfound hcall id hid⟩
    rwa [Report.flatMap_ids, hbatches, flatten_chunks hsize] at hids
  shown := by
    refine ⟨_, rfl, ?_, ?_⟩
    · rw [Report.increments_calls, ← flatten_chunks hsize drained, ← hbatches, ← Report.flatMap_batch]
      exact Handling.pairs_sublist _
    · rw [Report.increments_calls]
      exact pairs_of_fits hkeyed hfits

theorem build_leaves (env : Surroundings σ M) (now : Int) (hclosed : persister.window.Closed)
    (hkeyed : persister.sessions.Keyed) (hdue : persister.isDue = true) (outside : Witnessed σ M) :
    let last := ((build env.witnessed now).run.run (persister, outside)).2.1
    last = persister.drainedTo last.sessions ∧ last.sessions.Keyed := by
  intro last
  have hworked : persister.Worked (fun _ => True) last :=
    (ends_state fun last : Persister M × Witnessed σ M => persister.Worked _ last.1).mp
      (build_worked env.witnessed trivial persister outside)
  exact ⟨hworked.eq_drainedTo hdue hclosed, hworked.keyed hkeyed⟩

theorem build_drains [KeepsIdentity M] (env : Surroundings σ M) (now : Int) (hsound : persister.Sound)
    (hkeyed : persister.sessions.Keyed) (hdue : persister.isDue = true) (outside : Witnessed σ M) :
    Ends (build env.witnessed now) (persister, outside)
      (fun writes last => ∃ reports, Drains env.witnessed now persister outside persister.toDrain writes
        last reports)
      (fun _ last => ∃ sessions, last.1 = persister.drainedTo sessions) := by
  have hflatten := flatten_chunks hsound.loadBatch persister.toDrain
  have hdistinct : ((chunks persister.settings.loadBatch persister.toDrain).flatten.map
      Record.id).Nodup := by
    rw [hflatten]
    exact hsound.keyed.distinct
  have hreports : Ends (build env.witnessed now) (persister, outside) _ _ :=
    (ends_build_iff hsound hdue).mpr
      (buildIn_reports (Surroundings.witnessed_follows env persister.model outside.2) hkeyed
        (List.append_nil outside.2).symm hdistinct)
  refine (hreports.and_state
    ⟨_, (build_leaves env now hsound.closed hkeyed hdue outside).1⟩).mono ?_ fun _ _ h => h.2
  rintro _ last ⟨⟨reports, hbatches, hfits, rfl, hleaves, hcalls⟩, -⟩
  exact ⟨reports, drains_of_reports hsound.loadBatch hkeyed hbatches hfits hleaves hcalls⟩

end Persister

/-! ## Turns -/

/-- What may happen to a persister. -/
inductive Turn (σ M : Type) where
  | accept (record : M)
  | build (now : Int)
  | endRound (now : Int)
  | settle (callback : SessionCallback M) (verdict : Verdict)
  /-- The others go on by themselves. -/
  | meanwhile (change : σ → σ)

namespace Turn

def accepted? : Turn σ M → Option M
  | accept record => some record
  | _ => none

def isBuild : Turn σ M → Bool
  | build _ => true
  | _ => false

end Turn

/-- A persister among others, and what has happened to it. -/
structure PersisterRun (σ M : Type) where
  persister : Persister M
  outside : Witnessed σ M
  builds : Nat := 0
  /-- Accepted since the last build that drained the window. -/
  waiting : List M := []
  /-- What was waiting at each build that drained the window. -/
  drains : List (List M) := []

namespace PersisterRun

/-- A persister that nothing has happened to. -/
def start (model : Model) (settings : PersisterSettings) (outside : σ) : PersisterRun σ M where
  persister := { model, settings }
  outside := (outside, [])

/-- The window counts as drained on each `every`-th build, the first one included. -/
def build (env : Surroundings σ M) (every : Nat) (run : PersisterRun σ M) (now : Int) :
    PersisterRun σ M :=
  let (persister, outside) :=
    ((Persister.build env.witnessed now).run.run (run.persister, run.outside)).2
  if every ∣ run.builds then
    { persister, outside, builds := run.builds + 1, waiting := []
      drains := run.drains ++ [run.waiting] }
  else { run with persister, outside, builds := run.builds + 1 }

def next (env : Surroundings σ M) (every : Nat) (run : PersisterRun σ M) : Turn σ M → PersisterRun σ M
  | .accept record =>
    { run with
      persister := (run.persister.write record).countAccepted
      waiting := run.waiting ++ [record] }
  | .build now => run.build env every now
  | .endRound now => { run with persister := run.persister.endRound now }
  | .settle callback verdict =>
    { run with persister := run.persister.settle callback verdict }
  | .meanwhile change => { run with outside := (change run.outside.1, run.outside.2) }

def after (env : Surroundings σ M) (model : Model) (settings : PersisterSettings) (outside : σ)
    (turns : List (Turn σ M)) : PersisterRun σ M :=
  turns.foldl (next env settings.drainEvery) (start model settings outside)

/-- What every turn keeps. -/
structure Kept (settings : PersisterSettings) (run : PersisterRun σ M) : Prop extends
    Persister.Sound run.persister where
  sessions : run.persister.sessions.Keyed
  waits : run.persister.Waits run.waiting
  rounds : run.persister.rounds = run.builds
  settings : run.persister.settings = settings

variable {env : Surroundings σ M} {settings : PersisterSettings} {run : PersisterRun σ M}

theorem Kept.start (hsettings : settings.check = .ok ()) (model : Model) (outside : σ) :
    (start model settings outside : PersisterRun σ M).Kept settings :=
  ⟨⟨.empty, .empty, ((PersisterSettings.check_eq_ok_iff _).mp hsettings).2⟩, .empty,
    Buffer.get?_empty, rfl, rfl⟩

theorem Kept.isDue_iff (h : run.Kept settings) :
    run.persister.isDue = true ↔ settings.drainEvery ∣ run.builds := by
  rw [Persister.isDue, h.rounds, h.settings, beq_iff_eq, Nat.dvd_iff_mod_eq_zero]

theorem Kept.drained (h : run.Kept settings) {sessions : Sessions M} (hkeyed : sessions.Keyed)
    (outside : Witnessed σ M) (drains : List (List M)) :
    Kept settings { persister := run.persister.drainedTo sessions, outside
                    builds := run.builds + 1, waiting := [], drains } :=
  ⟨⟨.empty, .empty, h.loadBatch⟩, hkeyed, Buffer.get?_empty, congrArg (· + 1) h.rounds, h.settings⟩

theorem Kept.build (h : run.Kept settings) (now : Int) :
    (run.build env settings.drainEvery now).Kept settings := by
  unfold PersisterRun.build
  split_ifs with hevery
  · obtain ⟨hleaves, hkeyed⟩ := Persister.build_leaves env now h.closed h.sessions
      (h.isDue_iff.mpr hevery) run.outside
    dsimp only
    rw [hleaves]
    exact h.drained hkeyed _ _
  · have hdue : run.persister.isDue = false := by
      rw [← Bool.not_eq_true, h.isDue_iff]
      exact hevery
    rw [Persister.build_satOut env.witnessed now hdue]
    exact ⟨⟨h.closed, h.keyed, h.loadBatch⟩, h.sessions, h.waits, congrArg (· + 1) h.rounds,
      h.settings⟩

theorem Kept.next [KeepsIdentity M] (h : run.Kept settings) (turn : Turn σ M) :
    (run.next env settings.drainEvery turn).Kept settings := by
  cases turn with
  | accept record =>
    refine ⟨⟨h.closed.write record, h.toSound.keyed.accept record, h.loadBatch⟩, h.sessions, ?_,
      h.rounds, h.settings⟩
    intro id
    show (run.persister.window.active.accept record).get? id = foldOf id (run.waiting ++ [record])
    rw [foldOf_append, ← h.waits id]
    exact Buffer.get?_acceptAll _ [record] id
  | build now => exact h.build now
  | endRound now =>
    exact ⟨⟨h.closed, h.keyed, h.loadBatch⟩, h.sessions.evict _ _, h.waits, h.rounds, h.settings⟩
  | settle callback verdict =>
    exact ⟨⟨h.closed, h.keyed, h.loadBatch⟩, h.sessions.settle _ _, h.waits, h.rounds, h.settings⟩
  | meanwhile change =>
    exact ⟨⟨h.closed, h.keyed, h.loadBatch⟩, h.sessions, h.waits, h.rounds, h.settings⟩

theorem kept_after [KeepsIdentity M] (env : Surroundings σ M) (model : Model)
    (hsettings : settings.check = .ok ()) (outside : σ) (turns : List (Turn σ M)) :
    (after env model settings outside turns).Kept settings :=
  List.foldlRecOn turns _ (.start hsettings model outside) fun _ h turn _ => h.next turn

/-! ### What was waiting -/

theorem waiting_next (every : Nat) (turn : Turn σ M) :
    (run.next env every turn).drains.flatten ++ (run.next env every turn).waiting =
      run.drains.flatten ++ run.waiting ++ turn.accepted?.toList := by
  cases turn with
  | accept record => exact (List.append_assoc _ _ _).symm
  | build now =>
    simp only [next, build]
    split_ifs <;> simp [Turn.accepted?]
  | endRound | settle | meanwhile => exact (List.append_nil _).symm

theorem waiting_after (env : Surroundings σ M) (model : Model) (settings : PersisterSettings)
    (outside : σ) (turns : List (Turn σ M)) :
    (after env model settings outside turns).drains.flatten ++
      (after env model settings outside turns).waiting = turns.filterMap Turn.accepted? := by
  induction turns using List.reverseRecOn with
  | nil => rfl
  | append_singleton turns turn ih =>
    rw [after, List.foldl_concat, ← after, waiting_next, ih, List.filterMap_append]
    cases turn <;> rfl

theorem builds_next (every : Nat) (turn : Turn σ M) :
    (run.next env every turn).builds = run.builds + if turn.isBuild then 1 else 0 := by
  cases turn with
  | build now =>
    simp only [next, build]
    split <;> rfl
  | accept | endRound | settle | meanwhile => rfl

theorem builds_after (env : Surroundings σ M) (model : Model) (settings : PersisterSettings)
    (outside : σ) (turns : List (Turn σ M)) :
    (after env model settings outside turns).builds = turns.countP Turn.isBuild := by
  induction turns using List.reverseRecOn with
  | nil => rfl
  | append_singleton turns turn ih =>
    rw [after, List.foldl_concat, ← after, builds_next, ih, List.countP_append, List.countP_singleton]

theorem length_drains_next {every : Nat} (hevery : 0 < every)
    (h : run.drains.length = (run.builds + (every - 1)) / every) (turn : Turn σ M) :
    (run.next env every turn).drains.length =
      ((run.next env every turn).builds + (every - 1)) / every := by
  cases turn with
  | build now =>
    have hnext : run.builds + 1 + (every - 1) = run.builds + every := by omega
    have hlast : run.builds + (every - 1) + 1 = run.builds + every := by omega
    have hcount : (run.builds + (every - 1) + 1) / every = _ := Nat.succ_div
    simp only [hlast, Nat.dvd_add_left (Nat.dvd_refl every)] at hcount
    simp only [next, build]
    split_ifs at hcount ⊢ <;> simp [hnext, hcount, h]
  | accept | endRound | settle | meanwhile => exact h

theorem length_drains_after (env : Surroundings σ M) (model : Model)
    (hevery : 0 < settings.drainEvery) (outside : σ) (turns : List (Turn σ M)) :
    (after env model settings outside turns).drains.length =
      ((after env model settings outside turns).builds + (settings.drainEvery - 1)) /
        settings.drainEvery := by
  induction turns using List.reverseRecOn with
  | nil =>
    refine (Nat.div_eq_of_lt ?_).symm
    show 0 + (settings.drainEvery - 1) < settings.drainEvery
    omega
  | append_singleton turns turn ih =>
    rw [after, List.foldl_concat, ← after]
    exact length_drains_next hevery ih turn

/-! ### The next build -/

/-- What some turns have made of a persister, and what the next build makes of it. -/
structure Regular (settings : PersisterSettings) (env : Surroundings σ M) (turns : List (Turn σ M))
    (run : PersisterRun σ M) : Prop where
  builds : run.builds = turns.countP Turn.isBuild
  drains : run.drains.length = (run.builds + (settings.drainEvery - 1)) / settings.drainEvery
  /-- Every record is in one drain, or waits for the next. -/
  partition : run.drains.flatten ++ run.waiting = turns.filterMap Turn.accepted?
  waits : run.persister.Waits run.waiting
  skipped : ¬ settings.drainEvery ∣ run.builds → ∀ now,
    (Persister.build env.witnessed now).run.run (run.persister, run.outside) =
      ((.ok [] : Except Fault (List (Write M))),
        { run.persister with rounds := run.persister.rounds + 1 }, run.outside)
  due : settings.drainEvery ∣ run.builds → ∀ now, ∃ drained : List M,
    drained.Perm (foldsOf run.waiting) ∧ (drained.map Record.id).Nodup ∧
      Ends (Persister.build env.witnessed now) (run.persister, run.outside)
        (fun writes last => ∃ reports, Persister.Drains env.witnessed now run.persister run.outside
          drained writes last reports)
        (fun _ last => ∃ sessions, last.1 = run.persister.drainedTo sessions)

/-- Every `drainEvery`-th build drains what was accepted since the last of them, and the others touch
nothing. -/
theorem every_nth_build_drains [KeepsIdentity M] (env : Surroundings σ M) (model : Model)
    {settings : PersisterSettings} (hsettings : settings.check = .ok ()) (outside : σ)
    (turns : List (Turn σ M)) :
    Regular settings env turns (after env model settings outside turns) := by
  have hkept := kept_after env model hsettings outside turns
  refine ⟨builds_after env model settings outside turns, ?_,
    waiting_after env model settings outside turns, hkept.waits, fun hskipped now => ?_,
    fun hdue now => ⟨_, Buffer.toList_perm_foldsOf hkept.waits, hkept.toSound.keyed.distinct, ?_⟩⟩
  · exact length_drains_after env model ((PersisterSettings.check_eq_ok_iff _).mp hsettings).1
      outside turns
  · apply Persister.build_satOut
    rwa [← Bool.not_eq_true, hkept.isDue_iff]
  · exact Persister.build_drains env now hkept.toSound hkept.sessions (hkept.isDue_iff.mpr hdue) _

/-- The build in between was skipped, and what came before and after it is written as one record. The
row of the checkout is known from the first build, that of the basket is not there yet. -/
theorem every_nth_build_drains_of_two :
    let checkout := MetricId.onFirstDay (.single "checkout")
    let basket := MetricId.onFirstDay (.single "basket")
    let env : Surroundings Unit SumRecord := {
      load := fun _ _ => pure (.ok [])
      prepare := fun _ _ _ => pure (.ok ())
      dispatch := fun _ _ => pure ()
      forward := fun _ => pure () }
    let settings : PersisterSettings := { drainEvery := 2 }
    let turns := [.accept (.new checkout 3), .build 1000,
      .settle ⟨.insert, .new checkout 3, 1000⟩ .executed, .accept (.new checkout 5), .build 2000,
      .accept (.new checkout 7), .accept (.new basket 4), .endRound 2500]
    let run := after env { name := "orders", level := .day } settings () turns
    let drain := (Persister.build env.witnessed 3000).run.run (run.persister, run.outside)
    settings.check = .ok () ∧ run.builds = 2 ∧
      (foldsOf run.waiting).Perm [.new basket 4, .new checkout 12] ∧
      drain.1.toOption.map (·.map fun write => (write.kind, write.id, write.fields)) =
        some [(.insert, basket, Record.toFields (SumRecord.new basket 4)),
          (.update, checkout, Record.toFields (SumRecord.new checkout 15))] ∧
      drain.2.2.2.drop run.outside.2.length = [.load [basket],
        .prepare .insert (.new basket 4), .dispatch (.new basket 4) .total,
        .dispatch (.new basket 4) .increment, .forward (.new basket 4),
        .prepare .update (.new checkout 15), .dispatch (.new checkout 15) .total,
        .dispatch (.new checkout 12) .increment, .forward (.new checkout 12)] ∧
      Regular settings env turns run := by
  intro checkout basket env settings turns run drain
  exact ⟨rfl, by decide +kernel, by decide +kernel, by decide +kernel, by decide +kernel,
    every_nth_build_drains env _ rfl () turns⟩

end PersisterRun

end Rollup
