import Rollup.Fanout
import Rollup.Proofs.BrokenRounds
import Rollup.Proofs.Entries
import Rollup.Proofs.Interchange

/-!
# Audiences

What the consumers of a persister get to see of a round: for each write the whole record and then the
drained one, in the order of the writes, and nothing else. The whole record of an update is also what is
cached from then on.
-/

namespace Rollup

open Rollup.Action

variable {ι σ M : Type}

/-! ## Who listens -/

namespace Fanout

mutual

/-- The consumers that are no fan-outs, each with its interest. -/
def listeners : Fanout ι → List (ι × Interest)
  | .single consumer interest => [(consumer, interest)]
  | .group members => allListeners members

def allListeners : List (Fanout ι) → List (ι × Interest)
  | [] => []
  | member :: rest => listeners member ++ allListeners rest

end

def interestedIn (kind : EventKind) (listeners : List (ι × Interest)) : List ι :=
  (listeners.filter fun listener => takes listener.2 kind).map (·.1)

theorem interestedIn_append (kind : EventKind) (listeners more : List (ι × Interest)) :
    interestedIn kind (listeners ++ more) = interestedIn kind listeners ++ interestedIn kind more := by
  simp [interestedIn]

mutual

theorem receivers_eq (kind : EventKind) : (fanout : Fanout ι) →
    (if interested kind fanout then receivers kind fanout else []) =
      interestedIn kind (listeners fanout)
  | .single consumer interest => by
    cases h : takes interest kind <;> simp [interested, receivers, listeners, interestedIn, h]
  | .group members => by
    rw [listeners, ← dispatch_eq kind members, interested, receivers]
    cases h : anyInterested kind members with
    | true => rfl
    | false => exact (dispatch_of_not_interested kind members h).symm

theorem dispatch_eq (kind : EventKind) : (members : List (Fanout ι)) →
    dispatch kind members = interestedIn kind (allListeners members)
  | [] => rfl
  | member :: rest => by
    rw [dispatch, allListeners, interestedIn_append, receivers_eq kind member, dispatch_eq kind rest]

theorem dispatch_of_not_interested (kind : EventKind) : (members : List (Fanout ι)) →
    anyInterested kind members = false → dispatch kind members = []
  | [], _ => rfl
  | member :: rest, h => by
    rw [anyInterested, Bool.or_eq_false_iff] at h
    rw [dispatch, h.1, dispatch_of_not_interested kind rest h.2]
    rfl

end

end Fanout

/-! ## What they see -/

/-- Others, and what each consumer was handed so far. -/
abbrev Attended (ι σ M : Type) := σ × List (ι × M × EventKind)

namespace Attended

def aside {α : Type} (act : Action σ α) : Action (Attended ι σ M) α := fun (s, heard) =>
  let (answer, s) := act.run.run s
  (answer, s, heard)

/-- Hands a record to a consumer, which makes of it what it likes. -/
def hand (accept : ι → M → EventKind → Action σ Unit) (record : M) (kind : EventKind)
    (consumer : ι) : Action (Attended ι σ M) Unit := fun (s, heard) =>
  let (answer, s) := (accept consumer record kind).run.run s
  (answer, s, heard ++ [(consumer, record, kind)])

/-- What a consumer was handed. -/
def heardBy [DecidableEq ι] (consumer : ι) (heard : List (ι × M × EventKind)) :
    List (M × EventKind) :=
  (heard.filter (·.1 = consumer)).map (·.2)

theorem heardBy_append [DecidableEq ι] (consumer : ι) (heard more : List (ι × M × EventKind)) :
    heardBy consumer (heard ++ more) = heardBy consumer heard ++ heardBy consumer more := by
  simp [heardBy]

/-- What is handed out when these events are dispatched. -/
def shown (consumers : Fanout ι) (events : List (M × EventKind)) : List (ι × M × EventKind) :=
  events.flatMap fun event => (Fanout.dispatch event.2 consumers.members).map (·, event)

theorem heardBy_shown [DecidableEq ι] {consumers : Fanout ι} {consumer : ι}
    {only : Interest}
    (honce : (Fanout.allListeners consumers.members).filter (·.1 = consumer) = [(consumer, only)])
    (events : List (M × EventKind)) :
    heardBy consumer (shown consumers events) = events.filter fun event => Fanout.takes only event.2 := by
  have hevent : ∀ event : M × EventKind,
      heardBy consumer ((Fanout.dispatch event.2 consumers.members).map (·, event)) =
        if Fanout.takes only event.2 then [event] else [] := by
    intro event
    rw [Fanout.dispatch_eq, Fanout.interestedIn, List.map_map, heardBy, List.filter_map,
      List.filter_filter]
    have hcomm : (Fanout.allListeners consumers.members).filter (fun listener =>
        decide (listener.1 = consumer) && Fanout.takes listener.2 event.2) =
          [(consumer, only)].filter fun listener => Fanout.takes listener.2 event.2 := by
      rw [← honce, List.filter_filter]
      simp only [Bool.and_comm]
    simp only [Function.comp_def]
    rw [hcomm, List.filter_singleton]
    cases Fanout.takes only event.2 <;> rfl
  induction events with
  | nil => rfl
  | cons event rest ih =>
    have happend : heardBy consumer (shown consumers (event :: rest)) =
        heardBy consumer ((Fanout.dispatch event.2 consumers.members).map (·, event)) ++
          heardBy consumer (shown consumers rest) := by
      simp [heardBy, shown]
    rw [happend, ih, hevent]
    cases h : Fanout.takes only event.2 <;> simp [h]

end Attended

/-- The same surroundings, with these consumers. -/
def Surroundings.showing (env : Surroundings σ M) (consumers : Fanout ι)
    (accept : ι → M → EventKind → Action σ Unit) : Surroundings (Attended ι σ M) M where
  load model ids := Attended.aside (env.load model ids)
  prepare kind model record := Attended.aside (env.prepare kind model record)
  dispatch record kind :=
    (Fanout.dispatch kind consumers.members).forM (Attended.hand accept record kind)
  forward record := Attended.aside (env.forward record)

section

open Attended

variable {consumers : Fanout ι} {accept : ι → M → EventKind → Action σ Unit}
  {heard : List (ι × M × EventKind)}

theorem ends_aside {α : Type} (act : Action σ α) (holds : List (ι × M × EventKind) → Prop)
    {s : Attended ι σ M} (h : holds s.2) :
    Ends (aside act) s (fun _ s' => holds s'.2) fun _ _ => True := by
  have hrun : (aside act).run.run s = ((act.run.run s.1 : Except Fault α × σ).1,
      (act.run.run s.1 : Except Fault α × σ).2, s.2) := rfl
  unfold Ends
  rw [hrun]
  cases (act.run.run s.1 : Except Fault α × σ).1 with
  | ok answer => exact h
  | error fault => trivial

theorem ends_hand (record : M) (kind : EventKind) (consumer : ι) (s : Attended ι σ M) :
    Ends (hand accept record kind consumer) s
      (fun _ s' => s'.2 = s.2 ++ [(consumer, record, kind)]) fun _ _ => True := by
  have hrun : (hand accept record kind consumer).run.run s =
      (((accept consumer record kind).run.run s.1 : Except Fault Unit × σ).1,
        ((accept consumer record kind).run.run s.1 : Except Fault Unit × σ).2,
        s.2 ++ [(consumer, record, kind)]) := rfl
  unfold Ends
  rw [hrun]
  cases ((accept consumer record kind).run.run s.1 : Except Fault Unit × σ).1 with
  | ok answer => rfl
  | error fault => trivial

theorem showing_follows (env : Surroundings σ M) (model : Model) :
    (env.showing consumers accept).Follows model fun calls s =>
      s.2 = heard ++ shown consumers (calls.filterMap OutsideCall.event?) where
  load ids calls s h := by
    refine ends_aside _ (fun heard' => heard' = _) (h.trans ?_)
    simp [List.filterMap_cons, OutsideCall.event?]
  prepare kind record calls s h := by
    refine ends_aside _ (fun heard' => heard' = _) (h.trans ?_)
    simp [List.filterMap_cons, OutsideCall.event?]
  dispatch record kind calls s h := by
    have hends : Ends ((Fanout.dispatch kind consumers.members).forM (hand accept record kind)) s
        (fun _ s' => s'.2 =
          s.2 ++ (Fanout.dispatch kind consumers.members).map (·, record, kind)) fun _ _ => True := by
      apply Ends.forM fun seen (s' : Attended ι σ M) => s'.2 = s.2 ++ seen.map (·, record, kind)
      · simp
      · intro seen consumer rest s' _ hseen
        refine (ends_hand record kind consumer s').mono (fun _ s'' hlast => ?_) fun _ _ => id
        rw [hlast, hseen]
        simp
    refine hends.mono (fun _ s' hlast => ?_) fun _ _ => id
    rw [hlast, h]
    simp [shown, OutsideCall.event?]
  forward record calls s h := by
    refine ends_aside _ (fun heard' => heard' = _) (h.trans ?_)
    simp [List.filterMap_cons, OutsideCall.event?]

theorem gives_of_aside {α : Type} {act : Action σ α} {answer : α}
    (h : (aside act : Action (Attended ι σ M) α).Gives answer) : act.Gives answer := by
  obtain ⟨s, s', hrun⟩ := h
  have hact : (act.run.run s.1 : Except Fault α × σ).1 = .ok answer := congrArg Prod.fst hrun
  exact ⟨s.1, _, Prod.ext hact rfl⟩

end

/-! ## A round and its audience -/

namespace Persister

variable [Record M] {now : Int} {persister : Persister M}

/-- For this write the consumers were shown these two records: the whole one and the drained one. -/
structure Announces (env : Surroundings σ M) (now : Int) (persister : Persister M)
    (sessions : Sessions M) (write : Write M) (pair : M × M) : Prop where
  id : write.id = Record.id pair.1
  fields : write.fields = Record.toFields pair.1
  drained : Record.id pair.2 = write.id
  /-- Unless the clock was set back behind the entry that was to be trusted. -/
  cached : env.Disciplined persister.model → write.kind = .update →
    Session.reachedBy ((persister.occasion now).trusted (persister.sessions.session? write.id)) now →
    sessions.get? write.id = some pair.1

variable {env : Surroundings σ M} {consumers : Fanout ι} {accept : ι → M → EventKind → Action σ Unit}
  {reports : List (Report M)}

theorem announces_of_written [KeepsIdentity M] (hkeyed : persister.sessions.Keyed)
    (hdistinct : (reports.flatMap (·.ids)).Nodup)
    (hfits : Report.FitsAll (env.showing consumers accept) (persister.occasion now)
      persister.sessions reports)
    {report : Report M} (hreport : report ∈ reports) {handling : Handling M}
    (hhandling : handling ∈ report.handlings) {kind : RequestKind} {whole : M}
    (hfate : handling.fate = .written kind whole) :
    persister.Announces env now
      (Report.settleAll (persister.occasion now) persister.sessions reports)
      (.of kind persister.model whole now) (whole, handling.drained) := by
  have hid : Record.id whole = handling.id := by
    obtain ⟨found, hfound, hreported⟩ := hfits.exists_fits hkeyed hreport
    exact (hreported.handles.suits handling hhandling).id_eq
      ((persister.occasion now).keyed_opened hfound _ _) hfate
  refine ⟨rfl, rfl, hid.symm, fun henv hkind hreached => ?_⟩
  have henv : (env.showing consumers accept).Disciplined persister.model :=
    fun ids loaded hgives => henv ids loaded (gives_of_aside hgives)
  have hkind : kind = .update := hkind
  subst hkind
  have hmem : handling.id ∈ report.ids := List.mem_map_of_mem hhandling
  obtain ⟨found, hfound, hreported, hentries⟩ := hfits.of_mem henv hkeyed hdistinct hreport
  have hopened : Session.reachedBy
      ((report.opened (persister.occasion now) found).session? handling.id) now := by
    refine Occasion.reachedBy_opened hmem ?_ _
    rw [(hentries _ hmem).1]
    exact hid ▸ hreached
  have hentry := hreported.handles.session?_of_mem
    ((persister.occasion now).keyed_opened hfound _ _)
    ((List.nodup_flatMap.mp hdistinct).1 report hreport) hhandling
  rw [hfate] at hentry
  refine Sessions.get?_eq_some_iff.mpr ⟨⟨whole, now⟩, ?_, rfl⟩
  show (Report.settleAll _ _ reports).session? (Record.id whole) = _
  rw [hid, (hentries _ hmem).2]
  exact hentry.trans (if_pos hopened)

/-- What the consumers have heard of a round, and what they had heard before. -/
structure Announced [DecidableEq ι] (env : Surroundings σ M) (consumers : Fanout ι) (now : Int)
    (persister : Persister M) (before : List (ι × M × EventKind)) (pairs : List (M × M))
    (writes : List (Write M)) (last : Persister M × Attended ι σ M) : Prop where
  writes : List.Forall₂ (persister.Announces env now last.1.sessions) writes pairs
  drained : (pairs.map (·.2)).Sublist persister.toDrain
  heard : ∀ consumer only,
    (Fanout.allListeners consumers.members).filter (·.1 = consumer) = [(consumer, only)] →
    Attended.heardBy consumer last.2.2 = Attended.heardBy consumer before ++
      (pairs.flatMap announced).filter fun event => Fanout.takes only event.2

/-- Every write is announced by two events, in the order of the writes, and nothing else is: a consumer
sees what it is interested in. The whole record of an update is cached. -/
theorem events_match_writes [KeepsIdentity M] [DecidableEq ι] (env : Surroundings σ M)
    (consumers : Fanout ι) (accept : ι → M → EventKind → Action σ Unit) (hsound : persister.Sound)
    (hkeyed : persister.sessions.Keyed) (now : Int) (outside : Attended ι σ M) :
    Ends (build (env.showing consumers accept) now) (persister, outside)
      (fun writes last => ∃ pairs, Announced env consumers now persister outside.2 pairs writes last)
      (fun _ _ => True) := by
  cases hdue : persister.isDue with
  | false =>
    unfold Ends
    rw [build_satOut _ _ hdue]
    exact ⟨[], .nil, List.nil_sublist _, fun _ _ _ => (List.append_nil _).symm⟩
  | true =>
    rw [ends_build_iff hsound hdue]
    have hflatten := flatten_chunks hsound.loadBatch persister.toDrain
    have hdistinct : ((chunks persister.settings.loadBatch persister.toDrain).flatten.map
        Record.id).Nodup := by
      rw [hflatten]
      exact hsound.keyed.distinct
    refine (buildIn_reports (showing_follows env persister.model) hkeyed
      (List.append_nil outside.2).symm hdistinct).mono ?_ fun _ _ _ => trivial
    rintro _ last ⟨reports, hbatches, hfits, rfl, hlast, houtside⟩
    have hids : (reports.flatMap (·.ids)).Nodup := by
      rwa [Report.flatMap_ids, hbatches]
    refine ⟨(reports.flatMap (·.handlings)).filterMap (·.pair?), ⟨?_, ?_, ?_⟩⟩
    · rw [Report.flatMap_writes, hlast]
      refine List.rel_filterMap (R := fun handling other => handling = other ∧
        handling ∈ reports.flatMap (·.handlings)) ?_ (List.forall₂_same.mpr fun _ hmem => ⟨rfl, hmem⟩)
      rintro ⟨drained, fate⟩ _ ⟨rfl, hmem⟩
      obtain ⟨report, hreport, hhandling⟩ := List.mem_flatMap.mp hmem
      cases fate with
      | written kind whole =>
        exact .some (announces_of_written hkeyed hids hfits hreport hhandling rfl)
      | left | failed | passedOver => exact .none
    · rw [← hflatten, ← hbatches, ← Report.flatMap_batch]
      exact Handling.pairs_sublist _
    · intro consumer only honce
      rw [houtside, Report.events_calls, Attended.heardBy_append, Attended.heardBy_shown honce]

/-- One row is there and one is not. A consumer behind another fan-out wants increments only. -/
theorem events_match_writes_of_two :
    let checkout := MetricId.onFirstDay (.single "checkout")
    let basket := MetricId.onFirstDay (.single "basket")
    let env : Surroundings Unit SumRecord := {
      load := fun _ ids => pure (.ok ((ids.filter (· = checkout)).map (.new · 4)))
      prepare := fun _ _ _ => pure (.ok ())
      dispatch := fun _ _ => pure ()
      forward := fun _ => pure () }
    let consumers : Fanout Nat :=
      .group [.leaf 0 none, .group [.leaf 1 (some .total), .leaf 2 (some .increment)]]
    let persister : Persister SumRecord := [.new checkout 3, .new basket 5].foldl Persister.write
      { model := { name := "orders", level := .day } }
    let accept : Nat → SumRecord → EventKind → Action Unit Unit := fun _ _ _ => pure ()
    let ended := (build (env.showing consumers accept) 1000).run.run (persister, (), [])
    ended.1.toOption.map (·.map fun write => (write.kind, write.id)) =
      some [(.insert, basket), (.update, checkout)] ∧
    Attended.heardBy 2 ended.2.2.2 = [(.new basket 5, .increment), (.new checkout 3, .increment)] ∧
    ended.2.1.sessions.get? checkout = some (.new checkout 7) ∧
    Ends (build (env.showing consumers accept) 1000) (persister, (), [])
      (fun writes last => ∃ pairs, Announced env consumers 1000 persister [] pairs writes last)
      (fun _ _ => True) := by
  intro checkout basket env consumers persister accept ended
  refine ⟨by decide +kernel, by decide +kernel, by decide +kernel, ?_⟩
  refine events_match_writes env consumers accept ?_ .empty 1000 ((), [])
  exact PersisterState.sound_writes _ ⟨.empty, .empty, by decide⟩

end Persister

end Rollup
