import Rollup.Proofs.Decisions
import Rollup.Proofs.Witnesses

/-!
# Reports

The course of a round, whatever the others do: what each batch asked for and was given, and what became
of each of its records. All that a round leaves can be read off its reports.
-/

namespace Rollup

open Rollup.Action

variable {σ M : Type}

/-! ## The others -/

namespace Surroundings

/-- Somebody may break off a round of this model. -/
def MayBreak (env : Surroundings σ M) (model : Model) : Prop :=
  (∃ ids, (env.load model ids).Breaks) ∨ (∃ kind record, (env.prepare kind model record).Breaks) ∨
    (∃ record kind, (env.dispatch record kind).Breaks) ∨ ∃ record, (env.forward record).Breaks

/-- A load of these identities answers like this. Nobody is asked for none. -/
def Loads (env : Surroundings σ M) (model : Model) (ids : List MetricId)
    (answer : Except StorageError (List M)) : Prop :=
  if ids = [] then answer = .ok [] else (env.load model ids).Gives answer

/-- Once these calls were made, `after` holds outside. -/
structure Follows (env : Surroundings σ M) (model : Model)
    (after : List (OutsideCall M) → σ → Prop) : Prop where
  load : ∀ (ids : List MetricId) {calls : List (OutsideCall M)} {s : σ}, after calls s →
    Ends (env.load model ids) s (fun _ => after (calls ++ [.load ids])) fun _ _ => True
  prepare : ∀ (kind : RequestKind) (record : M) {calls : List (OutsideCall M)} {s : σ},
    after calls s → Ends (env.prepare kind model record) s
      (fun _ => after (calls ++ [.prepare kind record])) fun _ _ => True
  dispatch : ∀ (record : M) (kind : EventKind) {calls : List (OutsideCall M)} {s : σ},
    after calls s → Ends (env.dispatch record kind) s
      (fun _ => after (calls ++ [.dispatch record kind])) fun _ _ => True
  forward : ∀ (record : M) {calls : List (OutsideCall M)} {s : σ}, after calls s →
    Ends (env.forward record) s (fun _ => after (calls ++ [.forward record])) fun _ _ => True

theorem witnessed_follows (env : Surroundings σ M) (model : Model) (before : List (OutsideCall M)) :
    env.witnessed.Follows model fun calls s => s.2 = before ++ calls := by
  have hcall : ∀ {α : Type} (call : OutsideCall M) (act : Action σ α) {calls : List (OutsideCall M)}
      {s : Witnessed σ M}, s.2 = before ++ calls → Ends (witness call act) s
        (fun _ s' => s'.2 = before ++ (calls ++ [call])) fun _ _ => True := by
    intro α call act calls s h
    rw [ends_witness, ← List.append_assoc, ← h]
    exact ends_of_forall (fun _ _ => rfl) fun _ _ => trivial
  exact ⟨fun _ => hcall _ _, fun _ _ => hcall _ _, fun _ _ => hcall _ _, fun _ => hcall _ _⟩

end Surroundings

/-! ## Records -/

/-- What became of a drained record. -/
inductive Fate (M : Type) where
  | written (kind : RequestKind) (whole : M)
  /-- No write was due. -/
  | left
  /-- Its write was due and could not be prepared. -/
  | failed (kind : RequestKind) (whole : M)
  /-- Its batch had failed. -/
  | passedOver

namespace Fate

def isFailed : Fate M → Bool
  | failed .. => true
  | _ => false

/-- Nothing comes of the record. -/
def isLost : Fate M → Bool
  | failed .. | passedOver => true
  | written .. | left => false

/-- What the work on the record answers. -/
def Answers : Fate M → Except StorageError Bool → Prop
  | written .., answer => answer = .ok true
  | left, answer => answer = .ok false
  | failed .., answer => ∃ error, answer = .error error
  | passedOver, _ => False

def calls : Fate M → List (OutsideCall M)
  | written kind whole => [.prepare kind whole, .dispatch whole .total]
  | failed kind whole => [.prepare kind whole]
  | left | passedOver => []

variable [Record M]

def write? (occasion : Occasion) : Fate M → Option (Write M)
  | written kind whole => some (.of kind occasion.model whole occasion.now)
  | _ => none

/-- An update is cached at once. -/
def settle (occasion : Occasion) (sessions : Sessions M) : Fate M → Sessions M
  | written .update whole => sessions.put whole occasion.now
  | _ => sessions

/-- The record has come to this because of what was cached, and of what the others did. -/
inductive Suits (env : Surroundings σ M) (occasion : Occasion) (cached : Option M) (drained : M) :
    Fate M → Prop
  | written {kind : RequestKind} {whole : M}
      (due : occasion.decision cached drained = .ok (some (kind, whole)))
      (prepared : (env.prepare kind occasion.model whole).Gives (.ok ())) :
      Suits env occasion cached drained (.written kind whole)
  | left (due : occasion.decision cached drained = .ok none) :
      Suits env occasion cached drained .left
  | failed {kind : RequestKind} {whole : M} {error : StorageError}
      (due : occasion.decision cached drained = .ok (some (kind, whole)))
      (refused : (env.prepare kind occasion.model whole).Gives (.error error)) :
      Suits env occasion cached drained (.failed kind whole)
  | passedOver : Suits env occasion cached drained .passedOver

end Fate

structure Handling (M : Type) where
  drained : M
  fate : Fate M

/-- What the consumers are shown of a record that was written. -/
def announced (pair : M × M) : List (M × EventKind) :=
  [(pair.1, .total), (pair.2, .increment)]

namespace Handling

/-- Whatever became of a record, it is handed on. -/
def calls (handling : Handling M) : List (OutsideCall M) :=
  match handling.fate with
  | .written kind whole =>
    [.prepare kind whole, .dispatch whole .total, .dispatch handling.drained .increment,
      .forward handling.drained]
  | .failed kind whole => [.prepare kind whole, .forward handling.drained]
  | .left | .passedOver => [.forward handling.drained]

/-- The whole record that was written, and the drained one. -/
def pair? (handling : Handling M) : Option (M × M) :=
  match handling.fate with
  | .written _ whole => some (whole, handling.drained)
  | _ => none

/-- Records are worked on until one of them fails. The rest is passed over. -/
def InTurn : (failed : Bool) → List (Handling M) → Prop
  | _, [] => True
  | true, handling :: rest => handling.fate = .passedOver ∧ InTurn true rest
  | false, handling :: rest => handling.fate ≠ .passedOver ∧ InTurn handling.fate.isFailed rest

variable [Record M]

def id (handling : Handling M) : MetricId := Record.id handling.drained

/-- What a list of records came to, each by what was cached of its identity before. -/
structure Handles (env : Surroundings σ M) (occasion : Occasion) (failed : Bool)
    (sessions : Sessions M) (handlings : List (Handling M)) : Prop where
  suits : ∀ handling ∈ handlings,
    handling.fate.Suits env occasion (sessions.get? handling.id) handling.drained
  turn : InTurn failed handlings

def settleAll (occasion : Occasion) (sessions : Sessions M) (handlings : List (Handling M)) :
    Sessions M :=
  handlings.foldl (fun sessions handling => handling.fate.settle occasion sessions) sessions

def writes (occasion : Occasion) (handlings : List (Handling M)) : List (Write M) :=
  handlings.filterMap (·.fate.write? occasion)

end Handling

/-! ## Batches -/

structure Report (M : Type) where
  asked : List MetricId
  loaded : Except StorageError (List M)
  handlings : List (Handling M)

namespace Report

def batch (report : Report M) : List M := report.handlings.map (·.drained)

def calls (report : Report M) : List (OutsideCall M) :=
  (if report.asked = [] then [] else [.load report.asked]) ++ report.handlings.flatMap (·.calls)

variable [Record M]

def ids (report : Report M) : List MetricId := report.handlings.map (·.id)

def writes (occasion : Occasion) (report : Report M) : List (Write M) :=
  Handling.writes occasion report.handlings

end Report

variable [Record M]

/-- The session cache once these identities were looked up, and these records loaded. -/
def Occasion.opened (occasion : Occasion) (sessions : Sessions M) (ids : List MetricId)
    (loaded : Except StorageError (List M)) : Sessions M :=
  (loaded.toOption.getD []).foldl (·.put · occasion.now) (occasion.pruned sessions ids)

/-- None of these records fails before one for which it cannot be told which write is due. -/
def Handling.Trips (env : Surroundings σ M) (occasion : Occasion) (sessions : Sessions M)
    (batch : List M) : Prop :=
  ∃ (handlings : List (Handling M)) (drained : M) (rest : List M),
    batch = handlings.map (·.drained) ++ drained :: rest ∧
    Handles env occasion false sessions handlings ∧ (∀ h ∈ handlings, h.fate.isFailed = false) ∧
    ∃ fault, occasion.decision (sessions.get? (Record.id drained)) drained = .error fault

namespace Report

/-- The session cache as the work on the records of the batch begins. -/
def opened (occasion : Occasion) (sessions : Sessions M) (report : Report M) : Sessions M :=
  occasion.opened sessions report.ids report.loaded

def settle (occasion : Occasion) (sessions : Sessions M) (report : Report M) : Sessions M :=
  Handling.settleAll occasion (report.opened occasion sessions) report.handlings

/-- This is a report of a batch that found this session cache. -/
structure Fits (env : Surroundings σ M) (occasion : Occasion) (sessions : Sessions M)
    (report : Report M) : Prop where
  asked : report.asked = occasion.missing sessions report.ids
  clear : ∀ id ∈ report.ids, occasion.Clear (sessions.session? id)
  loads : env.Loads occasion.model report.asked report.loaded
  handles : Handling.Handles env occasion (!report.loaded.isOk) (report.opened occasion sessions)
    report.handlings

/-- Something about these records themselves breaks their batch off. -/
def Stumbles (env : Surroundings σ M) (occasion : Occasion) (sessions : Sessions M)
    (batch : List M) : Prop :=
  let ids := batch.map Record.id
  (∃ id ∈ ids, ¬ occasion.Clear (sessions.session? id)) ∨
    ∃ loaded, env.Loads occasion.model (occasion.missing sessions ids) (.ok loaded) ∧
      Handling.Trips env occasion (occasion.opened sessions ids (.ok loaded)) batch

def settleAll (occasion : Occasion) (sessions : Sessions M) (reports : List (Report M)) :
    Sessions M :=
  reports.foldl (settle occasion) sessions

/-- These are the reports of some batches, one after another. -/
def FitsAll (env : Surroundings σ M) (occasion : Occasion) : Sessions M → List (Report M) → Prop
  | _, [] => True
  | sessions, report :: rest =>
    report.Fits env occasion sessions ∧ FitsAll env occasion (report.settle occasion sessions) rest

end Report

/-! ## What became of each record -/

omit [Record M] in
theorem Fate.isLost_of_isFailed {fate : Fate M} (h : fate.isFailed = true) : fate.isLost = true := by
  cases fate with
  | failed => rfl
  | written | left | passedOver => cases h

omit [Record M] in
theorem Handling.InTurn.ne_passedOver {handlings : List (Handling M)} (h : InTurn false handlings)
    (hspared : ∀ handling ∈ handlings, handling.fate.isFailed = false) :
    ∀ handling ∈ handlings, handling.fate ≠ .passedOver := by
  induction handlings with
  | nil => simp
  | cons first rest ih =>
    obtain ⟨hfirst, hrest⟩ := List.forall_mem_cons.mp hspared
    obtain ⟨hworked, hturn⟩ := h
    rw [hfirst] at hturn
    exact List.forall_mem_cons.mpr ⟨hworked, ih hturn hrest⟩

theorem Handling.writes_cons (occasion : Occasion) (handling : Handling M)
    (rest : List (Handling M)) : writes occasion (handling :: rest) =
      (handling.fate.write? occasion).toList ++ writes occasion rest := by
  unfold writes
  cases h : handling.fate.write? occasion <;> simp [h]

omit [Record M] in
theorem Handling.calls_eq (handling : Handling M) :
    handling.calls.filterMap OutsideCall.event? = handling.pair?.toList.flatMap announced ∧
      handling.calls.filterMap OutsideCall.forwarded? = [handling.drained] ∧
      handling.calls.filterMap OutsideCall.asked? = [] := by
  obtain ⟨drained, fate⟩ := handling
  cases fate <;> exact ⟨rfl, rfl, rfl⟩

omit [Record M] in
theorem Handling.pairs_sublist (handlings : List (Handling M)) :
    ((handlings.filterMap (·.pair?)).map (·.2)).Sublist (handlings.map (·.drained)) := by
  induction handlings with
  | nil => exact .slnil
  | cons handling rest ih =>
    obtain ⟨drained, fate⟩ := handling
    cases fate with
    | written kind whole => exact ih.cons_cons drained
    | left | failed | passedOver => exact ih.cons drained

namespace Report

omit [Record M] in
theorem filterMap_calls {α : Type} (f : OutsideCall M → Option α) (hload : ∀ ids, f (.load ids) = none)
    (reports : List (Report M)) :
    (reports.flatMap (·.calls)).filterMap f =
      (reports.flatMap (·.handlings)).flatMap fun handling => handling.calls.filterMap f := by
  have hreport : ∀ report : Report M, report.calls.filterMap f =
      report.handlings.flatMap fun handling => handling.calls.filterMap f := by
    intro report
    unfold calls
    rw [List.filterMap_append, List.filterMap_flatMap]
    split_ifs <;> simp [hload]
  rw [List.filterMap_flatMap, List.flatMap_assoc]
  simp only [hreport]

omit [Record M] in
theorem events_calls (reports : List (Report M)) :
    (reports.flatMap (·.calls)).filterMap OutsideCall.event? =
      ((reports.flatMap (·.handlings)).filterMap (·.pair?)).flatMap announced := by
  rw [filterMap_calls _ fun _ => rfl, List.filterMap_eq_flatMap_toList]
  simp only [(Handling.calls_eq _).1, List.flatMap_assoc]

omit [Record M] in
theorem flatMap_batch (reports : List (Report M)) :
    (reports.flatMap (·.handlings)).map (·.drained) = (reports.map (·.batch)).flatten := by
  rw [List.map_flatMap, List.flatMap_def]
  rfl

omit [Record M] in
theorem forwarded_calls (reports : List (Report M)) :
    (reports.flatMap (·.calls)).filterMap OutsideCall.forwarded? =
      (reports.map (·.batch)).flatten := by
  rw [filterMap_calls _ fun _ => rfl, ← flatMap_batch]
  simp only [(Handling.calls_eq _).2.1]
  exact List.map_eq_flatMap.symm

omit [Record M] in
theorem asked_calls (reports : List (Report M)) :
    (reports.flatMap (·.calls)).filterMap OutsideCall.asked? =
      (reports.map (·.asked)).filter (· ≠ []) := by
  have hhandlings : ∀ handlings : List (Handling M),
      (handlings.flatMap (·.calls)).filterMap OutsideCall.asked? = [] := by
    intro handlings
    rw [List.filterMap_flatMap]
    simp [(Handling.calls_eq _).2.2]
  induction reports with
  | nil => rfl
  | cons report rest ih =>
    rw [List.flatMap_cons, List.filterMap_append, ih, calls, List.filterMap_append, hhandlings]
    by_cases hnone : report.asked = []
    · simp [hnone]
    · simp [hnone, OutsideCall.asked?]

theorem flatMap_ids (reports : List (Report M)) :
    reports.flatMap (·.ids) = (reports.map (·.batch)).flatten.map Record.id := by
  rw [List.map_flatten, List.map_map, List.flatMap_def]
  congr 2
  funext report
  exact (List.map_map).symm

theorem flatMap_writes (occasion : Occasion) (reports : List (Report M)) :
    reports.flatMap (·.writes occasion) =
      Handling.writes occasion (reports.flatMap (·.handlings)) := List.filterMap_flatMap.symm

end Report

theorem Sessions.Keyed.id_of_due [KeepsIdentity M] {sessions : Sessions M} (hkeyed : sessions.Keyed)
    {occasion : Occasion} {drained whole : M} {kind : RequestKind}
    (hdue : occasion.decision (sessions.get? (Record.id drained)) drained = .ok (some (kind, whole))) :
    Record.id whole = Record.id drained := by
  refine Occasion.id_decision (fun record hrecord => ?_) hdue
  obtain ⟨held, hheld, rfl⟩ := Sessions.get?_eq_some_iff.mp hrecord
  exact hkeyed _ held hheld

theorem Fate.Suits.id_eq [KeepsIdentity M] {env : Surroundings σ M} {occasion : Occasion}
    {sessions : Sessions M} (hkeyed : sessions.Keyed) {drained whole : M} {kind : RequestKind}
    {fate : Fate M} (h : fate.Suits env occasion (sessions.get? (Record.id drained)) drained)
    (hfate : fate = .written kind whole) : Record.id whole = Record.id drained := by
  subst hfate
  cases h with
  | written due => exact hkeyed.id_of_due due

section

variable (occasion : Occasion) (sessions : Sessions M) (kind : RequestKind) (whole : M)

@[simp]
theorem Fate.settle_left : left.settle occasion sessions = sessions := rfl

@[simp]
theorem Fate.settle_failed : (failed kind whole).settle occasion sessions = sessions := rfl

@[simp]
theorem Fate.settle_passedOver : passedOver.settle occasion sessions = sessions := rfl

@[simp]
theorem Fate.write?_left : left.write? occasion = (none : Option (Write M)) := rfl

@[simp]
theorem Fate.write?_failed : (failed kind whole).write? occasion = none := rfl

@[simp]
theorem Fate.write?_passedOver : passedOver.write? occasion = (none : Option (Write M)) := rfl

@[simp]
theorem Fate.write?_written : (written kind whole).write? occasion =
    some (.of kind occasion.model whole occasion.now) := rfl

end

theorem Fate.keyed_settle {sessions : Sessions M} (h : sessions.Keyed) (occasion : Occasion)
    (fate : Fate M) : (fate.settle occasion sessions).Keyed := by
  unfold settle
  split
  · exact h.put _ _
  · exact h

theorem Handling.keyed_settleAll {sessions : Sessions M} (h : sessions.Keyed) (occasion : Occasion)
    (handlings : List (Handling M)) : (settleAll occasion sessions handlings).Keyed :=
  List.foldlRecOn handlings _ (motive := Sessions.Keyed) h
    fun _ h handling _ => Fate.keyed_settle h occasion handling.fate

theorem Occasion.keyed_opened (occasion : Occasion) {sessions : Sessions M} (h : sessions.Keyed)
    (ids : List MetricId) (loaded : Except StorageError (List M)) :
    (occasion.opened sessions ids loaded).Keyed :=
  List.foldlRecOn _ _ (motive := Sessions.Keyed) (keyed_pruned h ids)
    fun _ h record _ => h.put record occasion.now

theorem Report.keyed_settle (report : Report M) (occasion : Occasion) {sessions : Sessions M}
    (h : sessions.Keyed) : (report.settle occasion sessions).Keyed :=
  Handling.keyed_settleAll (occasion.keyed_opened h _ _) occasion report.handlings

section

variable [KeepsIdentity M] {env : Surroundings σ M} {occasion : Occasion} {failed : Bool}
  {sessions : Sessions M} {drained : M} {fate : Fate M} {handlings : List (Handling M)}

theorem Fate.Suits.session?_settle (hkeyed : sessions.Keyed)
    (h : fate.Suits env occasion (sessions.get? (Record.id drained)) drained) {id : MetricId}
    (hid : id ≠ Record.id drained) :
    (fate.settle occasion sessions).session? id = sessions.session? id := by
  unfold settle
  split
  · rename_i whole
    rw [Sessions.session?_put, if_neg fun hput => hid (hput.1.symm.trans (h.id_eq hkeyed rfl))]
  · rfl

theorem Fate.Suits.get?_settle (hkeyed : sessions.Keyed)
    (h : fate.Suits env occasion (sessions.get? (Record.id drained)) drained) {id : MetricId}
    (hid : id ≠ Record.id drained) :
    (fate.settle occasion sessions).get? id = sessions.get? id := by
  unfold Sessions.get?
  rw [h.session?_settle hkeyed hid]

omit [KeepsIdentity M] in
theorem Handling.ids_eq {batch : List M} (h : handlings.map (·.drained) = batch) :
    handlings.map id = batch.map Record.id := by
  rw [← h, List.map_map]
  rfl

theorem Handling.Handles.cons (hkeyed : sessions.Keyed)
    (h : Handles env occasion (failed || fate.isFailed) (fate.settle occasion sessions) handlings)
    (hsuits : fate.Suits env occasion (sessions.get? (Record.id drained)) drained)
    (hturn : if failed then fate = .passedOver else fate ≠ .passedOver)
    (hfresh : Record.id drained ∉ handlings.map id) :
    Handles env occasion failed sessions (⟨drained, fate⟩ :: handlings) := by
  refine ⟨fun handling hmem => ?_, ?_⟩
  · rcases List.mem_cons.mp hmem with rfl | hmem
    · exact hsuits
    · rw [← hsuits.get?_settle hkeyed fun heq => hfresh (heq ▸ List.mem_map_of_mem hmem)]
      exact h.suits handling hmem
  · cases failed with
    | true => exact ⟨hturn, h.turn⟩
    | false => exact ⟨hturn, h.turn⟩

theorem Handling.Trips.cons (hkeyed : sessions.Keyed) {rest : List M}
    (h : Trips env occasion (fate.settle occasion sessions) rest)
    (hsuits : fate.Suits env occasion (sessions.get? (Record.id drained)) drained)
    (hworked : fate ≠ .passedOver) (hgoes : fate.isFailed = false)
    (hfresh : Record.id drained ∉ rest.map Record.id) :
    Trips env occasion sessions (drained :: rest) := by
  obtain ⟨handlings, record, later, rfl, hhandles, hspared, hfault⟩ := h
  rw [List.map_append, List.mem_append, not_or, List.map_cons, List.mem_cons, not_or] at hfresh
  rw [hsuits.get?_settle hkeyed (Ne.symm hfresh.2.1)] at hfault
  refine ⟨⟨drained, fate⟩ :: handlings, record, later, rfl, ?_,
    List.forall_mem_cons.mpr ⟨hgoes, hspared⟩, hfault⟩
  have hhandles : Handles env occasion (false || fate.isFailed) (fate.settle occasion sessions)
      handlings := by
    rwa [hgoes]
  have hids : Record.id drained ∉ handlings.map id := by
    rw [ids_eq rfl]
    exact hfresh.1
  exact Handles.cons hkeyed hhandles hsuits (by simpa using hworked) hids

end

/-! ## The work on a batch -/

namespace Preparation

variable {env : Surroundings σ M} {now : Int} {after : List (OutsideCall M) → σ → Prop}
  {persister : Persister M} {sessions : Sessions M} {writes : List (Write M)}
  {calls : List (OutsideCall M)} {outside : σ}

/-- A round that has come to this. -/
def Stands (after : List (OutsideCall M) → σ → Prop) (persister : Persister M)
    (sessions : Sessions M) (writes : List (Write M)) (calls : List (OutsideCall M))
    (round : Preparation σ M) : Prop :=
  ∃ outside, after calls outside ∧ round = ⟨{ persister with sessions }, outside, writes⟩

theorem prepareWrite_stands (hfollows : env.Follows persister.model after) (kind : RequestKind)
    (whole : M) (hafter : after calls outside) :
    Ends (prepareWrite env now kind whole) ⟨{ persister with sessions }, outside, writes⟩
      (fun answer round => (env.prepare kind persister.model whole).Gives answer ∧ match answer with
        | .ok () => Stands after persister sessions
            (writes ++ [.of kind persister.model whole now])
            (calls ++ [.prepare kind whole, .dispatch whole .total]) round
        | .error _ => Stands after persister sessions writes (calls ++ [.prepare kind whole]) round)
      (fun _ _ => env.MayBreak persister.model) := by
  unfold prepareWrite
  simp only [ends_bind, ends_get, ends_calling]
  refine (hfollows.prepare kind whole hafter).possible.mono ?_ ?_
  · rintro (error | ⟨⟩) s ⟨hgives, hafter⟩
    · exact ⟨hgives, s, hafter, rfl⟩
    · simp only [ends_bind, ends_push, ends_calling, ends_pure]
      refine (hfollows.dispatch whole .total hafter).possible.mono ?_ ?_
      · rintro _ s ⟨-, hafter⟩
        rw [List.append_assoc] at hafter
        exact ⟨hgives, s, hafter, rfl⟩
      · exact fun _ _ h => .inr (.inr (.inl ⟨whole, .total, h.1⟩))
  · exact fun _ _ h => .inr (.inl ⟨kind, whole, h.1⟩)

theorem prepareRecord_stands (hfollows : env.Follows persister.model after) (drained : M)
    (hafter : after calls outside) :
    Ends (prepareRecord env now drained) ⟨{ persister with sessions }, outside, writes⟩
      (fun answer round => ∃ fate : Fate M, fate.Answers answer ∧
        fate.Suits env (persister.occasion now) (sessions.get? (Record.id drained)) drained ∧
        Stands after persister (fate.settle (persister.occasion now) sessions)
          (writes ++ (fate.write? (persister.occasion now)).toList) (calls ++ fate.calls) round)
      (fun _ _ => env.MayBreak persister.model ∨ ∃ fault, (persister.occasion now).decision
        (sessions.get? (Record.id drained)) drained = .error fault) := by
  unfold prepareRecord
  simp only [ends_bind, ends_get]
  cases hcached : sessions.get? (Record.id drained) with
  | none =>
    dsimp only
    rw [ends_bind, ends_liftM]
    refine ⟨fun whole hwhole => ?_, fun fault hfault => .inr ⟨fault, ?_⟩⟩
    · have hdue : (persister.occasion now).decision none drained = .ok (some (.insert, whole)) := by
        simp [Occasion.decision, hwhole, Except.map]
      rw [ends_bind]
      refine (prepareWrite_stands hfollows .insert whole hafter).mono ?_ fun _ _ => .inl
      rintro (error | ⟨⟩) round ⟨hgives, hround⟩
      · refine ⟨.failed .insert whole, ⟨error, rfl⟩, .failed hdue hgives, ?_⟩
        simpa [Fate.calls] using hround
      · exact ⟨.written .insert whole, rfl, .written hdue hgives, hround⟩
    · simp [Occasion.decision, hfault, Except.map]
  | some cached =>
    dsimp only
    split_ifs with hrefuses
    · have hdue : (persister.occasion now).decision (some cached) drained = .ok none :=
        if_pos hrefuses
      exact ⟨.left, rfl, .left hdue, outside, by simpa [Fate.calls] using hafter, by simp⟩
    · have hdecision : (persister.occasion now).decision (some cached) drained =
          (Record.calculate (Record.combine cached drained).2).map fun whole =>
            some (.update, whole) := if_neg hrefuses
      rw [ends_bind, ends_liftM]
      refine ⟨fun whole hwhole => ?_, fun fault hfault => .inr ⟨fault, ?_⟩⟩
      · have hdue : (persister.occasion now).decision (some cached) drained =
            .ok (some (.update, whole)) := by
          rw [hdecision, hwhole]
          rfl
        rw [ends_bind]
        refine (prepareWrite_stands hfollows .update whole hafter).mono ?_ fun _ _ => .inl
        rintro (error | ⟨⟩) round ⟨hgives, s, hafter, rfl⟩
        · exact ⟨.failed .update whole, ⟨error, rfl⟩, .failed hdue hgives, s, hafter, by simp⟩
        · rw [ends_bind, ends_changeSessions, ends_pure]
          exact ⟨.written .update whole, rfl, .written hdue hgives, s, hafter, rfl⟩
      · rw [hdecision, hfault]
        rfl

/-- These records were worked on, and the round has come to what they came to. -/
def Through (env : Surroundings σ M) (after : List (OutsideCall M) → σ → Prop) (now : Int)
    (persister : Persister M) (failed : Bool) (sessions : Sessions M) (writes : List (Write M))
    (calls : List (OutsideCall M)) (batch : List M) (round : Preparation σ M) : Prop :=
  ∃ handlings : List (Handling M), handlings.map (·.drained) = batch ∧
    Handling.Handles env (persister.occasion now) failed sessions handlings ∧
    Stands after persister (Handling.settleAll (persister.occasion now) sessions handlings)
      (writes ++ Handling.writes (persister.occasion now) handlings)
      (calls ++ handlings.flatMap (·.calls)) round

theorem Through.cons [KeepsIdentity M] (hkeyed : sessions.Keyed) {failed : Bool} {drained : M}
    {rest : List M} {fate : Fate M} {round : Preparation σ M}
    (h : Through env after now persister (failed || fate.isFailed)
      (fate.settle (persister.occasion now) sessions)
      (writes ++ (fate.write? (persister.occasion now)).toList)
      (calls ++ (⟨drained, fate⟩ : Handling M).calls) rest round)
    (hsuits : fate.Suits env (persister.occasion now) (sessions.get? (Record.id drained)) drained)
    (hturn : if failed then fate = .passedOver else fate ≠ .passedOver)
    (hfresh : Record.id drained ∉ rest.map Record.id) :
    Through env after now persister failed sessions writes calls (drained :: rest) round := by
  obtain ⟨handlings, rfl, hhandles, hround⟩ := h
  refine ⟨⟨drained, fate⟩ :: handlings, rfl, hhandles.cons hkeyed hsuits hturn ?_, ?_⟩
  · rwa [Handling.ids_eq rfl]
  · rw [Handling.writes_cons, List.flatMap_cons, ← List.append_assoc, ← List.append_assoc]
    exact hround

theorem prepareRecords_stands [KeepsIdentity M] (hfollows : env.Follows persister.model after)
    (failed : Bool) {batch : List M} (hdistinct : (batch.map Record.id).Nodup)
    (hkeyed : sessions.Keyed) (hafter : after calls outside) :
    Ends (prepareRecords env now failed batch) ⟨{ persister with sessions }, outside, writes⟩
      (fun _ => Through env after now persister failed sessions writes calls batch)
      (fun _ _ => env.MayBreak persister.model ∨
        failed = false ∧ Handling.Trips env (persister.occasion now) sessions batch) := by
  induction batch generalizing failed sessions writes calls outside with
  | nil => exact ⟨[], rfl, ⟨by simp, trivial⟩, outside, by simpa using hafter,
      by simp [Handling.settleAll, Handling.writes]⟩
  | cons drained rest ih =>
    rw [List.map_cons, List.nodup_cons] at hdistinct
    -- What is left of the batch finds the entries of its identities as the batch did.
    have hrest : ∀ {fate : Fate M} (asked : List (OutsideCall M)) {outside},
        fate.Suits env (persister.occasion now) (sessions.get? (Record.id drained)) drained →
        (if failed then fate = .passedOver else fate ≠ .passedOver) →
        asked ++ [.forward drained] = (⟨drained, fate⟩ : Handling M).calls →
        after (calls ++ asked) outside →
        Ends (do calling (env.forward drained); prepareRecords env now (failed || fate.isFailed) rest)
          ⟨{ persister with sessions := fate.settle (persister.occasion now) sessions }, outside,
            writes ++ (fate.write? (persister.occasion now)).toList⟩
          (fun _ => Through env after now persister failed sessions writes calls (drained :: rest))
          (fun _ _ => env.MayBreak persister.model ∨
            failed = false ∧
              Handling.Trips env (persister.occasion now) sessions (drained :: rest)) := by
      intro fate asked outside hsuits hturn hcalls hafter
      rw [ends_bind, ends_calling]
      refine (hfollows.forward drained hafter).possible.mono ?_
        fun _ _ h => .inl (.inr (.inr (.inr ⟨drained, h.1⟩)))
      rintro _ s ⟨-, hafter⟩
      rw [List.append_assoc, hcalls] at hafter
      refine (ih (failed || fate.isFailed) hdistinct.2 (Fate.keyed_settle hkeyed _ fate)
        hafter).mono (fun _ round hround => hround.cons hkeyed hsuits hturn hdistinct.1) ?_
      rintro _ _ (hbreak | ⟨hgoes, htrips⟩)
      · exact .inl hbreak
      · obtain ⟨rfl, hgoes⟩ := Bool.or_eq_false_iff.mp hgoes
        exact .inr ⟨rfl, htrips.cons hkeyed hsuits (by simpa using hturn) hgoes hdistinct.1⟩
    cases failed with
    | true =>
      rw [prepareRecords]
      simpa using hrest [] .passedOver rfl rfl (by simpa using hafter)
    | false =>
      rw [prepareRecords, ends_bind]
      refine (prepareRecord_stands hfollows drained hafter).mono ?_ ?_
      · rintro answer _ ⟨fate, hanswer, hsuits, s, hafter, rfl⟩
        cases fate with
        | written kind whole =>
          have hanswer : answer = .ok true := hanswer
          subst hanswer
          rw [ends_bind, ends_calling]
          refine (hfollows.dispatch drained .increment hafter).possible.mono ?_
            fun _ _ h => .inl (.inr (.inr (.inl ⟨drained, .increment, h.1⟩)))
          rintro _ s ⟨-, hafter⟩
          rw [List.append_assoc] at hafter
          exact hrest _ hsuits (by simp) rfl hafter
        | left =>
          have hanswer : answer = .ok false := hanswer
          subst hanswer
          exact hrest _ hsuits (by simp) rfl hafter
        | failed kind whole =>
          obtain ⟨error, rfl⟩ := hanswer
          exact hrest _ hsuits (by simp) rfl hafter
        | passedOver => exact hanswer.elim
      · rintro _ _ (hbreak | ⟨fault, hfault⟩)
        · exact .inl hbreak
        · exact .inr ⟨rfl, [], drained, rest, rfl, ⟨by simp, trivial⟩, by simp, fault, hfault⟩

def ThroughBatch (env : Surroundings σ M) (after : List (OutsideCall M) → σ → Prop) (now : Int)
    (persister : Persister M) (sessions : Sessions M) (writes : List (Write M))
    (calls : List (OutsideCall M)) (batch : List M) (round : Preparation σ M) : Prop :=
  ∃ report : Report M, report.batch = batch ∧
    report.Fits env (persister.occasion now) sessions ∧
    Stands after persister (report.settle (persister.occasion now) sessions)
      (writes ++ report.writes (persister.occasion now)) (calls ++ report.calls) round

theorem prepareLoaded_stands [KeepsIdentity M] (hfollows : env.Follows persister.model after)
    {batch : List M} (hdistinct : (batch.map Record.id).Nodup) (hkeyed : sessions.Keyed)
    (hclear : ∀ id ∈ batch.map Record.id,
      (persister.occasion now).Clear (sessions.session? id))
    (answer : Except StorageError (List M)) {opened : Sessions M}
    (hopened : (persister.occasion now).opened sessions (batch.map Record.id) answer = opened)
    (hloads : env.Loads persister.model
      ((persister.occasion now).missing sessions (batch.map Record.id)) answer)
    (hafter : after (calls ++
      if (persister.occasion now).missing sessions (batch.map Record.id) = [] then []
      else [.load ((persister.occasion now).missing sessions (batch.map Record.id))]) outside) :
    Ends (prepareRecords env now (!answer.isOk) batch)
      ⟨{ persister with sessions := opened }, outside, writes⟩
      (fun _ => ThroughBatch env after now persister sessions writes calls batch)
      (fun _ _ => env.MayBreak persister.model ∨
        Report.Stumbles env (persister.occasion now) sessions batch) := by
  have hopened' : opened.Keyed := hopened ▸ Occasion.keyed_opened _ hkeyed _ answer
  refine (prepareRecords_stands hfollows (!answer.isOk) hdistinct hopened' hafter).mono ?_ ?_
  · rintro _ round ⟨handlings, hbatch, hhandles, hround⟩
    have hids := Handling.ids_eq hbatch
    refine ⟨⟨_, answer, handlings⟩, hbatch, ⟨?_, ?_, hloads, ?_⟩, ?_⟩
    · exact congrArg _ hids.symm
    · exact fun id hid => hclear id (hids ▸ hid)
    · show Handling.Handles _ _ _ ((persister.occasion now).opened sessions (handlings.map _) answer) _
      rw [hids, hopened]
      exact hhandles
    · show Stands after persister (Handling.settleAll _
        ((persister.occasion now).opened sessions (handlings.map _) answer) _) _ (calls ++ (_ ++ _)) _
      rw [hids, hopened, ← List.append_assoc]
      exact hround
  · rintro _ _ (hbreak | ⟨hok, htrips⟩)
    · exact .inl hbreak
    · cases answer with
      | error _ => cases hok
      | ok loaded => exact .inr (.inr ⟨loaded, hloads, hopened ▸ htrips⟩)

theorem prepareBatch_stands [KeepsIdentity M] (hfollows : env.Follows persister.model after)
    {batch : List M} (hdistinct : (batch.map Record.id).Nodup) (hkeyed : sessions.Keyed)
    (hafter : after calls outside) :
    Ends (prepareBatch env now batch) ⟨{ persister with sessions }, outside, writes⟩
      (fun _ => ThroughBatch env after now persister sessions writes calls batch)
      (fun _ _ => env.MayBreak persister.model ∨
        Report.Stumbles env (persister.occasion now) sessions batch) := by
  unfold prepareBatch loadMissing
  simp only [ends_bind]
  refine (filterM_isMissing_decides hdistinct _).mono ?_ fun _ _ h => .inr (.inl h)
  rintro missing _ ⟨hmissing, hclear, rfl⟩
  have hmissing : missing = (persister.occasion now).missing sessions (batch.map Record.id) := hmissing
  by_cases hnone : missing = []
  · rw [if_pos (by simpa using hnone), ends_pure]
    refine prepareLoaded_stands hfollows hdistinct hkeyed hclear (.ok []) rfl ?_ ?_
    · exact (if_pos (hmissing ▸ hnone)).mpr rfl
    · rw [if_pos (hmissing ▸ hnone)]
      simpa using hafter
  · rw [if_neg (by simpa using hnone)]
    simp only [ends_bind, ends_get, ends_calling]
    refine (hfollows.load missing hafter).possible.mono ?_ fun _ _ h => .inl (.inl ⟨missing, h.1⟩)
    rintro answer s ⟨hgives, hafter⟩
    have hloads : env.Loads persister.model
        ((persister.occasion now).missing sessions (batch.map Record.id)) answer := by
      rw [← hmissing]
      exact (if_neg hnone).mpr hgives
    have hasked : after (calls ++
        if (persister.occasion now).missing sessions (batch.map Record.id) = [] then []
        else [.load ((persister.occasion now).missing sessions (batch.map Record.id))]) s := by
      rw [← hmissing, if_neg hnone]
      exact hafter
    cases answer with
    | error error => exact prepareLoaded_stands hfollows hdistinct hkeyed hclear _ rfl hloads hasked
    | ok loaded =>
      rw [ends_bind, ends_changeSessions, ends_pure]
      exact prepareLoaded_stands hfollows hdistinct hkeyed hclear _ rfl hloads hasked

variable (persister) in
/-- What a round comes to whose batches were all worked on. -/
theorem prepareBatches_stands [KeepsIdentity M] (hfollows : env.Follows persister.model after)
    {batches : List (List M)} (hdistinct : (batches.flatten.map Record.id).Nodup)
    (hkeyed : sessions.Keyed) (hafter : after calls outside) :
    Ends (batches.forM (prepareBatch env now)) ⟨{ persister with sessions }, outside, writes⟩
      (fun _ round => ∃ reports : List (Report M), reports.map (·.batch) = batches ∧
        Report.FitsAll env (persister.occasion now) sessions reports ∧
        Stands after persister (Report.settleAll (persister.occasion now) sessions reports)
          (writes ++ reports.flatMap (·.writes (persister.occasion now)))
          (calls ++ reports.flatMap (·.calls)) round)
      (fun _ _ => env.MayBreak persister.model ∨ ∃ (reports : List (Report M)) (batch : List M)
        (rest : List (List M)), batches = reports.map (·.batch) ++ batch :: rest ∧
        Report.FitsAll env (persister.occasion now) sessions reports ∧
        Report.Stumbles env (persister.occasion now)
          (Report.settleAll (persister.occasion now) sessions reports) batch) := by
  induction batches generalizing sessions writes calls outside with
  | nil => exact ⟨[], rfl, trivial, outside, by simpa using hafter, by simp [Report.settleAll]⟩
  | cons batch rest ih =>
    rw [List.flatten_cons, List.map_append, List.nodup_append] at hdistinct
    show Ends (prepareBatch env now batch >>= fun _ => rest.forM (prepareBatch env now)) _ _ _
    rw [ends_bind]
    refine (prepareBatch_stands hfollows hdistinct.1 hkeyed hafter).mono ?_ ?_
    · rintro _ _ ⟨report, rfl, hfits, s, hafter, rfl⟩
      refine (ih hdistinct.2.1 (report.keyed_settle _ hkeyed) hafter).mono ?_ ?_
      · rintro _ round ⟨reports, rfl, hfitsAll, hround⟩
        refine ⟨report :: reports, rfl, ⟨hfits, hfitsAll⟩, ?_⟩
        rw [List.flatMap_cons, List.flatMap_cons, ← List.append_assoc, ← List.append_assoc]
        exact hround
      · rintro _ _ (hbreak | ⟨reports, batch, rest, rfl, hfitsAll, hstumbles⟩)
        · exact .inl hbreak
        · exact .inr ⟨report :: reports, batch, rest, rfl, ⟨hfits, hfitsAll⟩, hstumbles⟩
    · rintro _ _ (hbreak | hstumbles)
      · exact .inl hbreak
      · exact .inr ⟨[], batch, rest, rfl, trivial, hstumbles⟩

end Preparation

/-! ## Whole rounds -/

namespace Persister

/-- A round that works on its records in these batches. -/
def buildIn (env : Surroundings σ M) (now : Int) (batches : List (List M)) :
    Action (Persister M × σ) (List (Write M)) := do
  let (persister, outside) ← get
  match (batches.forM (Preparation.prepareBatch env now)).run.run (persister.opening outside) with
  | (.ok (), round) =>
    set (round.persister.endDrain, round.outside)
    return round.writes
  | (.error fault, round) =>
    set (unwound round, round.outside)
    throw fault

variable {env : Surroundings σ M} {now : Int} {after : List (OutsideCall M) → σ → Prop}
  {persister : Persister M} {outside : σ}

theorem build_eq_buildIn (env : Surroundings σ M) (now : Int) (hsound : persister.Sound)
    (hdue : persister.isDue = true) (outside : σ) :
    (build env now).run.run (persister, outside) =
      (buildIn env now (chunks persister.settings.loadBatch persister.toDrain)).run.run
        (persister, outside) := by
  have hget : (get : Action (Persister M × σ) (Persister M × σ)).run.run (persister, outside) =
      (.ok (persister, outside), persister, outside) := rfl
  have hset : ∀ last : Persister M × σ,
      (set last : Action (Persister M × σ) PUnit).run.run (persister, outside) = (.ok ⟨⟩, last) :=
    fun _ => rfl
  have hlift : ∀ (window : Window M) (s : Persister M × σ),
      (liftM (Except.ok window : Except Fault (Window M)) :
        Action (Persister M × σ) (Window M)).run.run s = (.ok window, s) := fun _ _ => rfl
  have hworking : ∀ {ended}, (working env now persister).run.run (persister.opening outside) = ended →
      ((chunks persister.settings.loadBatch persister.toDrain).forM
        (Preparation.prepareBatch env now)).run.run (persister.opening outside) = ended := id
  unfold build buildIn
  simp only [run_bind, hget, hset, hlift, hdue, hsound.closed.beginDrain, Bool.not_true,
    Bool.false_eq_true, if_false]
  split
  · next round hrun =>
    rw [hworking hrun]
    rfl
  · next fault round hrun =>
    rw [hworking hrun]
    rfl

theorem ends_build_iff (hsound : persister.Sound) (hdue : persister.isDue = true)
    {done : List (Write M) → Persister M × σ → Prop} {broken : Fault → Persister M × σ → Prop} :
    Ends (build env now) (persister, outside) done broken ↔
      Ends (buildIn env now (chunks persister.settings.loadBatch persister.toDrain))
        (persister, outside) done broken := by
  unfold Ends
  rw [build_eq_buildIn env now hsound hdue]

theorem buildIn_reports [KeepsIdentity M] (hfollows : env.Follows persister.model after)
    (hkeyed : persister.sessions.Keyed) (hafter : after [] outside) {batches : List (List M)}
    (hdistinct : (batches.flatten.map Record.id).Nodup) :
    Ends (buildIn env now batches) (persister, outside)
      (fun writes last => ∃ reports : List (Report M), reports.map (·.batch) = batches ∧
        Report.FitsAll env (persister.occasion now) persister.sessions reports ∧
        writes = reports.flatMap (·.writes (persister.occasion now)) ∧
        last.1 = persister.drainedTo
          (Report.settleAll (persister.occasion now) persister.sessions reports) ∧
        after (reports.flatMap (·.calls)) last.2)
      (fun _ _ => env.MayBreak persister.model ∨ ∃ (reports : List (Report M)) (batch : List M)
        (rest : List (List M)), batches = reports.map (·.batch) ++ batch :: rest ∧
        Report.FitsAll env (persister.occasion now) persister.sessions reports ∧
        Report.Stumbles env (persister.occasion now)
          (Report.settleAll (persister.occasion now) persister.sessions reports) batch) := by
  have hworked : Ends (batches.forM (Preparation.prepareBatch env now)) (persister.opening outside)
    _ _ := Preparation.prepareBatches_stands (persister.opening outside).persister
      hfollows hdistinct hkeyed hafter
  unfold buildIn
  rw [ends_bind, ends_get]
  dsimp only
  unfold Ends at hworked
  split
  · next round hrun =>
    rw [hrun] at hworked
    obtain ⟨reports, hbatches, hfits, s, hafter, rfl⟩ := hworked
    simp only [ends_bind, ends_set, ends_pure]
    exact ⟨reports, hbatches, hfits, rfl, rfl, hafter⟩
  · next fault round hrun =>
    rw [hrun] at hworked
    simp only [ends_bind, ends_set, ends_throw]
    exact hworked

end Persister

end Rollup
