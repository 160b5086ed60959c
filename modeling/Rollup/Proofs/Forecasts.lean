import Rollup.Proofs.Entries

/-!
# Forecasts

What a round will come to where it can be told beforehand what the others answer. Each record is worked
on by what is known of its identity, unless its batch fails before: what is known is the entry that the
round found, or the row.
-/

namespace Rollup

open Rollup.Action

variable {σ M : Type}

/-! ## Predictable others -/

/-- The loads and the writes that are going to fail. -/
structure Mishaps where
  load : List MetricId → Option StorageError := fun _ => none
  prepare : MetricId → Option StorageError := fun _ => none

/-- A load answers with the rows that are there, in any order, or fails. -/
def Mishaps.LoadEnds (mishaps : Mishaps) (rows : MetricId → Option M) (ids : List MetricId)
    (answer : Except StorageError (List M)) : Prop :=
  match mishaps.load ids with
  | some error => answer = .error error
  | none => ∃ loaded, answer = .ok loaded ∧ loaded.Perm (ids.filterMap rows)

namespace Surroundings

/-- Nobody breaks a round off, and nothing fails but these loads and writes. -/
structure Predictable [Record M] (env : Surroundings σ M) (model : Model)
    (rows : MetricId → Option M) (mishaps : Mishaps) : Prop where
  keyed : ∀ id, ∀ record ∈ rows id, Record.id record = id
  load : ∀ ids s, Ends (env.load model ids) s (fun answer _ => mishaps.LoadEnds rows ids answer)
    fun _ _ => False
  prepare : ∀ kind record s, Ends (env.prepare kind model record) s
    (fun answer _ => answer = (mishaps.prepare (Record.id record)).elim (.ok ()) .error)
    fun _ _ => False
  dispatch : ∀ record kind s, Ends (env.dispatch record kind) s (fun _ _ => True) fun _ _ => False
  forward : ∀ record s, Ends (env.forward record) s (fun _ _ => True) fun _ _ => False

/-- The same surroundings, but for some failures. -/
def beset [Record M] (env : Surroundings σ M) (mishaps : Mishaps) : Surroundings σ M where
  load model ids :=
    match mishaps.load ids with
    | some error => pure (.error error)
    | none => env.load model ids
  prepare kind model record :=
    match mishaps.prepare (Record.id record) with
    | some error => pure (.error error)
    | none => env.prepare kind model record
  dispatch := env.dispatch
  forward := env.forward

namespace Predictable

variable [Record M] {env : Surroundings σ M} {model : Model} {rows : MetricId → Option M}
  {mishaps : Mishaps}

theorem beset (h : env.Predictable model rows {}) (mishaps : Mishaps) :
    (env.beset mishaps).Predictable model rows mishaps where
  keyed := h.keyed
  load ids s := by
    cases hload : mishaps.load ids with
    | none =>
      have hcall : (env.beset mishaps).load model ids = env.load model ids := by
        simp only [Surroundings.beset, hload]
      rw [hcall]
      simpa only [Mishaps.LoadEnds, hload] using h.load ids s
    | some error =>
      have hcall : (env.beset mishaps).load model ids = pure (.error error) := by
        simp only [Surroundings.beset, hload]
      rw [hcall, ends_pure, Mishaps.LoadEnds, hload]
  prepare kind record s := by
    cases hprepare : mishaps.prepare (Record.id record) with
    | none =>
      have hcall : (env.beset mishaps).prepare kind model record = env.prepare kind model record := by
        simp only [Surroundings.beset, hprepare]
      rw [hcall]
      exact h.prepare kind record s
    | some error =>
      have hcall : (env.beset mishaps).prepare kind model record = pure (.error error) := by
        simp only [Surroundings.beset, hprepare]
      rw [hcall, ends_pure]
      rfl
  dispatch := h.dispatch
  forward := h.forward

theorem witnessed (h : env.Predictable model rows mishaps) :
    env.witnessed.Predictable model rows mishaps where
  keyed := h.keyed
  load ids s := (ends_witness _ _).mpr (h.load ids s.1)
  prepare kind record s := (ends_witness _ _).mpr (h.prepare kind record s.1)
  dispatch record kind s := (ends_witness _ _).mpr (h.dispatch record kind s.1)
  forward record s := (ends_witness _ _).mpr (h.forward record s.1)

theorem not_mayBreak (h : env.Predictable model rows mishaps) : ¬ env.MayBreak model := by
  rintro (⟨ids, hbreaks⟩ | ⟨kind, record, hbreaks⟩ | ⟨record, kind, hbreaks⟩ | ⟨record, hbreaks⟩)
  · exact not_breaks_of_ends (h.load ids) hbreaks
  · exact not_breaks_of_ends (h.prepare kind record) hbreaks
  · exact not_breaks_of_ends (h.dispatch record kind) hbreaks
  · exact not_breaks_of_ends (h.forward record) hbreaks

theorem loadEnds (h : env.Predictable model rows mishaps) {ids : List MetricId}
    {answer : Except StorageError (List M)} (hgives : (env.load model ids).Gives answer) :
    mishaps.LoadEnds rows ids answer :=
  hgives.of_ends fun s => (h.load ids s).mono (fun _ _ => id) fun _ _ => False.elim

theorem prepare_eq (h : env.Predictable model rows mishaps) {kind : RequestKind} {record : M}
    {answer : Except StorageError Unit} (hgives : (env.prepare kind model record).Gives answer) :
    answer = (mishaps.prepare (Record.id record)).elim (.ok ()) .error :=
  hgives.of_ends fun s => (h.prepare kind record s).mono (fun _ _ => id) fun _ _ => False.elim

end Predictable

end Surroundings

/-! ## What will come of a batch -/

/-- What can be told of a round beforehand. -/
structure Forecast (M : Type) where
  occasion : Occasion
  rows : MetricId → Option M
  mishaps : Mishaps := {}
  sessions : Sessions M

namespace Forecast

variable [Record M] (forecast : Forecast M)

def asked (batch : List M) : List MetricId :=
  forecast.occasion.missing forecast.sessions (batch.map Record.id)

def loadFails (batch : List M) : Bool :=
  !(forecast.asked batch).isEmpty && (forecast.mishaps.load (forecast.asked batch)).isSome

/-- What is left of an entry if no row is loaded for it. -/
def trusted (id : MetricId) : Option (Session M) :=
  forecast.occasion.trusted (forecast.sessions.session? id)

/-- What is known of an identity once its row was looked up. -/
def known (id : MetricId) : Option (Session M) :=
  (forecast.trusted id).or ((forecast.rows id).map (⟨·, forecast.occasion.now⟩))

/-- The write that is due for a drained record. -/
def due (drained : M) : Except Fault (Option (RequestKind × M)) :=
  forecast.occasion.decision ((forecast.known (Record.id drained)).map (·.record)) drained

/-- What becomes of a record that is worked on. -/
def fate (drained : M) : Fate M :=
  match forecast.due drained with
  | .ok (some (kind, whole)) =>
    if (forecast.mishaps.prepare (Record.id drained)).isSome then .failed kind whole
    else .written kind whole
  | _ => .left

/-- The first record that fails gives up the rest. -/
def work : List M → List (Handling M)
  | [] => []
  | drained :: rest =>
    ⟨drained, forecast.fate drained⟩ ::
      if (forecast.fate drained).isFailed then rest.map (⟨·, .passedOver⟩) else work rest

/-- What becomes of the records of a batch. -/
def handlings (batch : List M) : List (Handling M) :=
  if forecast.loadFails batch then batch.map (⟨·, .passedOver⟩) else forecast.work batch

/-- The records before the first failure in a batch. -/
def spared (batch : List M) : List M :=
  if forecast.loadFails batch then []
  else batch.takeWhile fun drained => !(forecast.fate drained).isFailed

/-- What is cached of an identity as the work on the records of its batch begins. -/
def opened (batch : List M) (id : MetricId) : Option (Session M) :=
  if forecast.loadFails batch then forecast.trusted id else forecast.known id

/-- The record is worked on: nothing of its batch fails before it. -/
def Reaches (batch : List M) (drained : M) : Prop :=
  forecast.loadFails batch = false ∧ ∃ before after, batch = before ++ drained :: after ∧
    ∀ earlier ∈ before, (forecast.fate earlier).isFailed = false

/-- Something about these records themselves will break their batch off. -/
def Hitch (batch : List M) : Prop :=
  (∃ drained ∈ batch, ¬ forecast.occasion.Clear (forecast.sessions.session? (Record.id drained))) ∨
    ∃ drained fault, forecast.Reaches batch drained ∧ forecast.due drained = .error fault

/-- The write that comes of a record that is worked on, if one does. -/
def writesOf (drained : M) : List (Write M) :=
  ((forecast.fate drained).write? forecast.occasion).toList

/-- What the consumers are shown of a record that is worked on. -/
def eventsOf (drained : M) : List (M × EventKind) :=
  (⟨drained, forecast.fate drained⟩ : Handling M).pair?.toList.flatMap announced

end Forecast

/-- What is seen of a round that went through. -/
structure Yield (M : Type) where
  writes : List (Write M)
  sessions : Sessions M
  asked : List (List MetricId)
  events : List (M × EventKind)
  forwarded : List M

def Yield.of (writes : List (Write M)) (sessions : Sessions M) (calls : List (OutsideCall M)) :
    Yield M :=
  ⟨writes, sessions, calls.filterMap OutsideCall.asked?, calls.filterMap OutsideCall.event?,
    calls.filterMap OutsideCall.forwarded?⟩

namespace Forecast

variable [Record M] (forecast : Forecast M)

/-- What is foretold of a round. -/
structure Foretells (batches : List (List M)) (yield : Yield M) : Prop where
  writes : yield.writes = (batches.flatMap forecast.spared).flatMap forecast.writesOf
  events : yield.events = (batches.flatMap forecast.spared).flatMap forecast.eventsOf
  forwarded : yield.forwarded = batches.flatten
  asked : yield.asked = (batches.map forecast.asked).filter (· ≠ [])
  spared : ∀ batch ∈ batches, ∀ drained ∈ forecast.spared batch,
    yield.sessions.session? (Record.id drained) =
      (forecast.fate drained).entry forecast.occasion (forecast.known (Record.id drained))
  /-- The others of a batch leave what was there when the work on it began. -/
  lost : ∀ batch ∈ batches, ∀ drained ∈ batch, drained ∉ forecast.spared batch →
    yield.sessions.session? (Record.id drained) = forecast.opened batch (Record.id drained)
  others : ∀ id ∉ batches.flatten.map Record.id,
    yield.sessions.session? id = forecast.sessions.session? id
  smooth : ∀ batch ∈ batches, ¬ forecast.Hitch batch

variable {forecast} {env : Surroundings σ M} {batch : List M} {report : Report M}

theorem session?_trusted_eq_some {id : MetricId} {held : Session M}
    (h : forecast.trusted id = some held) : forecast.sessions.session? id = some held :=
  Occasion.trusted_eq_some h

theorem keyed_known (hkeyed : forecast.sessions.Keyed)
    (hrows : ∀ id, ∀ record ∈ forecast.rows id, Record.id record = id) {id : MetricId} :
    ∀ held ∈ forecast.known id, Record.id held.record = id := by
  intro held hheld
  rcases Option.or_eq_some_iff.mp hheld with htrusted | ⟨-, hrow⟩
  · exact hkeyed id held (session?_trusted_eq_some htrusted)
  · obtain ⟨record, hrecord, rfl⟩ := Option.map_eq_some_iff.mp hrow
    exact hrows id record hrecord

theorem sublist_of_rows {rows : MetricId → Option M}
    (hrows : ∀ id, ∀ record ∈ rows id, Record.id record = id) (ids : List MetricId) :
    ((ids.filterMap rows).map Record.id).Sublist ids := by
  induction ids with
  | nil => exact .slnil
  | cons id rest ih =>
    cases hrow : rows id with
    | none =>
      rw [List.filterMap_cons_none hrow]
      exact ih.cons id
    | some record =>
      rw [List.filterMap_cons_some hrow, List.map_cons, hrows id record hrow]
      exact ih.cons_cons id

theorem mem_asked {id : MetricId} :
    id ∈ forecast.asked batch ↔ id ∈ batch.map Record.id ∧ forecast.trusted id = none :=
  Occasion.mem_missing

/-- What the others are foretold to do, and what is cached under whose name. -/
structure Reliable (forecast : Forecast M) (env : Surroundings σ M) : Prop where
  env : env.Predictable forecast.occasion.model forecast.rows forecast.mishaps
  keyed : forecast.sessions.Keyed

namespace Reliable

theorem loads (h : forecast.Reliable env) {answer : Except StorageError (List M)}
    (hloads : env.Loads forecast.occasion.model (forecast.asked batch) answer) :
    (forecast.loadFails batch = true ∧ ∃ error, answer = .error error) ∨
      (forecast.loadFails batch = false ∧ ∃ loaded, answer = .ok loaded ∧
        loaded.Perm ((forecast.asked batch).filterMap forecast.rows)) := by
  unfold Surroundings.Loads at hloads
  unfold loadFails
  split_ifs at hloads with hnone
  · rw [hnone]
    exact .inr ⟨rfl, [], hloads, .nil⟩
  · have hends := h.env.loadEnds hloads
    unfold Mishaps.LoadEnds at hends
    cases hload : forecast.mishaps.load (forecast.asked batch) with
    | none =>
      rw [hload] at hends
      exact .inr ⟨by simp, hends⟩
    | some error =>
      rw [hload] at hends
      exact .inl ⟨by simpa using hnone, error, hends⟩

theorem disciplined (h : forecast.Reliable env) : env.Disciplined forecast.occasion.model := by
  intro ids loaded hgives record hrecord
  have hends := h.env.loadEnds hgives
  unfold Mishaps.LoadEnds at hends
  split at hends
  · cases hends
  · obtain ⟨_, ⟨⟩, hperm⟩ := hends
    obtain ⟨id, hid, hrow⟩ := List.mem_filterMap.mp (hperm.subset hrecord)
    rwa [h.env.keyed id record hrow]

theorem session?_opened (h : forecast.Reliable env) {found : Sessions M}
    (hdistinct : (batch.map Record.id).Nodup)
    (hfound : ∀ id ∈ batch.map Record.id, found.session? id = forecast.sessions.session? id)
    {answer : Except StorageError (List M)}
    (hloads : env.Loads forecast.occasion.model (forecast.asked batch) answer) {id : MetricId}
    (hid : id ∈ batch.map Record.id) :
    (forecast.occasion.opened found (batch.map Record.id) answer).session? id =
      forecast.opened batch id := by
  have hpruned : (forecast.occasion.pruned found (batch.map Record.id)).session? id =
      forecast.trusted id := by
    rw [Occasion.session?_pruned, if_pos hid, hfound id hid]
    rfl
  unfold Occasion.opened Forecast.opened
  rcases h.loads hloads with ⟨hfails, error, rfl⟩ | ⟨hfails, loaded, rfl, hperm⟩
  · rw [hfails, if_pos rfl]
    exact hpruned
  · rw [hfails, if_neg Bool.false_ne_true]
    have hmem : ∀ {record}, record ∈ loaded ↔
        Record.id record ∈ forecast.asked batch ∧ forecast.rows (Record.id record) = some record := by
      intro record
      rw [hperm.mem_iff, List.mem_filterMap]
      refine ⟨?_, fun hrow => ⟨_, hrow⟩⟩
      rintro ⟨id, hid, hrow⟩
      rw [h.env.keyed id record hrow]
      exact ⟨hid, hrow⟩
    have hloaded : (loaded.map Record.id).Nodup := by
      refine ((hperm.map Record.id).nodup_iff).mpr (hdistinct.sublist ?_)
      exact (sublist_of_rows h.env.keyed _).trans List.filter_sublist
    cases htrusted : forecast.trusted id with
    | some held =>
      have hcached : id ∉ loaded.map Record.id := by
        rintro hlater
        obtain ⟨record, hrecord, rfl⟩ := List.mem_map.mp hlater
        cases htrusted.symm.trans (mem_asked.mp (hmem.mp hrecord).1).2
      rw [known, htrusted]
      refine (Sessions.session?_putAll_of_not_mem hcached _ _).trans (hpruned.trans htrusted)
    | none =>
      rw [htrusted] at hpruned
      rw [known, htrusted]
      cases hrow : forecast.rows id with
      | none =>
        refine (Sessions.session?_putAll_of_not_mem ?_ _ _).trans hpruned
        rintro hlater
        obtain ⟨record, hrecord, rfl⟩ := List.mem_map.mp hlater
        cases hrow.symm.trans (hmem.mp hrecord).2
      | some record =>
        have hkeyed := h.env.keyed id record hrow
        subst hkeyed
        exact Sessions.session?_putAll_of_mem hloaded
          (hmem.mpr ⟨mem_asked.mpr ⟨hid, htrusted⟩, hrow⟩) hpruned _

end Reliable

/-- A report of a batch that found the entries of its own identities as they were foretold. -/
structure Reported (forecast : Forecast M) (env : Surroundings σ M) (found : Sessions M)
    (report : Report M) : Prop where
  fits : report.Fits env forecast.occasion found
  keyed : found.Keyed
  distinct : report.ids.Nodup
  found : ∀ id ∈ report.ids, found.session? id = forecast.sessions.session? id

namespace Reported

variable {found : Sessions M}

theorem asked_eq (h : forecast.Reported env found report) :
    report.asked = forecast.asked report.batch := by
  have hids : report.batch.map Record.id = report.ids := List.map_map
  rw [h.fits.asked, asked, hids]
  refine List.filter_congr fun id hid => ?_
  rw [h.found id hid]

theorem session?_opened (h : forecast.Reported env found report) (henv : forecast.Reliable env)
    {id : MetricId} (hid : id ∈ report.ids) :
    (report.opened forecast.occasion found).session? id = forecast.opened report.batch id := by
  have hids : report.batch.map Record.id = report.ids := List.map_map
  have hloads := h.fits.loads
  rw [h.asked_eq] at hloads
  have hopened := henv.session?_opened (hids ▸ h.distinct) (hids ▸ h.found) hloads (hids ▸ hid)
  rwa [hids] at hopened

theorem suits_known (h : forecast.Reported env found report) (henv : forecast.Reliable env)
    (hloads : forecast.loadFails report.batch = false) {handling : Handling M}
    (hmem : handling ∈ report.handlings) : handling.fate.Suits env forecast.occasion
      ((forecast.known handling.id).map (·.record)) handling.drained := by
  have hopened := h.session?_opened henv (List.mem_map_of_mem hmem)
  rw [opened, hloads, if_neg Bool.false_ne_true] at hopened
  have hsuits := h.fits.handles.suits handling hmem
  rwa [Sessions.get?, hopened] at hsuits

theorem loads (h : forecast.Reported env found report) (henv : forecast.Reliable env) :
    report.loaded.isOk = !forecast.loadFails report.batch := by
  have hloads := h.fits.loads
  rw [h.asked_eq] at hloads
  rcases henv.loads hloads with ⟨hfails, error, hloaded⟩ | ⟨hfails, loaded, hloaded, -⟩ <;>
    simp [hfails, hloaded, Except.isOk, Except.toBool]

end Reported

/-! ## What becomes of its records -/

omit [Record M] in
theorem eq_of_passedOver {handlings : List (Handling M)} (h : Handling.InTurn true handlings) :
    handlings = (handlings.map (·.drained)).map (⟨·, .passedOver⟩) := by
  induction handlings with
  | nil => rfl
  | cons handling rest ih =>
    obtain ⟨drained, fate⟩ := handling
    obtain ⟨rfl, hrest⟩ := h
    exact congrArg _ (ih hrest)

theorem Reliable.id_of_due [KeepsIdentity M] (h : forecast.Reliable env) {drained whole : M}
    {kind : RequestKind} (hdue : forecast.due drained = .ok (some (kind, whole))) :
    Record.id whole = Record.id drained := by
  refine Occasion.id_decision (fun record hrecord => ?_) hdue
  obtain ⟨held, hheld, rfl⟩ := Option.map_eq_some_iff.mp hrecord
  exact keyed_known h.keyed h.env.keyed held hheld

theorem Reliable.fate_eq [KeepsIdentity M] (h : forecast.Reliable env) {drained : M} {fate : Fate M}
    (hsuits : fate.Suits env forecast.occasion
      ((forecast.known (Record.id drained)).map (·.record)) drained) (hfate : fate ≠ .passedOver) :
    fate = forecast.fate drained ∧ ∃ due, forecast.due drained = .ok due := by
  cases hsuits with
  | @written kind whole due prepared =>
    have hdue : forecast.due drained = .ok (some (kind, whole)) := due
    have hprepare := h.env.prepare_eq prepared
    rw [h.id_of_due hdue] at hprepare
    refine ⟨?_, _, hdue⟩
    unfold Forecast.fate
    rw [hdue]
    cases hmishap : forecast.mishaps.prepare (Record.id drained) with
    | none => simp
    | some error =>
      rw [hmishap] at hprepare
      cases hprepare
  | left due =>
    have hdue : forecast.due drained = .ok none := due
    refine ⟨?_, _, hdue⟩
    unfold Forecast.fate
    rw [hdue]
  | @failed kind whole error due refused =>
    have hdue : forecast.due drained = .ok (some (kind, whole)) := due
    have hprepare := h.env.prepare_eq refused
    rw [h.id_of_due hdue] at hprepare
    refine ⟨?_, _, hdue⟩
    unfold Forecast.fate
    rw [hdue]
    cases hmishap : forecast.mishaps.prepare (Record.id drained) with
    | none =>
      rw [hmishap] at hprepare
      cases hprepare
    | some error => simp
  | passedOver => exact absurd rfl hfate

theorem Reliable.work_eq [KeepsIdentity M] (h : forecast.Reliable env) {handlings : List (Handling M)}
    (hsuits : ∀ handling ∈ handlings, handling.fate.Suits env forecast.occasion
      ((forecast.known handling.id).map (·.record)) handling.drained)
    (hturn : Handling.InTurn false handlings) :
    handlings = forecast.work (handlings.map (·.drained)) := by
  induction handlings with
  | nil => rfl
  | cons handling rest ih =>
    obtain ⟨drained, fate⟩ := handling
    obtain ⟨hfirst, hrest⟩ := hturn
    obtain ⟨hfate, -⟩ := h.fate_eq (hsuits _ List.mem_cons_self) hfirst
    have hfate : fate = forecast.fate drained := hfate
    subst hfate
    rw [List.map_cons, work]
    congr 1
    cases hfailed : (forecast.fate drained).isFailed with
    | true =>
      rw [show (⟨drained, forecast.fate drained⟩ : Handling M).fate.isFailed = true from hfailed]
        at hrest
      exact eq_of_passedOver hrest
    | false =>
      rw [show (⟨drained, forecast.fate drained⟩ : Handling M).fate.isFailed = false from hfailed]
        at hrest
      exact ih (fun other hother => hsuits other (List.mem_cons_of_mem _ hother)) hrest

theorem fate_ne_passedOver (drained : M) : forecast.fate drained ≠ .passedOver := by
  unfold fate
  split
  · split_ifs <;> simp
  · simp

namespace Reported

variable [KeepsIdentity M] {found : Sessions M}

theorem handlings_eq (h : forecast.Reported env found report) (henv : forecast.Reliable env) :
    report.handlings = forecast.handlings report.batch := by
  have hturn := h.fits.handles.turn
  rw [h.loads henv, Bool.not_not] at hturn
  unfold handlings
  cases hloads : forecast.loadFails report.batch with
  | true =>
    rw [hloads] at hturn
    exact eq_of_passedOver hturn
  | false =>
    rw [hloads] at hturn
    exact henv.work_eq (fun handling hmem => h.suits_known henv hloads hmem) hturn

theorem session?_settle (h : forecast.Reported env found report) (henv : forecast.Reliable env)
    {handling : Handling M} (hmem : handling ∈ report.handlings) :
    (report.settle forecast.occasion found).session? handling.id =
      handling.fate.entry forecast.occasion (forecast.opened report.batch handling.id) := by
  refine (h.fits.handles.session?_of_mem (forecast.occasion.keyed_opened h.keyed _ _) h.distinct
    hmem).trans ?_
  exact congrArg (handling.fate.entry forecast.occasion ·)
    (h.session?_opened henv (List.mem_map_of_mem hmem))

end Reported

/-! ## What is spared -/

theorem mem_work_of_reached {before after : List M} {drained : M}
    (h : ∀ earlier ∈ before, (forecast.fate earlier).isFailed = false) :
    ⟨drained, forecast.fate drained⟩ ∈ forecast.work (before ++ drained :: after) := by
  induction before with
  | nil => exact List.mem_cons_self
  | cons first rest ih =>
    obtain ⟨hfirst, hrest⟩ := List.forall_mem_cons.mp h
    rw [List.cons_append, work, hfirst, if_neg Bool.false_ne_true]
    exact List.mem_cons_of_mem _ (ih hrest)

theorem Reported.decided [KeepsIdentity M] {found : Sessions M}
    (h : forecast.Reported env found report) (henv : forecast.Reliable env) {drained : M}
    (hreaches : forecast.Reaches report.batch drained) :
    ∃ due, forecast.due drained = .ok due := by
  obtain ⟨hloads, before, after, hbatch, hspared⟩ := hreaches
  have hmem : ⟨drained, forecast.fate drained⟩ ∈ report.handlings := by
    rw [h.handlings_eq henv, handlings, if_neg (by simp [hloads]), hbatch]
    exact mem_work_of_reached hspared
  exact (henv.fate_eq (h.suits_known henv hloads hmem) (fate_ne_passedOver drained)).2

theorem Reported.not_hitch [KeepsIdentity M] {found : Sessions M}
    (h : forecast.Reported env found report) (henv : forecast.Reliable env) :
    ¬ forecast.Hitch report.batch := by
  rintro (⟨drained, hdrained, hunclear⟩ | ⟨drained, fault, hreaches, hfault⟩)
  · have hid : Record.id drained ∈ report.ids := by
      obtain ⟨handling, hhandling, rfl⟩ := List.mem_map.mp hdrained
      exact List.mem_map_of_mem hhandling
    rw [← h.found _ hid] at hunclear
    exact hunclear (h.fits.clear _ hid)
  · obtain ⟨due, hdue⟩ := h.decided henv hreaches
    cases hdue.symm.trans hfault

theorem exists_handlings_eq (forecast : Forecast M) (batch : List M) : ∃ lost : List (Handling M),
    forecast.handlings batch =
      (forecast.spared batch).map (fun drained => ⟨drained, forecast.fate drained⟩) ++ lost ∧
    ∀ handling ∈ lost, handling.fate.isLost = true := by
  have hpassed : ∀ rest : List M, ∀ handling ∈ rest.map (Handling.mk · .passedOver),
      handling.fate.isLost = true := by
    intro rest handling hmem
    obtain ⟨_, -, rfl⟩ := List.mem_map.mp hmem
    rfl
  have hwork : ∃ lost : List (Handling M), forecast.work batch =
      (batch.takeWhile fun drained => !(forecast.fate drained).isFailed).map
        (fun drained => ⟨drained, forecast.fate drained⟩) ++ lost ∧
      ∀ handling ∈ lost, handling.fate.isLost = true := by
    induction batch with
    | nil => exact ⟨[], rfl, by simp⟩
    | cons drained rest ih =>
      cases hfailed : (forecast.fate drained).isFailed with
      | true =>
        refine ⟨⟨drained, forecast.fate drained⟩ :: rest.map (⟨·, .passedOver⟩),
          by simp [work, hfailed], ?_⟩
        exact List.forall_mem_cons.mpr ⟨Fate.isLost_of_isFailed hfailed, hpassed rest⟩
      | false =>
        obtain ⟨lost, hlost, hfates⟩ := ih
        exact ⟨lost, by simp [work, hfailed, hlost], hfates⟩
  unfold handlings spared
  split_ifs with hloads
  · exact ⟨batch.map (⟨·, .passedOver⟩), rfl, hpassed batch⟩
  · exact hwork

theorem flatMap_handlings {α : Type} {f : Handling M → List α}
    (hlost : ∀ handling, handling.fate.isLost = true → f handling = []) (batch : List M) :
    (forecast.handlings batch).flatMap f =
      (forecast.spared batch).flatMap fun drained => f ⟨drained, forecast.fate drained⟩ := by
  obtain ⟨lost, hhandlings, hfates⟩ := exists_handlings_eq forecast batch
  rw [hhandlings, List.flatMap_append, List.flatMap_map,
    List.flatMap_eq_nil_iff.mpr fun handling hmem => hlost handling (hfates handling hmem),
    List.append_nil]

theorem mem_spared_or_isLost {handling : Handling M} (h : handling ∈ forecast.handlings batch) :
    (handling.drained ∈ forecast.spared batch ∧ handling.fate = forecast.fate handling.drained) ∨
      handling.fate.isLost = true := by
  obtain ⟨lost, hhandlings, hfates⟩ := exists_handlings_eq forecast batch
  rw [hhandlings, List.mem_append] at h
  rcases h with h | h
  · obtain ⟨drained, hspared, rfl⟩ := List.mem_map.mp h
    exact .inl ⟨hspared, rfl⟩
  · exact .inr (hfates handling h)

theorem loadFails_of_mem_spared {drained : M} (h : drained ∈ forecast.spared batch) :
    forecast.loadFails batch = false := by
  unfold spared at h
  split_ifs at h with hloads
  · cases h
  · simpa using hloads

/-! ## What is about which record -/

theorem Reliable.id_of_written [KeepsIdentity M] (h : forecast.Reliable env) {drained whole : M}
    {kind : RequestKind} (hfate : forecast.fate drained = .written kind whole) :
    Record.id whole = Record.id drained := by
  unfold Forecast.fate at hfate
  split at hfate
  · next hdue =>
    split_ifs at hfate
    cases hfate
    exact h.id_of_due hdue
  · cases hfate

theorem Reliable.writesOf_cases [KeepsIdentity M] (h : forecast.Reliable env) (drained : M) :
    forecast.writesOf drained = [] ∨ ∃ kind whole, Record.id whole = Record.id drained ∧
      forecast.writesOf drained = [.of kind forecast.occasion.model whole forecast.occasion.now] := by
  unfold writesOf
  cases hfate : forecast.fate drained with
  | written kind whole => exact .inr ⟨kind, whole, h.id_of_written hfate, rfl⟩
  | left | failed | passedOver => exact .inl rfl

theorem Reliable.id_writesOf [KeepsIdentity M] (h : forecast.Reliable env) {drained : M}
    {write : Write M} (hwrite : write ∈ forecast.writesOf drained) :
    write.id = Record.id drained := by
  rcases h.writesOf_cases drained with hnone | ⟨kind, whole, hid, heq⟩
  · rw [hnone] at hwrite
    cases hwrite
  · rw [heq, List.mem_singleton] at hwrite
    rw [hwrite]
    exact hid

theorem Reliable.id_eventsOf [KeepsIdentity M] (h : forecast.Reliable env) {drained : M}
    {event : M × EventKind} (hevent : event ∈ forecast.eventsOf drained) :
    Record.id event.1 = Record.id drained := by
  unfold eventsOf at hevent
  cases hfate : forecast.fate drained with
  | written kind whole =>
    rw [hfate] at hevent
    simp only [Handling.pair?, announced, Option.toList_some, List.flatMap_cons, List.flatMap_nil,
      List.append_nil, List.mem_cons, List.not_mem_nil, or_false] at hevent
    rcases hevent with rfl | rfl
    · exact h.id_of_written hfate
    · rfl
  | left | failed | passedOver =>
    rw [hfate] at hevent
    cases hevent

/-! ## Whole rounds -/

variable [KeepsIdentity M] {reports : List (Report M)}

theorem Reliable.reported (henv : forecast.Reliable env)
    (h : Report.FitsAll env forecast.occasion forecast.sessions reports)
    (hdistinct : (reports.flatMap (·.ids)).Nodup) (hmem : report ∈ reports) :
    ∃ found, forecast.Reported env found report ∧ ∀ id ∈ report.ids,
      (Report.settleAll forecast.occasion forecast.sessions reports).session? id =
        (report.settle forecast.occasion found).session? id := by
  obtain ⟨found, hfound, hfits, hentries⟩ := h.of_mem henv.disciplined henv.keyed hdistinct hmem
  exact ⟨found, ⟨hfits, hfound, (List.nodup_flatMap.mp hdistinct).1 report hmem,
    fun id hid => (hentries id hid).1⟩, fun id hid => (hentries id hid).2⟩

theorem Reliable.foretells (henv : forecast.Reliable env)
    (h : Report.FitsAll env forecast.occasion forecast.sessions reports)
    (hdistinct : (reports.flatMap (·.ids)).Nodup) :
    forecast.Foretells (reports.map (·.batch)) (.of (reports.flatMap (·.writes forecast.occasion))
      (Report.settleAll forecast.occasion forecast.sessions reports) (reports.flatMap (·.calls))) := by
  have hreported : ∀ {report}, report ∈ reports → ∃ found, forecast.Reported env found report ∧
      ∀ id ∈ report.ids, (Report.settleAll forecast.occasion forecast.sessions reports).session? id =
        (report.settle forecast.occasion found).session? id := henv.reported h hdistinct
  have hspared : ∀ {α : Type} {f : Handling M → List α},
      (∀ handling, handling.fate.isLost = true → f handling = []) →
      (reports.flatMap (·.handlings)).flatMap f =
        ((reports.map (·.batch)).flatMap forecast.spared).flatMap fun drained =>
          f ⟨drained, forecast.fate drained⟩ := by
    intro α f hlost
    rw [List.flatMap_map, List.flatMap_assoc, List.flatMap_assoc]
    refine List.flatMap_congr fun report hmem => ?_
    obtain ⟨found, hreported, -⟩ := hreported hmem
    rw [hreported.handlings_eq henv, flatMap_handlings hlost]
  -- The entry of a record is the one that its batch leaves.
  have hentry : ∀ {report : Report M} {handling}, report ∈ reports → handling ∈ report.handlings →
      handling ∈ forecast.handlings report.batch ∧
      (Report.settleAll forecast.occasion forecast.sessions reports).session? handling.id =
        handling.fate.entry forecast.occasion (forecast.opened report.batch handling.id) := by
    intro report handling hmem hhandling
    obtain ⟨found, hreported, hentries⟩ := hreported hmem
    rw [hentries _ (List.mem_map_of_mem hhandling), ← hreported.handlings_eq henv]
    exact ⟨hhandling, hreported.session?_settle henv hhandling⟩
  refine ⟨?_, ?_, Report.forwarded_calls reports, ?_, ?_, ?_, ?_, ?_⟩
  · show reports.flatMap _ = _
    rw [Report.flatMap_writes, Handling.writes, List.filterMap_eq_flatMap_toList, hspared]
    · rfl
    · rintro ⟨drained, fate⟩ hlost
      cases fate <;> first | rfl | cases hlost
  · show (reports.flatMap (·.calls)).filterMap OutsideCall.event? = _
    rw [Report.events_calls, List.filterMap_eq_flatMap_toList, List.flatMap_assoc, hspared]
    · rfl
    · rintro ⟨drained, fate⟩ hlost
      cases fate <;> first | rfl | cases hlost
  · show (reports.flatMap (·.calls)).filterMap OutsideCall.asked? = _
    rw [Report.asked_calls, List.map_map]
    congr 1
    refine List.map_congr_left fun report hmem => ?_
    obtain ⟨found, hreported, -⟩ := hreported hmem
    exact hreported.asked_eq
  · intro batch hbatch drained hdrained
    obtain ⟨report, hmem, rfl⟩ := List.mem_map.mp hbatch
    obtain ⟨lost, hhandlings, -⟩ := exists_handlings_eq forecast report.batch
    obtain ⟨found, hreported, -⟩ := hreported hmem
    have hhandling : ⟨drained, forecast.fate drained⟩ ∈ report.handlings := by
      rw [hreported.handlings_eq henv, hhandlings]
      exact List.mem_append_left _ (List.mem_map_of_mem hdrained)
    have hopened : forecast.opened report.batch (Record.id drained) =
        forecast.known (Record.id drained) :=
      if_neg (by simp [loadFails_of_mem_spared hdrained])
    rw [← hopened]
    exact (hentry hmem hhandling).2
  · intro batch hbatch drained hdrained hlost
    obtain ⟨report, hmem, rfl⟩ := List.mem_map.mp hbatch
    obtain ⟨⟨drained, fate⟩, hhandling, rfl⟩ := List.mem_map.mp hdrained
    obtain ⟨hforetold, hentry⟩ := hentry hmem hhandling
    refine hentry.trans ?_
    rcases mem_spared_or_isLost hforetold with ⟨hspared, -⟩ | hfate
    · exact absurd hspared hlost
    · cases fate <;> first | rfl | cases hfate
  · intro id hid
    rw [← Report.flatMap_ids] at hid
    exact h.session?_of_not_mem henv.disciplined henv.keyed hdistinct hid
  · intro batch hbatch
    obtain ⟨report, hmem, rfl⟩ := List.mem_map.mp hbatch
    obtain ⟨found, hreported, -⟩ := hreported hmem
    exact hreported.not_hitch henv

theorem Reliable.hitch (henv : forecast.Reliable env)
    (h : Report.FitsAll env forecast.occasion forecast.sessions reports)
    (hdistinct : (reports.flatMap (·.ids) ++ batch.map Record.id).Nodup)
    (hstumbles : Report.Stumbles env forecast.occasion
      (Report.settleAll forecast.occasion forecast.sessions reports) batch) : forecast.Hitch batch := by
  rw [List.nodup_append] at hdistinct
  have hfound : ∀ id ∈ batch.map Record.id,
      (Report.settleAll forecast.occasion forecast.sessions reports).session? id =
        forecast.sessions.session? id := fun id hid =>
    h.session?_of_not_mem henv.disciplined henv.keyed hdistinct.1
      fun hearlier => hdistinct.2.2 id hearlier id hid rfl
  rcases hstumbles with ⟨id, hid, hunclear⟩ |
    ⟨loaded, hloads, handlings, drained, rest, rfl, hhandles, hspared, fault, hfault⟩
  · rw [hfound id hid] at hunclear
    obtain ⟨drained, hdrained, rfl⟩ := List.mem_map.mp hid
    exact .inl ⟨drained, hdrained, hunclear⟩
  · have hasked : forecast.occasion.missing
        (Report.settleAll forecast.occasion forecast.sessions reports)
          ((handlings.map (·.drained) ++ drained :: rest).map Record.id) =
        forecast.asked (handlings.map (·.drained) ++ drained :: rest) := by
      refine List.filter_congr fun id hid => ?_
      rw [hfound id hid]
    rw [hasked] at hloads
    rcases henv.loads hloads with ⟨_, error, herror⟩ | ⟨hfails, -⟩
    · cases herror
    · have hopened : ∀ record ∈ handlings.map (·.drained) ++ drained :: rest,
          (forecast.occasion.opened (Report.settleAll forecast.occasion forecast.sessions reports)
            ((handlings.map (·.drained) ++ drained :: rest).map Record.id) (.ok loaded)).get?
              (Record.id record) = (forecast.known (Record.id record)).map (·.record) := by
        intro record hrecord
        rw [Sessions.get?, henv.session?_opened hdistinct.2.1 hfound hloads
          (List.mem_map_of_mem hrecord), opened, hfails, if_neg Bool.false_ne_true]
      rw [hopened drained (by simp)] at hfault
      refine .inr ⟨drained, fault, ⟨hfails, _, rest, rfl, fun earlier hearlier => ?_⟩, hfault⟩
      obtain ⟨handling, hmem, rfl⟩ := List.mem_map.mp hearlier
      have hsuits := hhandles.suits handling hmem
      unfold Handling.id at hsuits
      rw [hopened _ (List.mem_append_left _ hearlier)] at hsuits
      rw [← (henv.fate_eq hsuits (hhandles.turn.ne_passedOver hspared handling hmem)).1]
      exact hspared handling hmem

end Forecast

namespace Persister

variable [Record M] {env : Surroundings σ M} {now : Int} {persister : Persister M}
  {rows : MetricId → Option M} {mishaps : Mishaps} {batches : List (List M)}

def forecast (persister : Persister M) (now : Int) (rows : MetricId → Option M) (mishaps : Mishaps) :
    Forecast M := ⟨persister.occasion now, rows, mishaps, persister.sessions⟩

theorem reliable (henv : env.Predictable persister.model rows mishaps)
    (hkeyed : persister.sessions.Keyed) :
    (persister.forecast now rows mishaps).Reliable env := ⟨henv, hkeyed⟩

/-- What is seen of a round that works on its records in these batches, unless it breaks off. -/
def yields (persister : Persister M) (env : Surroundings σ M) (now : Int) (outside : σ)
    (batches : List (List M)) : Option (Yield M) :=
  match (buildIn env.witnessed now batches).run.run (persister, outside, []) with
  | (.ok writes, last) => some (.of writes last.1.sessions last.2.2)
  | (.error _, _) => none

/-- What a round will come to can be told beforehand, and also whether it will break off. -/
theorem yields_foretold [KeepsIdentity M] (henv : env.Predictable persister.model rows mishaps)
    (hkeyed : persister.sessions.Keyed)
    (hdistinct : (batches.flatten.map Record.id).Nodup) (outside : σ) :
    (∃ yield ∈ persister.yields env now outside batches,
      (persister.forecast now rows mishaps).Foretells batches yield) ∨
    (persister.yields env now outside batches = none ∧
      ∃ batch ∈ batches, (persister.forecast now rows mishaps).Hitch batch) := by
  have hreliable : (persister.forecast now rows mishaps).Reliable env.witnessed :=
    reliable henv.witnessed hkeyed
  have hended : Ends (buildIn env.witnessed now batches) (persister, outside, []) _ _ :=
    buildIn_reports (env.witnessed_follows persister.model []) hkeyed rfl hdistinct
  unfold Ends at hended
  unfold yields
  split at hended
  · next writes last hrun =>
    obtain ⟨reports, rfl, hfits, rfl, hlast, houtside⟩ := hended
    rw [← Report.flatMap_ids] at hdistinct
    rw [hrun]
    refine .inl ⟨_, rfl, ?_⟩
    rw [hlast, houtside]
    exact hreliable.foretells hfits hdistinct
  · next fault last hrun =>
    rw [hrun]
    rcases hended with hbreak | ⟨reports, batch, rest, rfl, hfits, hstumbles⟩
    · exact absurd hbreak henv.witnessed.not_mayBreak
    · refine .inr ⟨rfl, batch, by simp, hreliable.hitch hfits ?_ hstumbles⟩
      rw [Report.flatMap_ids, ← List.map_append]
      refine hdistinct.sublist (List.Sublist.map _ ?_)
      rw [List.flatten_append, List.flatten_cons]
      exact (List.Sublist.refl _).append (List.sublist_append_left _ _)

theorem yields_of_not_hitch [KeepsIdentity M]
    (henv : env.Predictable persister.model rows mishaps) (hkeyed : persister.sessions.Keyed)
    (hdistinct : (batches.flatten.map Record.id).Nodup)
    (h : ∀ batch ∈ batches, ¬ (persister.forecast now rows mishaps).Hitch batch) (outside : σ) :
    ∃ yield ∈ persister.yields env now outside batches,
      (persister.forecast now rows mishaps).Foretells batches yield := by
  rcases yields_foretold henv hkeyed hdistinct outside with hyields | ⟨-, batch, hbatch, hhitch⟩
  · exact hyields
  · exact absurd hhitch (h batch hbatch)

theorem foretold_of_yields [KeepsIdentity M] {outside : σ} {yield : Yield M}
    (h : yield ∈ persister.yields env now outside batches)
    (henv : env.Predictable persister.model rows mishaps) (hkeyed : persister.sessions.Keyed)
    (hdistinct : (batches.flatten.map Record.id).Nodup) :
    (persister.forecast now rows mishaps).Foretells batches yield := by
  rcases yields_foretold henv hkeyed hdistinct outside with ⟨_, hyields, hforetold⟩ | ⟨hnone, -⟩
  · obtain rfl := Option.mem_unique hyields h
    exact hforetold
  · rw [hnone] at h
    cases h

end Persister

end Rollup
