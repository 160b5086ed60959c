import Rollup.Proofs.Accounts
import Rollup.Proofs.Generations

/-!
# Persisters with a backend

A persister on its own: it alone writes the rows, while the others that it works with (its consumers,
the next worker, whoever prepares its writes) have a state of their own and do as they like. They may
answer with an error or break off at any call, and need not do the same in the next round.
-/

namespace Rollup

open Rollup.Action

variable {σ M : Type}

/-- A call that a persister makes on others. -/
inductive OutsideCall (M : Type) where
  | load (ids : List MetricId)
  | prepare (kind : RequestKind) (record : M)
  | dispatch (record : M) (kind : EventKind)
  | forward (record : M)
  deriving DecidableEq

/-- What the others make of a call: nothing, an error, or a fault. -/
abbrev OutsideAnswers (σ M : Type) := OutsideCall M → Action σ (Option StorageError)

/-- A write that was asked for and prepared. -/
structure Ordered (M : Type) where
  kind : RequestKind
  model : Model
  record : M

def Ordered.write [Record M] (ordered : Ordered M) (now : Int) : Write M :=
  .of ordered.kind ordered.model ordered.record now

/-- The rows, the others, and what they have seen. -/
structure Backend (σ M : Type) where
  store : RowStore := {}
  others : σ
  /-- The writes that were prepared in the last round. -/
  prepared : List (Ordered M) := []
  handed : List M := []

abbrev PersisterState (σ M : Type) := Persister M × Backend σ M

namespace Backend

def storePart : Part (Backend σ M) RowStore := ⟨store, fun backend store => { backend with store }⟩

def othersPart : Part (Backend σ M) σ := ⟨others, fun backend others => { backend with others }⟩

/-- As a round begins, nothing was prepared in it yet. -/
def clean (backend : Backend σ M) : Backend σ M := { backend with prepared := [] }

/-- The surroundings of a persister whose calls are answered like this. -/
def surroundings [Record M] (answers : OutsideAnswers σ M) : Surroundings (Backend σ M) M where
  load model ids := do
    match ← othersPart.act (answers (.load ids)) with
    | some error => return .error error
    | none => storePart.act (RowStore.load model.storageName ids)
  prepare kind model record := do
    match ← othersPart.act (answers (.prepare kind record)) with
    | some error => return .error error
    | none =>
      match (← get).store.prepare with
      | .error error => return .error error
      | .ok () => do
        modify fun backend => { backend with prepared := backend.prepared ++ [⟨kind, model, record⟩] }
        return .ok ()
  dispatch record kind := do
    let _ ← othersPart.act (answers (.dispatch record kind))
  forward record := do
    modify fun backend => { backend with handed := backend.handed ++ [record] }
    let _ ← othersPart.act (answers (.forward record))

end Backend

/-! ## Rounds -/

namespace PersisterState

variable [Record M]

def flush : Flush (PersisterState σ M) (Write M) := fun writes => do
  let (answer, told, store) := (← get).2.store.flush writes
  modify fun (persister, backend) =>
    (told.foldl (fun persister (callback, verdict) => persister.settle callback verdict) persister,
      { backend with store })
  return answer

/-- A persister that takes part in a round at `now`, which ends at `later`. -/
def worker (name : String) (answers : OutsideAnswers σ M) (now later : Int) :
    RoundWorker (PersisterState σ M) (Write M) where
  name
  build := Persister.build (Backend.surroundings answers) now
  finish := modify fun (persister, backend) => (persister.endRound later, backend)

def clean (state : PersisterState σ M) : PersisterState σ M := (state.1, state.2.clean)

/-- A round whose calls are answered like this: its own answer, and what it leaves. -/
def round (answers : OutsideAnswers σ M) (now later : Int) (state : PersisterState σ M) :
    Except Fault (Except StorageError Nat) × PersisterState σ M :=
  (Rounds.runAlone flush (worker state.1.model.storageName answers now later)).run.run state.clean

end PersisterState

/-- What may happen to a persister. -/
inductive PersisterStep (σ M : Type) where
  | accept (record : M)
  /-- It has a round, whose calls are answered like this. -/
  | round (answers : OutsideAnswers σ M) (now later : Int)
  /-- Others have a round, and it ends for all. -/
  | endRound (now : Int)
  /-- The store is told which failures to have from now on. -/
  | fail (failures : StoreFailures)

namespace PersisterStep

variable [Record M]

def run (step : PersisterStep σ M) (state : PersisterState σ M) : PersisterState σ M :=
  match step with
  | accept record => ((state.1.write record).countAccepted, state.2)
  | round answers now later => (state.round answers now later).2
  | endRound now => (state.1.endRound now, state.2)
  | fail failures =>
    (state.1, { state.2 with store := { state.2.store with failures } })

end PersisterStep

namespace PersisterState

variable [Record M]

def after (steps : List (PersisterStep σ M)) (state : PersisterState σ M) : PersisterState σ M :=
  steps.foldl (fun state step => step.run state) state

theorem after_snoc (steps : List (PersisterStep σ M)) (step : PersisterStep σ M)
    (state : PersisterState σ M) :
    after (steps ++ [step]) state = step.run (after steps state) := by
  simp [after]

theorem after_append (steps more : List (PersisterStep σ M)) (state : PersisterState σ M) :
    after (steps ++ more) state = after more (after steps state) := by
  simp [after]

/-- A persister that was just built, over any rows. -/
structure Fresh (state : PersisterState σ M) : Prop where
  persister : ∃ model settings, state.1 = { model, settings }
  settings : state.1.settings.check = .ok ()

end PersisterState

/-! ## What a round comes to -/

namespace Backend

variable [Record M]

/-- The backend in a round: no row was written, these writes were prepared, and these records handed
on. -/
structure Beside (before : Backend σ M) (now : Int) (writes : List (Write M)) (handed : List M)
    (backend : Backend σ M) : Prop where
  store : backend.store = { before.store with loads := backend.store.loads }
  prepared : writes = backend.prepared.map (·.write now)
  handed : backend.handed = before.handed ++ handed

theorem Beside.row?_eq {before backend : Backend σ M} {now : Int} {writes : List (Write M)}
    {handed : List M} (h : before.Beside now writes handed backend) (key : RowKey) :
    backend.store.row? key = before.store.row? key := by
  rw [h.store]
  rfl

theorem Beside.of_others {before backend : Backend σ M} {now : Int} {writes : List (Write M)}
    {handed : List M} (h : before.Beside now writes handed backend) (others : σ) :
    before.Beside now writes handed { backend with others } := ⟨h.store, h.prepared, h.handed⟩

omit [Record M] in
theorem ends_ask (answers : OutsideAnswers σ M) (call : OutsideCall M) {backend : Backend σ M} :
    Ends (othersPart.act (answers call)) backend
      (fun _ backend' => ∃ others, backend' = { backend with others })
      (fun _ backend' => ∃ others, backend' = { backend with others }) := by
  rw [ends_act]
  exact ends_of_forall (fun _ others => ⟨others, rfl⟩) (fun _ others => ⟨others, rfl⟩)

theorem surroundings_honest [KeepsIdentity M] (answers : OutsideAnswers σ M) (before : Backend σ M)
    (now : Int) :
    (surroundings answers).Honest before.store now (before.Beside now) where
  load model ids writes handed backend h := by
    show Ends (othersPart.act (answers (.load ids)) >>= _) backend _ _
    rw [ends_bind]
    refine (ends_ask answers (.load ids)).mono ?_ ?_
    · rintro (_ | error) _ ⟨others, rfl⟩
      · have hread : backend.store.readRows (M := M) model.storageName ids =
            before.store.readRows model.storageName ids :=
          RowStore.readRows_congr (by rw [h.store]) _ _
        have hloads : ∀ store : RowStore, store = { backend.store with loads := store.loads } →
            before.Beside now writes handed { backend with store, others } := by
          intro store hstore
          refine ⟨hstore.trans ?_, h.prepared, h.handed⟩
          rw [h.store]
        show Ends (storePart.act (RowStore.load model.storageName ids)) _ _ _
        rw [ends_act]
        refine (RowStore.load_ends backend.store model.storageName ids).mono ?_ ?_
        · -- Reading counts the load, and leaves every row.
          rintro answer store ⟨hstore, hanswer⟩
          refine ⟨hloads store hstore, ?_⟩
          rintro loaded rfl
          split_ifs at hanswer with hfails
          · obtain ⟨error, herror⟩ := hanswer
            cases herror
          · exact RowStore.loads_of_readRows (hread.symm.trans hanswer)
        · exact fun _ store hstore => hloads store hstore.1
      · exact ⟨h.of_others others, nofun⟩
    · rintro _ _ ⟨others, rfl⟩
      exact h.of_others others
  prepare kind model record writes handed backend h := by
    show Ends (othersPart.act (answers (.prepare kind record)) >>= _) backend _ _
    rw [ends_bind]
    refine (ends_ask answers (.prepare kind record)).mono ?_ ?_
    · rintro (_ | error) _ ⟨others, rfl⟩
      · simp only [ends_bind, ends_get]
        split
        · exact h.of_others others
        · simp only [ends_bind, ends_modify, ends_pure]
          refine ⟨h.store, ?_, h.handed⟩
          rw [List.map_append, ← h.prepared]
          rfl
      · exact h.of_others others
    · rintro _ _ ⟨others, rfl⟩
      exact h.of_others others
  dispatch record kind writes handed backend h := by
    show Ends (othersPart.act (answers (.dispatch record kind)) >>= _) backend _ _
    rw [ends_bind]
    refine (ends_ask answers (.dispatch record kind)).mono ?_ ?_ <;>
    · rintro _ _ ⟨others, rfl⟩
      exact h.of_others others
  forward record writes handed backend h := by
    have hhanded : before.Beside now writes (handed ++ [record])
        { backend with handed := backend.handed ++ [record] } := by
      refine ⟨h.store, h.prepared, ?_⟩
      rw [h.handed, List.append_assoc]
    show Ends (modify _ >>= fun _ => othersPart.act (answers (.forward record)) >>= _) backend _ _
    rw [ends_bind, ends_modify, ends_bind]
    refine (ends_ask answers (.forward record)).mono ?_ ?_
    · rintro _ _ ⟨others, rfl⟩
      exact hhanded.of_others others
    · rintro _ _ ⟨others, rfl⟩
      exact ⟨_, hhanded.of_others others⟩

theorem beside_clean (backend : Backend σ M) (now : Int) :
    backend.clean.Beside now [] [] backend.clean := ⟨rfl, rfl, (List.append_nil _).symm⟩

end Backend

/-- What a flush makes of the rows, and of its writes. -/
def RowStore.Flushed (store : RowStore) (writes : List (Write M)) : Verdict → RowStore → Prop
  | .executed, store' => store' = (store.apply writes).2
  | .failed, store' => store' = store

namespace PersisterState

variable [Record M]

/-- A round that went through. -/
inductive Round (persister : Persister M) (backend : Backend σ M) (now later : Int) :
    Persister M → Backend σ M → Prop
  | satOut (due : persister.isDue = false) : Round persister backend now later
      ({ persister with rounds := persister.rounds + 1 }.endRound later) backend.clean
  | wrote {draft : Draft M} {backend' : Backend σ M} {verdict : Verdict} {store : RowStore}
      (due : persister.isDue = true)
      (advanced : Draft.Advanced backend.store persister.model now ⟨persister.sessions, []⟩ draft)
      (beside : backend.clean.Beside now draft.writes persister.toDrain backend')
      (flushed : backend'.store.Flushed draft.writes verdict store) :
      Round persister backend now later
        ((persister.drainedTo
          (draft.sessions.settleAll (outcomes draft.writes verdict))).endRound later)
        { backend' with store }

/-- A round that broke off, and what was drafted when it did. -/
inductive Break (persister : Persister M) (backend : Backend σ M) (now : Int) :
    Persister M → Backend σ M → Prop
  | mk {draft halted : Draft M} {handed : List M} {backend' : Backend σ M}
      (due : persister.isDue = true)
      (advanced : Draft.Advanced backend.store persister.model now ⟨persister.sessions, []⟩ draft)
      (halts : draft.Halts persister.model now halted)
      (beside : backend.clean.Beside now halted.writes handed backend') :
      Break persister backend now
        (persister.drainedTo (halted.sessions.settleAll (outcomes halted.writes .failed))) backend'

/-- The next round goes as rounds do. -/
structure Ready (backed : MetricId → M → Prop) (state : PersisterState σ M) : Prop extends
    Persister.Sound state.1 where
  backs : Backs state.2.store state.1.model.storageName backed
  sessions : state.1.sessions.Backed backed

variable {backed : MetricId → M → Prop} {state : PersisterState σ M}

theorem build_ends [KeepsIdentity M] (h : state.Ready backed) (answers : OutsideAnswers σ M)
    (now : Int) :
    Ends (Persister.build (Backend.surroundings answers) now) state.clean
      (fun writes last =>
        (state.1.isDue = false ∧ writes = [] ∧
          last = ({ state.1 with rounds := state.1.rounds + 1 }, state.2.clean)) ∨
        (state.1.isDue = true ∧ ∃ sessions,
          Draft.Advanced state.2.store state.1.model now ⟨state.1.sessions, []⟩
            ⟨sessions, writes⟩ ∧
          last.1 = state.1.drainedTo sessions ∧
          state.2.clean.Beside now writes state.1.toDrain last.2))
      (fun fault last => state.1.isDue = true ∧ ∃ round,
        (Persister.working (Backend.surroundings answers) now state.1).run.run
          (state.1.opening state.2.clean) = (.error fault, round) ∧
        Preparation.Halted state.2.store (state.2.clean.Beside now) now
          (state.1.opening state.2.clean).persister round ∧
        last = (Persister.unwound round, round.outside)) :=
  Persister.build_drafts (Backend.surroundings_honest answers state.2.clean now) h.toSound
    (h.sessions.keyed h.backs) (state.2.beside_clean now)

theorem flush_run (writes : List (Write M)) (persister : Persister M) (backend : Backend σ M) :
    (flush writes).run (persister, backend) = ((backend.store.flush writes).1,
      { persister with sessions := persister.sessions.settleAll (backend.store.flush writes).2.1 },
      { backend with store := (backend.store.flush writes).2.2 }) := by
  rw [← Persister.foldl_settle]
  rfl

theorem flushAny_run {writes : List (Write M)} (persister : Persister M) {backend : Backend σ M}
    (hfit : backend.store.Fit writes) :
    ∃ verdict store, ((Rounds.flushAny flush writes).run (persister, backend)).2 =
        ({ persister with sessions := persister.sessions.settleAll (outcomes writes verdict) },
          { backend with store }) ∧ backend.store.Flushed writes verdict store := by
  have htold : ∀ verdict, outcomes writes verdict =
      writes.flatMap fun write => (write.conclude verdict).toList :=
    fun verdict => List.filterMap_eq_flatMap_toList _ _
  unfold Rounds.flushAny
  split_ifs with hempty
  · rw [List.isEmpty_iff] at hempty
    subst hempty
    exact ⟨.executed, backend.store, rfl, rfl⟩
  · rw [flush_run, RowStore.flush]
    split_ifs with hfailing
    · refine ⟨.failed, backend.store, ?_, rfl⟩
      rw [htold]
      rfl
    · refine ⟨.executed, (backend.store.apply writes).2, ?_, rfl⟩
      simp only [RowStore.told_apply hfit, htold]
      rfl

theorem round_ends [KeepsIdentity M] (h : state.Ready backed) (answers : OutsideAnswers σ M)
    (now later : Int) :
    Ends (Rounds.runAlone flush (worker state.1.model.storageName answers now later)) state.clean
      (fun _ last => Round state.1 state.2 now later last.1 last.2)
      (fun _ last => Break state.1 state.2 now last.1 last.2) := by
  unfold Rounds.runAlone
  rw [ends_bind]
  refine (build_ends h answers now).mono ?_ ?_
  · rintro writes ⟨persister, backend⟩ (⟨hdue, rfl, heq⟩ | ⟨hdue, sessions, hadvanced, heq, hbeside⟩)
    · obtain ⟨rfl, rfl⟩ := Prod.mk.inj heq
      simp only [ends_bind, ends_liftM_state, ends_pure]
      exact .satOut hdue
    · have hpersister : persister = state.1.drainedTo sessions := heq
      subst hpersister
      have haccounts := (Draft.Accounts.start h.sessions).run h.backs hadvanced
      have hfit : backend.store.Fit writes := haccounts.fit.of_row?_eq hbeside.row?_eq
      obtain ⟨verdict, store, hrun, hflushed⟩ := flushAny_run (state.1.drainedTo sessions) hfit
      simp only [ends_bind, ends_liftM_state, ends_pure, hrun]
      exact .wrote hdue hadvanced hbeside hflushed
  · -- A flush cannot break off, so it was the preparation that did.
    rintro fault _ ⟨hdue, round, _, hhalted, rfl⟩
    obtain ⟨draft, hadvanced, hhalts⟩ := hhalted.advanced
    obtain ⟨handed, hbeside⟩ := hhalted.outside
    rw [Persister.unwound_eq hhalted]
    exact .mk hdue hadvanced hhalts hbeside

end PersisterState

/-! ## Steps -/

/-- What a step makes of a persister and its backend. -/
inductive PersisterStep.Does [Record M] (persister : Persister M) (backend : Backend σ M) :
    PersisterStep σ M → Persister M → Backend σ M → Prop
  | accept (record : M) :
      Does persister backend (accept record) (persister.write record).countAccepted backend
  | endRound (now : Int) : Does persister backend (endRound now) (persister.endRound now) backend
  | fail (failures : StoreFailures) : Does persister backend (fail failures) persister
      { backend with store := { backend.store with failures } }
  | round {answers : OutsideAnswers σ M} {now later : Int} {persister' : Persister M}
      {backend' : Backend σ M}
      (ended : PersisterState.Round persister backend now later persister' backend') :
      Does persister backend (round answers now later) persister' backend'
  | brokeOff {answers : OutsideAnswers σ M} {now later : Int} {persister' : Persister M}
      {backend' : Backend σ M}
      (broke : PersisterState.Break persister backend now persister' backend') :
      Does persister backend (round answers now later) persister' backend'

namespace PersisterState

variable [Record M] {backed : MetricId → M → Prop} {state : PersisterState σ M}

theorem step_does [KeepsIdentity M] (h : state.Ready backed) (step : PersisterStep σ M) :
    step.Does state.1 state.2 (step.run state).1 (step.run state).2 := by
  cases step with
  | accept record => exact .accept record
  | endRound now => exact .endRound now
  | fail failures => exact .fail failures
  | round answers now later =>
    let does (last : PersisterState σ M) : Prop :=
      (PersisterStep.round answers now later).Does state.1 state.2 last.1 last.2
    have hround : Ends (Rounds.runAlone flush (worker state.1.model.storageName answers now later))
        state.clean (fun _ => does) (fun _ => does) :=
      (round_ends h answers now later).mono (fun _ _ ended => .round ended)
        (fun _ _ broke => .brokeOff broke)
    exact (ends_state does).mp hround

end PersisterState

namespace PersisterStep

variable [Record M] {persister persister' : Persister M} {backend backend' : Backend σ M}
  {step : PersisterStep σ M}

theorem Does.frame [KeepsIdentity M] (h : step.Does persister backend persister' backend')
    (hsound : persister.Sound) : persister'.Sound ∧ persister'.model = persister.model ∧
      persister'.settings = persister.settings := by
  cases h with
  | accept record =>
    exact ⟨⟨hsound.closed.write record, hsound.keyed.accept record, hsound.loadBatch⟩, rfl, rfl⟩
  | endRound => exact ⟨⟨hsound.closed, hsound.keyed, hsound.loadBatch⟩, rfl, rfl⟩
  | fail => exact ⟨hsound, rfl, rfl⟩
  | round ended =>
    cases ended with
    | satOut => exact ⟨⟨hsound.closed, hsound.keyed, hsound.loadBatch⟩, rfl, rfl⟩
    | wrote => exact ⟨⟨.empty, .empty, hsound.loadBatch⟩, rfl, rfl⟩
  | brokeOff broke =>
    cases broke with
    | mk => exact ⟨⟨.empty, .empty, hsound.loadBatch⟩, rfl, rfl⟩

end PersisterStep

/-! ## What waits -/

/-- The window holds the folds of these records. -/
def Persister.Waits [Record M] (persister : Persister M) (waiting : List M) : Prop :=
  ∀ id, persister.window.active.get? id = foldOf id waiting

namespace PersisterStep

variable [Record M]

/-- The record that is handed over in a step. -/
def accepted? : PersisterStep σ M → Option M
  | accept record => some record
  | _ => none

/-- What the clock shows in a step. -/
def readings : PersisterStep σ M → List Int
  | round _ now later => [now, later]
  | endRound now => [now]
  | _ => []

/-- Whether the step drains the window. -/
def isDrain : PersisterStep σ M → Persister M → Bool
  | round .., persister => persister.isDue
  | _, _ => false

variable {persister persister' : Persister M} {backend backend' : Backend σ M}
  {step : PersisterStep σ M} {waiting : List M}

theorem Does.waits (h : step.Does persister backend persister' backend')
    (hwaits : persister.Waits waiting) : persister'.Waits
      (if step.isDrain persister then [] else waiting ++ step.accepted?.toList) := by
  have hdrained : ∀ drained : Persister M, drained.window = .empty → drained.Waits [] := by
    intro drained hwindow id
    rw [hwindow]
    exact Buffer.get?_empty id
  have hstill : persister.Waits (waiting ++ []) := by rwa [List.append_nil]
  cases h with
  | accept record =>
    intro id
    show (persister.window.active.accept record).get? id = foldOf id (waiting ++ [record])
    rw [foldOf_append, ← hwaits id]
    exact Buffer.get?_acceptAll _ [record] id
  | endRound | fail => exact hstill
  | round ended =>
    cases ended with
    | satOut due =>
      rw [isDrain, due]
      exact hstill
    | wrote due =>
      rw [isDrain, due]
      exact hdrained _ rfl
  | brokeOff broke =>
    cases broke with
    | mk due =>
      rw [isDrain, due]
      exact hdrained _ rfl

end PersisterStep

namespace PersisterState

variable [Record M]

def accepted (steps : List (PersisterStep σ M)) : List M := steps.filterMap PersisterStep.accepted?

omit [Record M] in
theorem accepted_cons (step : PersisterStep σ M) (rest : List (PersisterStep σ M)) :
    accepted (step :: rest) = step.accepted?.toList ++ accepted rest := by
  rw [accepted, List.filterMap_cons]
  cases step <;> rfl

/-- None of these steps drains the window. -/
def Quiet : List (PersisterStep σ M) → PersisterState σ M → Prop
  | [], _ => True
  | step :: rest, state => step.isDrain state.1 = false ∧ Quiet rest (step.run state)

end PersisterState

end Rollup
