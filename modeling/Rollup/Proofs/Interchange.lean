import Rollup.Proofs.Abreast
import Rollup.Proofs.MergeOrder
import Rollup.Proofs.Preparation

/-!
# Interchangeable records

Two drained records with the same accumulators lead to the same write, whatever is cached. So two
persisters that drain such records, one against one, prepare the same writes, as long as what they
load is the same.
-/

namespace Rollup

open Rollup.Action Record

variable {σ τ M : Type} [Record M]

/-- Whatever is to be written for one of the two records is to be written for the other. -/
structure Record.Interchangeable (a b : M) : Prop where
  id : Record.id a = Record.id b
  combine : ∀ held : M, Record.combine held a = Record.combine held b
  calculate : Record.calculate a = Record.calculate b

/-! ## What is interchangeable -/

namespace SumRecord

theorem interchangeable {a b : SumRecord} (h : Alike a b) : Interchangeable a b := by
  obtain ⟨_, ⟨_⟩⟩ := a
  obtain ⟨_, ⟨_⟩⟩ := b
  obtain ⟨rfl, rfl⟩ := alike_iff.mp h
  exact ⟨rfl, fun _ => rfl, rfl⟩

end SumRecord

namespace PeakRecord

theorem interchangeable {a b : PeakRecord} (h : Alike a b) : Interchangeable a b := by
  obtain ⟨_, ⟨_⟩⟩ := a
  obtain ⟨_, ⟨_⟩⟩ := b
  obtain ⟨rfl, rfl⟩ := alike_iff.mp h
  exact ⟨rfl, fun _ => rfl, rfl⟩

end PeakRecord

namespace RateRecord

theorem interchangeable {a b : RateRecord} (h : Alike a b) : Interchangeable a b := by
  obtain ⟨_, ⟨_⟩, _⟩ := a
  obtain ⟨_, ⟨_⟩, _⟩ := b
  obtain ⟨rfl, rfl⟩ := alike_iff.mp h
  exact ⟨rfl, fun _ => rfl, rfl⟩

end RateRecord

namespace LatestRecord

theorem interchangeable {a b : LatestRecord} (h : Alike a b) : Interchangeable a b := by
  obtain ⟨_, ⟨_⟩, ⟨_⟩⟩ := a
  obtain ⟨_, ⟨_⟩, ⟨_⟩⟩ := b
  obtain ⟨rfl, rfl, rfl⟩ := alike_iff.mp h
  exact ⟨rfl, fun _ => rfl, rfl⟩

end LatestRecord

namespace PercentileRecord

theorem interchangeable {a b : PercentileRecord} (h : Alike a b) : Interchangeable a b := by
  obtain ⟨_, ⟨_⟩, ⟨_⟩, _⟩ := a
  obtain ⟨_, ⟨_⟩, ⟨_⟩, _⟩ := b
  obtain ⟨rfl, rfl, rfl⟩ := alike_iff.mp h
  exact ⟨rfl, fun _ => rfl, rfl⟩

end PercentileRecord

namespace AverageRecord

/-- An average of nothing keeps the value that it shows. -/
theorem interchangeable {a b : AverageRecord} (h : Alike a b)
    (hvalue : a.value = b.value ∨ b.count.value ≠ 0) : Interchangeable a b := by
  obtain ⟨_, ⟨_⟩, ⟨_⟩, _⟩ := a
  obtain ⟨_, ⟨_⟩, ⟨_⟩, _⟩ := b
  obtain ⟨rfl, rfl, rfl⟩ := alike_iff.mp h
  refine ⟨rfl, fun _ => rfl, ?_⟩
  rcases hvalue with rfl | hcount
  · rfl
  · simp only [Record.calculate, calculate]
    rw [if_neg hcount, if_neg hcount]

/-- All show the same value, or they come to an average of something. -/
def Settled (records : List AverageRecord) : Prop :=
  (∀ a ∈ records, ∀ b ∈ records, a.value = b.value) ∨
    ∀ whole ∈ joinedAll none records, whole.count.value ≠ 0

theorem value_joinedAll {records : List AverageRecord} {held : Option AverageRecord}
    {whole : AverageRecord} (h : whole ∈ joinedAll held records) :
    ∃ record ∈ held.toList ++ records, whole.value = record.value := by
  induction records generalizing held with
  | nil => exact ⟨whole, by simpa using h, rfl⟩
  | cons first rest ih =>
    obtain ⟨record, hrecord, hvalue⟩ := ih h
    rcases List.mem_append.mp hrecord with hjoined | hrest
    · obtain rfl := List.mem_singleton.mp hjoined
      cases held with
      | none => exact ⟨first, List.mem_cons_self, hvalue⟩
      | some held => exact ⟨held, List.mem_cons_self, hvalue⟩
    · exact ⟨record, List.mem_append_right _ (List.mem_cons_of_mem _ hrest), hvalue⟩

theorem Settled.interchangeable {records handed : List AverageRecord} {a b : AverageRecord}
    (h : Settled records) (hperm : handed.Perm records) (ha : a ∈ joinedAll none handed)
    (hb : b ∈ joinedAll none records) (halike : Alike a b) : Interchangeable a b := by
  -- Of what settles, it makes no difference in which order it is merged.
  refine AverageRecord.interchangeable halike ?_
  rcases h with hsame | hcount
  · obtain ⟨first, hfirst, hvalue⟩ := value_joinedAll ha
    obtain ⟨second, hsecond, hvalue'⟩ := value_joinedAll hb
    left
    rw [hvalue, hvalue']
    exact hsame first (hperm.mem_iff.mp hfirst) second hsecond
  · exact .inr (hcount b hb)

end AverageRecord

/-! ## Lists of records -/

theorem forall₂_chunks {α β : Type} {relates : α → β → Prop} {items : List α} {others : List β}
    (h : List.Forall₂ relates items others) (size : Nat) :
    List.Forall₂ (List.Forall₂ relates) (chunks size items) (chunks size others) := by
  have hupTo : ∀ (count : Nat) (items : List α) (others : List β), List.Forall₂ relates items others →
      List.Forall₂ (List.Forall₂ relates) (chunksUpTo size count items)
        (chunksUpTo size count others) := by
    intro count
    induction count with
    | zero => exact fun _ _ _ => .nil
    | succ count ih =>
      intro items others h
      cases h with
      | nil => exact .nil
      | cons hfirst hrest =>
        have hall := List.Forall₂.cons hfirst hrest
        exact .cons (List.forall₂_take size hall) (ih _ _ (List.forall₂_drop size hall))
  unfold chunks
  rw [h.length_eq]
  exact hupTo _ items others h

theorem rel_of_mem {α β : Type} {relates holds : α → β → Prop} {a : Option α} {b : Option β}
    (h : Option.Rel relates a b) (hholds : ∀ x ∈ a, ∀ y ∈ b, relates x y → holds x y) :
    Option.Rel holds a b := by
  cases h with
  | none => exact .none
  | some h => exact .some (hholds _ rfl _ rfl h)

omit [Record M] in
theorem Buffer.forall₂_toList {relates : M → M → Prop} {buffer other : Buffer M}
    (h : ∀ id, Option.Rel relates (buffer.get? id) (other.get? id)) :
    List.Forall₂ relates buffer.toList other.toList := by
  let counterpart (id : MetricId) (held : M) : M := (other.get? id).getD held
  have hpaired : ∀ id, other.get? id = (buffer.get? id).map (counterpart id) := by
    intro id
    have hid := h id
    unfold counterpart
    generalize other.get? id = held' at hid
    generalize buffer.get? id = held at hid
    cases hid <;> rfl
  -- The other buffer is this one with counterparts for records, so their orders are the same.
  have hother : other.records = buffer.records.map counterpart := by
    apply Std.ExtTreeMap.ext_getElem?
    intro id
    rw [Std.ExtTreeMap.getElem?_map]
    exact hpaired id
  unfold toList
  rw [hother, Std.ExtTreeMap.toList_map, List.map_map, List.forall₂_map_left_iff,
    List.forall₂_map_right_iff, List.forall₂_same]
  rintro ⟨id, held⟩ hmem
  have hheld : buffer.get? id = some held := Std.ExtTreeMap.mem_toList_iff_getElem?_eq_some.mp hmem
  have hid := h id
  rw [hpaired, hheld] at hid
  cases hid with
  | some hid => exact hid

/-! ## A round that is being prepared -/

/-- Wherever `same` holds of their states, the two answer the same. What they are shown and handed
makes no difference. -/
structure Surroundings.Agree (same : σ → τ → Prop) (env : Surroundings σ M) (env' : Surroundings τ M) :
    Prop where
  load : ∀ model ids s s', same s s' →
    Abreast (env.load model ids) s (env'.load model ids) s' (fun _ => same) same
  prepare : ∀ kind model record s s', same s s' →
    Abreast (env.prepare kind model record) s (env'.prepare kind model record) s' (fun _ => same) same
  dispatch : ∀ record record' kind s s', same s s' →
    Abreast (env.dispatch record kind) s (env'.dispatch record' kind) s' (fun _ => same) same
  forward : ∀ record record' s s', same s s' →
    Abreast (env.forward record) s (env'.forward record') s' (fun _ => same) same

namespace Preparation

variable {same : σ → τ → Prop} {env : Surroundings σ M} {env' : Surroundings τ M} {now : Int}
  {round : Preparation σ M} {other : Preparation τ M}

/-- Two rounds that have prepared the same writes. -/
structure Alongside (same : σ → τ → Prop) (round : Preparation σ M) (other : Preparation τ M) : Prop where
  model : other.persister.model = round.persister.model
  settings : other.persister.settings = round.persister.settings
  sessions : other.persister.sessions = round.persister.sessions
  writes : other.writes = round.writes
  outside : same round.outside other.outside

omit [Record M] in
theorem Alongside.calling (h : Alongside same round other) {α : Type} {call : Action σ α}
    {call' : Action τ α}
    (hcall : Abreast call round.outside call' other.outside (fun _ => same) same) :
    Abreast (calling call) round (Preparation.calling call') other (fun _ => Alongside same)
      (Alongside same) := by
  have hrun : (Preparation.calling call).run.run round =
      ((call.run.run round.outside : Except Fault α × σ).1,
        { round with outside := (call.run.run round.outside : Except Fault α × σ).2 }) := rfl
  have hrun' : (Preparation.calling call').run.run other =
      ((call'.run.run other.outside : Except Fault α × τ).1,
        { other with outside := (call'.run.run other.outside : Except Fault α × τ).2 }) := rfl
  unfold Abreast
  rw [hrun, hrun']
  rcases hcall.both with ⟨answer, s, s', hrun, hrun', hsame⟩ | ⟨fault, s, s', hrun, hrun', hsame⟩
  all_goals
    rw [hrun, hrun']
    exact ⟨rfl, h.model, h.settings, h.sessions, h.writes, hsame⟩

omit [Record M] in
theorem Alongside.changeSessions (h : Alongside same round other) (change : Sessions M → Sessions M) :
    Abreast (changeSessions change) round (Preparation.changeSessions change) other
      (fun _ => Alongside same) (Alongside same) :=
  ⟨rfl, h.model, h.settings, congrArg change h.sessions, h.writes, h.outside⟩

theorem Alongside.isMissing (h : Alongside same round other) (id : MetricId) :
    Abreast (isMissing now id) round (Preparation.isMissing now id) other
      (fun _ => Alongside same) (Alongside same) := by
  unfold Preparation.isMissing
  rw [abreast_get_left, abreast_get_right]
  simp only [h.sessions, h.model, h.settings]
  cases round.persister.sessions.get? id with
  | none => exact (abreast_pure _).mpr h
  | some cached =>
    dsimp only
    split
    · exact (abreast_pure _).mpr h
    · rcases Retention.isExpired (Record.id cached).bucket now round.persister.settings.ttlDays with
        fault | _ | _
      · exact (abreast_error fault).mpr h
      · exact (abreast_pure _).mpr h
      · simp only [abreast_ok_left, abreast_ok_right, if_true]
        exact (h.changeSessions (·.remove id)).bind fun _ _ _ h => (abreast_pure _).mpr h

theorem Alongside.loadMissing (h : Alongside same round other) (henv : env.Agree same env')
    {batch batch' : List M} (hbatch : List.Forall₂ Interchangeable batch batch') :
    Abreast (loadMissing env now batch) round (Preparation.loadMissing env' now batch') other
      (fun _ => Alongside same) (Alongside same) := by
  have hids : batch'.map Record.id = batch.map Record.id := by
    induction hbatch with
    | nil => rfl
    | cons hfirst _ ih => rw [List.map_cons, List.map_cons, ih, hfirst.id]
  unfold Preparation.loadMissing
  rw [hids]
  refine (Abreast.filterM (fun _ => Alongside same) h fun _ id _ _ h => h.isMissing id).bind ?_
  intro missing _ _ h
  split
  · exact (abreast_pure _).mpr h
  · rw [abreast_get_left, abreast_get_right, h.model]
    refine (h.calling (henv.load _ _ _ _ h.outside)).bind ?_
    rintro (error | loaded) _ _ h
    · exact (abreast_pure _).mpr h
    · exact (h.changeSessions _).bind fun _ _ _ h => (abreast_pure _).mpr h

/-! ### Preparing -/

theorem Alongside.prepareWrite (h : Alongside same round other) (henv : env.Agree same env')
    (kind : RequestKind) (whole : M) :
    Abreast (prepareWrite env now kind whole) round (Preparation.prepareWrite env' now kind whole) other
      (fun _ => Alongside same) (Alongside same) := by
  unfold Preparation.prepareWrite
  rw [abreast_get_left, abreast_get_right, h.model]
  refine (h.calling (henv.prepare kind _ whole _ _ h.outside)).bind ?_
  rintro (error | _) round' other' h
  · exact (abreast_pure _).mpr h
  · have hpushed : Alongside same
        { round' with writes := round'.writes ++ [.of kind round.persister.model whole now] }
        { other' with writes := other'.writes ++ [.of kind round.persister.model whole now] } :=
      ⟨h.model, h.settings, h.sessions, congrArg (· ++ _) h.writes, h.outside⟩
    refine (hpushed.calling (henv.dispatch whole whole .total _ _ h.outside)).bind fun _ _ _ h => ?_
    exact (abreast_pure _).mpr h

theorem Alongside.prepareRecord (h : Alongside same round other) (henv : env.Agree same env')
    {drained drained' : M} (hdrained : Interchangeable drained drained') :
    Abreast (prepareRecord env now drained) round (Preparation.prepareRecord env' now drained') other
      (fun _ => Alongside same) (Alongside same) := by
  unfold Preparation.prepareRecord
  rw [abreast_get_left, abreast_get_right]
  simp only [h.sessions, h.model, ← hdrained.id, ← hdrained.calculate]
  cases round.persister.sessions.get? (Record.id drained) with
  | none =>
    rcases Record.calculate drained with fault | whole
    · exact (abreast_error fault).mpr h
    · refine (h.prepareWrite henv .insert whole).bind fun _ _ _ h => ?_
      exact (abreast_pure _).mpr h
  | some cached =>
    simp only [← hdrained.combine cached]
    split
    · exact (abreast_pure _).mpr h
    · rcases Record.calculate (Record.combine cached drained).2 with fault | whole
      · exact (abreast_error fault).mpr h
      · refine (h.prepareWrite henv .update whole).bind ?_
        rintro (error | _) _ _ h
        · exact (abreast_pure _).mpr h
        · exact (h.changeSessions (·.put whole now)).bind fun _ _ _ h => (abreast_pure _).mpr h

theorem Alongside.prepareRecords (henv : env.Agree same env') (failed : Bool) {batch batch' : List M}
    (hbatch : List.Forall₂ Interchangeable batch batch') (h : Alongside same round other) :
    Abreast (prepareRecords env now failed batch) round
      (Preparation.prepareRecords env' now failed batch') other
      (fun _ => Alongside same) (Alongside same) := by
  induction hbatch generalizing failed round other with
  | nil => exact (abreast_pure ()).mpr h
  | @cons drained drained' rest rest' hdrained _ ih =>
    have hrest : ∀ (failed : Bool) (round : Preparation σ M) (other : Preparation τ M),
        Alongside same round other →
        Abreast (do
            Preparation.calling (env.forward drained)
            Preparation.prepareRecords env now failed rest) round (do
            Preparation.calling (env'.forward drained')
            Preparation.prepareRecords env' now failed rest') other
          (fun _ => Alongside same) (Alongside same) := fun failed _ _ h =>
      (h.calling (henv.forward drained drained' _ _ h.outside)).bind fun _ _ _ h => ih failed h
    cases failed with
    | true => exact hrest true round other h
    | false =>
      rw [Preparation.prepareRecords, Preparation.prepareRecords]
      refine (h.prepareRecord henv hdrained).bind ?_
      rintro (_ | _ | _) t t' h
      · exact hrest true t t' h
      · exact hrest false t t' h
      · exact (h.calling (henv.dispatch drained drained' .increment _ _ h.outside)).bind
          fun _ t t' h => hrest false t t' h

theorem Alongside.prepareBatch (h : Alongside same round other) (henv : env.Agree same env')
    {batch batch' : List M} (hbatch : List.Forall₂ Interchangeable batch batch') :
    Abreast (prepareBatch env now batch) round (Preparation.prepareBatch env' now batch') other
      (fun _ => Alongside same) (Alongside same) := by
  unfold Preparation.prepareBatch
  refine (h.loadMissing henv hbatch).bind ?_
  rintro (_ | _) t t' h
  · exact h.prepareRecords henv true hbatch
  · exact h.prepareRecords henv false hbatch

end Preparation

/-! ## A whole round -/

namespace Persister

/-- The two have as many rounds behind them and the same cached, and records of the same worth to be
drained. -/
structure Alongside (persister other : Persister M) : Prop where
  model : other.model = persister.model
  settings : other.settings = persister.settings
  sessions : other.sessions = persister.sessions
  rounds : other.rounds = persister.rounds
  closed : persister.window.Closed ∧ other.window.Closed
  drained : List.Forall₂ Interchangeable persister.window.active.toList other.window.active.toList

variable {same : σ → τ → Prop} {env : Surroundings σ M} {env' : Surroundings τ M} {now : Int}
  {persister other : Persister M} {outside : σ} {outside' : τ}

theorem Alongside.isDue (h : persister.Alongside other) : other.isDue = persister.isDue := by
  unfold Persister.isDue
  rw [h.rounds, h.settings]

theorem Alongside.satOut (h : persister.Alongside other) :
    ({ persister with rounds := persister.rounds + 1 } : Persister M).Alongside
      { other with rounds := other.rounds + 1 } :=
  ⟨h.model, h.settings, h.sessions, congrArg (· + 1) h.rounds, h.closed, h.drained⟩

theorem Alongside.endRound (h : persister.Alongside other) (now : Int) :
    (persister.endRound now).Alongside (other.endRound now) := by
  refine ⟨h.model, h.settings, ?_, h.rounds, h.closed, h.drained⟩
  unfold Persister.endRound
  rw [h.sessions, h.settings]

theorem build_satOut (env : Surroundings σ M) (now : Int) (hdue : persister.isDue = false)
    (outside : σ) : (build env now).run.run (persister, outside) =
      ((.ok [] : Except Fault (List (Write M))),
        ({ persister with rounds := persister.rounds + 1 }, outside)) := by
  unfold build
  rw [run_bind]
  show (((if !persister.isDue then pure [] else _) : Action (Persister M × σ) (List (Write M))).run.run
    ({ persister with rounds := persister.rounds + 1 }, outside)) = _
  rw [hdue]
  rfl

theorem Alongside.build (h : persister.Alongside other) (henv : env.Agree same env')
    (houtside : same outside outside') :
    Abreast (build env now) (persister, outside) (Persister.build env' now) (other, outside')
      (fun _ _ _ => True) fun _ _ => True := by
  have hdue := h.isDue
  obtain ⟨_, _, window', _, _, accepted, reported⟩ := other
  obtain ⟨rfl, rfl, rfl, rfl, ⟨hclosed, hclosed'⟩, hdrained⟩ := h
  unfold Persister.build
  simp only [abreast_get_left, abreast_get_right, abreast_set_left, abreast_set_right, hdue]
  cases persister.isDue with
  | false => simp only [Bool.not_false, if_true, abreast_pure]
  | true =>
    let opened : Window M := { active := .empty, inactive := persister.window.active, draining := true }
    let opened' : Window M := { active := .empty, inactive := window'.active, draining := true }
    have hopened : persister.window.beginDrain = .ok opened := hclosed.beginDrain
    have hopened' : window'.beginDrain = .ok opened' := hclosed'.beginDrain
    let start : Preparation σ M := {
      persister := { persister with window := opened.take.2, rounds := persister.rounds + 1 }
      outside }
    let start' : Preparation τ M := {
      persister := { persister with
        window := opened'.take.2, rounds := persister.rounds + 1, accepted, reported }
      outside := outside' }
    have hstart : Preparation.Alongside same start start' := ⟨rfl, rfl, rfl, rfl, houtside⟩
    have hpieces : List.Forall₂ (List.Forall₂ Interchangeable)
        (chunks persister.settings.loadBatch opened.take.1)
        (chunks persister.settings.loadBatch opened'.take.1) := forall₂_chunks hdrained _
    have hbatches : Abreast
        ((chunks persister.settings.loadBatch opened.take.1).forM (Preparation.prepareBatch env now)) start
        ((chunks persister.settings.loadBatch opened'.take.1).forM (Preparation.prepareBatch env' now))
          start' (fun _ => Preparation.Alongside same) (Preparation.Alongside same) :=
      .forM₂ hpieces (Preparation.Alongside same) hstart
        fun _ _ hbatch _ _ hround => hround.prepareBatch henv hbatch
    simp only [Bool.not_true, Bool.false_eq_true, if_false, hopened, hopened', abreast_ok_left,
      abreast_ok_right]
    rcases hbatches.both with ⟨_, round, round', hrun, hrun', hround⟩ | ⟨fault, _, _, hrun, hrun', _⟩
    · rw [hrun, hrun']
      simp only [abreast_set_left, abreast_set_right, hround.writes, abreast_pure]
    · rw [hrun, hrun']
      simp only [abreast_set_left, abreast_set_right, abreast_throw]

end Persister

end Rollup
