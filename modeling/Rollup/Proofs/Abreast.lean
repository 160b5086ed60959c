import Mathlib.Data.List.Forall2
import Rollup.Proofs.Calls

/-!
# Calls abreast

Two calls, each on a state of its own, that answer the same, or break off with the same fault. As with
a single call, what is said of them is put together from what is said of their parts.
-/

namespace Rollup.Action

variable {σ τ α β : Type}

/-- The calls answer the same and leave states of which `done` holds, or break off with the same fault
and leave states of which `broken` holds. -/
def Abreast (call : Action σ α) (s : σ) (call' : Action τ α) (s' : τ) (done : α → σ → τ → Prop)
    (broken : σ → τ → Prop) : Prop :=
  match (call.run.run s : Except Fault α × σ), (call'.run.run s' : Except Fault α × τ) with
  | (.ok answer, t), (.ok answer', t') => answer' = answer ∧ done answer t t'
  | (.error fault, t), (.error fault', t') => fault' = fault ∧ broken t t'
  | _, _ => False

variable {call : Action σ α} {call' : Action τ α} {s : σ} {s' : τ} {done : α → σ → τ → Prop}
  {broken : σ → τ → Prop}

theorem Abreast.mono {done' : α → σ → τ → Prop} {broken' : σ → τ → Prop}
    (h : Abreast call s call' s' done broken)
    (hdone : ∀ answer t t', done answer t t' → done' answer t t')
    (hbroken : ∀ t t', broken t t' → broken' t t') : Abreast call s call' s' done' broken' := by
  unfold Abreast at *
  split at h
  · exact h.imp_right (hdone _ _ _)
  · exact h.imp_right (hbroken _ _)
  · exact h

theorem Abreast.both (h : Abreast call s call' s' done broken) :
    (∃ answer t t', call.run.run s = (.ok answer, t) ∧ call'.run.run s' = (.ok answer, t') ∧
      done answer t t') ∨
    ∃ fault t t', call.run.run s = (.error fault, t) ∧ call'.run.run s' = (.error fault, t') ∧
      broken t t' := by
  unfold Abreast at h
  split at h
  · next answer t answer' t' hrun hrun' =>
    obtain ⟨rfl, hdone⟩ := h
    exact Or.inl ⟨_, t, t', hrun, hrun', hdone⟩
  · next fault t fault' t' hrun hrun' =>
    obtain ⟨rfl, hbroken⟩ := h
    exact Or.inr ⟨_, t, t', hrun, hrun', hbroken⟩
  · exact h.elim

theorem Abreast.states {holds : σ → τ → Prop} (h : Abreast call s call' s' (fun _ => holds) holds) :
    holds (call.run.run s).2 (call'.run.run s').2 := by
  rcases h.both with ⟨_, t, t', hrun, hrun', hholds⟩ | ⟨_, t, t', hrun, hrun', hholds⟩ <;>
  · rw [hrun, hrun']
    exact hholds

theorem Abreast.ends {ends : α → τ → Prop} {breaks : Fault → τ → Prop}
    (h : Abreast call s call' s' done broken) (hends : Ends call' s' ends breaks) :
    Ends call s (fun answer t => ∃ t', done answer t t' ∧ ends answer t')
      (fun fault t => ∃ t', broken t t' ∧ breaks fault t') := by
  unfold Ends at *
  rcases h.both with ⟨answer, t, t', hrun, hrun', hdone⟩ | ⟨fault, t, t', hrun, hrun', hbroken⟩
  · rw [hrun'] at hends
    rw [hrun]
    exact ⟨t', hdone, hends⟩
  · rw [hrun'] at hends
    rw [hrun]
    exact ⟨t', hbroken, hends⟩

theorem Abreast.bind {next : α → Action σ β} {next' : α → Action τ β} {done' : β → σ → τ → Prop}
    (h : Abreast call s call' s' done broken)
    (hnext : ∀ answer t t', done answer t t' →
      Abreast (next answer) t (next' answer) t' done' broken) :
    Abreast (call >>= next) s (call' >>= next') s' done' broken := by
  unfold Abreast
  rw [run_bind, run_bind]
  rcases h.both with ⟨answer, t, t', hrun, hrun', hdone⟩ | ⟨fault, t, t', hrun, hrun', hbroken⟩
  · rw [hrun, hrun']
    exact hnext answer t t' hdone
  · rw [hrun, hrun']
    exact ⟨rfl, hbroken⟩

@[simp]
theorem abreast_pure (answer : α) :
    Abreast (pure answer) s (pure answer) s' done broken ↔ done answer s s' :=
  and_iff_right rfl

@[simp]
theorem abreast_throw (fault : Fault) :
    Abreast (throw fault : Action σ α) s (throw fault : Action τ α) s' done broken ↔ broken s s' :=
  and_iff_right rfl

/-! Either call can take a step of its own. -/

section

variable {next : β → Action σ α} {next' : β → Action τ α}

@[simp]
theorem abreast_get_left {next : σ → Action σ α} :
    Abreast (get >>= next) s call' s' done broken ↔ Abreast (next s) s call' s' done broken := Iff.rfl

@[simp]
theorem abreast_get_right {next' : τ → Action τ α} :
    Abreast call s (get >>= next') s' done broken ↔ Abreast call s (next' s') s' done broken := Iff.rfl

@[simp]
theorem abreast_set_left {t : σ} {next : PUnit → Action σ α} :
    Abreast (set t >>= next) s call' s' done broken ↔
      Abreast (next ⟨⟩) t call' s' done broken := Iff.rfl

@[simp]
theorem abreast_set_right {t' : τ} {next' : PUnit → Action τ α} :
    Abreast call s (set t' >>= next') s' done broken ↔
      Abreast call s (next' ⟨⟩) t' done broken := Iff.rfl

@[simp]
theorem abreast_ok_left (answer : β) :
    Abreast (liftM (Except.ok answer : Except Fault β) >>= next) s call' s' done broken ↔
      Abreast (next answer) s call' s' done broken := Iff.rfl

@[simp]
theorem abreast_ok_right (answer : β) :
    Abreast call s (liftM (Except.ok answer : Except Fault β) >>= next') s' done broken ↔
      Abreast call s (next' answer) s' done broken := Iff.rfl

@[simp]
theorem abreast_state_left (call : StateM σ β) :
    Abreast (liftM call >>= next) s call' s' done broken ↔
      Abreast (next (call.run s).1) (call.run s).2 call' s' done broken := Iff.rfl

@[simp]
theorem abreast_state_right (call' : StateM τ β) :
    Abreast call s (liftM call' >>= next') s' done broken ↔
      Abreast call s (next' (call'.run s').1) (call'.run s').2 done broken := Iff.rfl

@[simp]
theorem abreast_error (fault : Fault) :
    Abreast (liftM (Except.error fault : Except Fault β) >>= next) s
      (liftM (Except.error fault : Except Fault β) >>= next') s' done broken ↔ broken s s' :=
  and_iff_right rfl

end

/-! ## Lists of calls -/

theorem Abreast.forM₂ {items : List α} {others : List β} {relates : α → β → Prop}
    {call : α → Action σ Unit} {call' : β → Action τ Unit} (hitems : List.Forall₂ relates items others)
    (holds : σ → τ → Prop) (hstart : holds s s')
    (hstep : ∀ item other, relates item other → ∀ t t', holds t t' →
      Abreast (call item) t (call' other) t' (fun _ => holds) broken) :
    Abreast (items.forM call) s (others.forM call') s' (fun _ => holds) broken := by
  induction hitems generalizing s s' with
  | nil => exact ⟨rfl, hstart⟩
  | @cons item other items others hitem _ ih =>
    show Abreast (call item >>= fun _ => items.forM call) s
      (call' other >>= fun _ => others.forM call') s' _ _
    exact (hstep item other hitem s s' hstart).bind fun _ t t' h => ih h

theorem Abreast.forM {items : List α} {call : α → Action σ Unit} {call' : α → Action τ Unit}
    (holds : σ → τ → Prop) (hstart : holds s s')
    (hstep : ∀ item ∈ items, ∀ t t', holds t t' →
      Abreast (call item) t (call' item) t' (fun _ => holds) broken) :
    Abreast (items.forM call) s (items.forM call') s' (fun _ => holds) broken := by
  have hitems : List.Forall₂ (fun item other => item ∈ items ∧ other = item) items items :=
    List.forall₂_same.mpr fun item hitem => ⟨hitem, rfl⟩
  refine .forM₂ hitems holds hstart ?_
  rintro item other ⟨hitem, hother⟩ t t' h
  rw [hother]
  exact hstep item hitem t t' h

theorem Abreast.filterM {items : List α} {test : α → Action σ Bool} {test' : α → Action τ Bool}
    (holds : List α → σ → τ → Prop) (hstart : holds [] s s')
    (hstep : ∀ seen item t t', holds seen t t' →
      Abreast (test item) t (test' item) t' (fun _ => holds (seen ++ [item])) broken) :
    Abreast (items.filterM test) s (items.filterM test') s' (fun _ => holds items) broken := by
  suffices h : ∀ rest seen kept t t', items = seen ++ rest → holds seen t t' →
      Abreast (List.filterAuxM test rest kept) t (List.filterAuxM test' rest kept) t'
        (fun _ => holds items) broken from
    (h items [] [] s s' rfl hstart).bind fun kept t t' hkept => (abreast_pure _).mpr hkept
  intro rest
  induction rest with
  | nil =>
    intro seen kept t t' hitems hseen
    rw [List.append_nil] at hitems
    subst hitems
    exact ⟨rfl, hseen⟩
  | cons item rest ih =>
    intro seen kept t t' hitems hseen
    rw [List.filterAuxM, List.filterAuxM]
    refine (hstep seen item t t' hseen).bind fun keep u u' hitem => ?_
    exact ih (seen ++ [item]) _ u u' (by simp [hitems]) hitem

end Rollup.Action
