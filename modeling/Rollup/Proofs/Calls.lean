import Rollup.Fault

/-!
# Calls

How a call ends: with an answer, or broken off by a fault, and in which state. What is said of a call
is put together from what is said of its parts.
-/

namespace Rollup.Action

variable {σ α β : Type}

/-- The answer of a call and the state it leaves satisfy `done`, or its fault and that state satisfy
`broken`. -/
def Ends (call : Action σ α) (s : σ) (done : α → σ → Prop) (broken : Fault → σ → Prop) : Prop :=
  match (call.run.run s : Except Fault α × σ) with
  | (.ok answer, s') => done answer s'
  | (.error fault, s') => broken fault s'

variable {s : σ} {done : α → σ → Prop} {broken : Fault → σ → Prop}

theorem Ends.mono {call : Action σ α} {done' : α → σ → Prop} {broken' : Fault → σ → Prop}
    (h : Ends call s done broken) (hdone : ∀ answer s', done answer s' → done' answer s')
    (hbroken : ∀ fault s', broken fault s' → broken' fault s') : Ends call s done' broken' := by
  unfold Ends at *
  split at h
  · exact hdone _ _ h
  · exact hbroken _ _ h

theorem Ends.run_cases {call : Action σ α} (h : Ends call s done broken) :
    (∃ answer s', (call.run.run s : Except Fault α × σ) = (.ok answer, s') ∧ done answer s') ∨
      ∃ fault s', (call.run.run s : Except Fault α × σ) = (.error fault, s') ∧ broken fault s' := by
  unfold Ends at h
  split at h
  · next hrun => exact .inl ⟨_, _, hrun, h⟩
  · next hrun => exact .inr ⟨_, _, hrun, h⟩

theorem Ends.of_isOk {call : Action σ α} (h : Ends call s done broken)
    (hok : (call.run.run s : Except Fault α × σ).1.isOk = true) :
    ∃ answer, done answer (call.run.run s).2 := by
  unfold Ends at h
  split at h
  · rename_i answer s' hrun
    rw [hrun]
    exact ⟨answer, h⟩
  · rename_i fault s' hrun
    rw [hrun] at hok
    cases hok

theorem ends_of_forall {call : Action σ α} (hdone : ∀ answer s', done answer s')
    (hbroken : ∀ fault s', broken fault s') : Ends call s done broken := by
  unfold Ends
  split
  · exact hdone _ _
  · exact hbroken _ _

@[simp]
theorem ends_pure (answer : α) : Ends (pure answer) s done broken ↔ done answer s := Iff.rfl

@[simp]
theorem ends_throw (fault : Fault) :
    Ends (throw fault : Action σ α) s done broken ↔ broken fault s := Iff.rfl

theorem run_bind (call : Action σ α) (next : α → Action σ β) (s : σ) :
    ((call >>= next).run.run s : Except Fault β × σ) =
      match (call.run.run s : Except Fault α × σ) with
      | (.ok answer, s') => (next answer).run.run s'
      | (.error fault, s') => (.error fault, s') := by
  show (ExceptT.run call >>= ExceptT.bindCont next).run s = _
  simp only [StateT.run_bind]
  rcases (ExceptT.run call).run s with ⟨_ | _, _⟩ <;> rfl

@[simp]
theorem ends_bind (call : Action σ α) (next : α → Action σ β) {done : β → σ → Prop} :
    Ends (call >>= next) s done broken ↔
      Ends call s (fun answer s' => Ends (next answer) s' done broken) broken := by
  unfold Ends
  rw [run_bind]
  rcases (call.run.run s : Except Fault α × σ) with ⟨_ | _, _⟩ <;> rfl

@[simp]
theorem ends_map (call : Action σ α) (f : α → β) {done : β → σ → Prop} :
    Ends (f <$> call) s done broken ↔ Ends call s (fun answer => done (f answer)) broken := by
  have hmap : f <$> call = call >>= fun answer => pure (f answer) := rfl
  rw [hmap, ends_bind]
  rfl

@[simp]
theorem ends_get {done : σ → σ → Prop} : Ends get s done broken ↔ done s s := Iff.rfl

@[simp]
theorem ends_set (s' : σ) {done : PUnit → σ → Prop} :
    Ends (set s') s done broken ↔ done ⟨⟩ s' := Iff.rfl

@[simp]
theorem ends_modify (f : σ → σ) {done : PUnit → σ → Prop} :
    Ends (modify f) s done broken ↔ done ⟨⟩ (f s) := Iff.rfl

@[simp]
theorem ends_liftM_ok (answer : α) :
    Ends (liftM (Except.ok answer : Except Fault α)) s done broken ↔ done answer s := Iff.rfl

@[simp]
theorem ends_liftM_error (fault : Fault) :
    Ends (liftM (Except.error fault : Except Fault α)) s done broken ↔ broken fault s := Iff.rfl

@[simp]
theorem ends_liftM_state (call : StateM σ α) :
    Ends (liftM call) s done broken ↔ done (call.run s).1 (call.run s).2 := Iff.rfl

theorem ends_liftM {value : Except Fault α} :
    Ends (liftM value) s done broken ↔
      (∀ answer, value = .ok answer → done answer s) ∧
        ∀ fault, value = .error fault → broken fault s := by
  cases value <;> simp

theorem ends_state {call : Action σ α} (holds : σ → Prop) :
    Ends call s (fun _ => holds) (fun _ => holds) ↔ holds (call.run.run s).2 := by
  unfold Ends
  rcases (call.run.run s : Except Fault α × σ) with ⟨_ | _, _⟩ <;> rfl

theorem Ends.and_state {call : Action σ α} (h : Ends call s done broken) {holds : σ → Prop}
    (hstate : holds (call.run.run s).2) : Ends call s (fun answer s' => done answer s' ∧ holds s')
      (fun fault s' => broken fault s' ∧ holds s') := by
  unfold Ends at *
  generalize call.run.run s = ended at *
  obtain ⟨_ | _, _⟩ := ended <;> exact ⟨h, hstate⟩

theorem eq_of_ends_error {call : Action σ α} {fault : Fault} {s' : σ}
    (h : Ends call s (fun _ _ => False) fun fault' last => fault' = fault ∧ last = s') :
    call.run.run s = (.error fault, s') := by
  unfold Ends at h
  split at h
  · exact h.elim
  · next hrun =>
    obtain ⟨rfl, rfl⟩ := h
    exact hrun

/-! ## What a call may do -/

/-- In some state the call answers this. -/
def Gives (call : Action σ α) (answer : α) : Prop :=
  ∃ s s', call.run.run s = ((.ok answer : Except Fault α), s')

/-- In some state the call breaks off. -/
def Breaks (call : Action σ α) : Prop :=
  ∃ s fault s', call.run.run s = ((.error fault : Except Fault α), s')

theorem Ends.possible {call : Action σ α} (h : Ends call s done broken) :
    Ends call s (fun answer s' => call.Gives answer ∧ done answer s')
      (fun fault s' => call.Breaks ∧ broken fault s') := by
  unfold Ends at *
  split at h
  · next hrun => exact ⟨⟨s, _, hrun⟩, h⟩
  · next hrun => exact ⟨⟨s, _, _, hrun⟩, h⟩

theorem Gives.of_ends {call : Action σ α} {answer : α} {holds : α → Prop}
    (hgives : call.Gives answer)
    (h : ∀ s, Ends call s (fun answer _ => holds answer) fun _ _ => True) : holds answer := by
  obtain ⟨s, s', hrun⟩ := hgives
  have hends := h s
  unfold Ends at hends
  rwa [hrun] at hends

theorem not_breaks_of_ends {call : Action σ α} {done : α → Prop}
    (h : ∀ s, Ends call s (fun answer _ => done answer) fun _ _ => False) : ¬ call.Breaks := by
  rintro ⟨s, fault, s', hrun⟩
  have hends := h s
  unfold Ends at hends
  rwa [hrun] at hends

/-! ## Lists of calls -/

theorem Ends.forM {items : List α} {call : α → Action σ Unit} (holds : List α → σ → Prop)
    (hstart : holds [] s)
    (hstep : ∀ seen item rest s, items = seen ++ item :: rest → holds seen s →
      Ends (call item) s (fun _ s' => holds (seen ++ [item]) s') broken) :
    Ends (items.forM call) s (fun _ s' => holds items s') broken := by
  suffices h : ∀ rest seen s, items = seen ++ rest → holds seen s →
      Ends (rest.forM call) s (fun _ s' => holds items s') broken from h items [] s rfl hstart
  intro rest
  induction rest with
  | nil =>
    intro seen s hitems hseen
    rw [List.append_nil] at hitems
    rwa [hitems]
  | cons item rest ih =>
    intro seen s hitems hseen
    show Ends (call item >>= fun _ => rest.forM call) s _ _
    rw [ends_bind]
    refine (hstep seen item rest s hitems hseen).mono ?_ fun _ _ h => h
    intro _ s' hitem
    exact ih (seen ++ [item]) s' (by simp [hitems]) hitem

theorem Ends.filterM {items : List α} {test : α → Action σ Bool}
    (holds : List α → List α → σ → Prop) (hstart : holds [] [] s)
    (hstep : ∀ seen kept item rest s, items = seen ++ item :: rest → holds seen kept s →
      Ends (test item) s
        (fun keep s' => holds (seen ++ [item]) (if keep then kept ++ [item] else kept) s') broken) :
    Ends (items.filterM test) s (fun kept s' => holds items kept s') broken := by
  suffices h : ∀ rest seen kept s, items = seen ++ rest → holds seen kept s →
      Ends (List.filterAuxM test rest kept.reverse) s
        (fun kept' s' => holds items kept'.reverse s') broken by
    unfold List.filterM
    rw [ends_bind]
    refine (h items [] [] s rfl hstart).mono ?_ fun _ _ h => h
    intro kept s' hkept
    exact (ends_pure _).mpr hkept
  intro rest
  induction rest with
  | nil =>
    intro seen kept s hitems hseen
    rw [List.append_nil] at hitems
    simpa [List.filterAuxM, hitems] using hseen
  | cons item rest ih =>
    intro seen kept s hitems hseen
    rw [List.filterAuxM, ends_bind]
    refine (hstep seen kept item rest s hitems hseen).mono ?_ fun _ _ h => h
    intro keep s' hitem
    have := ih (seen ++ [item]) _ s' (by simp [hitems]) hitem
    cases keep <;> simpa using this

end Rollup.Action
