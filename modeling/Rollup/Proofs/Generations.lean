import Mathlib.Data.List.Dedup
import Rollup.Proofs.Refinement
import Rollup.Proofs.Tallies

/-!
# Generations

A window that is called in any order puts every write into exactly one generation. What was written into
which generation, and whether a drain is open, is told by the calls and their answers alone; the window
is then shown to answer every call as this account has it.
-/

namespace Rollup

open Rollup.Action Record

variable {M : Type} [Record M]

/-- One record for each identity: the fold of those about it, in their order. -/
def foldsOf (records : List M) : List M :=
  (records.map Record.id).dedup.filterMap (foldOf · records)

theorem mem_ids_of_foldOf {id : MetricId} {records : List M} {whole : M}
    (h : foldOf id records = some whole) : id ∈ records.map Record.id := by
  by_contra hid
  have hnone : foldOf id records = none := by
    rw [foldOf_eq_none_iff, List.eq_nil_iff_forall_not_mem]
    intro record hrecord
    obtain ⟨hmem, rfl⟩ := mem_about.mp hrecord
    exact hid (List.mem_map_of_mem hmem)
  cases hnone.symm.trans h

theorem Buffer.toList_perm_foldsOf {buffer : Buffer M} {records : List M}
    (h : ∀ id, buffer.get? id = foldOf id records) : buffer.toList.Perm (foldsOf records) := by
  -- With their identities beside them the folds are all different, and membership decides.
  let entry (id : MetricId) : Option (MetricId × M) := (foldOf id records).map (id, ·)
  have hentries : buffer.records.toList.Perm ((records.map Record.id).dedup.filterMap entry) := by
    rw [List.perm_ext_iff_of_nodup buffer.nodup_toList]
    · rintro ⟨own, record⟩
      have hget : buffer.records[own]? = foldOf own records := h own
      rw [Std.ExtTreeMap.mem_toList_iff_getElem?_eq_some, hget, List.mem_filterMap]
      constructor
      · intro hown
        exact ⟨own, List.mem_dedup.mpr (mem_ids_of_foldOf hown), by simp [entry, hown]⟩
      · rintro ⟨id, _, hid⟩
        simp only [entry, Option.map_eq_some_iff, Prod.mk.injEq] at hid
        obtain ⟨_, hfold, rfl, rfl⟩ := hid
        exact hfold
    · refine (List.nodup_dedup _).filterMap ?_
      rintro id id' ⟨own, record⟩ hid hid'
      simp only [entry, Option.mem_def, Option.map_eq_some_iff, Prod.mk.injEq] at hid hid'
      obtain ⟨_, _, rfl, _⟩ := hid
      obtain ⟨_, _, rfl, _⟩ := hid'
      rfl
  have hrecords := hentries.map (·.2)
  rw [List.map_filterMap] at hrecords
  have hsame : (fun id => (entry id).map (·.2)) = (foldOf · records) := by
    funext id
    simp [entry, Function.comp_def]
  rwa [hsame] at hrecords

/-! ## Calls -/

/-- What a window is asked for. The guard of an open drain takes the calls from `take` on. -/
inductive WindowCall (M : Type) where
  | write (record : M)
  | pending
  | beginDrain
  /-- A whole drain that only looks at the records. -/
  | sweep (visitor : M → Except Fault Unit)
  | take
  /-- A visitor that breaks off takes the guard with it. -/
  | visit (visitor : M → Except Fault Unit)
  | count
  /-- Ends the drain, or drops its guard. -/
  | endDrain

inductive WindowAnswer (M : Type) where
  | done
  | count (number : Nat)
  | records (taken : List M)
  deriving DecidableEq

namespace WindowCall

def onGuard : WindowCall M → Bool
  | take | visit _ | count | endDrain => true
  | _ => false

def begins : WindowCall M → Bool
  | beginDrain | sweep _ => true
  | _ => false

def written? : WindowCall M → Option M
  | write record => some record
  | _ => none

def act : WindowCall M → Action (Window M) (WindowAnswer M)
  | write record => do
    modify (·.write record)
    return .done
  | pending => return .count (← get).pending
  | beginDrain => do
    set (← liftM (← get).beginDrain)
    return .done
  | sweep visitor => return .count (← Window.drainVisiting visitor)
  | take => do
    let (taken, window) := (← get).take
    set window
    return .records taken
  | visit visitor => do
    let window ← get
    match window.drained.forM visitor with
    | .ok () => return .done
    | .error fault => do
      set window.endDrain
      throw fault
  | count => return .count (← get).drained.length
  | endDrain => do
    modify (·.endDrain)
    return .done

/-- How the call is answered by this window. -/
def answer (call : WindowCall M) (window : Window M) : Except Fault (WindowAnswer M) :=
  (call.act.run.run window).1

/-- The window that the call leaves, however it is answered. -/
def leaves (call : WindowCall M) (window : Window M) : Window M := (call.act.run.run window).2

end WindowCall

/-- A call, and how it was answered. -/
structure WindowEntry (M : Type) where
  call : WindowCall M
  answer : Except Fault (WindowAnswer M)

/-! ## The account -/

/-- What calls and their answers say about the generations of a window. -/
structure Generations (M : Type) where
  /-- What each drain that began was given. -/
  drained : List (List M) := []
  /-- Written since the last drain began. -/
  written : List M := []
  /-- What the guard of the open drain has left, if a drain is open. -/
  guard : Option (List M) := none
  deriving DecidableEq

namespace Generations

def left (book : Generations M) : List M := book.guard.getD []

/-- A drain begins, and what was written goes to it. -/
def flip (book : Generations M) (guard : Option (List M)) : Generations M :=
  { drained := book.drained ++ [book.written], written := [], guard }

/-- A sweep that may begin has ended again, also where its visitor broke off. -/
def next (book : Generations M) (entry : WindowEntry M) : Generations M :=
  match entry.call, entry.answer with
  | .write record, .ok _ => { book with written := book.written ++ [record] }
  | .beginDrain, .ok _ => book.flip (some book.written)
  | .sweep _, _ => if book.guard.isSome then book else book.flip none
  | .take, .ok _ => { book with guard := some [] }
  | .visit _, .error _ | .endDrain, .ok _ => { book with guard := none }
  | _, _ => book

def of (log : List (WindowEntry M)) : Generations M := log.foldl next {}

omit [Record M] in
theorem of_snoc (log : List (WindowEntry M)) (entry : WindowEntry M) :
    of (log ++ [entry]) = (of log).next entry := by
  simp [of]

/-- How a call has to be answered. Records come merged to one for each identity, in any order. -/
def Admits (book : Generations M) (entry : WindowEntry M) : Prop :=
  match entry.call with
  | .write _ | .endDrain => entry.answer = .ok .done
  | .pending => entry.answer = .ok (.count (foldsOf book.written).length)
  | .beginDrain =>
    entry.answer = if book.guard.isSome then .error .overlappingDrain else .ok .done
  | .sweep visitor =>
    if book.guard.isSome then entry.answer = .error .overlappingDrain
    else ∃ seen : List M, seen.Perm (foldsOf book.written) ∧
      entry.answer = (seen.forM visitor).map fun _ => .count seen.length
  | .take => ∃ taken : List M, taken.Perm (foldsOf book.left) ∧ entry.answer = .ok (.records taken)
  | .visit visitor => ∃ seen : List M, seen.Perm (foldsOf book.left) ∧
      entry.answer = (seen.forM visitor).map fun _ => .done
  | .count => entry.answer = .ok (.count (foldsOf book.left).length)

end Generations

/-- A window, and what it was asked and has answered. -/
structure WindowRun (M : Type) where
  window : Window M := .empty
  log : List (WindowEntry M) := []

namespace WindowRun

def book (run : WindowRun M) : Generations M := .of run.log

/-- One more call. Without a guard there is nothing to make a guard's call on. -/
def next (run : WindowRun M) (call : WindowCall M) : WindowRun M :=
  if call.onGuard && run.book.guard.isNone then run
  else { window := call.leaves run.window, log := run.log ++ [⟨call, call.answer run.window⟩] }

def after (calls : List (WindowCall M)) : WindowRun M := calls.foldl next {}

theorem after_snoc (calls : List (WindowCall M)) (call : WindowCall M) :
    after (calls ++ [call]) = (after calls).next call := by
  simp [after]

theorem next_made {run : WindowRun M} {call : WindowCall M}
    (h : call.onGuard = true → run.book.guard.isSome = true) :
    run.next call =
      { window := call.leaves run.window, log := run.log ++ [⟨call, call.answer run.window⟩] } := by
  unfold next
  rw [if_neg]
  intro hskipped
  obtain ⟨honGuard, hnone⟩ := Bool.and_eq_true_iff.mp hskipped
  rw [Option.isNone_iff_eq_none] at hnone
  simpa [hnone] using h honGuard

theorem next_eq_or (run : WindowRun M) (call : WindowCall M) :
    (call.onGuard = true ∧ run.book.guard = none ∧ run.next call = run) ∨
      ((call.onGuard = true → run.book.guard.isSome = true) ∧
        run.next call = { window := call.leaves run.window
                          log := run.log ++ [⟨call, call.answer run.window⟩] }) := by
  by_cases hguard : call.onGuard = true → run.book.guard.isSome = true
  · exact Or.inr ⟨hguard, next_made hguard⟩
  · obtain ⟨honGuard, hnone⟩ := Classical.not_imp.mp hguard
    refine Or.inl ⟨honGuard, Option.not_isSome_iff_eq_none.mp hnone, ?_⟩
    rw [WindowRun.next, if_pos (by simpa [honGuard] using hnone)]

/-! ## What a window keeps -/

/-- The active buffer holds what was written since the last drain began, and the inactive one what its
guard has left. -/
structure Kept (window : Window M) (book : Generations M) : Prop where
  active : ∀ id, window.active.get? id = foldOf id book.written
  inactive : ∀ id, window.inactive.get? id = foldOf id book.left
  closed : book.guard = none → window.inactive = .empty
  locked : window.draining = book.guard.isSome

variable {window : Window M} {book : Generations M}

theorem Kept.start : Kept (.empty : Window M) {} :=
  ⟨Buffer.get?_empty, Buffer.get?_empty, fun _ => rfl, rfl⟩

theorem Kept.pending (h : Kept window book) : window.pending = (foldsOf book.written).length := by
  rw [← (Buffer.toList_perm_foldsOf h.active).length_eq, Window.pending, Buffer.size, Buffer.toList,
    List.length_map, Std.ExtTreeMap.length_toList]

theorem Kept.drained (h : Kept window book) : window.drained.Perm (foldsOf book.left) :=
  Buffer.toList_perm_foldsOf h.inactive

theorem Kept.write (h : Kept window book) (record : M) :
    Kept (window.write record) { book with written := book.written ++ [record] } := by
  refine ⟨fun id => ?_, h.inactive, h.closed, h.locked⟩
  rw [foldOf_append, ← h.active id]
  exact Buffer.get?_acceptAll _ [record] id

theorem Kept.overlap (h : Kept window book) (hopen : book.guard.isSome = true) :
    window.beginDrain = .error .overlappingDrain := by
  simp [Window.beginDrain, h.locked, hopen]

theorem Kept.beginDrain (h : Kept window book) (hclosed : book.guard = none) :
    ∃ opened, window.beginDrain = .ok opened ∧ opened.drained.Perm (foldsOf book.written) ∧
      Kept opened (book.flip (some book.written)) ∧ Kept opened.endDrain (book.flip none) := by
  have hbegun := Window.Closed.beginDrain ⟨by rw [h.locked, hclosed]; rfl, h.closed hclosed⟩
  refine ⟨_, hbegun, Buffer.toList_perm_foldsOf h.active, ?_, ?_⟩
  · exact ⟨Buffer.get?_empty, h.active, nofun, rfl⟩
  · exact ⟨Buffer.get?_empty, Buffer.get?_empty, fun _ => rfl, rfl⟩

theorem Kept.take (h : Kept window book) (hopen : book.guard.isSome = true) :
    Kept window.take.2 { book with guard := some [] } :=
  ⟨h.active, Buffer.get?_empty, fun _ => rfl, h.locked.trans hopen⟩

theorem Kept.endDrain (h : Kept window book) : Kept window.endDrain { book with guard := none } :=
  ⟨h.active, Buffer.get?_empty, fun _ => rfl, rfl⟩

theorem Kept.run_of_overlap (h : Kept window book) (hopen : book.guard.isSome = true)
    {call : WindowCall M} (hbegins : call.begins = true) :
    call.act.run.run window = (.error .overlappingDrain, window) := by
  apply eq_of_ends_error
  cases call with
  | beginDrain => simp [WindowCall.act, h.overlap hopen]
  | sweep visitor => simp [WindowCall.act, Window.drainVisiting, h.overlap hopen]
  | write | pending | take | visit | count | endDrain => cases hbegins

/-- The call is answered as the account has it, and the window keeps to the account. -/
def Keeps (window : Window M) (book : Generations M) (call : WindowCall M) : Prop :=
  book.Admits ⟨call, call.answer window⟩ ∧
    Kept (call.leaves window) (book.next ⟨call, call.answer window⟩)

theorem keeps_of_ends {call : WindowCall M}
    (h : Ends call.act window
      (fun answer later => book.Admits ⟨call, .ok answer⟩ ∧ Kept later (book.next ⟨call, .ok answer⟩))
      (fun fault later => book.Admits ⟨call, .error fault⟩ ∧
        Kept later (book.next ⟨call, .error fault⟩))) : Keeps window book call := by
  unfold Keeps WindowCall.answer WindowCall.leaves
  obtain ⟨answer, later, hrun, hlater⟩ | ⟨fault, later, hrun, hlater⟩ := h.run_cases <;>
    rw [hrun] <;> exact hlater

theorem Kept.keeps_overlapping (h : Kept window book) (hopen : book.guard.isSome = true)
    {call : WindowCall M} (hbegins : call.begins = true) : Keeps window book call := by
  unfold Keeps WindowCall.answer WindowCall.leaves
  rw [h.run_of_overlap hopen hbegins]
  cases call with
  | beginDrain => exact ⟨by simp [Generations.Admits, hopen], h⟩
  | sweep visitor => simpa [Generations.Admits, Generations.next, hopen] using h
  | write | pending | take | visit | count | endDrain => cases hbegins

theorem Kept.keeps_beginDrain (h : Kept window book) (hclosed : book.guard = none) :
    Keeps window book .beginDrain := by
  obtain ⟨opened, hbegun, -, hopened, -⟩ := h.beginDrain hclosed
  apply keeps_of_ends
  simp only [WindowCall.act, ends_bind, ends_get, hbegun, ends_liftM_ok, ends_set, ends_pure]
  exact ⟨by simp [Generations.Admits, hclosed], hopened⟩

theorem Kept.keeps_sweep (h : Kept window book) (hclosed : book.guard = none)
    (visitor : M → Except Fault Unit) : Keeps window book (.sweep visitor) := by
  obtain ⟨opened, hbegun, hseen, -, hended⟩ := h.beginDrain hclosed
  apply keeps_of_ends
  simp only [WindowCall.act, Window.drainVisiting, ends_bind, ends_get, hbegun, ends_liftM_ok, ends_set,
    Generations.Admits, Generations.next, hclosed]
  cases hvisit : opened.drained.forM visitor with
  | ok _ => exact ⟨⟨_, hseen, by rw [hvisit]; rfl⟩, hended⟩
  | error fault => exact ⟨⟨_, hseen, by rw [hvisit]; rfl⟩, hended⟩

theorem Kept.keeps_visit (h : Kept window book) (visitor : M → Except Fault Unit) :
    Keeps window book (.visit visitor) := by
  apply keeps_of_ends
  rw [WindowCall.act, ends_bind, ends_get]
  cases hvisit : window.drained.forM visitor with
  | ok _ => exact ⟨⟨_, h.drained, by rw [hvisit]; rfl⟩, h⟩
  | error fault => exact ⟨⟨_, h.drained, by rw [hvisit]; rfl⟩, h.endDrain⟩

theorem Kept.keeps (h : Kept window book) (call : WindowCall M)
    (hguard : call.onGuard = true → book.guard.isSome = true) : Keeps window book call := by
  cases call with
  | write record => exact ⟨rfl, h.write record⟩
  | pending => exact ⟨congrArg (Except.ok ∘ WindowAnswer.count) h.pending, h⟩
  | beginDrain =>
    cases hbook : book.guard with
    | some left => exact h.keeps_overlapping (by rw [hbook]; rfl) rfl
    | none => exact h.keeps_beginDrain hbook
  | sweep visitor =>
    cases hbook : book.guard with
    | some left => exact h.keeps_overlapping (by rw [hbook]; rfl) rfl
    | none => exact h.keeps_sweep hbook visitor
  | take => exact ⟨⟨_, h.drained, rfl⟩, h.take (hguard rfl)⟩
  | visit visitor => exact h.keeps_visit visitor
  | count => exact ⟨congrArg (Except.ok ∘ WindowAnswer.count) h.drained.length_eq, h⟩
  | endDrain => exact ⟨rfl, h.endDrain⟩

theorem Kept.next {run : WindowRun M} (h : Kept run.window run.book) (call : WindowCall M) :
    Kept (run.next call).window (run.next call).book := by
  obtain ⟨-, -, hskipped⟩ | ⟨hguard, hmade⟩ := next_eq_or run call
  · rwa [hskipped]
  · rw [hmade, book, Generations.of_snoc]
    exact (h.keeps call hguard).2

theorem kept_after (calls : List (WindowCall M)) :
    Kept (after calls).window (after calls).book := by
  induction calls using List.reverseRecOn with
  | nil => exact .start
  | append_singleton calls call ih =>
    rw [after_snoc]
    exact ih.next call

/-- Each answer of a log is one that the account of the log before it admits. -/
def Faultless (log : List (WindowEntry M)) : Prop :=
  ∀ before entry rest, log = before ++ entry :: rest → (Generations.of before).Admits entry

theorem Faultless.snoc {log : List (WindowEntry M)} (h : Faultless log) {entry : WindowEntry M}
    (hadmits : (Generations.of log).Admits entry) : Faultless (log ++ [entry]) := by
  intro before other rest hsplit
  rcases List.eq_nil_or_concat rest with rfl | ⟨rest, last, rfl⟩
  · obtain ⟨rfl, hsame⟩ := List.append_inj' hsplit rfl
    rwa [← List.singleton_inj.mp hsame]
  · refine h before other rest ?_
    rw [List.concat_eq_append, ← List.cons_append, ← List.append_assoc] at hsplit
    exact (List.append_inj' hsplit rfl).1

theorem faultless_after (calls : List (WindowCall M)) : Faultless (after calls).log := by
  induction calls using List.reverseRecOn with
  | nil => simp [Faultless, after]
  | append_singleton calls call ih =>
    rw [after_snoc]
    obtain ⟨-, -, hskipped⟩ | ⟨hguard, hmade⟩ := next_eq_or (after calls) call
    · rwa [hskipped]
    · rw [hmade]
      exact ih.snoc ((kept_after calls).keeps call hguard).1

/-! ## What was written -/

theorem written_next {entry : WindowEntry M} (h : book.Admits entry) :
    (book.next entry).drained.flatten ++ (book.next entry).written =
      book.drained.flatten ++ book.written ++ entry.call.written?.toList := by
  obtain ⟨call, answer⟩ := entry
  cases call with
  | write record =>
    cases show answer = .ok .done from h
    exact (List.append_assoc _ _ _).symm
  | sweep visitor =>
    simp only [Generations.next]
    split_ifs <;> simp [Generations.flip, WindowCall.written?]
  | pending | beginDrain | take | visit | count | endDrain =>
    cases answer <;> simp [Generations.next, Generations.flip, WindowCall.written?]

theorem written_after (calls : List (WindowCall M)) :
    (after calls).book.drained.flatten ++ (after calls).book.written =
      calls.filterMap WindowCall.written? := by
  induction calls using List.reverseRecOn with
  | nil => rfl
  | append_singleton calls call ih =>
    rw [after_snoc, List.filterMap_append, ← ih]
    obtain ⟨honGuard, -, hskipped⟩ | ⟨hguard, hmade⟩ := next_eq_or (after calls) call
    · rw [hskipped]
      cases call with
      | write | pending | beginDrain | sweep => cases honGuard
      | take | visit | count | endDrain => exact (List.append_nil _).symm
    · rw [hmade, book, Generations.of_snoc, ← book,
        written_next ((kept_after calls).keeps call hguard).1]
      cases call <;> rfl

theorem after_writes (calls : List (WindowCall M)) (during : List M) :
    (after (calls ++ during.map .write)).window = during.foldl Window.write (after calls).window ∧
      (after (calls ++ during.map .write)).book =
        { (after calls).book with written := (after calls).book.written ++ during } := by
  induction during using List.reverseRecOn with
  | nil => simp
  | append_singleton during record ih =>
    rw [List.map_append, ← List.append_assoc, List.map_singleton, after_snoc, next_made,
      List.foldl_concat, ← List.append_assoc]
    · refine ⟨congrArg (Window.write · record) ih.1, ?_⟩
      rw [book, Generations.of_snoc, ← book, ih.2]
      rfl
    · nofun

omit [Record M] in
theorem written_next_of_onGuard (book : Generations M) {entry : WindowEntry M}
    (h : entry.call.onGuard = true) : (book.next entry).written = book.written := by
  obtain ⟨call, answer⟩ := entry
  cases call with
  | write | pending | beginDrain | sweep => cases h
  | take | visit | count | endDrain => cases answer <;> rfl

theorem written_after_onGuard (calls : List (WindowCall M)) {call : WindowCall M}
    (h : call.onGuard = true) :
    (after (calls ++ [call])).book.written = (after calls).book.written := by
  rw [after_snoc]
  obtain ⟨-, -, hskipped⟩ | ⟨-, hmade⟩ := next_eq_or (after calls) call
  · rw [hskipped]
  · rw [hmade, book, Generations.of_snoc]
    exact written_next_of_onGuard _ h

theorem answer_of_broken_visit {visitor : M → Except Fault Unit} {fault : Fault}
    (h : window.drained.forM visitor = .error fault) :
    (WindowCall.visit visitor).answer window = .error fault := by
  have hrun : (WindowCall.visit visitor).act.run.run window = (.error fault, window.endDrain) := by
    apply eq_of_ends_error
    rw [WindowCall.act, ends_bind, ends_get]
    simp [h]
  rw [WindowCall.answer, hrun]

theorem drained_writes (window : Window M) (during : List M) :
    (during.foldl Window.write window).drained = window.drained := by
  induction during generalizing window with
  | nil => rfl
  | cons first rest ih => exact ih (window.write first)

/-! ## Freed windows -/

/-- The next drain of the window begins, and is given these records. -/
def Opens (run : WindowRun M) (records : List M) : Prop :=
  ∃ opened, run.window.beginDrain = .ok opened ∧ opened.drained.Perm (foldsOf records)

theorem opens_of_closed {calls : List (WindowCall M)} (h : (after calls).book.guard = none) :
    (after calls).Opens (after calls).book.written := by
  obtain ⟨opened, hbegun, hseen, -, -⟩ := (kept_after calls).beginDrain h
  exact ⟨opened, hbegun, hseen⟩

theorem opens_of_freed {calls : List (WindowCall M)} {call : WindowCall M} (honGuard : call.onGuard = true)
    (hfreed : (after calls).book.guard.isSome = true →
      ((after calls).book.next ⟨call, call.answer (after calls).window⟩).guard = none) :
    (after (calls ++ [call])).Opens (after calls).book.written := by
  rw [← written_after_onGuard calls honGuard]
  apply opens_of_closed
  rw [after_snoc]
  obtain ⟨-, hnone, hskipped⟩ | ⟨hguard, hmade⟩ := next_eq_or (after calls) call
  · rw [hskipped, hnone]
  · rw [hmade, book, Generations.of_snoc]
    exact hfreed (hguard honGuard)

/-- What some calls have made of a window. -/
structure Faithful (calls : List (WindowCall M)) : Prop where
  /-- Every write is in one generation: that of a drain, or the one being written. -/
  partition : (after calls).book.drained.flatten ++ (after calls).book.written =
    calls.filterMap WindowCall.written?
  answered : Faultless (after calls).log
  waiting : (after calls).window.active.toList.Perm (foldsOf (after calls).book.written) ∧
    (after calls).window.pending = (foldsOf (after calls).book.written).length
  guarded : (after calls).window.drained.Perm (foldsOf (after calls).book.left)
  /-- Writes change nothing of what a guard is handed. -/
  undisturbed : ∀ during : List M,
    (after (calls ++ during.map .write)).window.drained = (after calls).window.drained ∧
      (after (calls ++ during.map .write)).book.guard = (after calls).book.guard
  /-- Nothing that is done with the guard removes what was written since. -/
  outlived : ∀ (during : List M) (call : WindowCall M), call.onGuard = true →
    (after (calls ++ during.map .write ++ [call])).window.active.toList.Perm
      (foldsOf ((after calls).book.written ++ during))
  overlapping : (after calls).book.guard.isSome = true → ∀ call : WindowCall M, call.begins = true →
    call.act.run.run (after calls).window = (.error .overlappingDrain, (after calls).window)
  closed : (after calls).book.guard = none → (after calls).window.inactive = .empty ∧
    (after calls).Opens (after calls).book.written
  ended : (after (calls ++ [.endDrain])).Opens (after calls).book.written
  aborted : ∀ visitor fault, (after calls).window.drained.forM visitor = .error fault →
    (after (calls ++ [.visit visitor])).Opens (after calls).book.written
  swept : (after calls).book.guard = none → ∀ visitor, (after (calls ++ [.sweep visitor])).Opens []

/-- However a window is called, every write lands in exactly one generation, a drain is given the folds
of what was written since the drain before it, and a drain that is over, in whatever way, is out of the
way of the next one. -/
theorem every_write_in_one_generation (calls : List (WindowCall M)) : Faithful calls where
  partition := written_after calls
  answered := faultless_after calls
  waiting := ⟨Buffer.toList_perm_foldsOf (kept_after calls).active, (kept_after calls).pending⟩
  guarded := (kept_after calls).drained
  undisturbed during := by
    obtain ⟨hwindow, hbook⟩ := after_writes calls during
    rw [hwindow, hbook]
    exact ⟨drained_writes _ during, rfl⟩
  outlived during call honGuard := by
    have hkept := kept_after (calls ++ during.map .write ++ [call])
    have hwritten : (after (calls ++ during.map .write ++ [call])).book.written =
        (after calls).book.written ++ during := by
      rw [written_after_onGuard _ honGuard, (after_writes calls during).2]
    rw [← hwritten]
    exact Buffer.toList_perm_foldsOf hkept.active
  overlapping hopen call hbegins := (kept_after calls).run_of_overlap hopen hbegins
  closed hnone := ⟨(kept_after calls).closed hnone, opens_of_closed hnone⟩
  ended := opens_of_freed rfl fun _ => rfl
  aborted visitor fault hvisit := by
    refine opens_of_freed rfl fun _ => ?_
    rw [answer_of_broken_visit hvisit]
    rfl
  swept hnone visitor := by
    have hswept : (after (calls ++ [.sweep visitor])).book = (after calls).book.flip none := by
      rw [after_snoc, next_made, book, Generations.of_snoc, ← book]
      · simp [Generations.next, hnone]
      · nofun
    have hclosed : (after (calls ++ [.sweep visitor])).book.guard = none := by
      rw [hswept]
      rfl
    have hopens := opens_of_closed hclosed
    rwa [hswept] at hopens

/-- The visitor of the first drain breaks off after a second record has come and a second drain was
refused. The next drain is handed the second record alone. -/
theorem every_write_in_one_generation_of_broken_drain :
    let record := SumRecord.new (.onFirstDay (.single "door"))
    let calls : List (WindowCall SumRecord) := [.write (record 1), .beginDrain, .write (record 100),
      .beginDrain, .visit fun _ => .error (.foreign "visitor")]
    (after calls).log.map (·.answer) = [.ok .done, .ok .done, .ok .done, .error .overlappingDrain,
      .error (.foreign "visitor")] ∧
    (after calls).book = { drained := [[record 1]], written := [record 100] } ∧
    (after calls).Opens [record 100] ∧
    (after (calls ++ [.beginDrain, .take])).log.getLast?.map (·.answer) =
      some (.ok (.records [record 100])) := by
  intro record calls
  have hbook : (after calls).book = { drained := [[record 1]], written := [record 100] } := by
    decide +kernel
  have hopens := ((every_write_in_one_generation calls).closed (by rw [hbook])).2
  rw [hbook] at hopens
  exact ⟨by decide +kernel, hbook, hopens, by decide +kernel⟩

end WindowRun

end Rollup
