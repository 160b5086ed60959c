import Rollup.Proofs.JointRound
import Rollup.Trial.Rounds

/-!
# Isolation

Workers that feed one another nothing are asked by tasks that run side by side, in any order that the
tasks fall into. A round comes to the same all the same: what is flushed is what each worker prepares
when it is asked alone, worker by worker, and one that breaks off has nothing in it.
-/

namespace Rollup

variable {σ ρ : Type}

/-! ## Workers that are asked -/

namespace RoundWorker

/-- What a worker prepares when it is asked in this state: nothing, if it breaks off. -/
def gives (worker : RoundWorker σ ρ) (s : σ) : List ρ :=
  match (worker.build.run.run s : Except Fault (List ρ) × σ).1 with
  | .ok requests => requests
  | .error _ => []

def asked (worker : RoundWorker σ ρ) (s : σ) : σ :=
  (worker.build.run.run s : Except Fault (List ρ) × σ).2

def ended (worker : RoundWorker σ ρ) (s : σ) : σ := (worker.finish.run s).2

def askedAll (workers : List (RoundWorker σ ρ)) (s : σ) : σ :=
  workers.foldl (fun s worker => worker.asked s) s

def endedAll (workers : List (RoundWorker σ ρ)) (s : σ) : σ :=
  workers.foldl (fun s worker => worker.ended s) s

/-- Neither changes what the other prepares. -/
def Apart (holds : σ → Prop) (worker other : RoundWorker σ ρ) : Prop :=
  ∀ s, holds s → worker.gives (other.asked s) = worker.gives s ∧
    other.gives (worker.asked s) = other.gives s

/-- No worker feeds another, wherever `holds` is true, and that it stays. -/
structure Isolated (holds : σ → Prop) (workers : List (RoundWorker σ ρ)) : Prop where
  kept : ∀ worker ∈ workers, ∀ s, holds s → holds (worker.asked s)
  apart : workers.Pairwise (Apart holds)

variable {holds : σ → Prop} {workers : List (RoundWorker σ ρ)}

theorem Apart.symm {worker other : RoundWorker σ ρ} (h : worker.Apart holds other) :
    other.Apart holds worker := fun s hs => (h s hs).symm

theorem Isolated.perm (h : Isolated holds workers) {order : List (RoundWorker σ ρ)}
    (hperm : order.Perm workers) : Isolated holds order where
  kept worker hworker := h.kept worker (hperm.mem_iff.mp hworker)
  apart := (hperm.pairwise_iff Apart.symm).mpr h.apart

end RoundWorker

namespace Rounds

open RoundWorker

theorem buildOrNone_run (worker : RoundWorker σ ρ) (s : σ) :
    (buildOrNone worker).run s = (worker.gives s, worker.asked s) := by
  unfold buildOrNone gives asked
  rw [StateT.run_bind]
  rcases (worker.build.run.run s : Except Fault (List ρ) × σ) with ⟨_ | _, _⟩ <;> rfl

theorem finish_run (workers : List (RoundWorker σ ρ)) (s : σ) :
    (workers.forM (·.finish)).run s = ((), endedAll workers s) := by
  induction workers generalizing s with
  | nil => rfl
  | cons worker rest ih =>
    show (worker.finish >>= fun _ => rest.forM (·.finish)).run s = _
    rw [StateT.run_bind]
    exact ih (worker.ended s)

/-! ## Tasks side by side -/

/-- An order in which tasks that run side by side come to their items. Each task takes its own in
their order. -/
inductive Interleaving {α : Type} : List (List α) → List α → Prop
  | done {tasks : List (List α)} (h : ∀ task ∈ tasks, task = []) : Interleaving tasks []
  | next {before after : List (List α)} {item : α} {task order : List α}
      (h : Interleaving (before ++ task :: after) order) :
      Interleaving (before ++ (item :: task) :: after) (item :: order)

theorem Interleaving.perm {α : Type} {tasks : List (List α)} {order : List α}
    (h : Interleaving tasks order) : order.Perm tasks.flatten := by
  induction h with
  | done h => rw [List.flatten_eq_nil_iff.mpr h]
  | @next before after item task order _ ih =>
    have hmove : (item :: (before ++ task :: after).flatten).Perm
        (before ++ (item :: task) :: after).flatten := by
      simp only [List.flatten_append, List.flatten_cons, List.cons_append]
      exact List.perm_middle.symm
    exact (ih.cons item).trans hmove

theorem interleaving_flatten {α : Type} (tasks : List (List α)) :
    Interleaving tasks tasks.flatten := by
  suffices h : ∀ (before : List (List α)) (order : List α), (∀ task ∈ before, task = []) →
      tasks.flatten = order → Interleaving (before ++ tasks) order from h [] _ (by simp) rfl
  induction tasks with
  | nil =>
    rintro before _ hbefore rfl
    exact .done (by simpa using hbefore)
  | cons task rest ih =>
    rintro before _ hbefore rfl
    induction task with
    | nil =>
      rw [List.append_cons]
      refine ih (before ++ [[]]) _ (fun task htask => ?_) (by simp)
      rcases List.mem_append.mp htask with htask | htask
      · exact hbefore task htask
      · exact List.mem_singleton.mp htask
    | cons item task ih' => exact .next ih'

theorem length_chunksUpTo_le {α : Type} {size count bound : Nat} {items : List α}
    (h : items.length ≤ size * bound) : (chunksUpTo size count items).length ≤ bound := by
  induction bound generalizing count items with
  | zero =>
    have hnone : items = [] := List.eq_nil_of_length_eq_zero (by simpa using h)
    cases count <;> simp [hnone, chunksUpTo]
  | succ bound ih =>
    cases count with
    | zero => simp [chunksUpTo]
    | succ count =>
      cases items with
      | nil => simp [chunksUpTo]
      | cons first rest =>
        have hrest : ((first :: rest).drop size).length ≤ size * bound := by
          rw [Nat.mul_succ] at h
          rw [List.length_drop]
          omega
        simpa [chunksUpTo] using ih hrest

theorem length_groups_le {α : Type} {threads : Nat} (hthreads : 0 < threads) (workers : List α) :
    (groups threads workers).length ≤ threads := by
  unfold groups
  split
  · exact hthreads
  · apply length_chunksUpTo_le
    have hdiv := Nat.lt_div_mul_add (a := workers.length + threads - 1) hthreads
    omega

/-- Asks numbered workers in an order, and files what each has prepared under its number. -/
def askAll (order : List (RoundWorker σ ρ × Nat)) : StateM σ (List (Nat × List ρ)) := do
  let prepared ← (order.map (·.1)).mapM buildOrNone
  return (order.map (·.2)).zip prepared

/-- What a task hands over once all its workers were asked. -/
def joined (filed : List (Nat × List ρ)) (task : List (RoundWorker σ ρ × Nat)) : List ρ :=
  task.flatMap fun item => (filed.lookup item.2).getD []

/-- The rest of a round. -/
def conclude (flush : Flush σ ρ) (workers : List (RoundWorker σ ρ)) (requests : List ρ) :
    StateM σ RoundSummary := do
  let flushed ← flushAny flush requests
  workers.forM (·.finish)
  return { requests := requests.length, flushed := flushed.isOk }

/-- A round whose tasks run side by side and come to their workers in this order. The writes are
joined task by task. -/
def runSideBySide (flush : Flush σ ρ) (workers : List (RoundWorker σ ρ))
    (tasks : List (List (RoundWorker σ ρ × Nat))) (order : List (RoundWorker σ ρ × Nat)) :
    StateM σ RoundSummary := do
  let filed ← askAll order
  conclude flush workers (tasks.flatMap (joined filed))

variable {holds : σ → Prop} {workers : List (RoundWorker σ ρ)}

def filedAt (s : σ) (order : List (RoundWorker σ ρ × Nat)) : List (Nat × List ρ) :=
  order.map fun item => (item.2, item.1.gives s)

/-- Isolated workers prepare the same in every order. -/
theorem mapM_buildOrNone_isolated (h : Isolated holds workers) {s : σ} (hs : holds s) :
    (workers.mapM buildOrNone).run s = (workers.map (·.gives s), askedAll workers s) := by
  induction workers generalizing s with
  | nil => rfl
  | cons worker rest ih =>
    obtain ⟨hkept, hapart⟩ := h
    obtain ⟨hfirst, hrest⟩ := List.pairwise_cons.mp hapart
    -- The others do not notice that the first one was asked.
    have hsame : rest.map (·.gives (worker.asked s)) = rest.map (·.gives s) :=
      List.map_congr_left fun other hother => (hfirst other hother s hs).2
    have hlater := ih ⟨fun other hother => hkept other (List.mem_cons_of_mem _ hother), hrest⟩
      (hkept worker List.mem_cons_self s hs)
    rw [hsame] at hlater
    rw [List.mapM_cons, run_bind_of_eq (buildOrNone_run worker s), run_bind_of_eq hlater]
    rfl

theorem askAll_run {order : List (RoundWorker σ ρ × Nat)}
    (h : Isolated holds (order.map (·.1))) {s : σ} (hs : holds s) :
    (askAll order).run s = (filedAt s order, askedAll (order.map (·.1)) s) := by
  rw [askAll, run_bind_of_eq (mapM_buildOrNone_isolated h hs), List.map_map, List.zip_map']
  rfl

theorem lookup_eq_of_mem {κ α : Type} [BEq κ] [LawfulBEq κ] {entries : List (κ × α)}
    (hdistinct : (entries.map (·.1)).Nodup) {key : κ} {value : α} (h : (key, value) ∈ entries) :
    entries.lookup key = some value := by
  obtain ⟨before, after, rfl⟩ := List.append_of_mem h
  rw [List.lookup_eq_some_iff]
  refine ⟨before, after, rfl, fun entry hentry => ?_⟩
  rw [List.map_append, List.nodup_append] at hdistinct
  have hne := hdistinct.2.2 entry.1 (List.mem_map_of_mem hentry) key (by simp)
  simpa using Ne.symm hne

theorem joined_filedAt {order : List (RoundWorker σ ρ × Nat)}
    {tasks : List (List (RoundWorker σ ρ × Nat))} (hdealt : tasks.flatten = workers.zipIdx)
    (hperm : order.Perm workers.zipIdx) (s : σ) :
    tasks.flatMap (joined (filedAt s order)) = workers.flatMap (·.gives s) := by
  -- Two workers may be the same, but their numbers are not.
  have hnumbers : ((filedAt s order).map (·.1)).Nodup := by
    have hperm : ((filedAt s order).map (·.1)).Perm (workers.zipIdx.map (·.2)) := by
      rw [filedAt, List.map_map]
      exact hperm.map _
    rw [hperm.nodup_iff, List.zipIdx_map_snd]
    exact List.nodup_range'
  have hfiled : ∀ item ∈ workers.zipIdx,
      ((filedAt s order).lookup item.2).getD [] = item.1.gives s := by
    intro item hitem
    have hmem : (item.2, item.1.gives s) ∈ filedAt s order :=
      List.mem_map_of_mem (hperm.mem_iff.mpr hitem)
    rw [lookup_eq_of_mem hnumbers hmem]
    rfl
  calc tasks.flatMap (joined (filedAt s order))
      = workers.zipIdx.flatMap fun item => ((filedAt s order).lookup item.2).getD [] := by
        rw [← hdealt, List.flatten_eq_flatMap, List.flatMap_assoc]
        rfl
    _ = workers.zipIdx.flatMap fun item => item.1.gives s := List.flatMap_congr hfiled
    _ = (workers.zipIdx.map (·.1)).flatMap (·.gives s) := by rw [List.flatMap_map]
    _ = workers.flatMap (·.gives s) := by rw [List.zipIdx_map_fst]

/-! ## Rounds -/

/-- How a round ends whose workers have prepared these writes. If there are any they are flushed, once,
and then the round ends on every worker. The summary tells of the writes and of the flush, and so do the
totals. -/
inductive Concludes (flush : Flush σ ρ) (workers : List (RoundWorker σ ρ)) (requests : List ρ)
    (asked : σ) (totals : RoundTotals) : RoundSummary × σ → RoundTotals → Prop
  | idle (h : requests = []) :
      Concludes flush workers requests asked totals (⟨0, true⟩, endedAll workers asked) totals
  | executed {s : σ} (h : requests ≠ []) (hflush : (flush requests).run asked = (.ok (), s)) :
      Concludes flush workers requests asked totals (⟨requests.length, true⟩, endedAll workers s)
        ⟨totals.requests + requests.length, totals.failures⟩
  | failed {error : StorageError} {s : σ} (h : requests ≠ [])
      (hflush : (flush requests).run asked = (.error error, s)) :
      Concludes flush workers requests asked totals (⟨requests.length, false⟩, endedAll workers s)
        ⟨totals.requests + requests.length, totals.failures + 1⟩

theorem conclude_concludes (flush : Flush σ ρ) (workers : List (RoundWorker σ ρ)) (requests : List ρ)
    (asked : σ) (totals : RoundTotals) :
    Concludes flush workers requests asked totals ((conclude flush workers requests).run asked)
      (totals.add ((conclude flush workers requests).run asked).1) := by
  have hrun : ∀ {answer : Except StorageError Unit} {s : σ},
      (flushAny flush requests).run asked = (answer, s) →
      (conclude flush workers requests).run asked =
        (⟨requests.length, answer.isOk⟩, endedAll workers s) := by
    intro answer s hflush
    rw [conclude, run_bind_of_eq hflush, run_bind_of_eq (finish_run workers s)]
    rfl
  by_cases hempty : requests = []
  · subst hempty
    rw [hrun (show _ = (.ok (), asked) from rfl)]
    exact .idle rfl
  · have hflush : (flushAny flush requests).run asked = (flush requests).run asked := by
      rw [flushAny, if_neg (by simpa using hempty)]
    rcases hanswer : (flush requests).run asked with ⟨_ | _, s⟩
    · rw [hrun (hflush.trans hanswer)]
      exact .failed hempty hanswer
    · rw [hrun (hflush.trans hanswer)]
      exact .executed hempty hanswer

/-- What is true of a round over isolated workers from a state, in whatever order its tasks come to
their workers. -/
structure Separate (flush : Flush σ ρ) (threads : Nat) (workers : List (RoundWorker σ ρ)) (s : σ)
    (totals : RoundTotals) : Prop where
  fewTasks : (groups threads workers.zipIdx).length ≤ threads
  once : ∀ order, Interleaving (groups threads workers.zipIdx) order → order.Perm workers.zipIdx
  sideBySide : ∀ order, Interleaving (groups threads workers.zipIdx) order →
    let round := (runSideBySide flush workers (groups threads workers.zipIdx) order).run s
    Concludes flush workers (workers.flatMap (·.gives s)) (askedAll (order.map (·.1)) s) totals round
      (totals.add round.1)
  inTurn : Interleaving (groups threads workers.zipIdx) workers.zipIdx ∧
    (run flush threads workers).run s =
      (runSideBySide flush workers (groups threads workers.zipIdx) workers.zipIdx).run s
  alone : let round := (run flush threads workers).run s
    Concludes flush workers (workers.flatMap (·.gives s)) (askedAll workers s) totals round
      (totals.add round.1)

theorem runSideBySide_run (h : Isolated holds workers) (flush : Flush σ ρ)
    {tasks : List (List (RoundWorker σ ρ × Nat))} (hdealt : tasks.flatten = workers.zipIdx)
    {order : List (RoundWorker σ ρ × Nat)} (hperm : order.Perm workers.zipIdx) {s : σ}
    (hs : holds s) :
    (runSideBySide flush workers tasks order).run s =
      (conclude flush workers (workers.flatMap (·.gives s))).run (askedAll (order.map (·.1)) s) := by
  have hworkers : (order.map (·.1)).Perm workers := by
    simpa using hperm.map Prod.fst
  rw [runSideBySide, run_bind_of_eq (askAll_run (h.perm hworkers) hs), joined_filedAt hdealt hperm]

theorem run_run (h : Isolated holds workers) {threads : Nat} (hthreads : 0 < threads)
    (flush : Flush σ ρ) {s : σ} (hs : holds s) :
    (run flush threads workers).run s =
      (conclude flush workers (workers.flatMap (·.gives s))).run (askedAll workers s) := by
  have hprepared : (prepare threads workers).run s =
      (workers.flatMap (·.gives s), askedAll workers s) := by
    rw [prepare_eq hthreads, StateT.run_map, mapM_buildOrNone_isolated h hs]
    rfl
  exact run_bind_of_eq hprepared _

theorem round_isolates_workers (h : Isolated holds workers) {threads : Nat} (hthreads : 0 < threads)
    (flush : Flush σ ρ) {s : σ} (hs : holds s) (totals : RoundTotals) :
    Separate flush threads workers s totals := by
  have hdealt : (groups threads workers.zipIdx).flatten = workers.zipIdx :=
    flatten_groups hthreads _
  have honce : ∀ order, Interleaving (groups threads workers.zipIdx) order →
      order.Perm workers.zipIdx := fun order horder => hdealt ▸ horder.perm
  refine ⟨length_groups_le hthreads _, honce, fun order horder => ?_, ⟨?_, ?_⟩, ?_⟩
  · dsimp only
    rw [runSideBySide_run h flush hdealt (honce order horder) hs]
    exact conclude_concludes ..
  · have hinTurn := interleaving_flatten (groups threads workers.zipIdx)
    rwa [hdealt] at hinTurn
  · rw [run_run h hthreads flush hs, runSideBySide_run h flush hdealt (.refl _) hs,
      List.zipIdx_map_fst]
  · dsimp only
    rw [run_run h hthreads flush hs]
    exact conclude_concludes ..

end Rounds

/-! ## Workers that follow a script -/

namespace RoundTrial

open RoundWorker Rounds

variable (index : Nat) (worker : ScriptedWorker) (s : RoundTrial)

/-- How the next build of a worker ends. -/
def answer : Except Fault (List String) :=
  match (s.workers[index]?).bind ScriptedWorker.next with
  | some count => .ok (List.replicate count worker.name)
  | none => .error (.foreign "scripted panic")

theorem roundWorker_run : (roundWorker index worker).build.run.run s =
    (answer index worker s,
      s.modifyWorker index fun worker => { worker with builds := worker.builds + 1 }) := by
  unfold answer
  show ((match (s.workers[index]?).bind ScriptedWorker.next with
    | some count => return List.replicate count worker.name
    | none => throw (.foreign "scripted panic")) : Action RoundTrial (List String)).run.run _ = _
  cases (s.workers[index]?).bind ScriptedWorker.next <;> rfl

theorem gives_asked_of_ne {other : Nat} (h : index ≠ other) (otherWorker : ScriptedWorker) :
    (roundWorker index worker).gives ((roundWorker other otherWorker).asked s) =
      (roundWorker index worker).gives s := by
  have hsame : answer index worker ((roundWorker other otherWorker).asked s) =
      answer index worker s := by
    simp [asked, roundWorker_run, answer, modifyWorker, h.symm]
  unfold gives
  simp only [roundWorker_run, hsame]

theorem isolated_roundWorkers (trial : RoundTrial) :
    Isolated (fun _ => True) trial.roundWorkers where
  kept _ _ _ _ := trivial
  apart := by
    have hnumbers : trial.workers.zipIdx.Pairwise fun one other => one.2 ≠ other.2 := by
      rw [← List.pairwise_map, List.zipIdx_map_snd]
      exact List.nodup_range'
    refine List.pairwise_map.mpr (hnumbers.imp fun {one other} hne s _ => ⟨?_, ?_⟩)
    · exact gives_asked_of_ne _ _ s hne _
    · exact gives_asked_of_ne _ _ s hne.symm _

/-- Three workers on two threads. One breaks off, and so does the flush. -/
def troubled : RoundTrial where
  workers := [⟨"a", [some 2], 0, 0⟩, ⟨"b", [none], 0, 0⟩, ⟨"c", [some 1], 0, 0⟩]
  failing := true

theorem troubled_round_isolates_workers :
    Isolated (fun _ => True) troubled.roundWorkers ∧ 0 < troubled.threads ∧
      troubled.roundWorkers.flatMap (·.gives troubled) = ["a", "a", "c"] ∧
      ((run flush troubled.threads troubled.roundWorkers).run troubled).1 = ⟨3, false⟩ ∧
      Separate flush troubled.threads troubled.roundWorkers troubled troubled.totals :=
  ⟨isolated_roundWorkers troubled, by decide, by decide, by decide,
    round_isolates_workers (isolated_roundWorkers troubled) (by decide) flush trivial _⟩

end RoundTrial

end Rollup
