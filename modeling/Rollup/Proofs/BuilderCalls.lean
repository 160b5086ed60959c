import Rollup.Proofs.Searches

/-!
# Calls on a graph builder

What a builder answers when it is to build, and what each call changes of it. A builder takes whatever
it is told, and refuses nothing but a name that is taken.
-/

namespace Rollup

variable {ν : Type}

/-! ## What a builder answers -/

namespace GraphBuilder

variable {builder : GraphBuilder ν}

/-- No stage feeds nobody: a stage has an entry only once it was given a target. -/
def Sourced (builder : GraphBuilder ν) : Prop :=
  ∀ source ∈ builder.edges, ∃ target, builder.Feeds source target

theorem mem_mentioned_of_feeds {source target : String} (h : builder.Feeds source target) :
    source ∈ builder.mentioned ∧ target ∈ builder.mentioned := by
  rw [Feeds, successors, Std.ExtTreeSet.mem_toList, Std.ExtTreeMap.getD_eq_getD_getElem?] at h
  obtain ⟨targets, hentry, htarget⟩ : ∃ targets, builder.edges[source]? = some targets ∧
      target ∈ targets := by
    cases hentry : builder.edges[source]? with
    | none => simp [hentry] at h
    | some targets => exact ⟨targets, rfl, by simpa [hentry] using h⟩
  have hentry := Std.ExtTreeMap.mem_toList_iff_getElem?_eq_some.mpr hentry
  have hmem : ∀ stage ∈ source :: targets.toList, stage ∈ builder.mentioned := fun stage hstage =>
    List.mem_append_right _ (List.mem_flatMap.mpr ⟨_, hentry, hstage⟩)
  exact ⟨hmem source List.mem_cons_self,
    hmem target (List.mem_cons_of_mem _ (Std.ExtTreeSet.mem_toList.mpr htarget))⟩

theorem mem_mentioned_iff (hsourced : builder.Sourced) {stage : String} :
    stage ∈ builder.mentioned ↔ stage ∈ builder.outputs.map (·.1) ∨
      ∃ other, builder.Feeds stage other ∨ builder.Feeds other stage := by
  constructor
  · intro h
    rcases List.mem_append.mp h with h | h
    · exact .inl h
    · right
      obtain ⟨⟨source, targets⟩, hentry, hstage⟩ := List.mem_flatMap.mp h
      have hget := Std.ExtTreeMap.mem_toList_iff_getElem?_eq_some.mp hentry
      rcases List.mem_cons.mp hstage with rfl | htarget
      · obtain ⟨target, hfeeds⟩ := hsourced stage
          (Std.ExtTreeMap.mem_iff_isSome_getElem?.mpr (by simp [hget]))
        exact ⟨target, .inl hfeeds⟩
      · refine ⟨source, .inr ?_⟩
        rwa [Feeds, successors, Std.ExtTreeMap.getD_eq_getD_getElem?, hget]
  · rintro (h | ⟨other, h | h⟩)
    · exact List.mem_append_left _ h
    · exact (mem_mentioned_of_feeds h).1
    · exact (mem_mentioned_of_feeds h).2

theorem Sourced.edge (h : builder.Sourced) (source target : String) :
    (builder.edge source target).Sourced := by
  intro other hother
  by_cases heq : other = source
  · exact ⟨target, feeds_edge_iff.mpr (.inl ⟨heq, rfl⟩)⟩
  · have hold : other ∈ builder.edges :=
      (Std.ExtTreeMap.mem_insert.mp hother).resolve_left fun hsame =>
        heq (Std.LawfulEqOrd.eq_of_compare hsame).symm
    obtain ⟨next, hfeeds⟩ := h other hold
    exact ⟨next, feeds_edge_iff.mpr (.inr hfeeds)⟩

/-- All that is named is there. -/
def Known (builder : GraphBuilder ν) : Prop := ∀ stage ∈ builder.mentioned, stage ∈ builder.stages

theorem Known.complete (h : builder.Known) : builder.Complete := fun _ _ hfeeds =>
  ⟨h _ (mem_mentioned_of_feeds hfeeds).1, h _ (mem_mentioned_of_feeds hfeeds).2⟩

/-- The answers there can be, and when each is given. -/
inductive Answer (builder : GraphBuilder ν) (outputs : Outputs ν) :
    Except GraphError (Graph ν × Outputs ν) → Prop where
  | rootless : builder.root = none → Answer builder outputs (.error .missingRoot)
  | unknown {stage : String} : builder.root ≠ none → stage ∈ builder.mentioned →
      stage ∉ builder.stages → Answer builder outputs (.error (.unknownStage stage))
  | circle {stage : String} : builder.root ≠ none → builder.Known →
      Relation.TransGen builder.Feeds stage stage → Answer builder outputs (.error (.cycle stage))
  | built {root : ν} : builder.root = some root → builder.Known → builder.Acyclic →
      Answer builder outputs (.ok (⟨builder.id, root, builder.stages.toList⟩,
        outputs.freezeAll (builder.outputs.map (·.2))))

theorem build_answer (builder : GraphBuilder ν) (outputs : Outputs ν) :
    builder.Answer outputs (builder.build outputs) := by
  unfold build
  cases hroot : builder.root with
  | none => exact .rootless hroot
  | some root =>
    have hrooted : builder.root ≠ none := by simp [hroot]
    dsimp only
    cases hunknown : builder.mentioned.find? (!builder.stages.contains ·) with
    | some stage =>
      have hmissing := List.find?_some hunknown
      refine .unknown hrooted (List.mem_of_find?_eq_some hunknown) fun hmem => ?_
      simp [Std.ExtTreeSet.contains_iff_mem.mpr hmem] at hmissing
    | none =>
      have hknown : builder.Known := by simpa [Known] using hunknown
      cases hsearch : builder.checkAcyclic with
      | error error =>
        obtain ⟨stage, rfl, hcircle⟩ := on_circle_of_checkAcyclic hknown.complete hsearch
        exact .circle hrooted hknown hcircle
      | ok _ =>
        exact .built hroot hknown ((checkAcyclic_eq_ok_iff hknown.complete).mp hsearch)

theorem build_ok_iff {outputs : Outputs ν} :
    (∃ graph frozen, builder.build outputs = .ok (graph, frozen)) ↔
      builder.root ≠ none ∧ builder.Known ∧ builder.Acyclic := by
  have hanswer := builder.build_answer outputs
  generalize builder.build outputs = answer at hanswer ⊢
  cases hanswer with
  | rootless hroot => simp [hroot]
  | unknown hrooted hmentioned hmissing =>
    simp only [reduceCtorEq, exists_false, false_iff]
    exact fun h => hmissing (h.2.1 _ hmentioned)
  | circle hrooted hknown hcircle =>
    simp only [reduceCtorEq, exists_false, false_iff]
    exact fun h => h.2.2 _ hcircle
  | built hroot hknown hacyclic =>
    exact iff_of_true ⟨_, _, rfl⟩ ⟨by simp [hroot], hknown, hacyclic⟩

theorem node_eq_error_iff {name : String} {stage : ν} {error : GraphError} :
    builder.node name stage = .error error ↔
      name ∈ builder.stages ∧ error = .duplicateStage name := by
  by_cases htaken : name ∈ builder.stages
  · simp [node, Std.ExtTreeSet.contains_iff_mem.mpr htaken, htaken, eq_comm]
  · simp [node_ok htaken, htaken]

end GraphBuilder

/-! ## Calls -/

/-- A call on a builder. The stages and outputs that are connected may have been made by another
builder, so that only their names and handles are told. -/
inductive BuilderCall (ν : Type) where
  | node (name : String) (stage : ν)
  | output (stage : String)
  | connect (output : Nat) (target : Node ν)
  | edge (source target : String)
  | root (node : Node ν)

/-- A builder that was called, and all outputs that anybody has made. -/
structure BuilderRun (ν : Type) where
  builder : GraphBuilder ν
  outputs : Outputs ν := []

namespace BuilderRun

/-- One more call. A stage whose name is taken leaves the builder as it was. -/
def next (run : BuilderRun ν) : BuilderCall ν → BuilderRun ν
  | .node name stage =>
    match run.builder.node name stage with
    | .ok (_, builder) => { run with builder }
    | .error _ => run
  | .output stage =>
    let (builder, outputs) := run.builder.output run.outputs stage
    { builder, outputs }
  | .connect output target =>
    let (builder, outputs) := run.builder.connect run.outputs output target
    { builder, outputs }
  | .edge source target => { run with builder := run.builder.edge source target }
  | .root node => { run with builder := run.builder.withRoot node }

def after (run : BuilderRun ν) (calls : List (BuilderCall ν)) : BuilderRun ν := calls.foldl next run

/-- The edge that a call records: from the stage of an output, or as it is told. -/
def edge? (run : BuilderRun ν) : BuilderCall ν → Option (String × String)
  | .connect output target => run.outputs[output]?.map fun made => (made.stage, target.name)
  | .edge source target => some (source, target)
  | _ => none

/-- The edges that calls record. -/
def edges (run : BuilderRun ν) : List (BuilderCall ν) → List (String × String)
  | [] => []
  | call :: rest => (run.edge? call).toList ++ (run.next call).edges rest

variable {run : BuilderRun ν} {calls : List (BuilderCall ν)}

/-- What one call alone can bring about is there afterwards exactly if it was there before or if one of
the calls brought it about. -/
theorem after_iff {p : BuilderRun ν → Prop} {brings : BuilderCall ν → Prop}
    (h : ∀ run call, p (run.next call) ↔ p run ∨ brings call) :
    p (run.after calls) ↔ p run ∨ ∃ call ∈ calls, brings call := by
  induction calls generalizing run with
  | nil => simp [after]
  | cons call rest ih =>
    show p ((run.next call).after rest) ↔ _
    rw [ih, h, or_assoc]
    simp

theorem next_node (run : BuilderRun ν) (name : String) (stage : ν) : ∃ stages,
    run.next (.node name stage) = { run with builder := { run.builder with stages } } ∧
      ∀ other, other ∈ stages ↔ other ∈ run.builder.stages ∨ other = name := by
  by_cases htaken : name ∈ run.builder.stages
  · refine ⟨run.builder.stages, ?_, fun other => ?_⟩
    · rw [next, GraphBuilder.node, if_pos (Std.ExtTreeSet.contains_iff_mem.mpr htaken)]
    · exact (or_iff_left_of_imp fun heq => heq ▸ htaken).symm
  · refine ⟨run.builder.stages.insert name, ?_, fun other => ?_⟩
    · rw [next, GraphBuilder.node_ok htaken]
    · rw [GraphBuilder.mem_insert, or_comm]

theorem next_connect (run : BuilderRun ν) (output : Nat) (target : Node ν) :
    (run.next (.connect output target)).builder =
      match run.outputs[output]? with
      | some made => run.builder.edge made.stage target.name
      | none => run.builder := rfl

theorem next_connect_frame (run : BuilderRun ν) (output : Nat) (target : Node ν) :
    ∃ edges, (run.next (.connect output target)).builder = { run.builder with edges } := by
  rw [next_connect]
  cases run.outputs[output]? with
  | none => exact ⟨run.builder.edges, rfl⟩
  | some made => exact ⟨_, rfl⟩

theorem mem_stages_next (run : BuilderRun ν) (call : BuilderCall ν) (name : String) :
    name ∈ (run.next call).builder.stages ↔
      name ∈ run.builder.stages ∨ ∃ stage, call = .node name stage := by
  cases call with
  | node other stage =>
    obtain ⟨stages, hnext, hstages⟩ := run.next_node other stage
    rw [hnext, hstages]
    simp [eq_comm]
  | connect output target =>
    obtain ⟨edges, hnext⟩ := run.next_connect_frame output target
    simp [hnext]
  | output stage => simp [next, GraphBuilder.output]
  | edge source target => simp [next, GraphBuilder.edge]
  | root node => simp [next, GraphBuilder.withRoot]

theorem mem_outputs_next (run : BuilderRun ν) (call : BuilderCall ν) (stage : String) :
    stage ∈ (run.next call).builder.outputs.map (·.1) ↔
      stage ∈ run.builder.outputs.map (·.1) ∨ call = .output stage := by
  cases call with
  | node name other =>
    obtain ⟨stages, hnext, _⟩ := run.next_node name other
    simp [hnext]
  | connect output target =>
    obtain ⟨edges, hnext⟩ := run.next_connect_frame output target
    simp [hnext]
  | output other => simp [next, GraphBuilder.output, eq_comm]
  | edge source target => simp [next, GraphBuilder.edge]
  | root node => simp [next, GraphBuilder.withRoot]

theorem root_next (run : BuilderRun ν) (call : BuilderCall ν) :
    (run.next call).builder.root ≠ none ↔
      run.builder.root ≠ none ∨ ∃ node, call = .root node := by
  cases call with
  | node name stage =>
    obtain ⟨stages, hnext, _⟩ := run.next_node name stage
    simp [hnext]
  | connect output target =>
    obtain ⟨edges, hnext⟩ := run.next_connect_frame output target
    simp [hnext]
  | output stage => simp [next, GraphBuilder.output]
  | edge source target => simp [next, GraphBuilder.edge]
  | root node => simp [next, GraphBuilder.withRoot]

theorem feeds_next (run : BuilderRun ν) (call : BuilderCall ν) (source target : String) :
    (run.next call).builder.Feeds source target ↔
      run.builder.Feeds source target ∨ run.edge? call = some (source, target) := by
  cases call with
  | node name stage =>
    obtain ⟨stages, hnext, _⟩ := run.next_node name stage
    rw [hnext]
    simp [edge?, GraphBuilder.Feeds, GraphBuilder.successors]
  | connect output node =>
    rw [next_connect, edge?]
    cases run.outputs[output]? with
    | none => simp
    | some made => simp [GraphBuilder.feeds_edge_iff, or_comm, eq_comm]
  | output stage => simp [next, edge?, GraphBuilder.output, GraphBuilder.Feeds, GraphBuilder.successors]
  | edge source target => simp [next, edge?, GraphBuilder.feeds_edge_iff, or_comm, eq_comm]
  | root node => simp [next, edge?, GraphBuilder.withRoot, GraphBuilder.Feeds, GraphBuilder.successors]

theorem feeds_after {source target : String} :
    (run.after calls).builder.Feeds source target ↔
      run.builder.Feeds source target ∨ (source, target) ∈ run.edges calls := by
  induction calls generalizing run with
  | nil => simp [after, edges]
  | cons call rest ih =>
    show ((run.next call).after rest).builder.Feeds source target ↔ _
    rw [ih, feeds_next, edges, List.mem_append, Option.mem_toList, or_assoc]

theorem sourced_next (h : run.builder.Sourced) (call : BuilderCall ν) :
    (run.next call).builder.Sourced := by
  cases call with
  | node name stage =>
    obtain ⟨stages, hnext, _⟩ := run.next_node name stage
    rw [hnext]
    exact h
  | connect output target =>
    rw [next_connect]
    cases run.outputs[output]? with
    | none => exact h
    | some made => exact h.edge made.stage target.name
  | output stage => exact h
  | edge source target => exact h.edge source target
  | root node => exact h

theorem id_next (run : BuilderRun ν) (call : BuilderCall ν) :
    (run.next call).builder.id = run.builder.id := by
  cases call with
  | node name stage =>
    obtain ⟨stages, hnext, _⟩ := run.next_node name stage
    rw [hnext]
  | connect output target =>
    obtain ⟨edges, hnext⟩ := run.next_connect_frame output target
    rw [hnext]
  | output stage => rfl
  | edge source target => rfl
  | root node => rfl

end BuilderRun

end Rollup
