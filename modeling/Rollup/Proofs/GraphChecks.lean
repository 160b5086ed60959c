import Rollup.Proofs.BuilderCalls

/-!
# What a graph builder accepts

What a graph builder was told decides in the end whether a graph is built: there has to be a root, all
stages that are named have to be there, and the edges may run in no circle.
-/

namespace Rollup

variable {ν : Type}

namespace BuilderRun

variable {run : BuilderRun ν} {calls : List (BuilderCall ν)}

/-! ## What is built -/

/-- A call took in a stage under the name. -/
def Registered (calls : List (BuilderCall ν)) (name : String) : Prop :=
  ∃ stage, .node name stage ∈ calls

section

variable (id : String) (made : Outputs ν)

/-- A builder that was told nothing yet. -/
def start : BuilderRun ν := { builder := { id }, outputs := made }

variable {id made} {name : String}

theorem mem_stages_after :
    name ∈ ((start id made).after calls).builder.stages ↔ Registered calls name := by
  rw [after_iff (p := fun run => name ∈ run.builder.stages) fun run call =>
    run.mem_stages_next call name]
  simp [start, Registered]

theorem mem_outputs_after :
    name ∈ ((start id made).after calls).builder.outputs.map (·.1) ↔ .output name ∈ calls := by
  rw [after_iff (p := fun run => name ∈ run.builder.outputs.map (·.1)) fun run call =>
    run.mem_outputs_next call name]
  simp [start]

theorem root_after :
    ((start id made).after calls).builder.root ≠ none ↔ ∃ node, .root node ∈ calls := by
  rw [after_iff (p := fun run => run.builder.root ≠ none) root_next]
  simp [start]

theorem feeds_start_after {source target : String} :
    ((start id made).after calls).builder.Feeds source target ↔
      (source, target) ∈ (start id made).edges calls := by
  rw [feeds_after]
  refine or_iff_right fun hfeeds => ?_
  simp [start, GraphBuilder.Feeds, GraphBuilder.successors] at hfeeds

theorem sourced_after : ((start id made).after calls).builder.Sourced := by
  refine List.foldlRecOn calls (motive := fun run : BuilderRun ν => run.builder.Sourced) _
    (fun source hsource => ?_) fun _ h call _ => sourced_next h call
  simp [start] at hsource

theorem id_after : ((start id made).after calls).builder.id = id :=
  List.foldlRecOn calls (motive := fun run : BuilderRun ν => run.builder.id = id) _ rfl
    fun run h call _ => (run.id_next call).trans h

theorem known_after_iff : ((start id made).after calls).builder.Known ↔
    (∀ stage, .output stage ∈ calls → Registered calls stage) ∧
      ∀ source target, (source, target) ∈ (start id made).edges calls →
        Registered calls source ∧ Registered calls target := by
  simp only [GraphBuilder.Known, GraphBuilder.mem_mentioned_iff sourced_after, mem_outputs_after,
    feeds_start_after, mem_stages_after]
  constructor
  · intro h
    exact ⟨fun stage houtput => h stage (.inl houtput), fun source target hedge =>
      ⟨h source (.inr ⟨target, .inl hedge⟩), h target (.inr ⟨source, .inr hedge⟩)⟩⟩
  · rintro ⟨houtputs, hedges⟩ stage (houtput | ⟨other, hedge | hedge⟩)
    · exact houtputs stage houtput
    · exact (hedges stage other hedge).1
    · exact (hedges other stage hedge).2

end

/-- A builder refuses nothing but a name that is taken, and builds exactly the wirings that have a root,
whose outputs and edges are of stages that are there, and whose edges run in no circle. -/
theorem builds_exactly_acyclic_wirings (id : String) (made : Outputs ν)
    (calls : List (BuilderCall ν)) :
    let run := (start id made).after calls
    let Edge := fun source target => (source, target) ∈ (start id made).edges calls
    let Joined := ∀ source target, Edge source target →
      Registered calls source ∧ Registered calls target
    let Circle := Relation.TransGen Edge
    (∀ name stage,
      (∀ error, run.builder.node name stage = .error error ↔
        Registered calls name ∧ error = .duplicateStage name) ∧
      (Registered calls name → run.next (.node name stage) = run)) ∧
    ((∃ graph frozen, run.builder.build run.outputs = .ok (graph, frozen)) ↔
      (∃ node, .root node ∈ calls) ∧ (∀ stage, .output stage ∈ calls → Registered calls stage) ∧
        Joined ∧ ∀ stage, ¬ Circle stage stage) ∧
    (∀ graph frozen, run.builder.build run.outputs = .ok (graph, frozen) →
      graph.id = id ∧ ∀ name, name ∈ graph.stages ↔ Registered calls name) ∧
    (∀ error, run.builder.build run.outputs = .error error →
      (error = .missingRoot ∧ ∀ node, .root node ∉ calls) ∨
      (∃ stage, error = .unknownStage stage ∧ ¬ Registered calls stage ∧
        (.output stage ∈ calls ∨ ∃ other, Edge stage other ∨ Edge other stage)) ∨
      ∃ stage, error = .cycle stage ∧ Circle stage stage) ∧
    (Joined → ∃ result, run.builder.Search (fun _ => none) run.builder.stages.toList result ∧
      (∀ other, run.builder.Search (fun _ => none) run.builder.stages.toList other →
        other = result) ∧
      run.builder.checkAcyclic = (fun _ => ()) <$> result) := by
  intro run Edge Joined Circle
  have hstages (name : String) : name ∈ run.builder.stages ↔ Registered calls name :=
    mem_stages_after
  have hfeeds : run.builder.Feeds = Edge := by
    funext source target
    exact propext feeds_start_after
  have hknown : run.builder.Known ↔
      (∀ stage, .output stage ∈ calls → Registered calls stage) ∧ Joined := known_after_iff
  have hroot : run.builder.root ≠ none ↔ ∃ node, .root node ∈ calls := root_after
  refine ⟨fun name stage => ⟨fun error => ?_, fun htaken => ?_⟩, ?_, fun graph frozen hbuilt => ?_,
    fun error hbuilt => ?_, fun hjoined => ?_⟩
  · rw [GraphBuilder.node_eq_error_iff, hstages]
  · rw [next, GraphBuilder.node_eq_error_iff.mpr ⟨(hstages name).mpr htaken, rfl⟩]
  · rw [GraphBuilder.build_ok_iff, hroot, hknown, GraphBuilder.Acyclic, hfeeds, and_assoc]
  · have hanswer := run.builder.build_answer run.outputs
    rw [hbuilt] at hanswer
    cases hanswer
    exact ⟨id_after, fun name => Std.ExtTreeSet.mem_toList.trans (hstages name)⟩
  · have hanswer := run.builder.build_answer run.outputs
    rw [hbuilt] at hanswer
    cases hanswer with
    | rootless hnone => exact .inl ⟨rfl, fun node hnode => hroot.mpr ⟨node, hnode⟩ hnone⟩
    | @unknown stage _ hmentioned hmissing =>
      rw [GraphBuilder.mem_mentioned_iff sourced_after, mem_outputs_after, hfeeds] at hmentioned
      exact .inr (.inl ⟨stage, rfl, fun h => hmissing ((hstages stage).mpr h), hmentioned⟩)
    | @circle stage _ _ hcircle =>
      rw [hfeeds] at hcircle
      exact .inr (.inr ⟨stage, rfl, hcircle⟩)
  · have hcomplete : run.builder.Complete := by
      simp only [GraphBuilder.Complete, hfeeds, hstages]
      exact hjoined
    obtain ⟨result, hsearch, hresult⟩ := GraphBuilder.checkAcyclic_searches hcomplete
    exact ⟨result, hsearch, fun other hother => hother.unique hsearch, hresult⟩

/-- Two stages that feed each other, one through an output, are refused. -/
example :
    let run := (start "circle" []).after [.node "a" 0, .output "a", .node "b" 1,
      .connect 0 ⟨"b", 1⟩, .edge "b" "a", .root ⟨"a", 0⟩]
    run.builder.build run.outputs = .error (.cycle "a") := by decide +kernel

end BuilderRun

end Rollup
