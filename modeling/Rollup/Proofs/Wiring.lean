import Rollup.Pipeline

/-!
# Wiring

Edges that run in no circle pass the check of a graph builder. The stages of a model are joined by
such edges, so that its graph is built whatever its level.
-/

namespace Rollup

theorem foldlM_ok {ε α β : Type} {f : β → α → Except ε β} {items : List α}
    (h : ∀ item ∈ items, ∀ held, ∃ next, f held item = .ok next) (held : β) :
    ∃ last, items.foldlM f held = .ok last := by
  induction items generalizing held with
  | nil => exact ⟨held, rfl⟩
  | cons item rest ih =>
    obtain ⟨next, hnext⟩ := h item List.mem_cons_self held
    rw [List.foldlM_cons, hnext]
    exact ih (fun item hitem => h item (List.mem_cons_of_mem _ hitem)) next

namespace GraphBuilder

theorem mem_insert {names : Std.ExtTreeSet String} {added name : String} :
    name ∈ names.insert added ↔ name = added ∨ name ∈ names := by
  rw [Std.ExtTreeSet.mem_insert, Std.LawfulEqOrd.compare_eq_iff_eq, eq_comm]

variable {ν : Type} {builder : GraphBuilder ν}

/-! ## Circles -/

/-- An edge leads from one stage to the other. -/
def Feeds (builder : GraphBuilder ν) (source target : String) : Prop :=
  target ∈ builder.successors source

/-- From no stage does a way along the edges lead back to it. -/
def Acyclic (builder : GraphBuilder ν) : Prop :=
  ∀ stage, ¬ Relation.TransGen builder.Feeds stage stage

theorem acyclic_of_descending {height : String → Nat}
    (h : ∀ source target, builder.Feeds source target → height target < height source) :
    builder.Acyclic := by
  have hdown : ∀ source target, Relation.TransGen builder.Feeds source target →
      height target < height source := by
    intro source target hway
    induction hway with
    | single hfeeds => exact h _ _ hfeeds
    | tail _ hfeeds ih => exact Nat.lt_trans (h _ _ hfeeds) ih
  intro stage hback
  exact Nat.lt_irrefl _ (hdown stage stage hback)

theorem visitWithin_ok (hacyclic : builder.Acyclic) (depth : Nat) {path : List String}
    {stage : String} (hpath : ∀ before ∈ path, Relation.TransGen builder.Feeds before stage)
    (done : Std.ExtTreeSet String) :
    ∃ done', builder.visitWithin depth path done stage = .ok done' := by
  -- Every stage on the path leads here, so that meeting one of them again would close a circle.
  induction depth generalizing path stage done with
  | zero =>
    unfold visitWithin
    split
    · exact ⟨_, rfl⟩
    · split
      · next hback => exact (hacyclic stage (hpath stage (by simpa using hback))).elim
      · exact ⟨_, rfl⟩
  | succ depth ih =>
    unfold visitWithin
    split
    · exact ⟨_, rfl⟩
    · split
      · next hback => exact (hacyclic stage (hpath stage (by simpa using hback))).elim
      · have hnext : ∀ next ∈ builder.successors stage, ∀ done, ∃ done',
            builder.visitWithin depth (stage :: path) done next = .ok done' := by
          intro next hnext
          refine ih fun before hbefore => ?_
          rcases List.mem_cons.mp hbefore with rfl | hbefore
          · exact .single hnext
          · exact .tail (hpath before hbefore) hnext
        obtain ⟨done', hdone⟩ := foldlM_ok hnext done
        exact ⟨done'.insert stage, by simp only [hdone]; rfl⟩

theorem checkAcyclic_ok (hacyclic : builder.Acyclic) : builder.checkAcyclic = .ok () := by
  have hvisit : ∀ stage ∈ builder.stages.toList, ∀ done, ∃ done',
      builder.visitWithin builder.stages.size [] done stage = .ok done' :=
    fun _ _ => visitWithin_ok hacyclic builder.stages.size (by simp)
  obtain ⟨done, hdone⟩ := foldlM_ok hvisit {}
  unfold checkAcyclic
  rw [hdone]
  rfl

/-! ## Building -/

/-- The stages that are named so far are among these, and the edges are among those. -/
structure Drawn (builder : GraphBuilder ν) (known : String → Prop)
    (edges : String → String → Prop) : Prop where
  outputs : ∀ made ∈ builder.outputs, known made.1
  sources : ∀ source ∈ builder.edges, known source
  feeds : ∀ source target, builder.Feeds source target → edges source target

theorem feeds_edge {a b source target : String} (h : (builder.edge a b).Feeds source target) :
    (source = a ∧ target = b) ∨ builder.Feeds source target := by
  simp only [Feeds, successors, edge, Std.ExtTreeMap.getD_insert, Std.ExtTreeSet.mem_toList] at *
  split at h
  · next heq =>
    obtain rfl := Std.LawfulEqOrd.eq_of_compare heq
    rcases mem_insert.mp h with rfl | hmem
    · exact .inl ⟨rfl, rfl⟩
    · exact .inr hmem
  · exact .inr h

theorem feeds_edge_iff {a b source target : String} :
    (builder.edge a b).Feeds source target ↔
      (source = a ∧ target = b) ∨ builder.Feeds source target := by
  refine ⟨feeds_edge, fun h => ?_⟩
  simp only [Feeds, successors, edge, Std.ExtTreeMap.getD_insert, Std.ExtTreeSet.mem_toList] at *
  split
  · next heq =>
    obtain rfl := Std.LawfulEqOrd.eq_of_compare heq
    exact mem_insert.mpr (h.imp_left And.right)
  · next hne =>
    refine h.resolve_left fun heq => hne ?_
    rw [heq.1]
    exact Std.ReflCmp.compare_self

variable {known : String → Prop} {edges : String → String → Prop}

namespace Drawn

theorem empty (id : String) : ({ id } : GraphBuilder ν).Drawn known edges where
  outputs := by simp
  sources := by simp
  feeds source target h := by simp [Feeds, successors] at h

theorem congr (h : builder.Drawn known edges) {other : GraphBuilder ν}
    (houtputs : other.outputs = builder.outputs) (hedges : other.edges = builder.edges) :
    other.Drawn known edges := by
  obtain ⟨outputs, sources, feeds⟩ := h
  refine ⟨houtputs ▸ outputs, hedges ▸ sources, fun source target hfeeds => feeds source target ?_⟩
  unfold Feeds successors at *
  rwa [hedges] at hfeeds

theorem edge (h : builder.Drawn known edges) {a b : String} (ha : known a) (hab : edges a b) :
    (builder.edge a b).Drawn known edges where
  outputs := h.outputs
  sources source hsource := by
    rcases Std.ExtTreeMap.mem_insert.mp hsource with heq | hmem
    · exact Std.LawfulEqOrd.eq_of_compare heq ▸ ha
    · exact h.sources source hmem
  feeds source target hfeeds := by
    rcases feeds_edge hfeeds with ⟨rfl, rfl⟩ | hfeeds
    · exact hab
    · exact h.feeds source target hfeeds

theorem output (h : builder.Drawn known edges) {stage : String} (hstage : known stage)
    (outputs : Outputs ν) : (builder.output outputs stage).1.Drawn known edges where
  outputs made hmade := by
    rcases List.mem_append.mp hmade with hmade | hmade
    · exact h.outputs made hmade
    · obtain rfl := List.mem_singleton.mp hmade
      exact hstage
  sources := h.sources
  feeds := h.feeds

theorem fan (h : builder.Drawn known edges) {source : String} (hsource : known source)
    {targets : List (Node ν)} (htargets : ∀ node ∈ targets, edges source node.name) :
    (targets.foldl (fun builder node => builder.edge source node.name) builder).Drawn
      known edges := by
  induction targets generalizing builder with
  | nil => exact h
  | cons node rest ih =>
    exact ih (h.edge hsource (htargets node List.mem_cons_self))
      fun node hnode => htargets node (List.mem_cons_of_mem _ hnode)

end Drawn

theorem fan_frame (builder : GraphBuilder ν) (source : String) (targets : List (Node ν)) : ∃ edges,
    targets.foldl (fun builder node => builder.edge source node.name) builder =
      { builder with edges } := by
  induction targets generalizing builder with
  | nil => exact ⟨builder.edges, rfl⟩
  | cons node rest ih => exact ih (builder.edge source node.name)

theorem connect_create (outputs : Outputs ν) (stage : String) (target : Node ν) :
    (builder.connect (outputs.create stage) outputs.length target).1 =
      builder.edge stage target.name := by
  simp [connect, Outputs.create]

theorem Drawn.known_of_mentioned (h : builder.Drawn known edges)
    (htargets : ∀ source target, edges source target → known target) :
    ∀ stage ∈ builder.mentioned, known stage := by
  intro stage hstage
  simp only [mentioned, List.mem_append, List.mem_map, List.mem_flatMap, List.mem_cons] at hstage
  rcases hstage with ⟨made, hmade, rfl⟩ | ⟨⟨source, targets⟩, hedge, hstage⟩
  · exact h.outputs made hmade
  · have hget := Std.ExtTreeMap.mem_toList_iff_getElem?_eq_some.mp hedge
    rcases hstage with rfl | htarget
    · exact h.sources _ (Std.ExtTreeMap.mem_iff_isSome_getElem?.mpr (by simp [hget]))
    · refine htargets source stage (h.feeds source stage ?_)
      unfold Feeds successors
      rwa [Std.ExtTreeMap.getD_eq_getD_getElem?, hget]

theorem build_ok (h : builder.Drawn known edges) {root : ν} (hroot : builder.root = some root)
    (hknown : ∀ stage, known stage → stage ∈ builder.stages)
    (htargets : ∀ source target, edges source target → known target) {height : String → Nat}
    (hdown : ∀ source target, edges source target → height target < height source)
    (outputs : Outputs ν) :
    ∃ frozen, builder.build outputs = .ok (⟨builder.id, root, builder.stages.toList⟩, frozen) := by
  have hmentioned : builder.mentioned.find? (!builder.stages.contains ·) = none := by
    rw [List.find?_eq_none]
    intro stage hstage
    simpa using hknown stage (h.known_of_mentioned htargets stage hstage)
  have hchecked : builder.checkAcyclic = .ok () :=
    checkAcyclic_ok (acyclic_of_descending fun source target hfeeds =>
      hdown source target (h.feeds source target hfeeds))
  unfold build
  simp only [hroot, hmentioned, hchecked]
  exact ⟨_, rfl⟩

theorem node_ok {name : String} (hfresh : name ∉ builder.stages) (stage : ν) :
    builder.node name stage =
      .ok (⟨name, stage⟩, { builder with stages := builder.stages.insert name }) := by
  unfold node
  rw [if_neg (by simpa using hfresh)]

end GraphBuilder

/-! ## The graph of a model -/

namespace Pipeline

open GraphBuilder

/-- The names of the stages of a graph. -/
def stageNames (base : Level) : List String :=
  base.coarser.map Level.name ++
    base.name :: "l1" :: (if base.coarser.isEmpty then [] else ["trans"])

theorem mem_stageNames {base : Level} {name : String} : name ∈ stageNames base ↔
    name ∈ base.coarser.map Level.name ∨ name = base.name ∨ name = "l1" ∨
      name = "trans" ∧ base.coarser ≠ [] := by
  by_cases h : base.coarser = [] <;> simp [stageNames, h]

/-- The edges of a graph. -/
inductive Wire (base : Level) : String → String → Prop where
  | own : Wire base "l1" base.name
  | sampler (h : base.coarser ≠ []) : Wire base base.name "trans"
  | coarser {level : Level} (h : level ∈ base.coarser) : Wire base "trans" level.name

theorem Wire.known {base : Level} {source target : String} (h : Wire base source target) :
    source ∈ stageNames base ∧ target ∈ stageNames base := by
  cases h with
  | own => simp [mem_stageNames]
  | sampler h => simp [mem_stageNames, h]
  | coarser h => simp [mem_stageNames, List.ne_nil_of_mem h, List.mem_map_of_mem h]

theorem names_distinct (base : Level) : base.name ≠ "l1" ∧ base.name ≠ "trans" ∧
    ∀ level ∈ base.coarser, level.name ≠ "l1" ∧ level.name ≠ "trans" ∧ level.name ≠ base.name := by
  cases base <;> decide

/-- How many stages a record may still go through. -/
def height (base : Level) (stage : String) : Nat :=
  if stage = "l1" then 3 else if stage = base.name then 2 else if stage = "trans" then 1 else 0

theorem Wire.descends {base : Level} {source target : String} (h : Wire base source target) :
    height base target < height base source := by
  obtain ⟨hfront, hsampler, hcoarser⟩ := names_distinct base
  cases h with
  | own => simp [height, hfront]
  | sampler => simp [height, hfront, hsampler.symm]
  | coarser h => simp [height, hcoarser _ h, hsampler.symm]

theorem takeIn_ok (station : Nat) {levels : List (Level × Nat)} (nodes : List (Node Stage))
    {builder : GraphBuilder Stage} (hdistinct : (levels.map (·.1.name)).Nodup)
    (hfresh : ∀ name ∈ levels.map (·.1.name), name ∉ builder.stages) : ∃ more stages,
      levels.foldlM (fun (nodes, builder) (level, index) => do
        let (node, builder) ← builder.node level.name (.station (station + 1 + index))
        return (nodes ++ [node], builder)) (nodes, builder) =
          (.ok (nodes ++ more, { builder with stages }) : Except GraphError _) ∧
      more.map (·.name) = levels.map (·.1.name) ∧
      ∀ name, name ∈ stages ↔ name ∈ builder.stages ∨ name ∈ levels.map (·.1.name) := by
  induction levels generalizing nodes builder with
  | nil => exact ⟨[], builder.stages, by rw [List.append_nil]; rfl, rfl, by simp⟩
  | cons item rest ih =>
    obtain ⟨level, index⟩ := item
    rw [List.map_cons, List.nodup_cons] at hdistinct
    have hnode := node_ok (hfresh level.name List.mem_cons_self)
      (Stage.station (station + 1 + index))
    have hlater : ∀ name ∈ rest.map (·.1.name), name ∉ builder.stages.insert level.name := by
      intro name hname hmem
      rcases mem_insert.mp hmem with rfl | hmem
      · exact hdistinct.1 hname
      · exact hfresh name (List.mem_cons_of_mem _ hname) hmem
    obtain ⟨more, stages, hrun, hmore, hstages⟩ := @ih
      (nodes ++ [⟨level.name, .station (station + 1 + index)⟩])
      { builder with stages := builder.stages.insert level.name } hdistinct.2 hlater
    rw [← List.append_cons] at hrun
    refine ⟨⟨level.name, .station (station + 1 + index)⟩ :: more, stages, ?_, ?_, fun name => ?_⟩
    · rw [List.foldlM_cons]
      simp only [hnode]
      exact hrun
    · rw [List.map_cons, hmore, List.map_cons]
    · rw [hstages, mem_insert, List.map_cons, List.mem_cons]
      grind

theorem coarserNodes_ok (base : Level) (station : Nat) (id : String) : ∃ coarser stages,
    coarserNodes base station { id } = .ok (coarser, { id, stages }) ∧
      coarser.map (·.name) = base.coarser.map Level.name ∧
      ∀ name, name ∈ stages ↔ name ∈ base.coarser.map Level.name := by
  have hnames : base.coarser.zipIdx.map (·.1.name) = base.coarser.map Level.name := by
    cases base <;> rfl
  have hdistinct : (base.coarser.map Level.name).Nodup := by cases base <;> decide
  rw [← hnames] at hdistinct ⊢
  obtain ⟨coarser, stages, hrun, hcoarser, hstages⟩ :=
    @takeIn_ok station _ [] { id } hdistinct (by simp)
  exact ⟨coarser, stages, hrun, hcoarser, fun name => by simp [hstages]⟩

/-- What the builder of a model's graph comes to. -/
abbrev Planned (base : Level) (builder : GraphBuilder Stage) : Prop :=
  builder.Drawn (· ∈ stageNames base) (Wire base)

theorem wireCoarser_ok {base : Level} {coarser : List (Node Stage)} {builder : GraphBuilder Stage}
    (hcoarser : coarser.map (·.name) = base.coarser.map Level.name)
    (hplanned : Planned base builder) (hfresh : "trans" ∉ builder.stages) (station : Nat)
    (outputs : Outputs Stage) :
    ∃ after, (∃ frozen, wireCoarser base station coarser builder outputs = .ok (after, frozen)) ∧
      Planned base after ∧ after.id = builder.id ∧
      ∀ name, name ∈ after.stages ↔ name ∈ builder.stages ∨ name = "trans" ∧ base.coarser ≠ [] := by
  have hempty : coarser = [] ↔ base.coarser = [] := by
    rw [← List.map_eq_nil_iff (f := (·.name)), hcoarser, List.map_eq_nil_iff]
  unfold wireCoarser
  split
  · next hnone =>
    refine ⟨builder, ⟨outputs, rfl⟩, hplanned, rfl, fun name => ?_⟩
    simp [hempty.mp (List.isEmpty_iff.mp hnone)]
  · next hsome =>
    have hbase : base.coarser ≠ [] := fun h => hsome (List.isEmpty_iff.mpr (hempty.mpr h))
    have hsampler : Wire base base.name "trans" := .sampler hbase
    have htargets : ∀ node ∈ coarser, Wire base "trans" node.name := by
      intro node hnode
      have hname : node.name ∈ base.coarser.map Level.name := hcoarser ▸ List.mem_map_of_mem hnode
      obtain ⟨level, hlevel, hname⟩ := List.mem_map.mp hname
      exact hname ▸ .coarser hlevel
    let made := (builder.output outputs base.name).1
    let taken := { made with stages := made.stages.insert "trans" }
    have hmade : Planned base made := hplanned.output hsampler.known.1 outputs
    have htaken : Planned base taken := hmade.congr rfl rfl
    obtain ⟨edges, hfan⟩ := (taken.edge base.name "trans").fan_frame "trans" coarser
    have hfanned := (htaken.edge hsampler.known.1 hsampler).fan hsampler.known.2 htargets
    rw [hfan] at hfanned
    refine ⟨_, ?_, hfanned, rfl, fun name => ?_⟩
    · rw [← hfan, ← connect_create outputs base.name ⟨"trans", Stage.sampler station⟩]
      have hnode := node_ok (show "trans" ∉ made.stages from hfresh) (Stage.sampler station)
      dsimp only
      show ∃ frozen, (made.node "trans" _ >>= _) = _
      rw [hnode]
      exact ⟨_, rfl⟩
    · show name ∈ builder.stages.insert "trans" ↔ _
      rw [mem_insert]
      grind

theorem rooted_ok {base : Level} {builder : GraphBuilder Stage} (hplanned : Planned base builder)
    (hstages : ∀ name ∈ stageNames base, name ∈ builder.stages)
    (station front : Nat) (outputs : Outputs Stage) : ∃ graph frozen,
    ((builder.connect (outputs.create "l1") outputs.length ⟨base.name, .station station⟩).1.withRoot
      ⟨"l1", .front front⟩).build
        (builder.connect (outputs.create "l1") outputs.length ⟨base.name, .station station⟩).2 =
      .ok (graph, frozen) ∧ graph.id = builder.id := by
  have hjoined : Planned base ((builder.edge "l1" base.name).withRoot ⟨"l1", .front front⟩) :=
    (hplanned.edge Wire.own.known.1 .own).congr rfl rfl
  obtain ⟨frozen, hbuilt⟩ := build_ok hjoined rfl hstages (fun _ _ hwire => hwire.known.2)
    (fun _ _ hwire => hwire.descends)
    ((outputs.create "l1").connect outputs.length (.station station))
  rw [connect_create]
  exact ⟨_, frozen, hbuilt, rfl⟩

/-- The graph of every model is built. -/
theorem wire_ok (model : Model) (station front : Nat) :
    ∃ graph, wire model station front = .ok graph ∧ graph.id = model.name := by
  let base := model.level
  obtain ⟨hfront, hsampler, hlevels⟩ := names_distinct base
  obtain ⟨coarser, stages, hcoarser, hnames, hstages⟩ := coarserNodes_ok base station model.name
  let start : GraphBuilder Stage := { id := model.name, stages }
  have hfresh : base.name ∉ start.stages := by
    simpa [start, hstages] using fun level hlevel => (hlevels level hlevel).2.2
  have hown := node_ok hfresh (Stage.station station)
  let builder := { start with stages := start.stages.insert base.name }
  have hbuilder : ∀ name, name ∈ builder.stages ↔
      name = base.name ∨ name ∈ base.coarser.map Level.name := by
    intro name
    rw [mem_insert, hstages]
  have htrans : "trans" ∉ builder.stages := by
    simpa [hbuilder, hsampler.symm] using fun level hlevel => (hlevels level hlevel).2.1
  have hempty : Planned base builder := (Drawn.empty model.name).congr rfl rfl
  obtain ⟨after, ⟨outputs, hafter⟩, hplanned, hid, hmem⟩ :=
    wireCoarser_ok hnames hempty htrans station []
  let made := (after.output outputs "l1").1
  have hl1 : "l1" ∉ made.stages := by
    show "l1" ∉ after.stages
    simpa [hmem, hbuilder, hfront.symm] using fun level hlevel => (hlevels level hlevel).1
  have hfirst := node_ok hl1 (Stage.front front)
  let taken := { made with stages := made.stages.insert "l1" }
  have htaken : Planned base taken := (hplanned.output Wire.own.known.1 outputs).congr rfl rfl
  have hknown : ∀ name ∈ stageNames base, name ∈ taken.stages := by
    intro name hname
    show name ∈ after.stages.insert "l1"
    rw [mem_insert, hmem, hbuilder]
    rcases mem_stageNames.mp hname with hname | hname | hname | hname
    · exact .inr (.inl (.inr hname))
    · exact .inr (.inl (.inl hname))
    · exact .inl hname
    · exact .inr (.inr hname)
  obtain ⟨graph, frozen, hbuilt, hgraph⟩ := rooted_ok htaken hknown station front outputs
  refine ⟨graph, ?_, hgraph.trans hid⟩
  unfold wire
  rw [hcoarser]
  show (start.node base.name _ >>= _) = _
  rw [hown]
  show (wireCoarser base station coarser builder [] >>= _) = _
  rw [hafter]
  show (made.node "l1" _ >>= _) = _
  rw [hfirst]
  exact congrArg (· >>= fun built => pure built.1) hbuilt

end Pipeline

end Rollup
