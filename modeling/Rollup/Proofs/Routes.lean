import Mathlib.Data.Set.Card
import Rollup.Proofs.BuilderCalls
import Rollup.Proofs.Calls

/-!
# Routes

Where an input of a built graph goes, if every stage sends on what it gets. A route is a list of
connections, each from an output of the stage that the one before leads to. A stage gets the input once
for each route from the root to it, and a graph that is not built gets nothing anywhere.
-/

namespace Rollup

open Rollup.Action

variable {ν ι : Type}

/-! ## Building a graph -/

/-- A call on a builder. Outputs and stages go by the number of those made before. -/
inductive NumberedCall (ν : Type) where
  | node (stage : ν)
  | output (stage : String)
  | connect (output node : Nat)
  | root (node : Nat)

/-- An output of a stage that was connected to another. -/
structure Link (ν : Type) where
  output : Nat
  source : String
  target : ν

/-- A builder that was called by number, what it has given out, and the connections that were made, in
their order. -/
structure NumberedRun (ν : Type) extends BuilderRun ν where
  nodes : List (Node ν) := []
  links : List (Link ν) := []

namespace NumberedRun

/-- One more call. A stage whose name is taken is refused, and what is not there is not connected. -/
def next (name : ν → String) (run : NumberedRun ν) : NumberedCall ν → NumberedRun ν
  | .node stage =>
    match run.builder.node (name stage) stage with
    | .ok (node, _) =>
      { run with
        toBuilderRun := run.toBuilderRun.next (.node (name stage) stage), nodes := run.nodes ++ [node] }
    | .error _ => run
  | .output stage => { run with toBuilderRun := run.toBuilderRun.next (.output stage) }
  | .connect output node =>
    match run.outputs[output]?, run.nodes[node]? with
    | some made, some target =>
      { run with
        toBuilderRun := run.toBuilderRun.next (.connect output target)
        links := run.links ++ [⟨output, made.stage, target.stage⟩] }
    | _, _ => run
  | .root node =>
    match run.nodes[node]? with
    | some root => { run with toBuilderRun := run.toBuilderRun.next (.root root) }
    | none => run

def after (id : String) (name : ν → String) (calls : List (NumberedCall ν)) : NumberedRun ν :=
  calls.foldl (next name) { builder := { id } }

/-- The outputs that were made for a stage. -/
def handles (run : NumberedRun ν) (stage : String) : List Nat :=
  (run.builder.outputs.filter (·.1 == stage)).map (·.2)

end NumberedRun

/-- The connections of an output, each with its number and the stage it leads to. -/
def linksOf (links : List (Link ν)) (output : Nat) : List (Nat × ν) :=
  (links.zipIdx.filter (·.1.output == output)).map fun (link, number) => (number, link.target)

theorem map_snd_linksOf (links : List (Link ν)) (output : Nat) :
    (linksOf links output).map (·.2) = (links.filter (·.output == output)).map (·.target) := by
  have hfilter : links.filter (·.output == output) =
      (links.zipIdx.filter (·.1.output == output)).map (·.1) := by
    conv_lhs => rw [← List.zipIdx_map_fst 0 links, List.filter_map]
    rfl
  rw [linksOf, hfilter, List.map_map, List.map_map]
  rfl

theorem linksOf_append (links : List (Link ν)) (link : Link ν) (output : Nat) :
    linksOf (links ++ [link]) output =
      linksOf links output ++ if link.output == output then [(links.length, link.target)] else [] := by
  unfold linksOf
  rw [List.zipIdx_append, List.filter_append, List.map_append]
  by_cases h : link.output == output <;> simp [h]

theorem mem_linksOf {links : List (Link ν)} {output number : Nat} {target : ν} :
    (number, target) ∈ linksOf links output ↔
      ∃ link, links[number]? = some link ∧ link.output = output ∧ link.target = target := by
  simp only [linksOf, List.mem_map, List.mem_filter, Prod.exists, List.mem_zipIdx_iff_getElem?,
    beq_iff_eq, Prod.mk.injEq]
  grind

namespace NumberedRun

/-- What every call keeps. -/
structure Kept (name : ν → String) (run : NumberedRun ν) : Prop where
  nodes : ∀ node ∈ run.nodes, node.name = name node.stage
  made : run.builder.outputs = (run.outputs.map (·.stage)).zipIdx
  opened : ∀ output ∈ run.outputs, output.targets = none
  connected : ∀ handle output, run.outputs[handle]? = some output →
    output.connected = (linksOf run.links handle).map (·.2)
  sources : ∀ link ∈ run.links, ∃ output,
    run.outputs[link.output]? = some output ∧ output.stage = link.source
  feeds : ∀ link ∈ run.links, run.builder.Feeds link.source (name link.target)

variable {name : ν → String} {run : NumberedRun ν}

theorem Kept.start (id : String) : Kept name { builder := { id } } := by
  constructor <;> simp

theorem Kept.node (h : run.Kept name) (stage : ν) : (run.next name (.node stage)).Kept name := by
  obtain ⟨stages, hnext, _⟩ := run.next_node (name stage) stage
  by_cases htaken : run.builder.stages.contains (name stage)
  · simp only [NumberedRun.next, GraphBuilder.node, if_pos htaken]
    exact h
  · simp only [NumberedRun.next, GraphBuilder.node, if_neg htaken, hnext]
    refine ⟨fun node hnode => ?_, h.made, h.opened, h.connected, h.sources, h.feeds⟩
    rcases List.mem_append.mp hnode with hnode | hnode
    · exact h.nodes node hnode
    · rw [List.mem_singleton.mp hnode]

theorem Kept.lt_length (h : run.Kept name) {link : Link ν} (hlink : link ∈ run.links) :
    link.output < run.outputs.length := by
  obtain ⟨output, houtput, _⟩ := h.sources link hlink
  exact (List.getElem?_eq_some_iff.mp houtput).1

theorem Kept.output (h : run.Kept name) (stage : String) :
    (run.next name (.output stage)).Kept name := by
  refine ⟨h.nodes, ?_, fun output houtput => ?_, fun handle output houtput => ?_,
    fun link hlink => ?_, h.feeds⟩
  · show run.builder.outputs ++ [(stage, run.outputs.length)] =
      ((run.outputs ++ [({ stage } : Output ν)]).map (·.stage)).zipIdx
    rw [h.made, List.map_append, List.zipIdx_append, List.length_map, Nat.zero_add]
    rfl
  · rcases List.mem_append.mp houtput with houtput | houtput
    · exact h.opened output houtput
    · rw [List.mem_singleton.mp houtput]
  · change (run.outputs ++ [{ stage := stage }])[handle]? = some output at houtput
    rcases Nat.lt_or_ge handle run.outputs.length with hold | hnew
    · rw [List.getElem?_append_left hold] at houtput
      exact h.connected handle output houtput
    · -- No connection is of the new output.
      have hnone : linksOf run.links handle = [] := by
        rw [List.eq_nil_iff_forall_not_mem]
        rintro ⟨number, target⟩ hmem
        obtain ⟨link, hlink, rfl, _⟩ := mem_linksOf.mp hmem
        exact absurd (h.lt_length (List.mem_of_getElem? hlink)) (Nat.not_lt.mpr hnew)
      rw [List.getElem?_append_right hnew] at houtput
      show output.connected = (linksOf run.links handle).map (·.2)
      rw [hnone, List.mem_singleton.mp (List.mem_of_getElem? houtput)]
      rfl
  · obtain ⟨output, houtput, hsource⟩ := h.sources link hlink
    exact ⟨output, (List.getElem?_append_left (h.lt_length hlink)).trans houtput, hsource⟩

theorem getElem?_connect (outputs : Outputs ν) (handle : Nat) (target : ν) (other : Nat) :
    (outputs.connect handle target)[other]? =
      (outputs[other]?).map fun output => if handle = other then output.connect target else output := by
  rw [Outputs.connect, List.getElem?_modify]
  split_ifs <;> simp

theorem map_stage_connect (outputs : Outputs ν) (handle : Nat) (target : ν) :
    (outputs.connect handle target).map (·.stage) = outputs.map (·.stage) := by
  apply List.ext_getElem?
  intro other
  rw [List.getElem?_map, getElem?_connect, Option.map_map, List.getElem?_map]
  congr 1
  funext output
  dsimp only [Function.comp_apply]
  split_ifs <;> rfl

theorem Kept.connect (h : run.Kept name) (handle node : Nat) :
    (run.next name (.connect handle node)).Kept name := by
  simp only [NumberedRun.next]
  split
  · next made target hmade htarget =>
    have hname := h.nodes target (List.mem_of_getElem? htarget)
    obtain ⟨edges, hbuilder⟩ := run.next_connect_frame handle target
    have houtputs : (run.toBuilderRun.next (.connect handle target)).outputs =
      run.outputs.connect handle target.stage := rfl
    refine ⟨h.nodes, ?_, fun output houtput => ?_, fun other output houtput => ?_,
      fun link hlink => ?_, fun link hlink => ?_⟩
    · dsimp only
      rw [hbuilder, houtputs, map_stage_connect]
      exact h.made
    · obtain ⟨other, houtput⟩ := List.getElem?_of_mem houtput
      rw [houtputs, getElem?_connect] at houtput
      obtain ⟨before, hbefore, rfl⟩ := Option.map_eq_some_iff.mp houtput
      have hopened := h.opened before (List.mem_of_getElem? hbefore)
      split_ifs <;> exact hopened
    · dsimp only at houtput
      rw [houtputs, getElem?_connect] at houtput
      obtain ⟨before, hbefore, rfl⟩ := Option.map_eq_some_iff.mp houtput
      have hconnected := h.connected other before hbefore
      rw [linksOf_append, List.map_append, ← hconnected]
      by_cases hsame : handle = other <;> simp [hsame, Output.connect]
    · rcases List.mem_append.mp hlink with hlink | hlink
      · obtain ⟨output, houtput, hsource⟩ := h.sources link hlink
        refine ⟨_, (getElem?_connect _ _ _ _).trans (congrArg _ houtput), ?_⟩
        dsimp only
        split_ifs <;> exact hsource
      · obtain rfl := List.mem_singleton.mp hlink
        exact ⟨_, (getElem?_connect _ _ _ _).trans (congrArg _ hmade), by simp [Output.connect]⟩
    · refine (run.feeds_next (.connect handle target) _ _).mpr ?_
      rcases List.mem_append.mp hlink with hlink | hlink
      · exact .inl (h.feeds link hlink)
      · obtain rfl := List.mem_singleton.mp hlink
        exact .inr (by simp [BuilderRun.edge?, hmade, hname])
  · exact h

theorem Kept.next (h : run.Kept name) (call : NumberedCall ν) : (run.next name call).Kept name := by
  cases call with
  | node stage => exact h.node stage
  | output stage => exact h.output stage
  | connect output node => exact h.connect output node
  | root node =>
    simp only [NumberedRun.next]
    split
    · exact ⟨h.nodes, h.made, h.opened, h.connected, h.sources, h.feeds⟩
    · exact h

theorem kept_after (id : String) (name : ν → String) (calls : List (NumberedCall ν)) :
    (after id name calls).Kept name :=
  List.foldlRecOn calls _ (.start id) fun _ h call _ => h.next call

end NumberedRun

/-! ## Routes -/

/-- The numbers of connections along which one comes from one stage to another. -/
inductive Route (name : ν → String) (links : List (Link ν)) : ν → List Nat → ν → Prop
  | here (stage : ν) : Route name links stage [] stage
  | along {stage last : ν} {number : Nat} {link : Link ν} {rest : List Nat}
      (hlink : links[number]? = some link) (hsource : link.source = name stage)
      (hrest : Route name links link.target rest last) :
      Route name links stage (number :: rest) last

/-- Where the stages lead that have these outputs. -/
def onward (links : List (Link ν)) (outputsOf : ν → List Nat) (stage : ν) : List (Nat × ν) :=
  (outputsOf stage).flatMap (linksOf links)

/-- One cannot go on for ever. -/
abbrev Terminates (next : ν → List (Nat × ν)) : Prop :=
  WellFounded fun target stage => ∃ number, (number, target) ∈ next stage

section

variable {next : ν → List (Nat × ν)} (hends : Terminates next)

/-- All that can be reached from a stage and by which numbers, what comes first first. -/
noncomputable def reached : ν → List (List Nat × ν) :=
  hends.fix fun stage ih => ([], stage) :: (next stage).attach.flatMap fun ⟨(number, _), h⟩ =>
    (ih _ ⟨number, h⟩).map fun (route, last) => (number :: route, last)

theorem reached_eq (stage : ν) : reached hends stage =
    ([], stage) :: (next stage).flatMap fun (number, target) =>
      (reached hends target).map fun (route, last) => (number :: route, last) := by
  rw [reached, hends.fix_eq]
  conv_rhs => rw [← List.attach_map_subtype_val (next stage), List.flatMap_map]

end

section

variable {name : ν → String} {links : List (Link ν)} {next : ν → List (Nat × ν)}
  {hends : Terminates next}

theorem mem_reached_iff (hnext : ∀ stage number target, (number, target) ∈ next stage ↔
      ∃ link, links[number]? = some link ∧ link.source = name stage ∧ link.target = target)
    (stage : ν) {route : List Nat} {last : ν} :
    (route, last) ∈ reached hends stage ↔ Route name links stage route last := by
  induction stage using hends.induction generalizing route with
  | _ stage ih =>
    rw [reached_eq, List.mem_cons, List.mem_flatMap]
    constructor
    · rintro (heq | ⟨⟨number, target⟩, htarget, hmem⟩)
      · cases heq
        exact .here _
      · obtain ⟨⟨rest, _⟩, hrest, heq⟩ := List.mem_map.mp hmem
        cases heq
        obtain ⟨link, hlink, hsource, rfl⟩ := (hnext stage number target).mp htarget
        exact .along hlink hsource ((ih _ ⟨number, htarget⟩).mp hrest)
    · intro hroute
      cases hroute with
      | here => exact .inl rfl
      | @along _ _ number link rest hlink hsource hrest =>
        have htarget := (hnext stage number link.target).mpr ⟨link, hlink, hsource, rfl⟩
        exact .inr ⟨_, htarget, List.mem_map.mpr ⟨_, (ih _ ⟨number, htarget⟩).mpr hrest, rfl⟩⟩

theorem nodup_reached (hnumbers : ∀ stage, ((next stage).map (·.1)).Nodup) (stage : ν) :
    ((reached hends stage).map (·.1)).Nodup := by
  induction stage using hends.induction with
  | _ stage ih =>
    rw [reached_eq, List.map_cons, List.map_flatMap, List.nodup_cons]
    constructor
    · simp
    · rw [List.nodup_flatMap]
      constructor
      · rintro ⟨number, target⟩ htarget
        have hrest := (ih target ⟨number, htarget⟩).map (List.cons_injective (a := number))
        rw [List.map_map] at hrest ⊢
        exact hrest
      · refine (List.pairwise_map.mp (hnumbers stage)).imp fun {one other} hne => ?_
        -- Routes that begin with different connections are different.
        intro route hone hother
        have hhead : ∀ item : Nat × ν, route ∈ ((reached hends item.2).map fun (rest, last) =>
            (item.1 :: rest, last)).map (·.1) → route.head? = some item.1 := by
          intro item hroute
          simp only [List.mem_map] at hroute
          obtain ⟨_, ⟨_, _, rfl⟩, rfl⟩ := hroute
          rfl
        exact hne (Option.some.inj ((hhead one hone).symm.trans (hhead other hother)))

theorem count_reached [DecidableEq ν] {stage : ν}
    (hmem : ∀ route last, (route, last) ∈ reached hends stage ↔ Route name links stage route last)
    (hnodup : ((reached hends stage).map (·.1)).Nodup) (last : ν) :
    {route | Route name links stage route last}.Finite ∧
      ((reached hends stage).map (·.2)).count last =
        {route | Route name links stage route last}.ncard := by
  let routes := ((reached hends stage).filter (·.2 = last)).map (·.1)
  have hroutes : {route | Route name links stage route last} = ↑routes.toFinset := by
    ext route
    simp [routes, hmem]
  have hdistinct : routes.Nodup := hnodup.sublist (List.filter_sublist.map _)
  rw [hroutes]
  refine ⟨Finset.finite_toSet _, ?_⟩
  rw [Set.ncard_coe_finset, List.toFinset_card_of_nodup hdistinct, List.length_map,
    List.count_eq_countP, List.countP_map, List.countP_eq_length_filter]
  rfl

end

/-! ## Delivery -/

/-- A stage notes what it gets, and sends it to these outputs as it is. -/
def forwarding (outputsOf : ν → List Nat) : Reaction (List (ν × ι)) ν ι := fun stage value => do
  modify (· ++ [(stage, value)])
  return (outputsOf stage).map (·, value)

theorem forM_run {α β : Type} {call : α → Action (List β) Unit} (notes : α → List β)
    {items : List α} (h : ∀ item ∈ items, ∀ log : List β,
      ((call item).run.run log : Except Fault Unit × List β) = (.ok (), log ++ notes item))
    (log : List β) : ((items.forM call).run.run log : Except Fault Unit × List β) =
      (.ok (), log ++ items.flatMap notes) := by
  induction items generalizing log with
  | nil => rw [List.flatMap_nil, List.append_nil]; rfl
  | cons item rest ih =>
    show ((call item >>= fun _ => rest.forM call).run.run log : Except Fault Unit × List β) = _
    rw [run_bind, h item List.mem_cons_self]
    dsimp only
    rw [ih (fun other hother => h other (List.mem_cons_of_mem _ hother)), List.flatMap_cons,
      List.append_assoc]

/-- Frozen outputs that lead where their connections do, along edges that come to an end. -/
structure Laid (name : ν → String) (links : List (Link ν)) (frozen : Outputs ν)
    (outputsOf : ν → List Nat) (feeds : String → String → Prop) : Prop where
  targets : ∀ handle output, frozen[handle]? = some output →
    output.targets = some ((linksOf links handle).map (·.2))
  outputs : ∀ stage handle, handle ∈ outputsOf stage ↔
    ∃ output, frozen[handle]? = some output ∧ output.stage = name stage
  distinct : ∀ stage, (outputsOf stage).Nodup
  sources : ∀ link ∈ links, ∃ output,
    frozen[link.output]? = some output ∧ output.stage = link.source
  joins : ∀ link ∈ links, feeds link.source (name link.target)
  ends : WellFounded fun target source => feeds source target

namespace Laid

variable {name : ν → String} {links : List (Link ν)} {frozen : Outputs ν}
  {outputsOf : ν → List Nat} {feeds : String → String → Prop}

theorem mem_onward_iff (h : Laid name links frozen outputsOf feeds) (stage : ν) (number : Nat)
    (target : ν) : (number, target) ∈ onward links outputsOf stage ↔
      ∃ link, links[number]? = some link ∧ link.source = name stage ∧ link.target = target := by
  simp only [onward, List.mem_flatMap, mem_linksOf, h.outputs]
  constructor
  · rintro ⟨handle, ⟨output, houtput, hstage⟩, link, hlink, rfl, htarget⟩
    obtain ⟨made, hmade, hsource⟩ := h.sources link (List.mem_of_getElem? hlink)
    obtain rfl : made = output := Option.some.inj (hmade.symm.trans houtput)
    exact ⟨link, hlink, hsource.symm.trans hstage, htarget⟩
  · rintro ⟨link, hlink, hsource, htarget⟩
    obtain ⟨made, hmade, hstage⟩ := h.sources link (List.mem_of_getElem? hlink)
    exact ⟨link.output, ⟨made, hmade, hstage.trans hsource⟩, link, hlink, rfl, htarget⟩

theorem feeds_of_mem_onward (h : Laid name links frozen outputsOf feeds) {stage target : ν}
    {number : Nat} (hmem : (number, target) ∈ onward links outputsOf stage) :
    feeds (name stage) (name target) := by
  obtain ⟨link, hlink, hsource, rfl⟩ := (h.mem_onward_iff stage number target).mp hmem
  exact hsource ▸ h.joins link (List.mem_of_getElem? hlink)

theorem terminates (h : Laid name links frozen outputsOf feeds) :
    Terminates (onward links outputsOf) :=
  Subrelation.wf (fun ⟨_, hmem⟩ => h.feeds_of_mem_onward hmem) (InvImage.wf name h.ends)

theorem nodup_onward (h : Laid name links frozen outputsOf feeds) (stage : ν) :
    ((onward links outputsOf stage).map (·.1)).Nodup := by
  have hnumbers : ∀ handle, ((linksOf links handle).map (·.1)).Nodup := by
    intro handle
    have hall : (links.zipIdx.map (·.2)).Nodup := by
      rw [List.zipIdx_map_snd]
      exact List.nodup_range'
    unfold linksOf
    rw [List.map_map]
    exact hall.sublist (List.filter_sublist.map _)
  rw [onward, List.map_flatMap, List.nodup_flatMap]
  refine ⟨fun handle _ => hnumbers handle, (h.distinct stage).imp fun {one other} hne => ?_⟩
  -- A connection is of one output only.
  intro number hone hother
  obtain ⟨⟨_, _⟩, hfirst, rfl⟩ := List.mem_map.mp hone
  obtain ⟨⟨_, _⟩, hsecond, rfl⟩ := List.mem_map.mp hother
  obtain ⟨link, hlink, rfl, _⟩ := mem_linksOf.mp hfirst
  obtain ⟨_, hlink', rfl, _⟩ := mem_linksOf.mp hsecond
  exact hne (congrArg Link.output (Option.some.inj (hlink.symm.trans hlink')))

/-- What is noted when a value comes to a stage. -/
noncomputable def notes (h : Laid name links frozen outputsOf feeds) (value : ι) (stage : ν) :
    List (ν × ι) :=
  (reached h.terminates stage).map fun (_, last) => (last, value)

theorem notes_eq (h : Laid name links frozen outputsOf feeds) (value : ι) (stage : ν) :
    h.notes value stage = (stage, value) :: (outputsOf stage).flatMap fun handle =>
      (linksOf links handle).flatMap fun (_, target) => h.notes value target := by
  unfold notes
  rw [reached_eq, List.map_cons, List.map_flatMap, onward, List.flatMap_assoc]
  simp only [List.map_map]
  rfl

/-- A value has come to an output through these. -/
structure Through (frozen : Outputs ν) (feeds : String → String → Prop) (used : List Nat)
    (output : Output ν) : Prop where
  distinct : used.Nodup
  leads : ∀ other ∈ used, ∃ before, frozen[other]? = some before ∧
    Relation.TransGen feeds before.stage output.stage

variable {handle : Nat} {output : Output ν} {used : List Nat}

theorem Through.nodup (h : Laid name links frozen outputsOf feeds)
    (houtput : frozen[handle]? = some output) (hthrough : Through frozen feeds used output) :
    (handle :: used).Nodup := by
  refine List.nodup_cons.mpr ⟨fun hmem => ?_, hthrough.distinct⟩
  obtain ⟨before, hbefore, hround⟩ := hthrough.leads handle hmem
  obtain rfl : before = output := Option.some.inj (hbefore.symm.trans houtput)
  have hround := Relation.transGen_swap.mpr hround
  exact h.ends.transGen.asymmetric _ _ hround hround

theorem Through.length_lt (h : Laid name links frozen outputsOf feeds)
    (houtput : frozen[handle]? = some output) (hthrough : Through frozen feeds used output) :
    used.length < frozen.length := by
  have hrange : ∀ other ∈ handle :: used, other ∈ List.range frozen.length := by
    intro other hother
    rw [List.mem_range]
    rcases List.mem_cons.mp hother with rfl | hother
    · exact (List.getElem?_eq_some_iff.mp houtput).1
    · obtain ⟨before, hbefore, _⟩ := hthrough.leads other hother
      exact (List.getElem?_eq_some_iff.mp hbefore).1
  have hlength := ((hthrough.nodup h houtput).subperm hrange).length_le
  rwa [List.length_cons, List.length_range] at hlength

theorem Through.next (h : Laid name links frozen outputsOf feeds)
    (houtput : frozen[handle]? = some output) (hthrough : Through frozen feeds used output)
    {target : ν} {number : Nat} (hentry : (number, target) ∈ linksOf links handle)
    {next : Output ν} (hnext : next.stage = name target) :
    Through frozen feeds (handle :: used) next := by
  obtain ⟨link, hlink, rfl, rfl⟩ := mem_linksOf.mp hentry
  have hmem := List.mem_of_getElem? hlink
  obtain ⟨made, hmade, hsource⟩ := h.sources link hmem
  obtain rfl : made = output := Option.some.inj (hmade.symm.trans houtput)
  have hjoins : feeds made.stage next.stage := by
    rw [hsource, hnext]
    exact h.joins link hmem
  refine ⟨hthrough.nodup h houtput, List.forall_mem_cons.mpr ⟨⟨made, houtput, .single hjoins⟩, ?_⟩⟩
  intro other hother
  obtain ⟨before, hbefore, hway⟩ := hthrough.leads other hother
  exact ⟨before, hbefore, hway.tail hjoins⟩

theorem react_run (h : Laid name links frozen outputsOf feeds) (value : ι) (stage : ν)
    {send : Nat → ι → Action (List (ν × ι)) Unit}
    (hsend : ∀ handle ∈ outputsOf stage, ∀ log : List (ν × ι),
      ((send handle value).run.run log : Except Fault Unit × List (ν × ι)) =
        (.ok (), log ++ (linksOf links handle).flatMap fun (_, target) => h.notes value target))
    (log : List (ν × ι)) :
    (((do (← forwarding outputsOf stage value).forM fun (next, sent) => send next sent :
      Action (List (ν × ι)) Unit)).run.run log : Except Fault Unit × List (ν × ι)) =
        (.ok (), log ++ h.notes value stage) := by
  have hreact : ((forwarding outputsOf stage value).run.run log :
      Except Fault (List (Nat × ι)) × List (ν × ι)) =
        (.ok ((outputsOf stage).map (·, value)), log ++ [(stage, value)]) := rfl
  rw [run_bind, hreact]
  dsimp only
  rw [forM_run fun sent => (linksOf links sent.1).flatMap fun (_, target) => h.notes value target,
    h.notes_eq, List.append_assoc, List.flatMap_map]
  · rfl
  · intro sent hsent log
    obtain ⟨handle, hhandle, rfl⟩ := List.mem_map.mp hsent
    exact hsend handle hhandle log

theorem sendWithin_run (h : Laid name links frozen outputsOf feeds) (value : ι) (depth : Nat)
    (houtput : frozen[handle]? = some output) (hthrough : Through frozen feeds used output)
    (hdepth : frozen.length ≤ depth + used.length) (log : List (ν × ι)) :
    ((frozen.sendWithin (forwarding outputsOf) depth handle value).run.run log :
      Except Fault Unit × List (ν × ι)) =
        (.ok (), log ++ (linksOf links handle).flatMap fun (_, target) => h.notes value target) := by
  induction depth generalizing used handle output log with
  | zero =>
    have := hthrough.length_lt h houtput
    omega
  | succ depth ih =>
    have hmap : (linksOf links handle).flatMap (fun (_, target) => h.notes value target) =
        ((linksOf links handle).map (·.2)).flatMap (h.notes value) := by
      rw [List.flatMap_map]
    rw [Outputs.sendWithin, houtput]
    dsimp only
    rw [h.targets handle output houtput, hmap]
    refine forM_run (h.notes value) (fun target htarget log => h.react_run value target ?_ log) log
    obtain ⟨⟨number, _⟩, hlink, rfl⟩ := List.mem_map.mp htarget
    intro other hother log
    obtain ⟨next, hnext, hstage⟩ := (h.outputs _ other).mp hother
    refine ih hnext (hthrough.next h houtput hlink hstage) ?_ log
    rw [List.length_cons]
    omega

theorem deliver_run (h : Laid name links frozen outputsOf feeds) (value : ι) (stage : ν)
    (log : List (ν × ι)) :
    ((frozen.deliver (forwarding outputsOf) stage value).run.run log :
      Except Fault Unit × List (ν × ι)) = (.ok (), log ++ h.notes value stage) := by
  refine h.react_run value stage (fun handle hhandle log => ?_) log
  obtain ⟨output, houtput, _⟩ := (h.outputs stage handle).mp hhandle
  exact h.sendWithin_run value frozen.length houtput ⟨.nil, by simp⟩ (Nat.le_add_right _ _) log

end Laid

/-! ## Built graphs -/

theorem getElem?_freezeAll (outputs : Outputs ν) (handles : List Nat) (handle : Nat) :
    (outputs.freezeAll handles)[handle]? =
      (outputs[handle]?).map fun output => if handle ∈ handles then output.freeze else output := by
  induction handles generalizing outputs with
  | nil => simp [Outputs.freezeAll]
  | cons first rest ih =>
    show (Outputs.freezeAll (List.modify outputs first Output.freeze) rest)[handle]? = _
    rw [ih, List.getElem?_modify]
    simp only [Option.map_eq_map, Option.map_map]
    congr 1
    funext output
    by_cases hfirst : first = handle
    · simp [hfirst, Output.freeze]
    · simp [hfirst, Ne.symm hfirst]

namespace GraphBuilder

variable {builder : GraphBuilder ν}

theorem of_build_ok {outputs frozen : Outputs ν} {graph : Graph ν}
    (h : builder.build outputs = .ok (graph, frozen)) :
    builder.root = some graph.root ∧ (∀ stage, builder.Ending stage) ∧
      frozen = outputs.freezeAll (builder.outputs.map (·.2)) := by
  have hanswer := builder.build_answer outputs
  rw [h] at hanswer
  cases hanswer with
  | built hroot hknown hacyclic =>
    have hchecked := (checkAcyclic_eq_ok_iff hknown.complete).mpr hacyclic
    exact ⟨hroot, ending_of_checkAcyclic hknown.complete hchecked, rfl⟩

end GraphBuilder

namespace NumberedRun

variable {name : ν → String} {run : NumberedRun ν}

theorem Kept.mem_handles_iff (h : run.Kept name) (stage : String) (handle : Nat) :
    handle ∈ run.handles stage ↔
      ∃ output, run.outputs[handle]? = some output ∧ output.stage = stage := by
  simp [handles, h.made, List.mem_zipIdx_iff_getElem?]

theorem Kept.nodup_handles (h : run.Kept name) (stage : String) : (run.handles stage).Nodup := by
  have hall : (run.builder.outputs.map (·.2)).Nodup := by
    rw [h.made, List.zipIdx_map_snd]
    exact List.nodup_range'
  exact hall.sublist (List.filter_sublist.map _)

theorem Kept.laid (h : run.Kept name) {graph : Graph ν} {frozen : Outputs ν}
    (hbuild : run.builder.build run.outputs = .ok (graph, frozen)) {outputsOf : ν → List Nat}
    (houtputs : ∀ stage, (outputsOf stage).Perm (run.handles (name stage))) :
    Laid name run.links frozen outputsOf run.builder.Feeds := by
  obtain ⟨_, hends, rfl⟩ := GraphBuilder.of_build_ok hbuild
  have hfrozen : ∀ handle : Nat, (run.outputs.freezeAll (run.builder.outputs.map (·.2)))[handle]? =
      (run.outputs[handle]?).map Output.freeze := by
    intro handle
    rw [getElem?_freezeAll]
    cases houtput : run.outputs[handle]? with
    | none => rfl
    | some output =>
      have hmade : handle ∈ run.builder.outputs.map (·.2) := by
        rw [h.made, List.zipIdx_map_snd, List.mem_range'_1, List.length_map]
        have := (List.getElem?_eq_some_iff.mp houtput).1
        omega
      rw [Option.map_some, if_pos hmade, Option.map_some]
  refine ⟨fun handle output houtput => ?_, fun stage handle => ?_, fun stage => ?_,
    fun link hlink => ?_, h.feeds, ⟨hends⟩⟩
  · rw [hfrozen] at houtput
    obtain ⟨made, hmade, rfl⟩ := Option.map_eq_some_iff.mp houtput
    exact congrArg some (h.connected handle made hmade)
  · rw [(houtputs stage).mem_iff, h.mem_handles_iff, hfrozen]
    simp [Output.freeze]
  · exact (houtputs stage).nodup_iff.mpr (h.nodup_handles _)
  · obtain ⟨output, houtput, hsource⟩ := h.sources link hlink
    exact ⟨output.freeze, by rw [hfrozen, houtput]; rfl, hsource⟩

end NumberedRun

/-- Where a value goes in a built graph whose stages send it to these outputs. All that a stage reaches
is listed with the route that leads there, what comes first first. -/
structure Delivers (name : ν → String) (links : List (Link ν)) (frozen : Outputs ν)
    (outputsOf : ν → List Nat) (visits : ν → List (List Nat × ν)) : Prop where
  /-- An output leads to the stages that it was connected to, in that order. -/
  targets : ∀ handle output, frozen[handle]? = some output → output.targets =
    some ((links.filter fun link => link.output == handle).map (·.target))
  inOrder : ∀ stage, visits stage = ([], stage) :: (outputsOf stage).flatMap fun handle =>
    (linksOf links handle).flatMap fun (number, target) =>
      (visits target).map fun (route, last) => (number :: route, last)
  routes : ∀ stage route last, (route, last) ∈ visits stage ↔ Route name links stage route last
  once : ∀ stage, ((visits stage).map (·.1)).Nodup
  copies : ∀ [DecidableEq ν] (stage last : ν), {route | Route name links stage route last}.Finite ∧
    ((visits stage).map (·.2)).count last = {route | Route name links stage route last}.ncard
  /-- Every delivery comes to an end. -/
  delivered : ∀ {ι : Type} (stage : ν) (value : ι) (log : List (ν × ι)),
    ((frozen.deliver (forwarding outputsOf) stage value).run.run log :
      Except Fault Unit × List (ν × ι)) =
        (.ok (), log ++ (visits stage).map fun (_, last) => (last, value))

theorem Laid.delivers {name : ν → String} {links : List (Link ν)} {frozen : Outputs ν}
    {outputsOf : ν → List Nat} {feeds : String → String → Prop}
    (h : Laid name links frozen outputsOf feeds) :
    Delivers name links frozen outputsOf (reached h.terminates) where
  targets handle output houtput := by
    rw [h.targets handle output houtput, map_snd_linksOf]
  inOrder stage := by
    rw [reached_eq, onward, List.flatMap_assoc]
  routes stage route last := mem_reached_iff h.mem_onward_iff stage
  once := nodup_reached h.nodup_onward
  copies stage last :=
    count_reached (fun _ _ => mem_reached_iff h.mem_onward_iff stage) (nodup_reached h.nodup_onward stage)
      last
  delivered stage value log := h.deliver_run value stage log

namespace NumberedRun

/-- If a graph is built, a stage gets an input once for each route that leads to it. If not, no output
leads anywhere. -/
theorem one_copy_for_each_route (id : String) (name : ν → String) (calls : List (NumberedCall ν)) :
    let run := after id name calls
    (∀ graph frozen, run.builder.build run.outputs = .ok (graph, frozen) →
      run.builder.root = some graph.root ∧ ∀ outputsOf : ν → List Nat,
        (∀ stage, (outputsOf stage).Perm (run.handles (name stage))) →
        ∃ visits, Delivers name run.links frozen outputsOf visits) ∧
    ∀ error, run.builder.build run.outputs = .error error →
      ∀ {σ ι : Type} (react : Reaction σ ν ι) (handle : Nat) (output : Output ν) (value : ι) (s : σ),
        run.outputs[handle]? = some output →
        ((run.outputs.send react handle value).run.run s : Except Fault Unit × σ) =
          (.error (.openOutput output.stage), s) := by
  intro run
  have hkept : run.Kept name := kept_after id name calls
  refine ⟨fun graph frozen hbuild => ⟨(GraphBuilder.of_build_ok hbuild).1, fun outputsOf houtputs =>
    ⟨_, (hkept.laid hbuild houtputs).delivers⟩⟩, ?_⟩
  intro error _ σ ι react handle output value s houtput
  have hopen := hkept.opened output (List.mem_of_getElem? houtput)
  have hroom := (List.getElem?_eq_some_iff.mp houtput).1
  obtain ⟨depth, hdepth⟩ := Nat.exists_eq_add_of_lt hroom
  rw [Outputs.send, hdepth, Outputs.sendWithin, houtput]
  dsimp only
  rw [hopen]
  rfl

/-- A stage that is connected twice gets an input twice for each route to the stage before it. A stage
that feeds itself gets none. -/
theorem one_copy_for_each_route_in_a_diamond :
    let run := after "diamond" id [.node "a", .node "b", .node "c", .node "d", .node "alone",
      .output "a", .output "b", .output "c", .connect 0 1, .connect 0 2, .connect 1 3, .connect 2 3,
      .connect 2 3, .root 0]
    let circle := after "circle" id [.node "a", .output "a", .connect 0 0, .root 0]
    let frozen : Outputs String := run.outputs.map Output.freeze
    (∃ graph visits, run.builder.build run.outputs = .ok (graph, frozen) ∧ graph.root = "a" ∧
      Delivers id run.links frozen (fun stage => run.handles stage) visits ∧
      (visits "a").map (·.2) = ["a", "b", "d", "c", "d", "d"]) ∧
    circle.builder.build circle.outputs = .error (.cycle "a") ∧
      ((circle.outputs.send (forwarding fun stage => circle.handles stage) 0 ()).run.run [] :
        Except Fault Unit × List (String × Unit)) = (.error (.openOutput "a"), []) := by
  intro run circle frozen
  have hbuild : run.builder.build run.outputs =
      .ok (⟨"diamond", "a", ["a", "alone", "b", "c", "d"]⟩, frozen) := by decide +kernel
  have hcircle : circle.builder.build circle.outputs = .error (.cycle "a") := by decide +kernel
  obtain ⟨_, hdelivers⟩ := (one_copy_for_each_route "diamond" id _).1 _ _ hbuild
  obtain ⟨visits, hvisits⟩ := hdelivers (fun stage => run.handles stage) fun _ => .refl _
  refine ⟨⟨_, visits, hbuild, rfl, hvisits, ?_⟩, hcircle,
    (one_copy_for_each_route "circle" id _).2 _ hcircle _ 0 _ () [] rfl⟩
  have hnotes : ((frozen.deliver (forwarding fun stage => run.handles stage) "a" ()).run.run [] :
      Except Fault Unit × List (String × Unit)).2.map (·.1) = ["a", "b", "d", "c", "d", "d"] := by
    decide +kernel
  rw [hvisits.delivered, List.nil_append, List.map_map] at hnotes
  exact hnotes

end NumberedRun

end Rollup
