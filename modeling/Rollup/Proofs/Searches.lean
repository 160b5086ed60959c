import Mathlib.Logic.Function.Basic
import Rollup.Proofs.Circles

/-!
# Searches for circles

The search that a builder makes, without any bound on its depth: a stage is marked when it is entered
and again when it is left, and an edge to a stage that was entered and not left closes a circle. Such a
search comes to an end for all edges there can be, in one way only, and a builder answers as it does.
-/

namespace Rollup.GraphBuilder

variable {ν : Type} {builder : GraphBuilder ν}

/-! ## Marks -/

inductive Mark where
  /-- The search is on its way through the stage. -/
  | entered
  /-- All that can be reached from the stage was seen. -/
  | left
  deriving DecidableEq

abbrev Marks := String → Option Mark

def Marks.set (marks : Marks) (stage : String) (mark : Mark) : Marks :=
  Function.update marks stage (some mark)

/-- A search from these stages, one after the other. It ends with all marks, or at a stage that it has
entered before and not left. -/
inductive Search (builder : GraphBuilder ν) :
    Marks → List String → Except GraphError Marks → Prop where
  | none (marks : Marks) : Search builder marks [] (.ok marks)
  | skip {marks : Marks} {stage : String} {rest : List String} {result : Except GraphError Marks} :
      marks stage = some .left → Search builder marks rest result →
      Search builder marks (stage :: rest) result
  | circle {marks : Marks} {stage : String} {rest : List String} : marks stage = some .entered →
      Search builder marks (stage :: rest) (.error (.cycle stage))
  | enter {marks behind : Marks} {stage : String} {rest : List String}
      {result : Except GraphError Marks} : marks stage = Option.none →
      Search builder (marks.set stage .entered) (builder.successors stage) (.ok behind) →
      Search builder (behind.set stage .left) rest result →
      Search builder marks (stage :: rest) result
  | abort {marks : Marks} {stage : String} {rest : List String} {error : GraphError} :
      marks stage = Option.none →
      Search builder (marks.set stage .entered) (builder.successors stage) (.error error) →
      Search builder marks (stage :: rest) (.error error)

namespace Search

variable {marks behind : Marks} {stage : String} {stages rest : List String}
  {result other : Except GraphError Marks} {error : GraphError}

theorem unique (h : builder.Search marks stages result) (hother : builder.Search marks stages other) :
    result = other := by
  induction h generalizing other with
  | none =>
    cases hother
    rfl
  | skip hmark _ ih =>
    cases hother with
    | skip _ hrest => exact ih hrest
    | circle hmark' => cases hmark.symm.trans hmark'
    | enter hmark' => cases hmark.symm.trans hmark'
    | abort hmark' => cases hmark.symm.trans hmark'
  | circle hmark =>
    cases hother with
    | skip hmark' => cases hmark.symm.trans hmark'
    | circle => rfl
    | enter hmark' => cases hmark.symm.trans hmark'
    | abort hmark' => cases hmark.symm.trans hmark'
  | enter hmark _ _ ihInner ihRest =>
    cases hother with
    | skip hmark' => cases hmark.symm.trans hmark'
    | circle hmark' => cases hmark.symm.trans hmark'
    | enter _ hinner hrest =>
      cases ihInner hinner
      exact ihRest hrest
    | abort _ hinner => cases ihInner hinner
  | abort hmark _ ih =>
    cases hother with
    | skip hmark' => cases hmark.symm.trans hmark'
    | circle hmark' => cases hmark.symm.trans hmark'
    | enter _ hinner => cases ih hinner
    | abort _ hinner =>
      cases ih hinner
      rfl

theorem cons_ok (h : builder.Search marks [stage] (.ok behind))
    (hrest : builder.Search behind rest result) : builder.Search marks (stage :: rest) result := by
  cases h with
  | skip hmark hnone =>
    cases hnone
    exact .skip hmark hrest
  | enter hmark hinner hnone =>
    cases hnone
    exact .enter hmark hinner hrest

theorem cons_error (h : builder.Search marks [stage] (.error error)) :
    builder.Search marks (stage :: rest) (.error error) := by
  cases h with
  | skip _ hnone => cases hnone
  | circle hmark => exact .circle hmark
  | enter _ _ hnone => cases hnone
  | abort hmark hinner => exact .abort hmark hinner

theorem entered_before (h : builder.Search marks stages (.ok behind)) {before : String}
    (hbefore : behind before = some .entered) : marks before = some .entered := by
  generalize hresult : (Except.ok behind : Except GraphError Marks) = result at h
  induction h generalizing behind with
  | none marks =>
    cases hresult
    exact hbefore
  | skip _ _ ih => exact ih hbefore hresult
  | circle _ => cases hresult
  | @enter marks inner stage _ _ hmark _ _ ihInner ihRest =>
    have hset := ihRest hbefore hresult
    by_cases heq : before = stage
    · subst heq
      simp [Marks.set] at hset
    · have hinner : inner before = some .entered := by simpa [Marks.set, heq] using hset
      simpa [Marks.set, heq] using ihInner hinner rfl
  | abort _ _ _ => cases hresult

theorem on_circle (h : builder.Search marks stages (.error error))
    (hways : ∀ before, marks before = some .entered →
      ∀ stage ∈ stages, Relation.TransGen builder.Feeds before stage) :
    ∃ stage, error = .cycle stage ∧ Relation.TransGen builder.Feeds stage stage := by
  generalize hresult : (Except.error error : Except GraphError Marks) = result at h
  induction h with
  | none => cases hresult
  | skip _ _ ih =>
    exact ih (fun before hbefore stage hstage =>
      hways before hbefore stage (List.mem_cons_of_mem _ hstage)) hresult
  | @circle marks stage _ hmark =>
    cases hresult
    exact ⟨stage, rfl, hways stage hmark stage List.mem_cons_self⟩
  | @enter marks inner stage _ _ hmark hinner _ _ ihRest =>
    refine ihRest (fun before hbefore next hnext => ?_) hresult
    have hne : before ≠ stage := by
      rintro rfl
      simp [Marks.set] at hbefore
    have hbefore : inner before = some .entered := by simpa [Marks.set, hne] using hbefore
    have hbefore := hinner.entered_before hbefore
    exact hways before (by simpa [Marks.set, hne] using hbefore) next (List.mem_cons_of_mem _ hnext)
  | @abort marks stage _ _ hmark _ ihInner =>
    refine ihInner (fun before hbefore next hnext => ?_) hresult
    by_cases heq : before = stage
    · exact heq ▸ .single hnext
    · have hbefore : marks before = some .entered := by simpa [Marks.set, heq] using hbefore
      exact (hways before hbefore stage List.mem_cons_self).tail hnext

end Search

/-! ## The search of a builder -/

/-- The marks when the search has come along `path` and is done with the stages in `done`. -/
def marksOf (path : List String) (done : Std.ExtTreeSet String) : Marks := fun stage =>
  if stage ∈ done then some .left else if stage ∈ path then some .entered else none

theorem marksOf_enter {path : List String} {done : Std.ExtTreeSet String} {stage : String}
    (h : stage ∉ done) : (marksOf path done).set stage .entered = marksOf (stage :: path) done := by
  funext other
  by_cases heq : other = stage
  · subst heq
    simp [Marks.set, marksOf, h]
  · simp [Marks.set, marksOf, heq]

theorem marksOf_leave {path : List String} {done : Std.ExtTreeSet String} {stage : String} :
    (marksOf (stage :: path) done).set stage .left = marksOf path (done.insert stage) := by
  funext other
  by_cases heq : other = stage
  · subst heq
    simp [Marks.set, marksOf]
  · have hinsert : other ∈ done.insert stage ↔ other ∈ done := by rw [mem_insert, or_iff_right heq]
    simp only [Marks.set, Function.update_of_ne heq, marksOf, hinsert, List.mem_cons,
      or_iff_right heq]

theorem foldlM_searches {path : List String} {stages : List String}
    {visit : Std.ExtTreeSet String → String → Except GraphError (Std.ExtTreeSet String)}
    (h : ∀ stage ∈ stages, ∀ done,
      builder.Search (marksOf path done) [stage] (marksOf path <$> visit done stage))
    (done : Std.ExtTreeSet String) :
    builder.Search (marksOf path done) stages (marksOf path <$> stages.foldlM visit done) := by
  induction stages generalizing done with
  | nil => exact .none _
  | cons stage rest ih =>
    have hfirst := h stage List.mem_cons_self done
    rw [List.foldlM_cons]
    cases hvisit : visit done stage with
    | error error =>
      rw [hvisit] at hfirst
      exact hfirst.cons_error
    | ok next =>
      rw [hvisit] at hfirst
      exact hfirst.cons_ok (ih (fun other hother => h other (List.mem_cons_of_mem _ hother)) next)

theorem visitWithin_done {depth : Nat} {path : List String} {done : Std.ExtTreeSet String}
    {stage : String} (h : stage ∈ done) : builder.visitWithin depth path done stage = .ok done := by
  unfold visitWithin
  rw [if_pos (by simpa using h)]

theorem visitWithin_back {depth : Nat} {path : List String} {done : Std.ExtTreeSet String}
    {stage : String} (h : stage ∉ done) (hback : stage ∈ path) :
    builder.visitWithin depth path done stage = .error (.cycle stage) := by
  unfold visitWithin
  rw [if_neg (by simpa using h), if_pos (by simpa using hback)]

theorem visitWithin_new {depth : Nat} {path : List String} {done : Std.ExtTreeSet String}
    {stage : String} (h : stage ∉ done) (hnew : stage ∉ path) :
    builder.visitWithin (depth + 1) path done stage =
      (·.insert stage) <$> (builder.successors stage).foldlM
        (builder.visitWithin depth (stage :: path)) done := by
  rw [visitWithin, if_neg (by simpa using h), if_neg (by simpa using hnew)]
  rfl

theorem visitWithin_searches_of_marked (depth : Nat) {path : List String}
    {done : Std.ExtTreeSet String} {stage : String} (h : stage ∈ done ∨ stage ∈ path) :
    builder.Search (marksOf path done) [stage]
      (marksOf path <$> builder.visitWithin depth path done stage) := by
  by_cases hdone : stage ∈ done
  · rw [visitWithin_done hdone]
    exact .skip (if_pos hdone) (.none _)
  · have hback := h.resolve_left hdone
    rw [visitWithin_back hdone hback]
    exact .circle ((if_neg hdone).trans (if_pos hback))

theorem visitWithin_searches (hcomplete : builder.Complete) (depth : Nat) {path : List String}
    {stage : String} (done : Std.ExtTreeSet String) (hdistinct : path.Nodup)
    (hpath : ∀ before ∈ path, before ∈ builder.stages) (hstage : stage ∈ builder.stages)
    (hdepth : builder.stages.size ≤ depth + path.length) :
    builder.Search (marksOf path done) [stage]
      (marksOf path <$> builder.visitWithin depth path done stage) := by
  induction depth generalizing path stage done with
  | zero =>
    by_cases hmarked : stage ∈ done ∨ stage ∈ path
    · exact visitWithin_searches_of_marked 0 hmarked
    · -- The path is full, so that every stage stands on it.
      have hnew : stage ∉ path := fun hback => hmarked (.inr hback)
      have hlonger := length_le_size (List.nodup_cons.mpr ⟨hnew, hdistinct⟩)
        (List.forall_mem_cons.mpr ⟨hstage, hpath⟩)
      rw [List.length_cons] at hlonger
      omega
  | succ depth ih =>
    by_cases hmarked : stage ∈ done ∨ stage ∈ path
    · exact visitWithin_searches_of_marked (depth + 1) hmarked
    · obtain ⟨hdone, hnew⟩ := not_or.mp hmarked
      have hmark : marksOf path done stage = none := (if_neg hdone).trans (if_neg hnew)
      have hinner := foldlM_searches (fun next hnext done => ih done
        (List.nodup_cons.mpr ⟨hnew, hdistinct⟩) (List.forall_mem_cons.mpr ⟨hstage, hpath⟩)
        (hcomplete stage next hnext).2 (by rw [List.length_cons]; omega)) done
      rw [← marksOf_enter hdone] at hinner
      rw [visitWithin_new hdone hnew]
      cases hsearch : (builder.successors stage).foldlM
          (builder.visitWithin depth (stage :: path)) done with
      | error error =>
        rw [hsearch] at hinner
        exact .abort hmark hinner
      | ok last =>
        rw [hsearch] at hinner
        refine .enter hmark hinner ?_
        rw [marksOf_leave]
        exact .none _

/-- The search from all stages comes to an end, and the check of a builder is its result. -/
theorem checkAcyclic_searches (hcomplete : builder.Complete) : ∃ result,
    builder.Search (fun _ => none) builder.stages.toList result ∧
      builder.checkAcyclic = (fun _ => ()) <$> result := by
  have hsearch := foldlM_searches (fun stage hstage done => visitWithin_searches hcomplete
    builder.stages.size done .nil (by simp) (Std.ExtTreeSet.mem_toList.mp hstage) (Nat.le_refl _)) {}
  have hunmarked : marksOf [] {} = fun _ => none := by
    funext stage
    simp [marksOf]
  rw [hunmarked] at hsearch
  refine ⟨_, hsearch, ?_⟩
  unfold checkAcyclic
  cases builder.stages.toList.foldlM (builder.visitWithin builder.stages.size []) {} <;> rfl

theorem on_circle_of_checkAcyclic (hcomplete : builder.Complete) {error : GraphError}
    (h : builder.checkAcyclic = .error error) :
    ∃ stage, error = .cycle stage ∧ Relation.TransGen builder.Feeds stage stage := by
  obtain ⟨result, hsearch, hresult⟩ := checkAcyclic_searches hcomplete
  cases result with
  | ok marks => cases h.symm.trans hresult
  | error found =>
    cases h.symm.trans hresult
    exact hsearch.on_circle (by simp)

end Rollup.GraphBuilder
