import Rollup.Proofs.Reports

/-!
# Entries

What a round makes of the entry of one identity: only the batch that its record is in has to do with it,
and of that batch only the record itself.
-/

namespace Rollup

variable {σ M : Type} [Record M] {env : Surroundings σ M} {occasion : Occasion}
  {sessions : Sessions M}

/-- A load answers with nothing but what was asked for. -/
def Surroundings.Disciplined (env : Surroundings σ M) (model : Model) : Prop :=
  ∀ ids loaded, (env.load model ids).Gives (.ok loaded) → ∀ record ∈ loaded, Record.id record ∈ ids

theorem Surroundings.Disciplined.mem {model : Model} (henv : env.Disciplined model)
    {ids : List MetricId} {loaded : List M} (h : env.Loads model ids (.ok loaded)) :
    ∀ record ∈ loaded, Record.id record ∈ ids := by
  unfold Loads at h
  split_ifs at h
  · cases h
    simp
  · exact henv ids loaded h

/-! ## The records of a batch -/

/-- What the entry of a record's identity comes to. -/
def Fate.entry (occasion : Occasion) (held : Option (Session M)) : Fate M → Option (Session M)
  | written .update whole =>
    if Session.reachedBy held occasion.now then some ⟨whole, occasion.now⟩ else held
  | _ => held

theorem Fate.Suits.session?_settle_self [KeepsIdentity M] (hkeyed : sessions.Keyed) {drained : M}
    {fate : Fate M} (h : fate.Suits env occasion (sessions.get? (Record.id drained)) drained) :
    (fate.settle occasion sessions).session? (Record.id drained) =
      fate.entry occasion (sessions.session? (Record.id drained)) := by
  cases fate with
  | written kind whole =>
    cases kind with
    | insert => rfl
    | update =>
      unfold settle entry
      rw [Sessions.session?_put, h.id_eq hkeyed rfl]
      simp only [true_and]
  | left | failed | passedOver => rfl

namespace Handling

variable {failed : Bool} {handling : Handling M} {handlings : List (Handling M)}

theorem Handles.tail [KeepsIdentity M] (hkeyed : sessions.Keyed)
    (hdistinct : ((handling :: handlings).map id).Nodup)
    (h : Handles env occasion failed sessions (handling :: handlings)) :
    Handles env occasion (failed || handling.fate.isFailed)
      (handling.fate.settle occasion sessions) handlings := by
  have hsuits := h.suits handling List.mem_cons_self
  rw [List.map_cons, List.nodup_cons] at hdistinct
  refine ⟨fun other hother => ?_, ?_⟩
  · have hne : other.id ≠ handling.id := fun heq =>
      hdistinct.1 (heq ▸ List.mem_map_of_mem hother)
    rw [hsuits.get?_settle hkeyed hne]
    exact h.suits other (List.mem_cons_of_mem _ hother)
  · cases failed with
    | true => exact h.turn.2
    | false => exact h.turn.2

theorem Handles.session?_of_not_mem [KeepsIdentity M] (hkeyed : sessions.Keyed)
    (hdistinct : (handlings.map id).Nodup)
    (h : Handles env occasion failed sessions handlings) {id : MetricId}
    (hid : id ∉ handlings.map Handling.id) :
    (settleAll occasion sessions handlings).session? id = sessions.session? id := by
  induction handlings generalizing failed sessions with
  | nil => rfl
  | cons first rest ih =>
    rw [List.map_cons, List.mem_cons, not_or] at hid
    refine (ih (Fate.keyed_settle hkeyed occasion first.fate) (List.nodup_cons.mp hdistinct).2
      (h.tail hkeyed hdistinct) hid.2).trans ?_
    exact (h.suits first List.mem_cons_self).session?_settle hkeyed hid.1

theorem Handles.session?_of_mem [KeepsIdentity M] (hkeyed : sessions.Keyed)
    (hdistinct : (handlings.map id).Nodup)
    (h : Handles env occasion failed sessions handlings) (hmem : handling ∈ handlings) :
    (settleAll occasion sessions handlings).session? handling.id =
      handling.fate.entry occasion (sessions.session? handling.id) := by
  induction handlings generalizing failed sessions with
  | nil => cases hmem
  | cons first rest ih =>
    have hkeyed' := Fate.keyed_settle hkeyed occasion first.fate
    have hsuits := h.suits first List.mem_cons_self
    have htail := h.tail hkeyed hdistinct
    rw [List.map_cons, List.nodup_cons] at hdistinct
    rcases List.mem_cons.mp hmem with rfl | hmem
    · exact (htail.session?_of_not_mem hkeyed' hdistinct.2 hdistinct.1).trans
        (hsuits.session?_settle_self hkeyed)
    · have hne : handling.id ≠ first.id := fun heq =>
        hdistinct.1 (heq ▸ List.mem_map_of_mem hmem)
      refine (ih hkeyed' hdistinct.2 htail hmem).trans ?_
      rw [hsuits.session?_settle hkeyed hne]

end Handling

/-! ## Batches -/

theorem Occasion.reachedBy_opened {ids : List MetricId} {id : MetricId} (hid : id ∈ ids)
    (h : Session.reachedBy (occasion.trusted (sessions.session? id)) occasion.now)
    (loaded : Except StorageError (List M)) :
    Session.reachedBy ((occasion.opened sessions ids loaded).session? id) occasion.now := by
  refine List.foldlRecOn (loaded.toOption.getD []) (fun sessions record => sessions.put record _)
    (motive := fun opened : Sessions M => Session.reachedBy (opened.session? id) occasion.now) ?_ ?_
  · rwa [session?_pruned, if_pos hid]
  · intro opened hopened record _
    rw [Sessions.session?_put]
    split_ifs
    · exact (Session.reachedBy_some _ _).mpr (Int.le_refl _)
    · exact hopened

namespace Report

variable {report : Report M} {reports : List (Report M)}

theorem FitsAll.exists_fits (h : FitsAll env occasion sessions reports) (hkeyed : sessions.Keyed)
    (hmem : report ∈ reports) :
    ∃ found : Sessions M, found.Keyed ∧ report.Fits env occasion found := by
  induction reports generalizing sessions with
  | nil => cases hmem
  | cons first rest ih =>
    rcases List.mem_cons.mp hmem with rfl | hmem
    · exact ⟨sessions, hkeyed, h.1⟩
    · exact ih h.2 (first.keyed_settle occasion hkeyed) hmem

theorem Fits.session?_opened_of_not_mem (h : report.Fits env occasion sessions)
    (henv : env.Disciplined occasion.model) {id : MetricId} (hid : id ∉ report.ids) :
    (report.opened occasion sessions).session? id = sessions.session? id := by
  unfold opened Occasion.opened
  rw [Sessions.session?_putAll_of_not_mem, Occasion.session?_pruned, if_neg hid]
  intro hmem
  have hloads := h.loads
  rw [h.asked] at hloads
  cases hloaded : report.loaded with
  | error _ =>
    rw [hloaded] at hmem
    cases hmem
  | ok loaded =>
    rw [hloaded] at hloads hmem
    obtain ⟨record, hrecord, rfl⟩ := List.mem_map.mp hmem
    exact hid (Occasion.mem_missing.mp (henv.mem hloads record hrecord)).1

theorem Fits.session?_of_not_mem [KeepsIdentity M] (h : report.Fits env occasion sessions)
    (henv : env.Disciplined occasion.model) (hkeyed : sessions.Keyed) (hdistinct : report.ids.Nodup)
    {id : MetricId} (hid : id ∉ report.ids) :
    (report.settle occasion sessions).session? id = sessions.session? id :=
  (h.handles.session?_of_not_mem (occasion.keyed_opened hkeyed _ _) hdistinct hid).trans
    (h.session?_opened_of_not_mem henv hid)

theorem FitsAll.session?_of_not_mem [KeepsIdentity M] (h : FitsAll env occasion sessions reports)
    (henv : env.Disciplined occasion.model) (hkeyed : sessions.Keyed)
    (hdistinct : (reports.flatMap (·.ids)).Nodup) {id : MetricId}
    (hid : id ∉ reports.flatMap (·.ids)) :
    (settleAll occasion sessions reports).session? id = sessions.session? id := by
  induction reports generalizing sessions with
  | nil => rfl
  | cons first rest ih =>
    obtain ⟨hfirst, hrest⟩ := h
    rw [List.flatMap_cons, List.nodup_append] at hdistinct
    rw [List.flatMap_cons, List.mem_append, not_or] at hid
    exact (ih hrest (first.keyed_settle occasion hkeyed) hdistinct.2.1 hid.2).trans
      (hfirst.session?_of_not_mem henv hkeyed hdistinct.1 hid.1)

theorem FitsAll.of_mem [KeepsIdentity M] (h : FitsAll env occasion sessions reports)
    (henv : env.Disciplined occasion.model) (hkeyed : sessions.Keyed)
    (hdistinct : (reports.flatMap (·.ids)).Nodup) (hmem : report ∈ reports) :
    ∃ found : Sessions M, found.Keyed ∧ report.Fits env occasion found ∧
      ∀ id ∈ report.ids, found.session? id = sessions.session? id ∧
        (settleAll occasion sessions reports).session? id =
          (report.settle occasion found).session? id := by
  induction reports generalizing sessions with
  | nil => cases hmem
  | cons first rest ih =>
    obtain ⟨hfirst, hrest⟩ := h
    have hkeyed' := first.keyed_settle occasion hkeyed
    rw [List.flatMap_cons, List.nodup_append] at hdistinct
    rcases List.mem_cons.mp hmem with rfl | hmem
    · refine ⟨sessions, hkeyed, hfirst, fun id hid => ⟨rfl, ?_⟩⟩
      exact hrest.session?_of_not_mem henv hkeyed' hdistinct.2.1
        fun hlater => hdistinct.2.2 id hid id hlater rfl
    · obtain ⟨found, hfound, hfits, hentries⟩ := ih hrest hkeyed' hdistinct.2.1 hmem
      refine ⟨found, hfound, hfits, fun id hid => ⟨?_, (hentries id hid).2⟩⟩
      rw [(hentries id hid).1]
      refine hfirst.session?_of_not_mem henv hkeyed hdistinct.1 fun hearlier => ?_
      exact hdistinct.2.2 id hearlier id (List.mem_flatMap.mpr ⟨report, hmem, hid⟩) rfl

end Report

end Rollup
