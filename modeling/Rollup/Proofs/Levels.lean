import Rollup.Clock
import Rollup.Proofs.Forwarding

/-!
# The levels of a model

A model has a station at its own level and one at each coarser level. Its own station hands each of the
others the copies of its level.
-/

namespace Rollup

/-- The levels of a model's stations, its own first. -/
def Model.levels (model : Model) : List Level := model.level :: model.level.coarser

/-- Where a model's own station hands records on to, if it is the first one of its engine. -/
def Model.feeds (model : Model) : Target :=
  if model.level.coarser.isEmpty then .nowhere
  else .copies ⟨model.level.coarser.zipIdx.map fun (level, index) => (level, index + 1)⟩

theorem Model.feeds_avoids (model : Model) : model.feeds.Avoids 0 := by
  unfold feeds
  split
  · trivial
  · rintro target htarget
    obtain ⟨item, _, rfl⟩ := List.mem_map.mp htarget
    exact Nat.succ_ne_zero _

theorem copies_flatMap {M : Type} [Record M] (levels : List Level) (first index : Nat) (record : M) :
    ((Downsampler.copies ⟨(levels.zipIdx first).map fun (level, index) => (level, index + 1)⟩
      record).flatMap fun (other, copy) => if other = index + 1 then [copy] else []) =
      if first ≤ index then ((levels[index - first]?).bind (Record.coarsen record)).toList else [] := by
  induction levels generalizing first with
  | nil => simp [Downsampler.copies]
  | cons level rest ih =>
    have hrest := ih (first + 1)
    simp only [Downsampler.copies, List.zipIdx_cons, List.map_cons, List.filterMap_cons] at hrest ⊢
    by_cases hfirst : first = index
    · subst hfirst
      rw [if_neg (by omega)] at hrest
      rw [if_pos (Nat.le_refl _), Nat.sub_self]
      cases hcopy : Record.coarsen record level with
      | none => simpa [hcopy] using hrest
      | some copy => simpa [hcopy] using hrest
    · have hsplit : (if first ≤ index then
          (((level :: rest)[index - first]?).bind (Record.coarsen record)).toList else []) =
          if first + 1 ≤ index then ((rest[index - (first + 1)]?).bind (Record.coarsen record)).toList
          else [] := by
        by_cases hle : first ≤ index
        · obtain ⟨more, hmore⟩ : ∃ more, index - first = more + 1 := ⟨index - first - 1, by omega⟩
          rw [if_pos hle, if_pos (by omega), hmore, show index - (first + 1) = more by omega]
          rfl
        · rw [if_neg hle, if_neg (by omega)]
      rw [hsplit, ← hrest]
      cases hcopy : Record.coarsen record level with
      | none => simp
      | some copy => simp [hfirst]

theorem Model.feeds_copiesFor {M : Type} [Record M] {model : Model} {index : Nat} {level : Level}
    (hindex : 0 < index) (hlevel : model.levels[index]? = some level) (record : M) :
    model.feeds.copiesFor index record = (Record.coarsen record level).toList := by
  obtain ⟨index, rfl⟩ : ∃ more, index = more + 1 := ⟨index - 1, by omega⟩
  have hcoarser : model.level.coarser[index]? = some level := hlevel
  have hsome : model.level.coarser.isEmpty = false := by
    cases hempty : model.level.coarser with
    | nil => simp [hempty] at hcoarser
    | cons => rfl
  have hcopies := copies_flatMap model.level.coarser 0 index record
  rw [if_pos (Nat.zero_le _), Nat.sub_zero, hcoarser] at hcopies
  rw [feeds, if_neg (by simp [hsome])]
  exact hcopies

theorem Model.storageName_injective {model : Model} {a b : Level}
    (h : (model.atLevel a).storageName = (model.atLevel b).storageName) : a = b := by
  have hname : a.name = b.name := by
    have hchars := congrArg String.toList h
    apply String.toList_inj.mp
    simpa [storageName, atLevel] using hchars
  cases a <;> cases b <;> first | rfl | simp [Level.name] at hname

theorem Model.levels_nodup (model : Model) : model.levels.Nodup := by
  cases h : model.level <;> simp [levels, h] <;> decide

/-! ## Rows that fall out of retention -/

/-- The month of the bucket is not the last of the calendar, so its rows fall out of retention some
day. -/
def MetricId.expires (id : MetricId) : Bool := id.bucket.start.date.nextMonth.inRange

namespace Calendar

theorem Date.inRange_next {date : Date} (h : date.nextMonth.inRange = true)
    (hdate : date.inRange = true) : date.next.inRange = true := by
  unfold next
  split
  · exact hdate
  · exact h

end Calendar

theorem MetricId.expires_coarsen {id coarse : MetricId} {level : Level}
    (h : id.coarsen level = some coarse) : coarse.expires = id.expires := by
  obtain ⟨bucket, hbucket, rfl⟩ := Option.map_eq_some_iff.mp h
  unfold TimeBucket.coarsen at hbucket
  split at hbucket
  · cases hbucket
    cases level <;> rfl
  · cases hbucket

theorem TimeBucket.exists_endMillis {bucket : TimeBucket}
    (h : bucket.start.date.nextMonth.inRange = true) : ∃ finish, bucket.endMillis = .ok finish := by
  have hnext := Calendar.Date.inRange_next h bucket.inRange
  have hin : (bucket.start.next bucket.level).date.inRange = true := by
    cases bucket.level with
    | minute | hour =>
      simp only [Moment.next, Moment.later]
      split
      · exact bucket.inRange
      · exact hnext
    | day => exact hnext
    | month => exact h
  refine ⟨(bucket.start.next bucket.level).toMinutes * 60000, ?_⟩
  unfold endMillis finish
  simp only [hin, if_true]
  rfl

namespace Retention

theorem exists_cutoff {now : Int} {ttlDays : Nat} (hnow : 0 ≤ now) (httl : ttlDays < UInt32.size) :
    ∃ day, cutoff now ttlDays = .ok day := by
  refine ⟨_, if_pos ?_⟩
  have hsize : UInt32.size = 4294967296 := rfl
  unfold Timestamp.minus Timestamp.least Timestamp.greatest dayMillis
  omega

theorem exists_isExpired {id : MetricId} {now : Int} {ttlDays : Nat} (h : id.expires = true)
    (hnow : 0 ≤ now) (httl : ttlDays < UInt32.size) :
    ∃ expired, isExpired id.bucket now ttlDays = .ok expired := by
  obtain ⟨day, hday⟩ := exists_cutoff hnow httl
  obtain ⟨finish, hfinish⟩ := TimeBucket.exists_endMillis h
  refine ⟨decide (finish ≤ day), ?_⟩
  unfold isExpired
  rw [hday, hfinish]
  rfl

end Retention

end Rollup
