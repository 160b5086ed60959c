import Rollup.Proofs.StorageKeys

/-!
# Texts of entities

The text of an entity says what its dimensions are, with one exception: an entity without dimensions
and one whose only dimension is empty are both written as the empty text.
-/

namespace Rollup.Entity

/-- There is nothing to write: no dimension, or an empty one alone. -/
def IsBlank (entity : Entity) : Prop := entity.dimensions = [] ∨ entity.dimensions = [""]

theorem escape_eq_nil_iff {text : List Char} : escape text = [] ↔ text = [] := by
  cases text with
  | nil => simp [escape]
  | cons c rest =>
    unfold escape
    split <;> simp

theorem renderChars_eq_nil_iff {dimensions : List String} :
    renderChars dimensions = [] ↔ dimensions = [] ∨ dimensions = [""] := by
  cases dimensions with
  | nil => simp [renderChars]
  | cons first rest =>
    -- A second dimension brings a point with it, however empty both are.
    have hrest : behind rest = [] ↔ rest = [] := by cases rest <;> simp [behind]
    rw [renderChars_cons, List.append_eq_nil_iff, escape_eq_nil_iff, hrest,
      String.toList_eq_nil_iff]
    simp

theorem render_eq_empty_iff {entity : Entity} : entity.render = "" ↔ entity.IsBlank := by
  rw [IsBlank, ← renderChars_eq_nil_iff, render, ← String.toList_inj, String.toList_ofList]
  rfl

/-- Entities are written the same only if they are the same, or if nothing is written of either. -/
theorem texts_tell_entities_apart (a b : Entity) :
    a.render = b.render ↔ a = b ∨ a.IsBlank ∧ b.IsBlank := by
  constructor
  · intro h
    by_cases hblank : a.IsBlank
    · exact .inr ⟨hblank, render_eq_empty_iff.mp (h ▸ render_eq_empty_iff.mpr hblank)⟩
    · have hother : ¬ b.IsBlank := fun hb =>
        hblank (render_eq_empty_iff.mp (h.trans (render_eq_empty_iff.mpr hb)))
      have hchars : renderChars a.dimensions = renderChars b.dimensions := by
        have hlists := congrArg String.toList h
        rwa [render, render, String.toList_ofList, String.toList_ofList] at hlists
      left
      cases a
      cases b
      exact congrArg mk (renderChars_inj (fun hnil => hblank (.inl hnil))
        (fun hnil => hother (.inl hnil)) hchars)
  · rintro (rfl | ⟨ha, hb⟩)
    · rfl
    · rw [render_eq_empty_iff.mpr ha, render_eq_empty_iff.mpr hb]

/-- No dimension and one empty dimension are different lists, and both are written as nothing. -/
theorem blank_entities_look_alike :
    ¬ ∀ a b : Entity, a.render = b.render → a.dimensions = b.dimensions := by
  intro h
  exact absurd (h ⟨[]⟩ ⟨[""]⟩ (by decide)) (by decide)

end Rollup.Entity
