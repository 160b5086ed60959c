/-!
# Chunks

A list cut into pieces of one size, the last of them perhaps shorter. Put together again the pieces are
the list.
-/

namespace Rollup

variable {α : Type}

/-- At most `count` pieces. -/
def chunksUpTo (size : Nat) : (count : Nat) → List α → List (List α)
  | 0, _ => []
  | _ + 1, [] => []
  | count + 1, items => items.take size :: chunksUpTo size count (items.drop size)

/-- Pieces of a positive size. -/
def chunks (size : Nat) (items : List α) : List (List α) := chunksUpTo size items.length items

theorem flatten_chunksUpTo {size count : Nat} {items : List α} (pos : 0 < size)
    (enough : items.length ≤ count) : (chunksUpTo size count items).flatten = items := by
  induction count generalizing items with
  | zero => simp_all [chunksUpTo]
  | succ count ih =>
    cases items with
    | nil => rfl
    | cons first rest =>
      have shorter : ((first :: rest).drop size).length ≤ count := by
        simp only [List.length_drop, List.length_cons] at enough ⊢
        omega
      rw [chunksUpTo, List.flatten_cons, ih shorter, List.take_append_drop]
      simp

theorem flatten_chunks {size : Nat} (pos : 0 < size) (items : List α) :
    (chunks size items).flatten = items := flatten_chunksUpTo pos (Nat.le_refl _)

end Rollup
