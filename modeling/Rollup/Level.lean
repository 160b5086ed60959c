/-!
# Levels

The four granularities in which time is cut into buckets, finest first.
-/

namespace Rollup

inductive Level where
  | minute
  | hour
  | day
  | month
  deriving DecidableEq, Repr, Inhabited

namespace Level

/-- Finest first. -/
def all : List Level := [.minute, .hour, .day, .month]

/-- The place in `all`. -/
def rank : Level → Nat
  | minute => 0
  | hour => 1
  | day => 2
  | month => 3

def name : Level → String
  | minute => "minute"
  | hour => "hour"
  | day => "day"
  | month => "month"

/-- Reads a name. Only the lower-case spelling counts. -/
def ofName? (text : String) : Option Level :=
  all.find? (·.name == text)

instance : LE Level := ⟨fun a b => a.rank ≤ b.rank⟩

instance : LT Level := ⟨fun a b => a.rank < b.rank⟩

instance (a b : Level) : Decidable (a ≤ b) := inferInstanceAs (Decidable (a.rank ≤ b.rank))

instance (a b : Level) : Decidable (a < b) := inferInstanceAs (Decidable (a.rank < b.rank))

/-- The levels above this one, finest first. -/
def coarser (level : Level) : List Level :=
  all.filter (level < ·)

theorem rank_injective {a b : Level} (h : a.rank = b.rank) : a = b := by
  cases a <;> cases b <;> simp_all [rank]

theorem ofName?_name (level : Level) : ofName? level.name = some level := by
  cases level <;> decide

theorem name_injective {a b : Level} (h : a.name = b.name) : a = b := by
  have hread := ofName?_name a
  rw [h, ofName?_name] at hread
  exact (Option.some.inj hread).symm

theorem mem_coarser {a b : Level} : b ∈ a.coarser ↔ a < b := by
  cases a <;> cases b <;> decide

end Level

end Rollup
