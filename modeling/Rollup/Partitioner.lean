/-!
# Partitioners

A partitioner chooses the channel that an item goes to. It sees how many items came before, the item,
and the number of channels. An answer beyond the channels is wrapped by the queue.
-/

namespace Rollup

abbrev Partitioner (α : Type) := (turn : Nat) → (item : α) → (channels : Nat) → Nat

namespace Partitioner

variable {α κ : Type}

/-- Takes the channels in turn. -/
def rolling : Partitioner α := fun turn _ channels => turn % max channels 1

/-- Sends items with one key to one channel. -/
def keyed (key : α → κ) (hash : κ → UInt64) : Partitioner α := fun _ item channels =>
  (hash (key item)).toNat % max channels 1

/-- Whether items that share a key share a channel, among items that each come first. -/
def keepsKeys [BEq κ] (partitioner : Partitioner α) (key : α → κ) (channels : Nat)
    (items : List α) : Bool :=
  items.all fun a => items.all fun b =>
    key a != key b || partitioner 0 a channels == partitioner 0 b channels

/-- Gives fixed answers, over and over. -/
def fixed (answers : List Nat) : Partitioner α := fun turn _ _ =>
  (answers[turn % answers.length]?).getD 0

end Partitioner

end Rollup
