import Rollup.Fanout
import Rollup.Record.Basic

/-!
# Listing

What is kept in maps has no order of its own. It is listed by a key, and what shares a key is listed in
the order it came in.
-/

namespace Rollup

variable {α κ : Type}

/-- The items by ascending key. -/
def sortOn [Ord κ] (key : α → κ) (items : List α) : List α :=
  items.mergeSort fun a b => (compareOn key a b).isLE

/-- By the first key, and then by the second. -/
def sortOnBoth {κ' : Type} [Ord κ] [Ord κ'] (first : α → κ) (second : α → κ') (items : List α) :
    List α :=
  sortOn first (sortOn second items)

/-- Records by the text of their identity. -/
def byId {M : Type} [Record M] (records : List M) : List M :=
  sortOn (fun record => (Record.id record).storageId) records

/-- Events by level, the finest first, and then by the text of the identity. -/
def byLevel {M : Type} [Record M] (events : List (M × EventKind)) : List (M × EventKind) :=
  sortOnBoth (fun (record, _) => (Record.id record).bucket.level.rank)
    (fun (record, _) => (Record.id record).storageId) events

end Rollup
