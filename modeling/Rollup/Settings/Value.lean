/-!
# Values of a settings text

A settings text is a TOML document. Its tree is built from two kinds of statements: a header opens a
table, and an assignment sets a key, dotted or not, in the table that is open. A table is opened at
most once, a key is set at most once, and a table written in braces is closed.
-/

namespace Rollup.Settings

/-- How a table came to be, which decides what may still be added to it. -/
inductive Origin where
  /-- Named on the way to the table of a header. -/
  | implied
  /-- Opened by its own header. -/
  | header
  /-- Named on the way to a dotted key. -/
  | dotted
  /-- Written in braces. -/
  | braces
  deriving DecidableEq, Repr

inductive Value where
  | text (content : String)
  | integer (value : Int)
  /-- A truth value, a number that is not written as a whole one, or a time. No setting has such a
  value. -/
  | other
  | array (items : List Value)
  | table (origin : Origin) (entries : List (String × Value))

abbrev Entries := List (String × Value)

namespace Entries

/-- Puts another value in the place of a key's. -/
def replace (entries : Entries) (key : String) (value : Value) : Entries :=
  entries.map fun entry => if entry.1 = key then (key, value) else entry

/-- Sets a dotted key. -/
def assign (entries : Entries) : List String → Value → Option Entries
  | [], _ => none
  | [key], value =>
    match entries.lookup key with
    | none => some (entries ++ [(key, value)])
    | some _ => none
  | key :: path, value =>
    match entries.lookup key with
    | none => do
      let sub ← assign [] path value
      some (entries ++ [(key, .table .dotted sub)])
    | some (.table .dotted sub) => do
      let sub ← assign sub path value
      some (entries.replace key (.table .dotted sub))
    | some _ => none

/-- Opens the table of a header. -/
def openTable (entries : Entries) : List String → Option Entries
  | [] => none
  | [key] =>
    match entries.lookup key with
    | none => some (entries ++ [(key, .table .header [])])
    | some (.table .implied sub) => some (entries.replace key (.table .header sub))
    | some _ => none
  | key :: path =>
    match entries.lookup key with
    | none => do
      let sub ← openTable [] path
      some (entries ++ [(key, .table .implied sub)])
    | some (.table .braces _) => none
    | some (.table origin sub) => do
      let sub ← openTable sub path
      some (entries.replace key (.table origin sub))
    | some _ => none

/-- Sets a dotted key in the table of a header that was opened. -/
def assignIn (entries : Entries) : (header : List String) → (path : List String) → Value →
    Option Entries
  | [], path, value => entries.assign path value
  | key :: header, path, value =>
    match entries.lookup key with
    | some (.table origin sub) => do
      let sub ← assignIn sub header path value
      some (entries.replace key (.table origin sub))
    | _ => none

end Entries

inductive Statement where
  | opening (header : List String)
  | assignment (path : List String) (value : Value)

/-- Builds the tree. The header that is open at first is the empty one. -/
def build : (header : List String) → Entries → List Statement → Option Entries
  | _, entries, [] => some entries
  | _, entries, .opening header :: rest => do build header (← entries.openTable header) rest
  | header, entries, .assignment path value :: rest => do
    build header (← entries.assignIn header path value) rest

end Rollup.Settings
