import Rollup.Settings.Scalar

/-!
# Reading a settings text

The grammar is that of TOML 1.0, a little wider in its numbers, and less lists of tables: no setting
can use one, so a text with one is refused like a text that breaks the grammar.
-/

namespace Rollup.Settings

/-! ## Blanks, comments, keys -/

def skipBlanks (cs : Chars) : Chars := cs.dropWhile isBlank

/-- Skips to the end of the line behind a comment sign. -/
def skipComment : Chars → Option Chars
  | [] => some []
  | '\n' :: rest => some ('\n' :: rest)
  | '\r' :: '\n' :: rest => some ('\r' :: '\n' :: rest)
  | c :: rest => if isPlain c then skipComment rest else none

/-- Skips blanks, ends of lines and comments. -/
def skipLines (inComment : Bool) : Chars → Option Chars
  | [] => some []
  | '\n' :: rest => skipLines false rest
  | '\r' :: '\n' :: rest => skipLines false rest
  | c :: rest =>
    if inComment then (if isPlain c then skipLines true rest else none)
    else if isBlank c then skipLines false rest
    else if c == '#' then skipLines true rest
    else some (c :: rest)

def simpleKey (cs : Chars) : Option (String × Chars) :=
  match cs with
  | '"' :: _ | '\x27' :: _ => shortString cs
  | _ =>
    match cs.takeWhile isBare with
    | [] => none
    | name => some (String.ofList name, cs.dropWhile isBare)

/-- The greatest number of arrays and tables in braces that may be open at one place, and of parts of a
key. -/
def deepest : Nat := 80

/-- A dotted key, of at most `parts` parts. -/
def key : (parts : Nat) → Reader (List String)
  | 0, _ => none
  | parts + 1, cs => do
    let (name, rest) ← simpleKey cs
    match skipBlanks rest with
    | '.' :: rest =>
      let (path, rest) ← key parts (skipBlanks rest)
      some (name :: path, rest)
    | _ => some ([name], rest)

/-! ## Values -/

mutual

/-- A value of at most `levels` levels of arrays and tables in braces. The length of a text bounds the
number of `steps` that reading takes. -/
def value : (steps levels : Nat) → Reader Value
  | 0, _, _ => none
  | steps + 1, levels, cs =>
    match cs, levels with
    | '"' :: _, _ | '\x27' :: _, _ => (string cs).map fun (s, rest) => (.text s, rest)
    | '[' :: _, 0 | '\x7b' :: _, 0 => none
    | '[' :: rest, levels + 1 => do
      match ← skipLines false rest with
      | ']' :: rest => some (.array [], rest)
      | rest => items steps levels [] rest
    | '\x7b' :: rest, levels + 1 =>
      match skipBlanks rest with
      | '\x7d' :: rest => some (.table .braces [], rest)
      | rest => pairs steps levels [] rest
    | _, _ => scalar cs

/-- The items of an array up to its bracket. A comma may stand behind the last. -/
def items : (steps levels : Nat) → (read : List Value) → Reader Value
  | 0, _, _, _ => none
  | steps + 1, levels, read, cs => do
    let (item, rest) ← value steps levels cs
    match ← skipLines false rest with
    | ']' :: rest => some (.array (read ++ [item]), rest)
    | ',' :: rest =>
      match ← skipLines false rest with
      | ']' :: rest => some (.array (read ++ [item]), rest)
      | rest => items steps levels (read ++ [item]) rest
    | _ => none

/-- The entries of a table in braces, up to the closing one. -/
def pairs : (steps levels : Nat) → Entries → Reader Value
  | 0, _, _, _ => none
  | steps + 1, levels, read, cs => do
    let (path, rest) ← key deepest cs
    match skipBlanks rest with
    | '=' :: rest =>
      let (item, rest) ← value steps levels (skipBlanks rest)
      let read ← read.assign path item
      match skipBlanks rest with
      | '\x7d' :: rest => some (.table .braces read, rest)
      | ',' :: rest => pairs steps levels read (skipBlanks rest)
      | _ => none
    | _ => none

end

/-! ## Statements -/

/-- The rest of a line behind a statement: blanks, a comment, the end. -/
def endLine (cs : Chars) : Option Chars := do
  let cs ← match skipBlanks cs with
    | '#' :: rest => skipComment rest
    | rest => some rest
  match cs with
  | [] => some []
  | '\n' :: rest => some rest
  | '\r' :: '\n' :: rest => some rest
  | _ => none

/-- A header or an assignment. -/
def statement (cs : Chars) : Option (Statement × Chars) :=
  let steps := cs.length + 1
  match cs with
  | '[' :: rest => do
    let (path, rest) ← key deepest (skipBlanks rest)
    match skipBlanks rest with
    | ']' :: rest => some (.opening path, rest)
    | _ => none
  | _ => do
    let (path, rest) ← key deepest cs
    match skipBlanks rest with
    | '=' :: rest =>
      let (item, rest) ← value steps deepest (skipBlanks rest)
      some (.assignment path item, rest)
    | _ => none

/-- At most `count` statements, each on a line of its own. -/
def statements : (count : Nat) → Chars → Option (List Statement)
  | 0, _ => none
  | count + 1, cs => do
    match ← skipLines false cs with
    | [] => some []
    | cs =>
      let (first, rest) ← statement cs
      let others ← statements count (← endLine rest)
      some (first :: others)

/-- Reads a settings text. A byte order mark in front does not count. -/
def read? (text : String) : Option Entries := do
  let cs := match text.toList with
    | '\ufeff' :: rest => rest
    | cs => cs
  build [] [] (← statements (cs.length + 1) cs)

end Rollup.Settings
