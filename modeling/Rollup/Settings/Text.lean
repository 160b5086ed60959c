/-!
# Strings of a settings text

A reader takes characters from the front of a text and gives back the rest.
-/

namespace Rollup.Settings

abbrev Chars := List Char

abbrev Reader (α : Type) := Chars → Option (α × Chars)

/-! ## Characters -/

def isBlank (c : Char) : Bool := c == ' ' || c == '\t'

/-- What may stand in a comment or on a line of a string: no control character but the tab. -/
def isPlain (c : Char) : Bool := c == '\t' || (0x20 ≤ c.toNat && c.toNat != 0x7f)

def isBare (c : Char) : Bool := c.isAlphanum || c == '-' || c == '_'

def hexValue? (c : Char) : Option Nat :=
  if c.isDigit then some (c.toNat - '0'.toNat)
  else if 'a' ≤ c ∧ c ≤ 'f' then some (c.toNat - 'a'.toNat + 10)
  else if 'A' ≤ c ∧ c ≤ 'F' then some (c.toNat - 'A'.toNat + 10)
  else none

/-- The number that digits of a base stand for. -/
def ofDigits? (base : Nat) (digits : Chars) : Option Nat :=
  digits.foldlM (fun n c => do
    let d ← hexValue? c
    if d < base then some (n * base + d) else none) 0

/-- The character with a code point written in hexadecimal. -/
def ofCode? (digits : Chars) : Option Char := do
  let n ← ofDigits? 16 digits
  if n.isValidChar then some (Char.ofNat n) else none

/-- What an escape of a single letter stands for. -/
def ofEscape? : Char → Option Char
  | 'b' => some '\x08'
  | 't' => some '\t'
  | 'n' => some '\n'
  | 'f' => some '\x0c'
  | 'r' => some '\r'
  | '"' => some '"'
  | '\\' => some '\\'
  | _ => none

/-! ## Strings -/

/-- The rest of a string in double quotes. -/
def quoted (read : Chars) : Reader String
  | '"' :: rest => some (String.ofList read.reverse, rest)
  | '\\' :: 'u' :: a :: b :: c :: d :: rest => do quoted ((← ofCode? [a, b, c, d]) :: read) rest
  | '\\' :: 'U' :: a :: b :: c :: d :: e :: f :: g :: h :: rest => do
    quoted ((← ofCode? [a, b, c, d, e, f, g, h]) :: read) rest
  | '\\' :: c :: rest => do quoted ((← ofEscape? c) :: read) rest
  | c :: rest => if isPlain c then quoted (c :: read) rest else none
  | [] => none

/-- The rest of a string in single quotes. -/
def literal (read : Chars) : Reader String
  | '\x27' :: rest => some (String.ofList read.reverse, rest)
  | c :: rest => if isPlain c then literal (c :: read) rest else none
  | [] => none

/-- Where the reader of a long string stands with a backslash at the end of a line. -/
inductive Folding where
  | none
  /-- Behind the backslash, the line's end still to come. -/
  | begun
  /-- Behind the line's end. Blanks and further ends are left out. -/
  | skipping
  deriving DecidableEq

/-- The rest of a string in three double quotes. Up to two quotes may stand before the closing ones. -/
def quotedLong (read : Chars) : Folding → Reader String
  | .begun, c :: rest =>
    if isBlank c then quotedLong read .begun rest
    else if c == '\n' then quotedLong read .skipping rest
    else match c, rest with
      | '\r', '\n' :: rest => quotedLong read .skipping rest
      | _, _ => .none
  | .skipping, ' ' :: rest => quotedLong read .skipping rest
  | .skipping, '\t' :: rest => quotedLong read .skipping rest
  | .skipping, '\n' :: rest => quotedLong read .skipping rest
  | .skipping, '\r' :: '\n' :: rest => quotedLong read .skipping rest
  | _, '"' :: '"' :: '"' :: '"' :: '"' :: rest =>
    some (String.ofList (('"' :: '"' :: read).reverse), rest)
  | _, '"' :: '"' :: '"' :: '"' :: rest => some (String.ofList (('"' :: read).reverse), rest)
  | _, '"' :: '"' :: '"' :: rest => some (String.ofList read.reverse, rest)
  | _, '\\' :: 'u' :: a :: b :: c :: d :: rest => do
    quotedLong ((← ofCode? [a, b, c, d]) :: read) .none rest
  | _, '\\' :: 'U' :: a :: b :: c :: d :: e :: f :: g :: h :: rest => do
    quotedLong ((← ofCode? [a, b, c, d, e, f, g, h]) :: read) .none rest
  | _, '\\' :: c :: rest =>
    match ofEscape? c with
    | some escaped => quotedLong (escaped :: read) .none rest
    | .none =>
      if isBlank c then quotedLong read .begun rest
      else if c == '\n' then quotedLong read .skipping rest
      else match c, rest with
        | '\r', '\n' :: rest => quotedLong read .skipping rest
        | _, _ => .none
  | _, '\r' :: '\n' :: rest => quotedLong ('\n' :: read) .none rest
  | _, c :: rest =>
    if isPlain c || c == '\n' then quotedLong (c :: read) .none rest else .none
  | _, [] => .none

/-- The rest of a string in three single quotes. -/
def literalLong (read : Chars) : Reader String
  | '\x27' :: '\x27' :: '\x27' :: '\x27' :: '\x27' :: rest =>
    some (String.ofList (('\x27' :: '\x27' :: read).reverse), rest)
  | '\x27' :: '\x27' :: '\x27' :: '\x27' :: rest =>
    some (String.ofList (('\x27' :: read).reverse), rest)
  | '\x27' :: '\x27' :: '\x27' :: rest => some (String.ofList read.reverse, rest)
  | '\r' :: '\n' :: rest => literalLong ('\n' :: read) rest
  | c :: rest => if isPlain c || c == '\n' then literalLong (c :: read) rest else none
  | [] => none

/-- A line's end right behind the opening quotes of a long string does not count. -/
def dropFirstNewline : Chars → Chars
  | '\n' :: rest => rest
  | '\r' :: '\n' :: rest => rest
  | cs => cs

/-- A string on one line. -/
def shortString : Reader String
  | '"' :: rest => quoted [] rest
  | '\x27' :: rest => literal [] rest
  | _ => none

def string : Reader String
  | '"' :: '"' :: '"' :: rest => quotedLong [] .none (dropFirstNewline rest)
  | '\x27' :: '\x27' :: '\x27' :: rest => literalLong [] (dropFirstNewline rest)
  | cs => shortString cs

end Rollup.Settings
