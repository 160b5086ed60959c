import Rollup.Calendar
import Rollup.Settings.Text
import Rollup.Settings.Value

/-!
# Numbers, truth values and times

What is neither a string nor a table nor an array is written as a word. Only whole numbers are kept. Of
the others a settings text is asked no more than to write them as it should, and less than that of
numbers that are not looked at: a base may come without digits, and a decimal number with underscores
may have more than digits in it, as long as its underscores stand between digits.
-/

namespace Rollup.Settings

/-! ## Words -/

def isWordPart (c : Char) : Bool :=
  !(['=', ',', '[', ']', '\x7b', '\x7d', '#', ' ', '\t', '\r', '\n'].contains c)

/-- Whether a word goes on behind blanks. -/
def goesOn (cs : Chars) : Bool :=
  (cs.dropWhile isBlank).head?.any fun c => isWordPart c && !(['.', '"', '\x27'].contains c)

def word : Chars → Chars × Chars
  | [] => ([], [])
  | c :: rest =>
    if isWordPart c || isBlank c && goesOn rest then
      let (more, rest) := word rest
      (c :: more, rest)
    else ([], c :: rest)

/-! ## Numbers -/

def dropSign : Chars → Chars
  | '+' :: rest => rest
  | '-' :: rest => rest
  | cs => cs

/-- Leaves out underscores. Each has to stand between two digits. -/
def joinDigits (isDigit : Char → Bool) : Chars → Option Chars
  | [] => some []
  | '_' :: _ => none
  | c :: '_' :: rest =>
    if isDigit c && rest.head?.any isDigit then (joinDigits isDigit rest).map (c :: ·) else none
  | c :: rest => (joinDigits isDigit rest).map (c :: ·)

/-- Leaves out the sign and underscores. -/
def unsigned? (isDigit : Char → Bool) (word : Chars) : Option Chars :=
  joinDigits isDigit (dropSign word)

/-- Whether a number without a sign begins with a zero that it could do without. -/
def hasNeedlessZero : Chars → Bool
  | '0' :: c :: _ => c.isDigit || c == '_'
  | _ => false

/-- A number written in a base that is not ten. -/
def ofBase? (base : Nat) (digits : Chars) : Option Value := do
  let n ← ofDigits? base (← joinDigits (fun c => (hexValue? c).isSome) digits)
  return if digits.isEmpty then .other else .integer n

/-- Whether a decimal number without a sign has an underscore behind its first digits, and nothing
that makes it more than a whole number. -/
def isLoose (digits : Chars) : Bool :=
  (digits.dropWhile Char.isDigit).head? == some '_' &&
    digits.all fun c => !(['.', 'e', 'E', ' '].contains c)

def ofDecimal? (word : Chars) : Option Value := do
  let digits ← unsigned? (fun c => (hexValue? c).isSome) word
  if digits.isEmpty || hasNeedlessZero (dropSign word) then none
  else match ofDigits? 10 digits with
    | some n => some (.integer (if word.head? = some '-' then -n else n))
    | none => if isLoose (dropSign word) then some .other else none

/-- What stands before the first of some marks, and what stands behind it. -/
def cut (marks : List Char) (cs : Chars) : Chars × Option Chars :=
  (cs.takeWhile (!marks.contains ·), (cs.dropWhile (!marks.contains ·)).tail?)

def areDigits (cs : Chars) : Bool := !cs.isEmpty && cs.all Char.isDigit

/-- A number with a fraction, an exponent or both. -/
def isFloat (word : Chars) : Bool :=
  (unsigned? Char.isDigit word).any fun number =>
    let (mantissa, exponent) := cut ['e', 'E'] number
    let (whole, fraction) := cut ['.'] mantissa
    (fraction.isSome || exponent.isSome) && !hasNeedlessZero (dropSign word) && areDigits whole &&
      fraction.all areDigits && exponent.all fun digits => areDigits (dropSign digits)

/-! ## Times -/

/-- Reads a number of a certain width, up to a greatest one. -/
def number (width greatest : Nat) : Reader Nat := fun cs => do
  let n ← ofDigits? 10 (cs.take width)
  if width ≤ cs.length ∧ n ≤ greatest then some (n, cs.drop width) else none

def skip (mark : Char) : Chars → Option Chars
  | c :: rest => if c = mark then some rest else none
  | [] => none

/-- Reads a day that exists. -/
def date : Reader Calendar.Date := fun cs => do
  let (year, cs) ← number 4 9999 cs
  let (month, cs) ← number 2 12 (← skip '-' cs)
  let (day, cs) ← number 2 31 (← skip '-' cs)
  return (← Calendar.Date.of? year month day, cs)

def skipMinute (cs : Chars) : Option Chars := do
  let (_, cs) ← number 2 23 cs
  let (_, cs) ← number 2 59 (← skip ':' cs)
  some cs

/-- Skips a time of day. A minute may have a leap second. -/
def skipTime (cs : Chars) : Option Chars := do
  let (_, cs) ← number 2 60 (← skip ':' (← skipMinute cs))
  match cs with
  | '.' :: c :: rest => if c.isDigit then some (rest.dropWhile Char.isDigit) else none
  | cs => some cs

/-- Skips how far a time is from that of Greenwich, if that is given. -/
def skipOffset : Chars → Option Chars
  | 'Z' :: rest => some rest
  | 'z' :: rest => some rest
  | '+' :: rest => skipMinute rest
  | '-' :: rest => skipMinute rest
  | cs => some cs

/-- Skips a time of day, a date, or a date with a time of day. -/
def skipMoment (cs : Chars) : Option Chars :=
  match date cs with
  | none => skipTime cs
  | some (_, 'T' :: rest) => (skipTime rest).bind skipOffset
  | some (_, 't' :: rest) => (skipTime rest).bind skipOffset
  | some (_, ' ' :: rest) => (skipTime rest).bind skipOffset
  | some (_, rest) => some rest

/-! ## Scalars -/

/-- A word that stands for a value without being made of digits. -/
def isNamed (word : Chars) : Bool :=
  ["true".toList, "false".toList].contains word ||
    ["inf".toList, "nan".toList].contains (dropSign word)

def ofWord? (word : Chars) : Option Value :=
  match word with
  | '0' :: 'x' :: digits => ofBase? 16 digits
  | '0' :: 'o' :: digits => ofBase? 8 digits
  | '0' :: 'b' :: digits => ofBase? 2 digits
  | _ =>
    if isNamed word || isFloat word || skipMoment word == some [] then some .other
    else ofDecimal? word

def scalar : Reader Value := fun cs =>
  let (word, rest) := word cs
  (ofWord? word).map (·, rest)

end Rollup.Settings
