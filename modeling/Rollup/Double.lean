/-!
# Doubles

Numbers in the 64-bit binary format, kept as their bits, so that every one of them can be told from
every other. Arithmetic and comparison are those of the format: two zeros are equal, a NaN is equal
to nothing.
-/

namespace Rollup

structure Double where
  bits : UInt64
  deriving DecidableEq, Repr

namespace Double

def toFloat (x : Double) : Float := Float.ofBits x.bits

def ofFloat (x : Float) : Double := ⟨x.toBits⟩

/-- The nearest double, a half to the even neighbour. -/
def ofInt64 (x : Int64) : Double := ofFloat x.toFloat

def zero : Double := ⟨0⟩

def isNaN (x : Double) : Bool := x.toFloat.isNaN

/-- Equality of numbers, not of bits. -/
def sameNumber (x y : Double) : Bool := x.toFloat == y.toFloat

instance : Add Double := ⟨fun x y => ofFloat (x.toFloat + y.toFloat)⟩

instance : LT Double := ⟨fun x y => x.toFloat < y.toFloat⟩

instance : DecidableLT Double := fun x y => inferInstanceAs (Decidable (x.toFloat < y.toFloat))

/-! ## The bits as text -/

/-- The bits as sixteen hexadecimal digits. -/
def toHex (x : Double) : String :=
  let digits := Nat.toDigits 16 x.bits.toNat
  String.ofList (List.replicate (16 - digits.length) '0' ++ digits)

/-- Reads a digit, in lower case. -/
def hexDigit? (c : Char) : Option Nat :=
  if '0' ≤ c ∧ c ≤ '9' then some (c.toNat - '0'.toNat)
  else if 'a' ≤ c ∧ c ≤ 'f' then some (c.toNat - 'a'.toNat + 10)
  else none

/-- Reads sixteen digits. -/
def ofHex? (text : String) : Option Double := do
  let digits ← text.toList.mapM hexDigit?
  if digits.length = 16 then some ⟨UInt64.ofNat (digits.foldl (· * 16 + ·) 0)⟩ else none

end Double

end Rollup
