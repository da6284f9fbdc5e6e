/-!
# Whole numbers in decimal

Reading the numbers that stand in notations and tables. Only the ASCII digits are read, there
has to be at least one, and a number that does not fit its word is refused.
-/

namespace Tabletop.Decimal

/-- The value of a non-empty run of ASCII digits. -/
def natural? (cs : List Char) : Option Nat :=
  if cs ≠ [] ∧ cs.all Char.isDigit then some (Nat.ofDigitChars 10 cs 0) else none

/-- A natural number, with or without a plus sign. -/
def unsigned? : List Char → Option Nat
  | '+' :: cs => natural? cs
  | cs => natural? cs

/-- An integer, with or without a sign. -/
def signed? : List Char → Option Int
  | '-' :: cs => (natural? cs).map fun n => -(n : Int)
  | cs => (unsigned? cs).map Int.ofNat

/-- A number below `2 ^ 32`. -/
def word32? (cs : List Char) : Option UInt32 :=
  match unsigned? cs with
  | some n => if n < UInt32.size then some (UInt32.ofNat n) else none
  | none => none

/-- A number below `2 ^ 64`. -/
def word64? (cs : List Char) : Option UInt64 :=
  match unsigned? cs with
  | some n => if n < UInt64.size then some (UInt64.ofNat n) else none
  | none => none

/-- The integer as a signed word of 64 bits, if it fits. -/
def toInt64? (n : Int) : Option Int64 :=
  if Int64.minValue.toInt ≤ n ∧ n ≤ Int64.maxValue.toInt then some (Int64.ofInt n) else none

/-- An integer that fits 64 bits with sign. -/
def int64? (cs : List Char) : Option Int64 :=
  (signed? cs).bind toInt64?

/-- The digits of an integer, after a minus sign if it is negative. -/
def ofInt (n : Int) : String :=
  toString n

end Tabletop.Decimal
