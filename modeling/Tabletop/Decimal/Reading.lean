import Tabletop.Decimal.Integer

/-!
# Reading floats

A decimal is read as the nearest float. Besides the decimals the names of the infinities and of
the value that is not a number are known, in any case.
-/

namespace Tabletop.Decimal

/-- The positive infinity. -/
def infinity : Float :=
  Float.ofBits 0x7FF0000000000000

/-- The value that is not a number. -/
def notANumber : Float :=
  Float.ofBits 0x7FF8000000000000

/-- The float nearest to `significand * 10 ^ power`. Outside of the range of floats the result is
known from the place of the leading digit alone, and no great power of ten is computed. -/
def nearestFloat (significand : Nat) (power : Int) : Float :=
  let place := power + (Nat.toDigits 10 significand).length
  if significand = 0 ∨ place < -330 then 0
  else if 330 < place then infinity
  else Float.ofScientific significand (power < 0) power.natAbs

/-- An exponent: a mark, a sign or none, and digits. -/
def exponent? : List Char → Option Int
  | [] => some 0
  | e :: cs => if e == 'e' || e == 'E' then signed? cs else none

/-- The float named by digits with or without a point and an exponent. -/
def unsignedFloat? (cs : List Char) : Option Float :=
  let (whole, rest) := cs.span Char.isDigit
  let (fraction, rest) :=
    match rest with
    | '.' :: rest => rest.span Char.isDigit
    | rest => ([], rest)
  if whole.isEmpty && fraction.isEmpty then none
  else
    (exponent? rest).map fun exponent =>
      nearestFloat (Nat.ofDigitChars 10 (whole ++ fraction) 0) (exponent - fraction.length)

/-- The float named by a text without a sign. -/
def named? (cs : List Char) : Option Float :=
  let name := String.ofList (cs.map Char.toLower)
  if name = "inf" ∨ name = "infinity" then some infinity
  else if name = "nan" then some notANumber
  else unsignedFloat? cs

/-- The float named by a text, with or without a sign. -/
def float? : List Char → Option Float
  | '-' :: cs => (named? cs).map fun x => -x
  | '+' :: cs => named? cs
  | cs => named? cs

end Tabletop.Decimal
