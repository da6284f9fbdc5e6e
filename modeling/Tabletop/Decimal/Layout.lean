import Tabletop.Decimal.Shortest

/-!
# Writing floats

Floats are shown to people by their shortest decimal with all its places and no exponent.
-/

namespace Tabletop.Decimal

/-- The digits of a number parted before the last `places` of them, filled up with zeros on the
left so that there is one in the first part. -/
def parted (digits : List Char) (places : Nat) : List Char × List Char :=
  let filled := List.replicate (places + 1 - digits.length) '0' ++ digits
  filled.splitAt (filled.length - places)

/-- All places of a decimal, a point only if there is a fraction. -/
def Scaled.positional (d : Scaled) : List Char :=
  let digits := Nat.toDigits 10 d.digits
  match d.power with
  | .ofNat zeros => if d.digits = 0 then ['0'] else digits ++ List.replicate zeros '0'
  | .negSucc n =>
    let (whole, fraction) := parted digits (n + 1)
    whole ++ '.' :: fraction

/-- The place of the leading digit: the exponent of its power of ten. -/
def Scaled.leadingPlace (d : Scaled) : Int :=
  d.power + ((Nat.toDigits 10 d.digits).length - 1 : Nat)

/-- A text with a minus sign before it if asked for. -/
def withSign (negative : Bool) (cs : List Char) : String :=
  String.ofList (if negative then '-' :: cs else cs)

/-- A float as displays show it: the shortest digits that read back, a tie going up, every place
written out, a sign also on the negative zero. -/
def plain (x : Float) : String :=
  if x.isNaN then "NaN"
  else if x.isInf then (if x < 0 then "-inf" else "inf")
  else
    let d := Dyadic.ofFloat x
    withSign d.negative (shortest .up d).positional

end Tabletop.Decimal
