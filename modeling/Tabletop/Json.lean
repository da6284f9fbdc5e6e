import Tabletop.Decimal.Integer
import Tabletop.Decimal.Layout

/-!
# JSON values

A JSON value keeps what reading must not lose: a number is kept by its digits, because an integer
and a float of equal value are different things, a string is kept by its pieces, and the fields of
an object keep their order and may repeat.
-/

namespace Tabletop.Json

/-- A number by its digits. -/
structure Numeral where
  negative : Bool
  /-- The digits before the point. -/
  whole : List Char
  /-- The digits after the point, of which there is at least one if there is a point. -/
  fraction : List Char
  /-- Whether the exponent is negative, and its digits. -/
  exponent : Option (Bool × List Char)
  deriving DecidableEq, Repr

/-- A piece of a string. -/
inductive Piece where
  /-- A character that stands for itself. -/
  | plain (c : Char)
  /-- A character written with a backslash and a letter. -/
  | escaped (c : Char)
  /-- Sixteen bits written as four hexadecimal digits: a character, or half of one. -/
  | unit (bits : Nat)
  deriving DecidableEq, Repr

end Tabletop.Json

namespace Tabletop

/-- A JSON value. -/
inductive Json where
  | null
  | bool (b : Bool)
  | number (n : Json.Numeral)
  | string (pieces : List Json.Piece)
  | array (elements : List Json)
  | object (fields : List (List Json.Piece × Json))

namespace Json

namespace Numeral

/-- An integer. -/
def ofInt (n : Int) : Numeral :=
  ⟨n < 0, Nat.toDigits 10 n.natAbs, [], none⟩

/-- A finite float: the shortest digits that read back, a tie going to the even digit, with a point
if the leading digit stands between the fifth place after the point and the sixteenth before it,
otherwise with an exponent. -/
def ofFloat (x : Float) : Numeral :=
  let parts := Decimal.Dyadic.ofFloat x
  let d := Decimal.shortest .even parts
  let digits := Nat.toDigits 10 d.digits
  let place := d.leadingPlace
  if -5 ≤ place ∧ place ≤ 15 then
    if d.power < 0 then
      let (whole, fraction) := Decimal.parted digits d.power.natAbs
      ⟨parts.negative, whole, fraction, none⟩
    else ⟨parts.negative, digits ++ List.replicate d.power.natAbs '0', ['0'], none⟩
  else ⟨parts.negative, digits.take 1, digits.drop 1, some (place < 0, Nat.toDigits 10 place.natAbs)⟩

/-- The text of a number. -/
def text (n : Numeral) : List Char :=
  (if n.negative then ['-'] else []) ++ n.whole ++
    (if n.fraction.isEmpty then [] else '.' :: n.fraction) ++
    match n.exponent with
    | none => []
    | some (negative, digits) => 'e' :: (if negative then '-' else '+') :: digits

/-- Whether the number is written as an integer. -/
def isInteger (n : Numeral) : Bool :=
  n.fraction.isEmpty && n.exponent.isNone

/-- The digits before the point as a number. -/
def wholeValue (n : Numeral) : Nat :=
  Nat.ofDigitChars 10 n.whole 0

/-- The number as a natural number below a bound. A number with a sign is none. -/
def natural? (bound : Nat) (n : Numeral) : Option Nat :=
  if n.isInteger ∧ !n.negative ∧ n.wholeValue < bound then some n.wholeValue else none

/-- The number as an integer of 64 bits. The negative zero is a float. -/
def int64? (n : Numeral) : Option Int64 :=
  if !n.isInteger ∨ (n.negative ∧ n.wholeValue = 0) then none
  else Decimal.toInt64? (if n.negative then -(n.wholeValue : Int) else n.wholeValue)

/-- Takes digits into a significand as long as it stays below `2 ^ 64`. The result is the
significand and the digits that are left. -/
def absorb (significand : Nat) : List Char → Nat × List Char
  | [] => (significand, [])
  | c :: digits =>
    let more := significand * 10 + (c.toNat - '0'.toNat)
    if more < UInt64.size then absorb more digits else (significand, c :: digits)

/-- A power of ten as a float, up to the 308th. -/
def powerOfTen (n : Nat) : Float :=
  Float.ofScientific 1 false n

/-- A float times a power of ten, rounded once or, far below the range, more often. There is none
if it is infinite. -/
def scaled (x : Float) (power : Int) : Option Float :=
  if power.natAbs ≤ 308 then
    if 0 ≤ power then
      let y := x * powerOfTen power.natAbs
      if y.isInf then none else some y
    else some (x / powerOfTen power.natAbs)
  else if x == 0 then some x
  else if 0 ≤ power then none
  else scaled (x / powerOfTen 308) (power + 308)
  termination_by power.natAbs
  decreasing_by omega

/-- The number as a float: its leading digits, as many as fit in 64 bits, are rounded to a float,
which is then scaled. A number beyond the range of floats has none, except that an exponent too
great to be read gives zero where it is negative or the digits are zero. -/
def float? (n : Numeral) : Option Float :=
  let (significand, left) := absorb 0 n.whole
  let (significand, unused) := absorb significand n.fraction
  let power : Int := (left.length : Int) - (n.fraction.length - unused.length : Nat)
  let magnitude :=
    match n.exponent with
    | none => scaled significand.toUInt64.toFloat power
    | some (negative, digits) =>
      let exponent := Nat.ofDigitChars 10 digits 0
      if exponent < 0x80000000 then
        scaled significand.toUInt64.toFloat (if negative then power - exponent else power + exponent)
      else if negative || significand == 0 then some 0
      else none
  magnitude.map fun x => if n.negative then -x else x

end Numeral

/-- The text of a string; none if it holds half of a character that two units write together. -/
def text? : List Piece → Option (List Char)
  | [] => some []
  | .plain c :: pieces => (text? pieces).map (c :: ·)
  | .escaped c :: pieces => (text? pieces).map (c :: ·)
  | .unit n :: pieces =>
    if n < 0xD800 ∨ 0xDFFF < n then (text? pieces).map (Char.ofNat n :: ·)
    else if 0xDC00 ≤ n then none
    else
      match pieces with
      | .unit m :: pieces =>
        if 0xDC00 ≤ m ∧ m ≤ 0xDFFF then
          (text? pieces).map (Char.ofNat (0x10000 + (n - 0xD800) * 0x400 + (m - 0xDC00)) :: ·)
        else none
      | _ => none

/-- A string as it is written: quotes, backslashes and controls are escaped, the usual controls by a
letter and the others by their number. -/
def pieceOf (c : Char) : Piece :=
  if c = '"' ∨ c = '\\' ∨ c = '\x08' ∨ c = '\x0c' ∨ c = '\n' ∨ c = '\r' ∨ c = '\t' then .escaped c
  else if c.toNat < 0x20 then .unit c.toNat
  else .plain c

/-- A text as a string. -/
def ofString (s : String) : Json :=
  .string (s.toList.map pieceOf)

/-- An integer. -/
def ofInt (n : Int) : Json :=
  .number (.ofInt n)

/-- An object with the given fields. -/
def record (fields : List (String × Json)) : Json :=
  .object (fields.map fun (name, value) => (name.toList.map pieceOf, value))

end Json

end Tabletop
