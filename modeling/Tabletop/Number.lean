import Tabletop.Decimal.Integer
import Tabletop.Decimal.Layout
import Tabletop.Operator

/-!
# Numbers

Totals are exact integers as long as they fit a word of 64 bits. An operation whose exact result
does not fit goes on with floats, and division always does.
-/

namespace Tabletop

open Decimal (toInt64?)

/-- An exact integer or a float. -/
inductive Number where
  | int (n : Int64)
  | float (x : Float)
  deriving DecidableEq

namespace Number

instance : Inhabited Number := ⟨int 0⟩

/-- The number as a float, rounded to the nearest. -/
def toFloat : Number → Float
  | int n => .ofInt n.toInt
  | float x => x

/-- The number as an integer: a float loses its fraction, stops at the ends of the range, and is 0
if it is not a number. -/
def toInt64 : Number → Int64
  | int n => n
  | float x => x.toInt64

/-- Whether the number is neither infinite nor undefined. -/
def isFinite : Number → Bool
  | int _ => true
  | float x => x.isFinite

/-- An operation on two numbers: exact on integers where its result fits, on floats otherwise. -/
def combine (exact : Int → Int → Int) (rounded : Float → Float → Float) : Number → Number → Number
  | int a, int b =>
    match toInt64? (exact a.toInt b.toInt) with
    | some n => int n
    | none => float (rounded (int a).toFloat (int b).toFloat)
  | a, b => float (rounded a.toFloat b.toFloat)

/-- The sum. -/
def add : Number → Number → Number :=
  combine (· + ·) (· + ·)

/-- The difference. -/
def sub : Number → Number → Number :=
  combine (· - ·) (· - ·)

/-- The product. -/
def mul : Number → Number → Number :=
  combine (· * ·) (· * ·)

/-- The quotient, always a float. -/
def div (a b : Number) : Number :=
  float (a.toFloat / b.toFloat)

/-- The exact power of an integer, if it fits 64 bits. Only 0, 1 and -1 have powers beyond the
63rd that fit. -/
def exactPower? (base : Int) (exponent : Nat) : Option Int64 :=
  if exponent < 64 then toInt64? (Int.pow base exponent)
  else if base = 0 then some 0
  else if base = 1 then some 1
  else if base = -1 then some (if exponent % 2 = 0 then 1 else -1)
  else none

/-- The power, exact for integers with an exponent below `2 ^ 32` where the result fits. -/
def pow : Number → Number → Number
  | int a, int b =>
    let exact :=
      if 0 ≤ b.toInt ∧ b.toInt < UInt32.size then exactPower? a.toInt b.toInt.toNat else none
    match exact with
    | some n => int n
    | none => float ((int a).toFloat ^ (int b).toFloat)
  | a, b => float (a.toFloat ^ b.toFloat)

/-- The opposite. -/
def neg : Number → Number
  | int a =>
    match toInt64? (-a.toInt) with
    | some n => int n
    | none => float (-(int a).toFloat)
  | float x => float (-x)

/-- The sum of a list, from the left. -/
def sum (numbers : List Number) : Number :=
  numbers.foldl add (int 0)

/-- The result of an operator. -/
def apply (op : BinaryOperator) (a b : Number) : Number :=
  match op with
  | .add => a.add b
  | .sub => a.sub b
  | .mul => a.mul b
  | .div => a.div b
  | .pow => a.pow b

/-- Whether two numbers are the same float. -/
def same (a b : Number) : Bool :=
  a.toFloat == b.toFloat

/-- The order of two numbers as floats; none if one of them is not a number. -/
def compare? (a b : Number) : Option Ordering :=
  if a.toFloat < b.toFloat then some .lt
  else if a.toFloat == b.toFloat then some .eq
  else if b.toFloat < a.toFloat then some .gt
  else none

/-- The number as displays show it. -/
def text : Number → String
  | int n => Decimal.ofInt n.toInt
  | float x => Decimal.plain x

end Number

end Tabletop
