/-!
# The shortest decimal that names a float

A finite float is `significand * 2 ^ exponent`. The reals nearer to it than to any other float
form an interval, whose ends belong to it if the significand is even. Among the decimals
`digits * 10 ^ power` in that interval the one with the greatest power has the fewest digits,
and of two such decimals the nearer is taken. All arithmetic here is exact.
-/

namespace Tabletop.Decimal

/-- A finite float, taken apart: `significand * 2 ^ exponent`, with a sign. -/
structure Dyadic where
  negative : Bool
  significand : Nat
  exponent : Int
  deriving DecidableEq, Repr

/-- The parts of a finite float. The exponent bits are biased by 1075, and a normal float has a
leading bit that is not stored. -/
def Dyadic.ofFloat (x : Float) : Dyadic :=
  let bits := x.toBits.toNat
  let biased : Nat := bits / Nat.pow 2 52 % Nat.pow 2 11
  let fraction : Nat := bits % Nat.pow 2 52
  let negative := bits / Nat.pow 2 63 = 1
  if biased = 0 then ⟨negative, fraction, -1074⟩
  else ⟨negative, fraction + Nat.pow 2 52, (biased : Int) - 1075⟩

/-- What is done with a float exactly halfway between two decimals of the same length. -/
inductive Tie where
  /-- The greater decimal is taken. -/
  | up
  /-- The decimal whose last digit is even is taken. -/
  | even
  deriving DecidableEq, Repr

/-- A decimal `digits * 10 ^ power`. -/
structure Scaled where
  digits : Nat
  power : Int
  deriving DecidableEq, Repr

/-- The interval of the reals that round to a float, in units of `1 / scale`: the ends, the float
itself, and whether the ends belong to it. Below a power of two the floats lie closer. -/
structure Interval where
  low : Nat
  value : Nat
  high : Nat
  scale : Nat
  closed : Bool

/-- The interval of the reals that round to a positive float. -/
def Dyadic.interval (x : Dyadic) : Interval :=
  let below := if x.significand = Nat.pow 2 52 ∧ x.exponent ≠ -1074 then 1 else 2
  let up := Nat.pow 2 (x.exponent - 2).toNat
  { low := (4 * x.significand - below) * up
    value := 4 * x.significand * up
    high := (4 * x.significand + 2) * up
    scale := Nat.pow 2 (2 - x.exponent).toNat
    closed := x.significand % 2 = 0 }

/-- Whether `digits * 10 ^ power` lies in the interval. -/
def Interval.contains (i : Interval) (d : Scaled) : Bool :=
  let point := d.digits * Nat.pow 10 d.power.toNat * i.scale
  let unit := Nat.pow 10 (-d.power).toNat
  if i.closed then i.low * unit ≤ point && point ≤ i.high * unit
  else i.low * unit < point && point < i.high * unit

/-- The decimal with the given power in the interval that is nearest to the float, if there is
one: it is one of the two neighbours of the float. -/
def Interval.nearest? (i : Interval) (tie : Tie) (power : Int) : Option Scaled :=
  let value := i.value * Nat.pow 10 (-power).toNat
  let unit := i.scale * Nat.pow 10 power.toNat
  let floor := value / unit
  let twice := 2 * (value % unit)
  let preferUp := unit < twice || (twice == unit && (tie = .up || floor % 2 == 1))
  let down : Scaled := ⟨floor, power⟩
  let up : Scaled := ⟨floor + 1, power⟩
  match i.contains down, i.contains up with
  | true, true => some (if preferUp then up else down)
  | true, false => some down
  | false, true => some up
  | false, false => none

/-- A power of ten above the float: `2 ^ n ≤ 10 ^ m` if `n * log 2 ≤ m`, and 0.30103 is a little
more than the decimal logarithm of two. -/
def Dyadic.powerAbove (x : Dyadic) : Int :=
  (x.significand.log2 + 1 + x.exponent) * 30103 / 100000 + 2

/-- The first hit on the grids of `tries` powers, downwards from `power`. -/
def Interval.search (i : Interval) (tie : Tie) (power : Int) : (tries : Nat) → Scaled
  | 0 => ⟨0, power⟩
  | tries + 1 =>
    match i.nearest? tie power with
    | some d => d
    | none => i.search tie (power - 1) tries

/-- The shortest decimal that names a finite float, sign aside. Twenty-two grids are more than
enough, since every float has a decimal of seventeen digits. -/
def shortest (tie : Tie) (x : Dyadic) : Scaled :=
  if x.significand = 0 then ⟨0, 0⟩ else x.interval.search tie x.powerAbove 22

end Tabletop.Decimal
