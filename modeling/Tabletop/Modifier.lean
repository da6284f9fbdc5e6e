import Tabletop.Conditional

/-!
# Modifiers

What may be asked of a group of dice after it is rolled: to roll some of them again, to let some
explode, or to keep or drop some.
-/

namespace Tabletop

/-- The end of the ordered dice from which to keep or drop. -/
inductive Side where
  | high
  | low
  deriving DecidableEq, Repr

/-- The letter of a side. -/
def Side.text : Side → String
  | high => "h"
  | low => "l"

/-- A change to a group of rolled dice. -/
inductive Modifier where
  /-- Roll each die again while it satisfies the conditionals (without any: while it shows 1), at
  most `times` times. -/
  | reroll (times : UInt32) (conditionals : List Conditional)
  /-- Add a die for each die that satisfies the conditionals (without any: that shows its highest
  face), and again for the added one, at most `times` times. -/
  | explode (times : UInt32) (conditionals : List Conditional)
  /-- As `explode`, but the new value is added to the die itself. -/
  | explodeCombine (times : UInt32) (conditionals : List Conditional)
  /-- Drop all but the `count` dice that are best on a side. -/
  | keep (side : Side) (count : UInt32)
  /-- Drop the `count` dice that are best on a side. -/
  | drop (side : Side) (count : UInt32)
  deriving DecidableEq, Repr

namespace Modifier

/-- A repeating modifier: its sign, the number of times unless it is one, the conditionals. -/
def repeatText (sign : String) (times : UInt32) (conditionals : List Conditional) : String :=
  sign ++ (if times = 1 then "" else toString times.toNat) ++ Conditional.textAll conditionals

/-- A modifier as notations write it. -/
def text : Modifier → String
  | reroll times conditionals => repeatText "r" times conditionals
  | explode times conditionals => repeatText "!" times conditionals
  | explodeCombine times conditionals => repeatText "!!" times conditionals
  | keep side count => "k" ++ side.text ++ toString count.toNat
  | drop side count => "d" ++ side.text ++ toString count.toNat

end Modifier

end Tabletop
