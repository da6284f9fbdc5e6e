import Tabletop.Conditional
import Tabletop.Dice.Die
import Tabletop.Number

/-!
# Groups of rolled dice

The dice rolled for one group of a notation. If the group has conditionals its total is the number
of dice that satisfy them, otherwise the sum of the dice; dropped dice do not count.
-/

namespace Tabletop

/-- The dice rolled for one group. -/
structure RollGroup where
  /-- The text of the group in the notation. -/
  written : String
  /-- The number of dice asked for. -/
  count : UInt32
  faces : Faces
  conditionals : List Conditional
  /-- The dice asked for and those added by explosions, in this order. -/
  dice : List Die
  deriving DecidableEq

/-- What a die adds to the sum of its group. -/
def Die.total (d : Die) : Number :=
  .int (if d.dropped then 0 else d.value)

namespace RollGroup

/-- The values of the dice, dropped ones too. -/
def values (g : RollGroup) : List Int64 :=
  g.dice.map Die.value

/-- The dice that count. -/
def live (g : RollGroup) : List Die :=
  g.dice.filter (!·.dropped)

/-- Whether the group counts dice instead of adding them up. -/
def countsSuccesses (g : RollGroup) : Bool :=
  !g.conditionals.isEmpty

/-- The number of successes, or the sum of the dice. -/
def total (g : RollGroup) : Number :=
  if g.countsSuccesses then .int (Int64.ofNat (g.live.countP (·.matched)))
  else Number.sum (g.live.map Die.total)

/-- The group with each die that counts marked as matched or not, if there are conditionals. -/
def markMatches (g : RollGroup) (policy : MatchPolicy) : RollGroup :=
  if g.countsSuccesses then
    { g with
      dice := g.dice.map fun d =>
        if d.dropped then d else { d with matched := policy.check g.conditionals d.value } }
  else g

end RollGroup

end Tabletop
