import Tabletop.Decimal.Integer
import Tabletop.Rolling

/-!
# Rollers with given answers

A sequence roller hands out the values of a list in turn and starts again at its end, so that
rolls can be repeated exactly. A value outside the range that was asked for is moved into it by
a multiple of the length of the range.

The computation is one in signed words of 64 bits, and breaks off where a result is no such word:
there is no answer then. A roll has to go on with some answer, so the roller gives the lower end and
notes that it has been stopped. What is rolled with a roller that has been stopped counts for
nothing.
-/

namespace Tabletop

open Decimal (toInt64?)

/-- A roller that hands out given values. -/
structure SequenceRoller where
  values : Array Int64
  /-- The number of values handed out so far. -/
  drawn : Nat := 0
  /-- An answer could not be computed. -/
  stopped : Bool := false
  deriving DecidableEq

namespace SequenceRoller

/-- A roller that starts at the front of a list. -/
def ofList (values : List Int64) : SequenceRoller where
  values := values.toArray

/-- The remainder of a division of words that is not negative: none for the divisor 0, and for the
one quotient that is no word. -/
def remainder? (a b : Int64) : Option Int64 :=
  if b = 0 ∨ (a = Int64.minValue ∧ b = -1) then none else some (Int64.ofInt (a.toInt % b.toInt))

/-- The number congruent to `value` that lies in the range. None if a value outside is too far from
the lower end, or the range too long, for a word. -/
def wrap? (lo hi value : Int64) : Option Int64 :=
  if lo ≤ value ∧ value ≤ hi then some value
  else do
    let distance ← toInt64? (value.toInt - lo.toInt)
    let last ← toInt64? (hi.toInt - lo.toInt)
    let length ← toInt64? (last.toInt + 1)
    let rest ← remainder? distance length
    toInt64? (lo.toInt + rest.toInt)

/-- The next value, moved into the range; none if that breaks off. Nothing is handed out if there
are no values, or if the range leaves no choice; the answer is then its lower end. -/
def uniform? (lo hi : Int64) (r : SequenceRoller) : Option (Int64 × SequenceRoller) :=
  match r.values[r.drawn % r.values.size]? with
  | none => some (lo, r)
  | some value =>
    if hi ≤ lo then some (lo, r)
    else (wrap? lo hi value).map fun v => (v, { r with drawn := r.drawn + 1 })

instance : Roller SequenceRoller where
  uniform lo hi r := (r.uniform? lo hi).getD (lo, { r with stopped := true })

end SequenceRoller

/-- A roller that several users hold: whoever asks, the one roller inside answers, and the others
go on where it stopped. -/
structure SharedRoller (ρ : Type) where
  inner : ρ

instance [Roller ρ] : Roller (SharedRoller ρ) where
  uniform lo hi r :=
    let (v, inner) := Roller.uniform lo hi r.inner
    (v, ⟨inner⟩)

end Tabletop
