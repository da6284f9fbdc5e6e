import Tabletop.Rolling
import Tabletop.Settings

/-!
# Drawing entries

Entries are drawn by their places, each at most once: the places are shuffled as far as needed.
When more entries are asked for than there are, either all of them are drawn in a random order, or
they are drawn independently.
-/

namespace Tabletop.Draw

/-- The place that a drawn integer stands for, the last one if it lies beyond. A roller that keeps
to its range never gives such an integer. -/
def placeOf (last v : Int64) : Nat :=
  (min v.toUInt64 last.toUInt64).toNat

/-- Places drawn independently from those up to `last`, after those in `drawn`, which is in
reverse. -/
def independent (last : Int64) : (count : Nat) → (drawn : List Nat) → Rolling (List Nat)
  | 0, drawn => .done drawn.reverse
  | count + 1, drawn => .draw 0 last fun v => independent last count (placeOf last v :: drawn)

/-- Settles `count` places of the pool from the place `i` on: each is exchanged with one drawn from
it and those after it. -/
def shuffle (last : Int64) : (count i : Nat) → (pool : Array Nat) → Rolling (Array Nat)
  | 0, _, pool => .done pool
  | count + 1, i, pool =>
    .draw (Int64.ofNat i) last fun v =>
      shuffle last count (i + 1) (pool.swapIfInBounds i (placeOf last v))

/-- Draws the places of `count` entries among `population`. -/
def places (population count : Nat) (exhaustion : Exhaustion) : Rolling (List Nat) :=
  let last := Int64.ofNat population - 1
  if population = 0 then return []
  else if population < count ∧ exhaustion = .repeat then independent last count []
  else do
    let count := min count population
    let pool ← shuffle last count 0 (Array.range population)
    return (pool.take count).toList

/-- Draws `count` of the given entries. -/
def entries (all : List α) (count : Nat) (exhaustion : Exhaustion) : Rolling (List α) := do
  let pool := all.toArray
  let places ← places pool.size count exhaustion
  return places.filterMap (pool[·]?)

end Tabletop.Draw
