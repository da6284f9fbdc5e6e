import Tabletop.Rolling

/-!
# Random rollers

A generator of random numbers answers with numbers that are spread evenly over the range.
-/

namespace Tabletop

/-- An integer of a range from a generator. -/
def uniformInt64 (lo hi : Int64) (g : StdGen) : Int64 × StdGen :=
  if hi ≤ lo then (lo, g)
  else
    let (offset, g) := randNat g 0 (hi.toInt - lo.toInt).toNat
    (Int64.ofInt (lo.toInt + offset), g)

instance : Roller StdGen := ⟨uniformInt64⟩

end Tabletop
