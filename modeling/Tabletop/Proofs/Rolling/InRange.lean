import Tabletop.Proofs.Rolling.Always
import Tabletop.Rolling.Random

/-!
# Rollers that answer in the range

Some results hold only for rollers that answer with an integer of the range that was asked for.
Here is one that does, whatever it is given: its answers are chosen beforehand, and those outside
are moved to the nearer end of the range.  Examples of rolls under such a roller are computed with
it.
-/

namespace Tabletop

/-- A roller that hands out given answers in turn, and those outside the range that is asked for as
the nearer end of it. -/
structure ClampedRoller where
  answers : List Int64
  deriving DecidableEq

namespace ClampedRoller

/-- A value moved into a range. -/
def clamp (lo hi value : Int64) : Int64 :=
  if hi ≤ lo ∨ value ≤ lo then lo else if hi ≤ value then hi else value

theorem clamp_mem {lo hi : Int64} (order : lo ≤ hi) (value : Int64) :
    lo ≤ clamp lo hi value ∧ clamp lo hi value ≤ hi := by
  unfold clamp
  split
  · exact ⟨Int64.le_refl lo, order⟩
  · next above =>
    split
    · exact ⟨order, Int64.le_refl hi⟩
    · next below =>
      rw [not_or] at above
      exact ⟨Int64.le_of_lt (Int64.not_le.1 above.2), Int64.le_of_lt (Int64.not_le.1 below)⟩

instance : Roller ClampedRoller where
  uniform lo hi
    | ⟨[]⟩ => (lo, ⟨[]⟩)
    | ⟨value :: answers⟩ => (clamp lo hi value, ⟨answers⟩)

/-- **The roller keeps to its ranges**, also when it has run out of answers: then it gives the lower
end. -/
theorem inRange_admit : Answers.inRange.Admit ClampedRoller := by
  rintro lo hi ⟨_ | ⟨value, answers⟩⟩ order
  · exact ⟨Int64.le_refl lo, order⟩
  · exact clamp_mem order value

end ClampedRoller

end Tabletop
