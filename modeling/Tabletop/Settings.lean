import Tabletop.Conditional
import Tabletop.SortedMap

/-!
# Settings

What a table of players may agree on before rolling: the dice that are meant when a notation
leaves out their number or faces, the limits, and the names of whole formulas.
-/

namespace Tabletop

/-- What is done when more entries are asked for than there are. -/
inductive Exhaustion where
  /-- Entries are drawn independently and may repeat. -/
  | repeat
  /-- Every entry is drawn once. -/
  | truncate
  deriving DecidableEq, Repr

/-- The settings under which notations are rolled. -/
structure Settings where
  /-- The number of dice where a notation names none. -/
  defaultRoll : UInt32 := 1
  /-- The number of faces where a notation names none. -/
  defaultFace : UInt32 := 100
  /-- What an unlimited repetition stands for, and the limit of every repetition. -/
  unboundedCap : UInt32 := 100
  /-- The faces of the dice of a stunt; 0 counts as 1. -/
  stuntFaces : UInt32 := 6
  /-- How the conditionals of a modifier combine. -/
  conditionalPolicy : MatchPolicy := .all
  /-- The limit on the dice of one evaluation, if there is one. -/
  maxRolls : Option UInt64 := some 10000
  /-- Whether a tag draws from each of its notes, not from all of them together. -/
  returnAllTags : Bool := true
  /-- Whether a tag without a selector draws a link. -/
  rollLinksForTags : Bool := false
  /-- What is done when more entries are asked for than there are. -/
  tableExhaustion : Exhaustion := .repeat
  /-- Whether results are stored and used again. -/
  persistResults : Bool := false
  /-- Names of whole notations. -/
  formulas : SortedMap String String := .empty
  deriving DecidableEq

end Tabletop
