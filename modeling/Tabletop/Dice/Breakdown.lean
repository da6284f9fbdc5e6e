import Tabletop.Dice.RollTree

/-!
# Breakdowns

A rolled expression is shown with the dice of every group. The plain breakdown shows only what
they showed; the one with markup also strikes out the dropped dice and sets the matched ones in
bold, and sets the total as code.
-/

namespace Tabletop

/-- A way of showing rolled expressions. -/
structure Breakdown where
  /-- How a die is shown, given the text of its history. -/
  die : Die → String → String
  /-- How a total is shown. -/
  total : String → String

/-- The history of a die: the faces it showed, joined by arrows, then what explosions added to
it, and a mark if it made an explosion happen without adding to it. -/
def Die.history (d : Die) : String :=
  " -> ".intercalate (d.rolls.map fun face => toString face.toNat) ++
    String.join (d.bonus.map fun value => "!+" ++ toString value.toNat) ++
    (if d.triggered && d.bonus.isEmpty then "!" else "")

namespace Breakdown

/-- The dice as they fell. -/
def simple : Breakdown where
  die _ text := text
  total text := text

/-- The dice with markup for those that match and those that do not count. -/
def markdown : Breakdown where
  die d text :=
    let text := if d.matched then "**" ++ text ++ "**" else text
    if d.dropped then "~~" ++ text ++ "~~" else text
  total text := "`" ++ text ++ "`"

/-- A group: its text and its dice. -/
def group (b : Breakdown) (g : RollGroup) : String :=
  g.written ++ " (" ++ ", ".intercalate (g.dice.map fun d => b.die d d.history) ++ ")"

/-- A stunt: its dice, and its points if it is one. -/
def stunt (s : StuntRoll) : String :=
  s.written ++ " (" ++ toString s.regular.1.toNat ++ ", " ++ toString s.regular.2.toNat ++ " | " ++
    toString s.stunt.toNat ++ ")" ++
    (if s.isStunt then " [" ++ toString s.points.toNat ++ " stunt points]" else "")

/-- A rolled expression. -/
def tree (b : Breakdown) : RollTree → String
  | .literal value => value.text
  | .dice g => b.group g
  | .stunt s => stunt s
  | .grouping inner => "(" ++ b.tree inner ++ ")"
  | .negate inner => "-" ++ b.tree inner
  | .binary left op right =>
    b.tree left ++ " " ++ String.singleton op.toChar ++ " " ++ b.tree right

end Breakdown

end Tabletop
