import Tabletop.Dice.Breakdown

/-!
# Results

The result of a dice notation: the notation, the total, the breakdown with markup, and the rolled
tree from which the other two can be computed again.
-/

namespace Tabletop

/-- The result of a dice notation. -/
structure RollResult where
  /-- The notation. -/
  written : String
  total : Number
  /-- The breakdown of the tree. -/
  display : String
  tree : RollTree
  deriving DecidableEq

namespace RollResult

/-- The result that a rolled tree gives, if its total is finite. -/
def ofTree (written : String) (tree : RollTree) : Except EvaluationError RollResult := do
  let total ← tree.total
  return { written, total, display := Breakdown.markdown.tree tree, tree }

/-- The groups of dice in the order in which they were rolled. -/
def groups (r : RollResult) : List RollGroup :=
  r.tree.groups

/-- The breakdown followed by the total. -/
def shown (r : RollResult) (b : Breakdown) : String :=
  b.tree r.tree ++ " = " ++ b.total r.total.text

/-- The stored breakdown followed by the total. -/
def text (r : RollResult) : String :=
  r.display ++ " = " ++ Breakdown.markdown.total r.total.text

/-- Whether two results are the same up to the distinction of integers and floats of equal
value. -/
def same (a b : RollResult) : Bool :=
  a.written = b.written && a.total.same b.total && a.display = b.display && a.tree.same b.tree

end RollResult

namespace Expression

/-- Rolls an expression. -/
def roll (context : RollContext) (e : Expression) : Evaluation RollResult := do
  let tree ← e.root.roll context
  RollResult.ofTree e.written tree

end Expression

end Tabletop
