import Tabletop.Faces
import Tabletop.Modifier
import Tabletop.Number

/-!
# Dice expressions

The tree of a dice notation: numbers, groups of dice and stunts, joined by operators and
parentheses. An expression keeps the text it was written as, and so does each group of dice,
because results are recognised by these texts.
-/

namespace Tabletop

/-- Dice of one kind, rolled together. -/
structure DiceGroup where
  count : UInt32
  faces : Faces
  /-- If there are any, the group counts the dice that satisfy them instead of adding up. -/
  conditionals : List Conditional
  /-- What is done with the rolled dice, in this order. -/
  modifiers : List Modifier
  /-- The text of the group, with that of its modifiers. -/
  written : String
  deriving DecidableEq

/-- A group in canonical form: count, faces, conditionals and modifiers. -/
def DiceGroup.text (g : DiceGroup) : String :=
  toString g.count.toNat ++ "d" ++ g.faces.text ++ Conditional.textAll g.conditionals ++
    String.join (g.modifiers.map Modifier.text)

/-- The tree of a dice notation. -/
inductive Expr where
  | literal (value : Number)
  | dice (group : DiceGroup)
  /-- The three dice of a stunt, and the text they were written as. -/
  | stunt (written : String)
  /-- An expression in parentheses. -/
  | grouping (inner : Expr)
  | negate (inner : Expr)
  | binary (left : Expr) (op : BinaryOperator) (right : Expr)
  deriving DecidableEq

namespace Expr

/-- The groups of dice from left to right, which is the order in which they are rolled. -/
def groups : Expr → List DiceGroup
  | literal _ => []
  | dice group => [group]
  | stunt _ => []
  | grouping inner => inner.groups
  | negate inner => inner.groups
  | binary left _ right => left.groups ++ right.groups

/-- The tree with every operation in square brackets. -/
def text : Expr → String
  | literal value => value.text
  | dice group => group.text
  | stunt written => written
  | grouping inner => "(" ++ inner.text ++ ")"
  | negate inner => "-" ++ inner.text
  | binary left op right =>
    "[" ++ left.text ++ " " ++ String.singleton op.toChar ++ " " ++ right.text ++ "]"

end Expr

/-- A parsed notation. -/
structure Expression where
  root : Expr
  /-- The notation it was parsed from. -/
  written : String
  deriving DecidableEq

/-- The groups of dice in the order in which they are rolled. -/
def Expression.groups (e : Expression) : List DiceGroup :=
  e.root.groups

end Tabletop
