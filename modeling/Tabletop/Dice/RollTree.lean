import Tabletop.Dice.Modify

/-!
# Rolled expressions

The tree of a dice notation after rolling: every group holds its dice. The total of a tree is
computed from it without rolling again, and fails at the first operation, from the left and from
the inside, whose result is not finite.
-/

namespace Tabletop

/-- The dice of a stunt: two regular ones and the stunt die. -/
structure StuntRoll where
  written : String
  regular : UInt32 × UInt32
  stunt : UInt32
  deriving DecidableEq

namespace StuntRoll

/-- Whether two of the dice show the same. -/
def isStunt (s : StuntRoll) : Bool :=
  s.regular.1 == s.regular.2 || s.regular.1 == s.stunt || s.regular.2 == s.stunt

/-- The stunt points: the stunt die, if two of the dice show the same. -/
def points (s : StuntRoll) : UInt32 :=
  if s.isStunt then s.stunt else 0

/-- The sum of the three dice. -/
def total (s : StuntRoll) : Number :=
  .int (Int64.ofNat (s.regular.1.toNat + s.regular.2.toNat + s.stunt.toNat))

end StuntRoll

/-- The tree of a rolled notation. -/
inductive RollTree where
  | literal (value : Number)
  | dice (group : RollGroup)
  | stunt (roll : StuntRoll)
  | grouping (inner : RollTree)
  | negate (inner : RollTree)
  | binary (left : RollTree) (op : BinaryOperator) (right : RollTree)
  deriving DecidableEq

namespace RollTree

/-- The groups of dice in the order in which they were rolled. -/
def groups : RollTree → List RollGroup
  | literal _ => []
  | dice group => [group]
  | stunt _ => []
  | grouping inner => inner.groups
  | negate inner => inner.groups
  | binary left _ right => left.groups ++ right.groups

/-- The total of a tree. -/
def total : RollTree → Except EvaluationError Number
  | literal value => .ok value
  | dice group => .ok group.total
  | stunt roll => .ok roll.total
  | grouping inner => inner.total
  | negate inner => do
    let a ← inner.total
    return a.neg
  | binary left op right => do
    let a ← left.total
    let b ← right.total
    let value := a.apply op b
    if value.isFinite then return value else throw (.nonFinite a op b)

/-- Whether two trees are the same up to the distinction of integers and floats of equal value. -/
def same : RollTree → RollTree → Bool
  | literal a, literal b => a.same b
  | dice a, dice b => a = b
  | stunt a, stunt b => a = b
  | grouping a, grouping b => a.same b
  | negate a, negate b => a.same b
  | binary a op b, binary a' op' b' => a.same a' && op = op' && b.same b'
  | _, _ => false

end RollTree

namespace Expr

/-- Rolls the dice of an expression from left to right. -/
def roll (context : RollContext) : Expr → Evaluation RollTree
  | literal value => return .literal value
  | dice group => return .dice (← RollGroup.roll context group)
  | stunt written => do
    let first ← context.rollOne context.stuntFaces
    let second ← context.rollOne context.stuntFaces
    let stunt ← context.rollOne context.stuntFaces
    return .stunt ⟨written, (first, second), stunt⟩
  | grouping inner => return .grouping (← inner.roll context)
  | negate inner => return .negate (← inner.roll context)
  | binary left op right => do
    let left ← left.roll context
    let right ← right.roll context
    return .binary left op right

end Expr

end Tabletop
