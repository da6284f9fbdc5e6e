import Tabletop.Number
import Tabletop.Rolling
import Tabletop.Settings
import Tabletop.Text.Escapes

/-!
# Evaluations

An evaluation is a roll that counts its dice and fails when there are too many. The count goes on
after a failure, since several notations can be evaluated one after the other under one limit.
-/

namespace Tabletop

/-- Why an evaluation fails. -/
inductive EvaluationError where
  /-- More dice were asked for than the limit allows. -/
  | tooManyRolls
  /-- An operation has no finite result. -/
  | nonFinite (left : Number) (op : BinaryOperator) (right : Number)
  /-- A stored result does not belong to the notation that it was to be used for. -/
  | staleResult (expected found : String)
  deriving DecidableEq

/-- The error in words. -/
def EvaluationError.message : EvaluationError → String
  | tooManyRolls => "too many dice rolled"
  | nonFinite left op right =>
    left.text ++ " " ++ String.singleton op.toChar ++ " " ++ right.text ++ " is not a finite number"
  | staleResult expected found =>
    "stored result for " ++ Text.quoted found ++ " does not match notation " ++ Text.quoted expected

/-- The rules under which an evaluation runs. -/
structure RollContext where
  /-- The limit on the number of dice. -/
  maxRolls : Option UInt64
  /-- How the conditionals of a modifier combine. -/
  policy : MatchPolicy
  /-- The limit on repetitions. -/
  cap : UInt32
  /-- The faces of the dice of a stunt. -/
  stuntFaces : Faces
  deriving DecidableEq

/-- The rules that settings lay down. -/
def RollContext.ofSettings (s : Settings) : RollContext where
  maxRolls := s.maxRolls
  policy := s.conditionalPolicy
  cap := s.unboundedCap
  stuntFaces := (Faces.ofWord? s.stuntFaces).getD .one

/-- A roll that counts dice: it is given the count so far and returns the count after it. -/
abbrev Counted :=
  StateT Nat Rolling

/-- A counting roll that may fail. -/
abbrev Evaluation :=
  ExceptT EvaluationError Counted

namespace RollContext

/-- Whether a number of dice is within the limit. -/
def allows (context : RollContext) (rolls : Nat) : Bool :=
  match context.maxRolls with
  | some limit => rolls ≤ limit.toNat
  | none => true

/-- Counts dice, and fails if they are too many. -/
def count (context : RollContext) (n : Nat) : Evaluation Unit := do
  let rolls := (← get) + n
  set rolls
  unless context.allows rolls do throw .tooManyRolls

/-- Rolls a number of dice of one kind. -/
def rollMany (context : RollContext) (n : Nat) (faces : Faces) : Evaluation (List UInt32) := do
  context.count n
  (Rolling.many n faces : Rolling _)

/-- Rolls one die. -/
def rollOne (context : RollContext) (faces : Faces) : Evaluation UInt32 := do
  context.count 1
  (Rolling.face faces : Rolling _)

/-- The number of repetitions that a modifier may make. -/
def capped (context : RollContext) (times : UInt32) : Nat :=
  (min times context.cap).toNat

end RollContext

end Tabletop
