/-!
# Binary operators

The five operators of arithmetic, and the table that says how strongly each binds.
-/

namespace Tabletop

/-- An operator between two operands. -/
inductive BinaryOperator where
  | add
  | sub
  | mul
  | div
  | pow
  deriving DecidableEq, Repr

namespace BinaryOperator

/-- The sign of an operator. -/
def toChar : BinaryOperator → Char
  | add => '+'
  | sub => '-'
  | mul => '*'
  | div => '/'
  | pow => '^'

/-- The operator written as the given text. -/
def ofString? : String → Option BinaryOperator
  | "+" => some add
  | "-" => some sub
  | "*" => some mul
  | "/" => some div
  | "^" => some pow
  | _ => none

theorem ofString?_toChar (op : BinaryOperator) : ofString? (String.singleton op.toChar) = some op := by
  cases op <;> rfl

end BinaryOperator

/-- Which way a chain of operators of equal strength is grouped. -/
inductive Associativity where
  | left
  | right
  deriving DecidableEq, Repr

/-- How an operator binds. -/
structure Binding where
  precedence : UInt8
  associativity : Associativity
  deriving DecidableEq, Repr

/-- The binding of each operator that may be used. -/
structure PrecedenceTable where
  binding : BinaryOperator → Option Binding

namespace PrecedenceTable

/-- The table without operators. -/
def empty : PrecedenceTable where
  binding _ := none

/-- The table with one operator bound anew. -/
def bind (table : PrecedenceTable) (op : BinaryOperator) (precedence : UInt8)
    (associativity : Associativity) : PrecedenceTable where
  binding other := if other = op then some ⟨precedence, associativity⟩ else table.binding other

/-- The bindings of arithmetic: powers before products before sums, and only powers group to the
right. -/
def standard : PrecedenceTable :=
  empty
    |>.bind .add 1 .left
    |>.bind .sub 1 .left
    |>.bind .mul 2 .left
    |>.bind .div 2 .left
    |>.bind .pow 3 .right

/-- The strength of an operator, 0 for one that is not in the table. -/
def strength (table : PrecedenceTable) (op : BinaryOperator) : UInt8 :=
  match table.binding op with
  | some binding => binding.precedence
  | none => 0

/-- The strength of the operators that bind most strongly. A leading minus binds as they do, so
that `-2^2` is the opposite of `2^2`. -/
def greatest (table : PrecedenceTable) : UInt8 :=
  [BinaryOperator.add, .sub, .mul, .div, .pow].foldl (fun m op => max m (table.strength op)) 0

end PrecedenceTable

/-- The least strength that the right operand of an operator has to have: operators of equal
strength stay with it if the operator groups to the right. Strengths are bytes; none if the sum is
no byte. -/
def Binding.rightOperand (binding : Binding) : Option UInt8 :=
  match binding.associativity with
  | .left =>
    if binding.precedence.toNat + 1 < UInt8.size then some (binding.precedence + 1) else none
  | .right => some binding.precedence

end Tabletop
