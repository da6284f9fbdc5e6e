import Tabletop.Decimal.Integer

/-!
# Conditionals

A conditional compares the value of a die with a fixed integer. A list of them is combined under
a policy.
-/

namespace Tabletop

/-- A comparison of two integers. -/
inductive Comparison where
  | eq
  | ne
  | gt
  | ge
  | lt
  | le
  deriving DecidableEq, Repr

namespace Comparison

/-- Whether the comparison holds. -/
def holds : Comparison → Int64 → Int64 → Bool
  | eq, a, b => a == b
  | ne, a, b => a != b
  | gt, a, b => b < a
  | ge, a, b => b ≤ a
  | lt, a, b => a < b
  | le, a, b => a ≤ b

/-- The sign of the comparison. -/
def text : Comparison → String
  | eq => "="
  | ne => "!="
  | gt => ">"
  | ge => ">="
  | lt => "<"
  | le => "<="

end Comparison

/-- A comparison with a fixed integer. -/
structure Conditional where
  comparison : Comparison
  comparer : Int64
  deriving DecidableEq, Repr

namespace Conditional

/-- Whether a value satisfies the conditional. -/
def accepts (c : Conditional) (value : Int64) : Bool :=
  c.comparison.holds value c.comparer

/-- The sign and the integer. -/
def text (c : Conditional) : String :=
  c.comparison.text ++ Decimal.ofInt c.comparer.toInt

/-- Several conditionals, one after the other. -/
def textAll (cs : List Conditional) : String :=
  String.join (cs.map text)

end Conditional

/-- How several conditionals combine. -/
inductive MatchPolicy where
  /-- Every one has to hold. -/
  | all
  /-- One of them has to hold. -/
  | any
  deriving DecidableEq, Repr

/-- Whether a value satisfies the conditionals under the policy. No conditionals are satisfied by
no value. -/
def MatchPolicy.check (policy : MatchPolicy) (conditionals : List Conditional) (value : Int64) :
    Bool :=
  if conditionals.isEmpty then false
  else
    match policy with
    | all => conditionals.all (·.accepts value)
    | any => conditionals.any (·.accepts value)

end Tabletop
