import Tabletop.Conditional
import Tabletop.Text.CodePoints

/-!
# Conditional suffixes

A dice term and some modifiers may be followed by conditionals such as `>=5!=-1`, each an operator
and an integer. The suffix reaches as far as operators are followed by decimal digits of any
script; a conditional counts only if its integer begins with ASCII digits and fits 64 bits.
-/

namespace Tabletop.Suffix

open Text (isDigit)

/-- The comparison at the front of a text, with the rest: each of the three signs of two
characters may be written in either order. -/
def comparison? : List Char → Option (Comparison × List Char)
  | '!' :: '=' :: cs => some (.ne, cs)
  | '=' :: '!' :: cs => some (.ne, cs)
  | '>' :: '=' :: cs => some (.ge, cs)
  | '=' :: '>' :: cs => some (.ge, cs)
  | '<' :: '=' :: cs => some (.le, cs)
  | '=' :: '<' :: cs => some (.le, cs)
  | '=' :: cs => some (.eq, cs)
  | '>' :: cs => some (.gt, cs)
  | '<' :: cs => some (.lt, cs)
  | _ => none

/-- The value of a comparer: of its sign and the ASCII digits at its front. -/
def comparer? (negative : Bool) (digits : List Char) : Option Int64 :=
  let ascii := digits.takeWhile Char.isDigit
  Decimal.int64? (if negative then '-' :: ascii else ascii)

/-- Whether a text starts with a minus sign, and the text after it. -/
def minus : List Char → Bool × List Char
  | '-' :: cs => (true, cs)
  | cs => (false, cs)

/-- A comparison and an integer at the front of a text, with the rest. The conditional itself is
missing if its comparer has no value. -/
def conditional? (cs : List Char) : Option (Option Conditional × List Char) :=
  match comparison? cs with
  | none => none
  | some (comparison, after) =>
    let (negative, unsigned) := minus after
    let digits := unsigned.takeWhile isDigit
    if digits.isEmpty then none
    else some ((comparer? negative digits).map (⟨comparison, ·⟩), unsigned.dropWhile isDigit)

theorem length_of_comparison? {cs rest : List Char} {c : Comparison}
    (h : comparison? cs = some (c, rest)) : rest.length < cs.length := by
  unfold comparison? at h
  split at h <;> grind

theorem length_minus_le (cs : List Char) : (minus cs).2.length ≤ cs.length := by
  unfold minus
  split <;> simp

theorem length_of_conditional? {cs rest : List Char} {c : Option Conditional}
    (h : conditional? cs = some (c, rest)) : rest.length < cs.length := by
  unfold conditional? at h
  split at h
  · simp at h
  · next after h' =>
    dsimp only at h
    split at h
    · simp at h
    · simp only [Option.some.injEq, Prod.mk.injEq] at h
      rw [← h.2]
      exact Nat.lt_of_le_of_lt
        (Nat.le_trans (List.dropWhile_suffix _).length_le (length_minus_le _))
        (length_of_comparison? h')

/-- The conditionals at the front of a text, with the rest. -/
def conditionals (cs : List Char) : List Conditional × List Char :=
  match _h : conditional? cs with
  | none => ([], cs)
  | some (c, rest) =>
    let (others, last) := conditionals rest
    (c.toList ++ others, last)
  termination_by cs.length
  decreasing_by exact length_of_conditional? _h

theorem length_conditionals_le (cs : List Char) : (conditionals cs).2.length ≤ cs.length := by
  fun_induction conditionals cs with
  | case1 => exact Nat.le_refl _
  | case2 cs c rest found others last more ih =>
    rw [more] at ih
    exact Nat.le_trans ih (Nat.le_of_lt (length_of_conditional? found))

end Tabletop.Suffix
