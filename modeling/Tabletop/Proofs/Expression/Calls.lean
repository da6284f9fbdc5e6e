import Mathlib.Logic.Relation
import Tabletop.Proofs.Expression.Fault

/-!
# The calls of a reading

The rules of climbing say what a reader has read when it succeeds.  They say nothing about a reading
that fails.  This module follows a reading from call to call, as far as it goes, up to the one exit
that is not about the lexemes alone: the least strength of a right operand is no byte.

* `Expr.Calls` — the calls that a reader makes itself, whether or not it succeeds in the end.
* `Expr.Calls.fails` — a call that fails makes its caller fail, with the same fault.
* `Expr.Applies` — an operator is applied: somewhere in a reading, the least strength of its right
  operand is computed.
* `Expr.Applies.mem` — only operators among the lexemes are applied.
* `Expr.ofLexemes_eq_overflow_iff` — reading breaks off at an operator exactly if it is applied with
  the one binding whose sum is no byte.

### What is load-bearing

A call is made only after the calls before it have succeeded, and `Calls` says so: its constructors
`others`, `right` and `more` take as premises what has been read by then.  This is why one step from
a call to its caller is enough for faults (`Calls.fails`), and why at most one overflow is met in a
reading: behind it nothing is called any more.
-/

namespace Tabletop

open Relation (ReflTransGen)

/-! ## The one binding without a strength to ask for -/

namespace Binding

/-- The least strength of the right operand is one more than the operator's own, and is no byte. -/
def Overflows (binding : Binding) : Prop :=
  binding.associativity = .left ∧ UInt8.size ≤ binding.precedence.toNat + 1

/-- The computation of the least strength fails exactly if the sum overflows.  To the right nothing
is added. -/
theorem rightOperand_eq_none_iff {binding : Binding} :
    binding.rightOperand = none ↔ binding.Overflows := by
  unfold rightOperand Overflows
  cases binding.associativity with
  | left => simp
  | right => simp

/-- Only an operator of the greatest strength that groups to the left asks for more than a byte. -/
theorem overflows_iff {binding : Binding} : binding.Overflows ↔ binding = ⟨255, .left⟩ := by
  constructor
  · intro ⟨left, large⟩
    have byte := binding.precedence.toNat_lt
    have size : UInt8.size = 256 := rfl
    have most : binding.precedence = 255 := UInt8.toNat_inj.1 (show _ = 255 by omega)
    rw [← left, ← most]
  · rintro rfl
    exact ⟨rfl, by decide⟩

end Binding

namespace Expr

/-- **The calls that a reader makes** on some lexemes.  A call that comes after another is made if
the other has succeeded. -/
inductive Calls (table : PrecedenceTable) : Reader × List Lexeme → Reader × List Lexeme → Prop
  | parentheses {opening : Lexeme} {after : List Lexeme} (opens : isSign opening "(") :
      Calls table (.operand, opening :: after) (.climb 0, after)
  | minus {sign : Lexeme} {after : List Lexeme} (minus : isSign sign "-") :
      Calls table (.operand, sign :: after) (.climb table.greatest, after)
  | first {least : UInt8} {lexemes : List Lexeme} :
      Calls table (.climb least, lexemes) (.operand, lexemes)
  | others {least : UInt8} {lexemes rest : List Lexeme} {left : Expr}
      (first : Climbs table .operand lexemes left rest) :
      Calls table (.climb least, lexemes) (.operations least left, rest)
  | right {least leastRight : UInt8} {left : Expr} {lexeme : Lexeme} {after : List Lexeme}
      {op : BinaryOperator} {binding : Binding}
      (operator : operatorOf table lexeme = .ok (some (op, binding)))
      (strong : ¬ binding.precedence < least) (asks : binding.rightOperand = some leastRight) :
      Calls table (.operations least left, lexeme :: after) (.climb leastRight, after)
  | more {least leastRight : UInt8} {left right : Expr} {lexeme : Lexeme}
      {after rest : List Lexeme} {op : BinaryOperator} {binding : Binding}
      (operator : operatorOf table lexeme = .ok (some (op, binding)))
      (strong : ¬ binding.precedence < least) (asks : binding.rightOperand = some leastRight)
      (operand : Climbs table (.climb leastRight) after right rest) :
      Calls table (.operations least left, lexeme :: after)
        (.operations least (.binary left op right), rest)

/-- **An operator is applied** in a reading: it stands where the reader looks for operators, and is
as strong as asked for.  The reader then computes the least strength of the right operand. -/
def Applies (table : PrecedenceTable) (reader : Reader) (lexemes : List Lexeme) (l : Lexeme)
    (op : BinaryOperator) (binding : Binding) : Prop :=
  ∃ least left after,
    ReflTransGen (Calls table) (reader, lexemes) (.operations least left, l :: after) ∧
      operatorOf table l = .ok (some (op, binding)) ∧ ¬ binding.precedence < least

/-- A reader does not succeed. -/
def Reader.Fails (table : PrecedenceTable) : Reader → List Lexeme → ParseFault → Prop
  | operand, lexemes, fault => Expr.operand table lexemes = .error fault
  | climb least, lexemes, fault => Expr.climb table least lexemes = .error fault
  | operations least left, lexemes, fault =>
      Expr.operations table least left lexemes = .error fault

variable {table : PrecedenceTable} {reader : Reader} {lexemes after : List Lexeme} {l : Lexeme}
  {op : BinaryOperator} {binding : Binding} {fault : ParseFault} {c c' : Reader × List Lexeme}

/-! ## From call to call

Two things are carried along calls: lexemes downwards, and faults upwards. -/

theorem Calls.subset (call : Calls table c c') : c'.2 ⊆ c.2 := by
  cases call with
  | parentheses | minus | right => exact List.subset_cons_self _ _
  | first => exact List.Subset.refl _
  | others first => exact rest_subset_of_climbs first
  | more _ _ _ operand => exact List.subset_cons_of_subset _ (rest_subset_of_climbs operand)

/-- **A fault goes up.**  No reader catches the fault of a reader that it has called, not even the
one of parentheses, which has a fault of its own only if what is inside has been read. -/
theorem Calls.fails (call : Calls table c c') (failed : c'.1.Fails table c'.2 fault) :
    c.1.Fails table c.2 fault := by
  cases call with
  | parentheses opens =>
    obtain ⟨math, sign⟩ := isSign_iff.1 opens
    dsimp only [Reader.Fails] at failed ⊢
    unfold operand
    simp only [math, sign, failed, ↓reduceIte]
  | minus minus =>
    obtain ⟨math, sign⟩ := isSign_iff.1 minus
    dsimp only [Reader.Fails] at failed ⊢
    unfold operand
    simp [math, sign, failed]
  | first =>
    dsimp only [Reader.Fails] at failed ⊢
    unfold climb
    simp only [failed]
  | others first =>
    obtain ⟨shorter, read⟩ := reads_of_climbs first
    dsimp only [Reader.Fails] at failed ⊢
    unfold climb
    simp only [read, failed]
  | right operator strong asks =>
    dsimp only [Reader.Fails] at failed ⊢
    unfold operations
    simp only [operator, strong, asks, failed, ↓reduceIte]
  | more operator strong asks right =>
    obtain ⟨shorter, read⟩ := reads_of_climbs right
    dsimp only [Reader.Fails] at failed ⊢
    unfold operations
    simp only [operator, strong, asks, read, failed, ↓reduceIte]

/-- A fault that is met anywhere in a reading is the fault of the reading. -/
theorem fails_of_calls (calls : ReflTransGen (Calls table) c c')
    (failed : c'.1.Fails table c'.2 fault) : c.1.Fails table c.2 fault := by
  induction calls using ReflTransGen.head_induction_on with
  | refl => exact failed
  | head call _ ih => exact call.fails ih

theorem Applies.of_calls (call : Calls table c c') (applies : Applies table c'.1 c'.2 l op binding) :
    Applies table c.1 c.2 l op binding := by
  obtain ⟨least, left, after, calls, applied⟩ := applies
  exact ⟨least, left, after, .head call calls, applied⟩

/-- Only operators among the lexemes are applied, with the binding that the table gives them.  The
lexeme that is looked at was handed down from call to call. -/
theorem Applies.mem (applies : Applies table reader lexemes l op binding) :
    l ∈ lexemes ∧ l.IsOperator op ∧ table.binding op = some binding := by
  obtain ⟨least, left, after, calls, operator, -⟩ := applies
  have part {c c' : Reader × List Lexeme} (calls : ReflTransGen (Calls table) c c') :
      c'.2 ⊆ c.2 := by
    induction calls with
    | refl => exact List.Subset.refl _
    | tail _ call ih => exact List.Subset.trans call.subset ih
  exact ⟨part calls (.head _), operatorOf_eq_ok_some_iff.1 operator⟩

/-! ## Overflow

One half says that an overflow that is met is reported, by `fails_of_calls`.  The other half says
that an overflow that is reported was met, and for this the readers have to be opened once more, on
the side of their faults. -/

/-- The reading breaks off where an operator is applied for which the sum is no byte. -/
theorem Applies.fails (applies : Applies table reader lexemes l op binding)
    (overflows : binding.Overflows) : reader.Fails table lexemes (.on .overflow l) := by
  obtain ⟨least, left, after, calls, operator, strong⟩ := applies
  refine fails_of_calls calls ?_
  dsimp only [Reader.Fails]
  unfold operations
  simp only [operator, strong, Binding.rightOperand_eq_none_iff.2 overflows, ↓reduceIte]

/-! The other exits name a different fault.  Those of terms are about numbers that are out of range,
and those of operators about the table. -/

theorem kind_ne_overflow_of_literalOf (failed : literalOf l = .error fault) :
    fault.kind ≠ .overflow := by
  unfold literalOf at failed
  split at failed
  · cases failed
  · split at failed
    · split at failed
      · cases failed
      · cases failed
        exact nofun
    · cases failed
      exact nofun

theorem kind_ne_overflow_of_modifierOf {kind : ModifierKind}
    (failed : modifierOf l kind = .error fault) : fault.kind ≠ .overflow := by
  unfold modifierOf at failed
  split at failed
  · cases failed
    exact nofun
  · cases failed

/-- The faults of modifiers are about their numbers. -/
theorem kind_ne_overflow_of_modifiersOf (failed : modifiersOf lexemes = .error fault) :
    fault.kind ≠ .overflow := by
  induction lexemes with
  | nil => cases failed
  | cons l after ih =>
    rw [modifiersOf] at failed
    split at failed
    · next kind _ =>
      rcases Except.bind_eq_error_iff.1 failed with first | ⟨_, -, failed⟩
      · exact kind_ne_overflow_of_modifierOf first
      · rcases Except.bind_eq_error_iff.1 failed with others | ⟨_, -, failed⟩
        · exact ih others
        · cases failed
    · cases failed

/-- The faults of dice are about their numbers, or those of their modifiers. -/
theorem kind_ne_overflow_of_diceOf (failed : diceOf l after = .error fault) :
    fault.kind ≠ .overflow := by
  unfold diceOf at failed
  split at failed
  · rcases Except.bind_eq_error_iff.1 failed with literal | ⟨_, -, failed⟩
    · exact kind_ne_overflow_of_literalOf literal
    · cases failed
  · rcases Except.bind_eq_error_iff.1 failed with modifiers | ⟨_, -, failed⟩
    · exact kind_ne_overflow_of_modifiersOf modifiers
    · cases failed
  · cases failed
    exact nofun

/-- The fault of an operator is that there is none, or that the table lacks it. -/
theorem kind_ne_overflow_of_operatorOf (failed : operatorOf table l = .error fault) :
    fault.kind ≠ .overflow := by
  unfold operatorOf at failed
  split at failed
  · cases failed
    exact nofun
  · split at failed
    · cases failed
    · split at failed <;> cases failed
      exact nofun
  · cases failed

/-- An operator is applied for which the sum is no byte. -/
def AppliesOverflow (table : PrecedenceTable) (reader : Reader) (lexemes : List Lexeme)
    (l : Lexeme) : Prop :=
  ∃ op binding, Applies table reader lexemes l op binding ∧ binding.Overflows

theorem AppliesOverflow.of_calls (call : Calls table c c')
    (applies : AppliesOverflow table c'.1 c'.2 l) : AppliesOverflow table c.1 c.2 l := by
  obtain ⟨op, binding, applied, overflows⟩ := applies
  exact ⟨op, binding, applied.of_calls call, overflows⟩

-- The proofs call one another as the readers do.  An overflow is either the fault of a call, which is
-- followed, or comes up right here, which is possible in the loop only.
mutual

/-- An operand reports the overflow of what it reads inside of its sign. -/
theorem appliesOverflow_of_operand {lexemes : List Lexeme}
    (failed : operand table lexemes = .error (.on .overflow l)) :
    AppliesOverflow table .operand lexemes l := by
  unfold operand at failed
  split at failed
  · cases failed
  · next lexeme after =>
    split at failed
    · next math =>
      split at failed
      · next opens =>
        split at failed
        · next inner =>
          cases failed
          exact .of_calls (.parentheses (isSign_iff.2 ⟨math, opens⟩))
            (appliesOverflow_of_climb inner)
        · cases failed
        · split at failed <;> cases failed
      · split at failed
        · cases failed
        · split at failed
          · next sign =>
            split at failed
            · next inner =>
              cases failed
              exact .of_calls (.minus (isSign_iff.2 ⟨math, sign⟩)) (appliesOverflow_of_climb inner)
            · cases failed
          · cases failed
    · split at failed
      · next dice =>
        cases failed
        exact absurd rfl (kind_ne_overflow_of_diceOf dice)
      · cases failed
    · cases failed
    · cases failed
    · cases failed
  termination_by (lexemes.length, 0)
  decreasing_by all_goals (subst_vars; simp only [List.length_cons, Prod.lex_def]; omega)

/-- A climb reports that of its first operand, or of the operations behind it. -/
theorem appliesOverflow_of_climb {least : UInt8} {lexemes : List Lexeme}
    (failed : climb table least lexemes = .error (.on .overflow l)) :
    AppliesOverflow table (.climb least) lexemes l := by
  unfold climb at failed
  split at failed
  · next first =>
    cases failed
    exact .of_calls .first (appliesOverflow_of_operand first)
  · next first =>
    split at failed
    · next others =>
      cases failed
      exact .of_calls (.others (climbs_of_operand first)) (appliesOverflow_of_operations others)
    · cases failed
  termination_by (lexemes.length, 1)
  decreasing_by
    · exact .right _ Nat.zero_lt_one
    · exact .left _ _ ‹_›

/-- The loop is where an overflow comes from, unless it is that of the right operand, or of the
operations that follow. -/
theorem appliesOverflow_of_operations {least : UInt8} {left : Expr} {lexemes : List Lexeme}
    (failed : operations table least left lexemes = .error (.on .overflow l)) :
    AppliesOverflow table (.operations least left) lexemes l := by
  unfold operations at failed
  split at failed
  · cases failed
  · next lexeme after =>
    split at failed
    · next operator =>
      cases failed
      exact absurd rfl (kind_ne_overflow_of_operatorOf operator)
    · cases failed
    · next op binding operator =>
      split at failed
      · cases failed
      · next strong =>
        split at failed
        · next none =>
          cases failed
          exact ⟨op, binding, ⟨least, left, after, .refl, operator, strong⟩,
            Binding.rightOperand_eq_none_iff.1 none⟩
        · next asks =>
          split at failed
          · next right =>
            cases failed
            exact .of_calls (.right operator strong asks) (appliesOverflow_of_climb right)
          · next right =>
            split at failed
            · next more =>
              cases failed
              exact .of_calls (.more operator strong asks (climbs_of_climb right))
                (appliesOverflow_of_operations more)
            · cases failed
  termination_by (lexemes.length, 0)
  decreasing_by all_goals (subst_vars; simp only [List.length_cons, Prod.lex_def]; omega)

end

/-- **When reading breaks off.**  It does so at an operator exactly if it comes to apply it, and the
operator is bound to the left at 255. -/
theorem ofLexemes_eq_overflow_iff :
    ofLexemes table lexemes = .error (.on .overflow l) ↔
      ∃ op, Applies table (.climb 0) lexemes l op ⟨255, .left⟩ := by
  constructor
  · intro failed
    unfold ofLexemes at failed
    split at failed
    · cases failed
    · split at failed
      · next within =>
        cases failed
        obtain ⟨op, binding, applied, overflows⟩ := appliesOverflow_of_climb within
        exact ⟨op, Binding.overflows_iff.1 overflows ▸ applied⟩
      · cases failed
      · split at failed <;> cases failed
  · rintro ⟨op, applied⟩
    have failed := applied.fails (Binding.overflows_iff.2 rfl)
    dsimp only [Reader.Fails] at failed
    have nonempty : lexemes.isEmpty = false :=
      List.isEmpty_eq_false_iff.2 (List.ne_nil_of_mem applied.mem.1)
    simp [ofLexemes, nonempty, failed]

end Expr

end Tabletop
