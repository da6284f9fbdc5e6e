import Mathlib
import Tabletop.Proofs.Engine.Dispatch
import Tabletop.Proofs.Except

/-!
# The exits of the parser

The parser knows no text.  It works on lexemes, and when it fails it names one of them, or none
where something is missing at the end.  There are a dozen such exits, and some name a lexeme that
was read long before, such as a parenthesis that is never closed.

* `ParseFault.LiesIn` — a fault names one of the lexemes, or is about what is missing behind them.
* `Expr.liesIn_of_ofLexemes` — every exit of the parser is such a fault.
* `ParseError.LiesIn` — what this means for the place and the text of an error.

No exit catches the fault of a reader that was called, so a fault that is about a part of the
lexemes is passed on unchanged; that the part is one of the whole is all that is left to prove
(`Expr.rest_subset_of_climbs`).
-/

namespace Tabletop

/-- The errors about what is missing, which have no lexeme.  All others are about a lexeme that
stands in the wrong place, or whose data is wrong. -/
def ParseErrorKind.IsAtEnd (kind : ParseErrorKind) : Prop :=
  kind = .empty ∨ kind = .unexpectedEnd

/-- A fault lies at one of the lexemes, or it is about what is missing behind them.  The second
condition of the first case is what makes the two exclude one another. -/
inductive ParseFault.LiesIn (lexemes : List Lexeme) : ParseFault → Prop
  | on {kind : ParseErrorKind} {l : Lexeme} (mem : l ∈ lexemes) (present : ¬ kind.IsAtEnd) :
      LiesIn lexemes (.on kind l)
  | atEnd {kind : ParseErrorKind} (missing : kind.IsAtEnd) : LiesIn lexemes (.atEnd kind)

theorem ParseFault.LiesIn.mono {fault : ParseFault} {part lexemes : List Lexeme}
    (h : fault.LiesIn part) (subset : part ⊆ lexemes) : fault.LiesIn lexemes := by
  cases h with
  | on mem present => exact .on (subset mem) present
  | atEnd missing => exact .atEnd missing

/-! ## The exits of the parser

From the readers of single terms to the whole sequence. -/

namespace Expr

open ParseFault (LiesIn)

variable {table : PrecedenceTable} {fault : ParseFault} {l : Lexeme} {lexemes after : List Lexeme}

/-- An error at the lexeme in front.  Most exits are of this form: the kind is written in the code,
so that it is no error at the end is a matter of computation. -/
theorem liesIn_head {kind : ParseErrorKind} (present : ¬ kind.IsAtEnd) :
    LiesIn (l :: after) (.on kind l) :=
  .on (.head _) present

theorem liesIn_of_operatorOf (failed : operatorOf table l = .error fault) :
    fault.LiesIn (l :: after) := by
  unfold operatorOf at failed
  split at failed
  · cases failed
    exact liesIn_head nofun
  · split at failed
    · cases failed
    · split at failed
      · cases failed
      · cases failed
        exact liesIn_head nofun
  · cases failed

theorem liesIn_of_literalOf (failed : literalOf l = .error fault) : fault.LiesIn (l :: after) := by
  unfold literalOf at failed
  split at failed
  · cases failed
  · split at failed
    · split at failed
      · cases failed
      · cases failed
        exact liesIn_head nofun
    · cases failed
      exact liesIn_head nofun

theorem liesIn_of_modifierOf {kind : ModifierKind} (failed : modifierOf l kind = .error fault) :
    fault.LiesIn (l :: after) := by
  unfold modifierOf at failed
  split at failed
  · cases failed
    exact liesIn_head nofun
  · cases failed

theorem liesIn_of_modifiersOf (failed : modifiersOf lexemes = .error fault) :
    fault.LiesIn lexemes := by
  induction lexemes with
  | nil => cases failed
  | cons l after ih =>
    rw [modifiersOf] at failed
    split at failed
    · next kind _ =>
      rcases Except.bind_eq_error_iff.1 failed with first | ⟨_, -, failed⟩
      · exact liesIn_of_modifierOf first
      · rcases Except.bind_eq_error_iff.1 failed with others | ⟨_, -, failed⟩
        · exact (ih others).mono (List.subset_cons_self _ _)
        · cases failed
    · cases failed

/-- Dice are named themselves, or one of their modifiers is.  The error of a modifier is at that
modifier, not at the dice. -/
theorem liesIn_of_diceOf (failed : diceOf l after = .error fault) : fault.LiesIn (l :: after) := by
  unfold diceOf at failed
  split at failed
  · rcases Except.bind_eq_error_iff.1 failed with literal | ⟨_, -, failed⟩
    · exact liesIn_of_literalOf literal
    · cases failed
  · rcases Except.bind_eq_error_iff.1 failed with modifiers | ⟨_, -, failed⟩
    · exact (liesIn_of_modifiersOf modifiers).mono (List.subset_cons_self _ _)
    · cases failed
  · cases failed
    exact liesIn_head nofun

/-- What a reader leaves is a part of what it was given.  Readers go on behind what others have
read, and this is why their faults are still among the lexemes. -/
theorem rest_subset_of_climbs {reader : Reader} {rest : List Lexeme} {e : Expr}
    (h : Climbs table reader lexemes e rest) : rest ⊆ lexemes := by
  obtain ⟨read, rfl, -⟩ := exists_read_of_climbs h
  exact List.subset_append_right _ _

-- The proofs call one another as the readers do, as those of `climbs_of_operand` and the others.
mutual

/-- An operand names its first lexeme, or something inside of it; if there is nothing, it has no
lexeme to name.  Parentheses have three ways to fail: inside, at the end of the lexemes, and at a
lexeme that is not the closing one. -/
theorem liesIn_of_operand {lexemes : List Lexeme}
    (failed : operand table lexemes = .error fault) : fault.LiesIn lexemes := by
  unfold operand at failed
  split at failed
  · cases failed
    exact .atEnd (.inr rfl)
  · next lexeme after =>
    split at failed
    · split at failed
      · split at failed
        · next inner =>
          cases failed
          exact (liesIn_of_climb inner).mono (List.subset_cons_self _ _)
        · cases failed
          exact liesIn_head nofun
        · split at failed
          · cases failed
          · -- The parenthesis that is not closed is the error, not the lexeme in the place of `)`.
            cases failed
            exact liesIn_head nofun
      · split at failed
        · cases failed
          exact liesIn_head nofun
        · split at failed
          · split at failed
            · next inner =>
              cases failed
              exact (liesIn_of_climb inner).mono (List.subset_cons_self _ _)
            · cases failed
          · cases failed
            exact liesIn_head nofun
    · split at failed
      · next dice =>
        cases failed
        exact liesIn_of_diceOf dice
      · cases failed
    · cases failed
    · cases failed
      exact liesIn_head nofun
    · cases failed
      exact liesIn_head nofun
  termination_by (lexemes.length, 0)
  decreasing_by all_goals (subst_vars; simp only [List.length_cons, Prod.lex_def]; omega)

theorem liesIn_of_climb {least : UInt8} {lexemes : List Lexeme}
    (failed : climb table least lexemes = .error fault) : fault.LiesIn lexemes := by
  unfold climb at failed
  split at failed
  · next first =>
    cases failed
    exact liesIn_of_operand first
  · next first =>
    split at failed
    · next others =>
      cases failed
      exact (liesIn_of_operations others).mono (rest_subset_of_climbs (climbs_of_operand first))
    · cases failed
  termination_by (lexemes.length, 1)
  decreasing_by
    · exact .right _ Nat.zero_lt_one
    · exact .left _ _ ‹_›

/-- The loop names an operator, or fails as its right operand or the rest of it does.  The overflow
of a strength is such a fault too, at the operator that is applied. -/
theorem liesIn_of_operations {least : UInt8} {left : Expr} {lexemes : List Lexeme}
    (failed : operations table least left lexemes = .error fault) : fault.LiesIn lexemes := by
  unfold operations at failed
  split at failed
  · cases failed
  · split at failed
    · next operator =>
      cases failed
      exact liesIn_of_operatorOf operator
    · cases failed
    · split at failed
      · cases failed
      · split at failed
        · cases failed
          exact liesIn_head nofun
        · split at failed
          · next right =>
            cases failed
            exact (liesIn_of_climb right).mono (List.subset_cons_self _ _)
          · next right =>
            split at failed
            · next more =>
              cases failed
              have rest := rest_subset_of_climbs (climbs_of_climb right)
              exact (liesIn_of_operations more).mono (List.subset_cons_of_subset _ rest)
            · cases failed
  termination_by (lexemes.length, 0)
  decreasing_by all_goals (subst_vars; simp only [List.length_cons, Prod.lex_def]; omega)

end

/-- **Every exit of the parser** is at a lexeme of the sequence, or at its end for want of one.  The
induction is the one of the readers, and this is where it ends. -/
theorem liesIn_of_ofLexemes (failed : ofLexemes table lexemes = .error fault) :
    fault.LiesIn lexemes := by
  unfold ofLexemes at failed
  split at failed
  · cases failed
    exact .atEnd (.inl rfl)
  · split at failed
    · next within =>
      cases failed
      exact liesIn_of_climb within
    · cases failed
    -- Something is left over when the tree is complete, and its first lexeme is named.
    · next extra rest shorter read =>
      have left : extra ∈ lexemes := rest_subset_of_climbs (climbs_of_climb read) (.head _)
      split at failed
      · cases failed
        exact .on left nofun
      · cases failed
        exact .on left nofun

end Expr

/-! ## The place among the lexemes

A fault becomes an error when its place is looked up. -/

/-- Where lexemes end that follow one another from a byte on.  Without lexemes that is where they
would begin. -/
def lastStop (start : Nat) (lexemes : List Lexeme) : Nat :=
  (lexemes.getLast?.map (·.span.stop)).getD start

theorem lastStop_cons (start : Nat) (l : Lexeme) (lexemes : List Lexeme) :
    lastStop start (l :: lexemes) = lastStop l.span.stop lexemes := by
  rw [lastStop, lastStop, List.getLast?_cons]
  cases lexemes.getLast? <;> rfl

/-- A parse error has the place and the text of one of the lexemes.  If it is about what is missing
behind them, it has no text and the place where the last one ends.  The text of an error is the one
that the lexeme was read from. -/
inductive ParseError.LiesIn (lexemes : List Lexeme) (e : ParseError) : Prop
  | on {l : Lexeme} (mem : l ∈ lexemes) (present : ¬ e.kind.IsAtEnd) (span : e.span = l.span)
      (slice : e.slice = l.written)
  | atEnd (missing : e.kind.IsAtEnd) (span : e.span = ⟨lastStop 0 lexemes, lastStop 0 lexemes⟩)
      (slice : e.slice = "")

/-- The error of a fault lies where the fault does. -/
theorem ParseError.liesIn_ofFault {lexemes : List Lexeme} {written : String} {fault : ParseFault}
    (h : fault.LiesIn lexemes) : (ofFault lexemes written fault).LiesIn lexemes := by
  cases h with
  | on mem present => exact .on mem present rfl rfl
  | atEnd missing => exact .atEnd missing rfl rfl

/-- **Every parse error** has the given text, and lies among the lexemes.  The given text is the
notation, and where it comes from is up to the caller. -/
theorem Expression.liesIn_of_ofLexemes {table : PrecedenceTable} {lexemes : List Lexeme}
    {written : String} {e : ParseError} (failed : ofLexemes table lexemes written = .error e) :
    e.written = written ∧ e.LiesIn lexemes := by
  unfold ofLexemes at failed
  split at failed
  · cases failed
  · next fault within =>
    obtain rfl := Except.error.inj failed
    refine ⟨?_, ParseError.liesIn_ofFault (Expr.liesIn_of_ofLexemes within)⟩
    unfold ParseError.ofFault
    split <;> rfl

end Tabletop
