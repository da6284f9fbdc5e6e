import Tabletop.Lexeme
import Tabletop.Text.Escapes

/-!
# Parse errors

Why a sequence of lexemes is no dice expression, and where.
-/

namespace Tabletop

/-- What is wrong with a sequence of lexemes. -/
inductive ParseErrorKind where
  /-- There is nothing to parse. -/
  | empty
  /-- A value is missing at the end. -/
  | unexpectedEnd
  | unexpectedLexeme (kind : LexemeKind)
  | unbalancedParenthesis
  | modifierWithoutDice (kind : ModifierKind)
  | unexpectedReference (kind : ReferenceKind)
  /-- A number or the count or faces of dice are out of range. -/
  | invalidDice
  /-- The count of a modifier is out of range. -/
  | invalidModifier
  /-- The operator is not in the precedence table. -/
  | unknownOperator (sign : String)
  /-- The least strength of the operator's right operand is no byte. Parsing breaks off there: this
  is no error that a caller is told, but the end of the whole computation. -/
  | overflow
  deriving DecidableEq, Repr

/-- The kind of error in words. -/
def ParseErrorKind.message : ParseErrorKind → String
  | empty => "nothing to roll"
  | unexpectedEnd => "expected a value, found end of input"
  | unexpectedLexeme kind => "unexpected " ++ kind.name ++ " lexeme"
  | unbalancedParenthesis => "unbalanced parenthesis"
  | modifierWithoutDice kind => kind.name ++ " modifier must follow a dice group"
  | unexpectedReference kind => kind.name ++ " reference cannot be part of a dice expression"
  | invalidDice => "invalid dice"
  | invalidModifier => "invalid modifier count"
  | unknownOperator sign => "operator " ++ Text.quoted sign ++ " has no precedence"
  | overflow => "attempt to add with overflow"

/-- An error and the lexeme at which it lies; none for an error at the end. -/
structure ParseFault where
  kind : ParseErrorKind
  lexeme : Option Lexeme
  deriving DecidableEq, Repr

namespace ParseFault

/-- An error at a lexeme. -/
def on (kind : ParseErrorKind) (lexeme : Lexeme) : ParseFault :=
  ⟨kind, some lexeme⟩

/-- An error at the end. -/
def atEnd (kind : ParseErrorKind) : ParseFault :=
  ⟨kind, none⟩

end ParseFault

/-- An error and its place in the notation. -/
structure ParseError where
  kind : ParseErrorKind
  /-- Where the offending text stands. -/
  span : Span
  /-- The offending text. -/
  slice : String
  /-- The whole notation. -/
  written : String
  deriving DecidableEq, Repr

namespace ParseError

/-- The place of a fault in a sequence of lexemes: that of its lexeme, or the end of the last one.
-/
def ofFault (lexemes : List Lexeme) (written : String) (fault : ParseFault) : ParseError :=
  match fault.lexeme with
  | some lexeme => ⟨fault.kind, lexeme.span, lexeme.written, written⟩
  | none =>
    let stop := (lexemes.getLast?.map (·.span.stop)).getD 0
    ⟨fault.kind, ⟨stop, stop⟩, "", written⟩

/-- The message that shows where the error lies. -/
def message (e : ParseError) : String :=
  "error at position " ++ toString e.span.start ++ " (" ++ Text.quoted e.slice ++ ") in " ++
    Text.quoted e.written ++ ": " ++ e.kind.message

end ParseError

end Tabletop
