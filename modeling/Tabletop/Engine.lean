import Tabletop.Dice.RollResult
import Tabletop.Expression.Parse
import Tabletop.Lexeme.Scan
import Tabletop.Reference
import Tabletop.Text.Escapes

/-!
# Engines

An engine reads and rolls notations under one set of settings, operators and fields. This module
has the part that deals with dice alone.
-/

namespace Tabletop

/-- Why a notation cannot be rolled. -/
inductive RollError where
  | lex (error : LexError)
  | parse (error : ParseError)
  | evaluation (error : EvaluationError)
  | reference (error : ReferenceError)
  deriving DecidableEq

/-- The error in words. -/
def RollError.message : RollError → String
  | lex e => e.message
  | parse e => e.message
  | evaluation e => e.message
  | reference e => e.message

/-- The error stands for the end of the whole computation: a notation on which the parser breaks
off. -/
def RollError.breaksOff : RollError → Bool
  | parse e => e.kind == .overflow
  | lex _ | evaluation _ | reference _ => false

/-- The circumstances under which notations are read and rolled. -/
structure Engine where
  settings : Settings := {}
  precedence : PrecedenceTable := .standard
  /-- The values of the names that may stand in notations. -/
  fields : String → Option Float := fun _ => none

namespace Engine

/-- A text as it stands in a document without what belongs to the document: entities, the marker
`dice:`, backslashes before bars, and the flag `|nodice`. -/
def bare (cs : List Char) : List Char :=
  let decoded := Text.trim (Text.decodeEntities cs)
  let unmarked := (Text.dropWord? "dice:".toList decoded).getD decoded
  let unescaped := Text.replaceAll ['\\', '|'] ['|'] unmarked
  Text.trim (Text.replaceAll "|nodice".toList [] unescaped)

/-- The notation that a text in a document stands for: a formula, if the settings have one of this
name, and otherwise the bare text itself. -/
def prepare (engine : Engine) (text : String) : String :=
  let content := String.ofList (bare text.toList)
  match engine.settings.formulas.get? content with
  | some formula => String.ofList (Text.trim formula.toList)
  | none => content

/-- The lexemes of a notation. -/
def lex (engine : Engine) (written : String) : Except LexError (List Lexeme) :=
  tokenize { settings := engine.settings, fields := engine.fields } written

/-- The expression of lexemes read from a notation. -/
def parseLexemes (engine : Engine) (lexemes : List Lexeme) (written : String) :
    Except RollError Expression :=
  (Expression.ofLexemes engine.precedence lexemes written).mapError .parse

/-- The dice expression that a text in a document stands for. -/
def parse (engine : Engine) (text : String) : Except RollError Expression := do
  let written := engine.prepare text
  let lexemes ← (engine.lex written).mapError .lex
  engine.parseLexemes lexemes written

/-- Rolls an expression, with a count of dice of its own. -/
def eval (engine : Engine) (e : Expression) : Rolling (Except RollError RollResult) := do
  let (result, _) ← (e.roll (.ofSettings engine.settings)).run.run 0
  return result.mapError .evaluation

/-- Rolls the dice expression that a text in a document stands for. -/
def rollDice (engine : Engine) (text : String) : Rolling (Except RollError RollResult) :=
  match engine.parse text with
  | .error e => return .error e
  | .ok e => engine.eval e

/-- The result of a notation computed again from a stored result, without rolling. The stored
result has to be for the same notation and to have the groups of dice that the notation has. -/
def applyResult (engine : Engine) (text : String) (stored : RollResult) :
    Except RollError RollResult := do
  let e ← engine.parse text
  if e.written = stored.written ∧
      e.groups.map (·.written) = stored.groups.map (·.written) then
    (RollResult.ofTree e.written stored.tree).mapError .evaluation
  else throw (.evaluation (.staleResult e.written stored.written))

end Engine

end Tabletop
