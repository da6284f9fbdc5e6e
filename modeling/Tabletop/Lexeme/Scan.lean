import Tabletop.Lexeme.Rule
import Tabletop.Text.Escapes

/-!
# Lexing

A notation is cut into lexemes from the left: the rules take one part after the other, until the
text ends or no rule takes anything.
-/

namespace Tabletop

/-- A text that no rule takes. -/
structure LexError where
  /-- The byte at which it starts. -/
  position : Nat
  /-- The text up to the next white space. -/
  slice : String
  deriving DecidableEq, Repr

/-- The message that shows where the text stands. -/
def LexError.message (e : LexError) : String :=
  "unrecognized notation at position " ++ toString e.position ++ ": " ++ Text.quoted e.slice

/-- The lexemes of a text that starts at the given byte of the whole. -/
def scan (context : LexContext) (position : Nat) (cs : List Char) : Except LexError (List Lexeme) :=
  if cs.isEmpty then .ok []
  else
    match _found : Rule.firstMatch context cs with
    | none => .error ⟨position, String.ofList (cs.takeWhile (!Text.isBlank ·))⟩
    | some (take, rest) =>
      let written := Rule.part cs rest
      let stop := position + Text.utf8Length written
      match scan context stop rest with
      | .error e => .error e
      | .ok lexemes =>
        match take with
        | .skip => .ok lexemes
        | .lexeme kind data conditionals =>
          .ok (⟨kind, String.ofList data, String.ofList written, conditionals, ⟨position, stop⟩⟩ ::
            lexemes)
  termination_by cs.length
  decreasing_by exact Rule.length_of_firstMatch _found

/-- The lexemes of a notation. -/
def tokenize (context : LexContext) (text : String) : Except LexError (List Lexeme) :=
  scan context 0 text.toList

end Tabletop
