import Tabletop.Conditional

/-!
# Lexemes

The pieces of a notation. A lexeme is a term or a sign of a dice expression, a modifier of the
dice before it, or a reference to a document, and it knows the text it was read from and where
that text stands.
-/

namespace Tabletop

/-- The modifiers that can be written after a group of dice. -/
inductive ModifierKind where
  | explode
  | explodeCombine
  | reroll
  | keepHigh
  | keepLow
  | dropHigh
  | dropLow
  deriving DecidableEq, Repr

/-- What a reference draws from. -/
inductive ReferenceKind where
  /-- The rows of a table. -/
  | table
  /-- The sections of a note. -/
  | sections
  /-- The lines of a note. -/
  | line
  /-- The sections of the notes that carry a tag. -/
  | tag
  /-- The notes that carry a tag, themselves. -/
  | link
  deriving DecidableEq, Repr

/-- The kinds of lexemes. -/
inductive LexemeKind where
  /-- A group of dice, or a number. -/
  | dice
  /-- An operator or a parenthesis. -/
  | math
  /-- The three dice of a stunt. -/
  | stunt
  | modifier (kind : ModifierKind)
  | reference (kind : ReferenceKind)
  deriving DecidableEq, Repr

/-- The name of a modifier in error messages. -/
def ModifierKind.name : ModifierKind → String
  | explode => "explode"
  | explodeCombine => "explode-combine"
  | reroll => "reroll"
  | keepHigh => "keep-high"
  | keepLow => "keep-low"
  | dropHigh => "drop-high"
  | dropLow => "drop-low"

/-- The name of a kind of reference. -/
def ReferenceKind.name : ReferenceKind → String
  | table => "table"
  | sections => "section"
  | line => "line"
  | tag => "tag"
  | link => "link"

/-- The name of a kind of lexeme. -/
def LexemeKind.name : LexemeKind → String
  | dice => "dice"
  | math => "math"
  | stunt => "stunt"
  | modifier kind => kind.name
  | reference kind => kind.name

/-- A part of a text, from one byte of its UTF-8 form up to, not including, another. -/
structure Span where
  start : Nat
  stop : Nat
  deriving DecidableEq, Repr

/-- A piece of a notation. -/
structure Lexeme where
  kind : LexemeKind
  /-- What the lexeme says in canonical form: `NdM` for dice, digits for a number, the count of
  a modifier, the sign of an operator, the whole of a reference. -/
  data : String
  /-- The text the lexeme was read from. -/
  written : String
  /-- The conditionals of dice and repeating modifiers; none for lexemes that take none. -/
  conditionals : Option (List Conditional)
  span : Span
  deriving DecidableEq, Repr

/-- The conditionals of a lexeme, none at all if it takes none. -/
def Lexeme.conditionalList (l : Lexeme) : List Conditional :=
  l.conditionals.getD []

/-- What a sequence of lexemes asks to be rolled. -/
inductive RollerKind where
  | dice
  | reference (kind : ReferenceKind)
  deriving DecidableEq, Repr

namespace RollerKind

/-- The name of what is rolled. -/
def name : RollerKind → String
  | dice => "dice"
  | reference kind => kind.name

/-- Whether something other than dice is rolled. -/
def isReference : RollerKind → Bool
  | dice => false
  | reference _ => true

/-- The kind of the lexeme that says what is rolled; dice need the whole sequence. -/
def lexemeKind : RollerKind → Option LexemeKind
  | dice => none
  | reference kind => some (.reference kind)

end RollerKind

/-- The order in which references are looked for. -/
def ReferenceKind.priority : List ReferenceKind :=
  [.table, .sections, .tag, .link, .line]

/-- What is rolled for a sequence of lexemes: the reference of highest priority that occurs in it,
or else dice. -/
def classify (lexemes : List Lexeme) : RollerKind :=
  match ReferenceKind.priority.find? fun kind => lexemes.any (·.kind = .reference kind) with
  | some kind => .reference kind
  | none => .dice

end Tabletop
