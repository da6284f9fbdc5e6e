import Tabletop.Content
import Tabletop.Decimal.Integer
import Tabletop.Lexeme
import Tabletop.Reference.Written
import Tabletop.Text.Escapes

/-!
# References

What a reference in a notation asks for: how many entries, and from where.
-/

namespace Tabletop

/-- Why a reference cannot be rolled. -/
inductive ReferenceError where
  /-- The text is no reference. -/
  | malformed (text : String)
  /-- The note, block or tag does not exist. -/
  | notFound (name : String)
  /-- There is nothing to draw from. -/
  | empty (name : String)
  | unknownColumn (table column : String)
  /-- No row of a lookup table covers the rolled value. -/
  | noRow (table : String) (value : Int64)
  deriving DecidableEq, Repr

/-- The error in words. -/
def ReferenceError.message : ReferenceError → String
  | malformed text => "malformed reference " ++ Text.quoted text
  | notFound name => name ++ " not found"
  | empty name => name ++ " has nothing to roll"
  | unknownColumn table column => "table " ++ table ++ " has no column " ++ Text.quoted column
  | noRow table value => "no row of " ++ table ++ " covers " ++ Decimal.ofInt value.toInt

/-- Where a reference draws from. -/
inductive Target where
  | table (note block : String) (column : Option String)
  /-- The sections of a note, of some kinds or of any. -/
  | sections (note : String) (kinds : List String)
  | lines (note : String)
  /-- The sections of the notes that carry a tag, of some kinds or of any. -/
  | tag (tag : String) (kinds : List String)
  | links (tag : String)
  deriving DecidableEq, Repr

/-- A reference. -/
structure Reference where
  /-- The text of the reference. -/
  written : String
  /-- The number of entries asked for. -/
  count : UInt64
  target : Target
  deriving DecidableEq, Repr

namespace Reference

/-- The kind of a reference. -/
def kind (r : Reference) : ReferenceKind :=
  match r.target with
  | .table .. => .table
  | .sections .. => .sections
  | .lines .. => .line
  | .tag .. => .tag
  | .links .. => .link

/-- The number that stands before a reference, one if there is none. A number that does not fit
makes the reference malformed. -/
def countOf (written : Option (List Char)) (cs rest : List Char) : Except ReferenceError UInt64 :=
  match written with
  | none => .ok 1
  | some digits =>
    match Decimal.word64? digits with
    | some n => .ok n
    | none => .error (.malformed (String.ofList (cs.take (cs.length - rest.length))))

/-- Reads a reference to a table. -/
def ofTable (text : String) : Except ReferenceError Reference :=
  match Written.bracketed? text.toList with
  | some (b, rest) =>
    match Written.block? b.inner with
    | some (note, block) => do
      let count ← countOf b.count text.toList rest
      let column := b.modifier.map fun name => String.ofList (Text.trim name)
      return ⟨text, count, .table (String.ofList note) (String.ofList block) column⟩
    | none => .error (.malformed text)
  | none => .error (.malformed text)

/-- Reads a reference to the sections of a note. -/
def ofSections (text : String) : Except ReferenceError Reference :=
  match Written.bracketed? text.toList with
  | some (b, rest) => do
    let count ← countOf b.count text.toList rest
    return ⟨text, count, .sections (String.ofList b.inner) ((b.modifier.map Section.kinds).getD [])⟩
  | none => .error (.malformed text)

/-- Reads a reference to the lines of a note. -/
def ofLines (text : String) : Except ReferenceError Reference :=
  match Written.bracketed? text.toList with
  | some (b, rest) => do
    let count ← countOf b.count text.toList rest
    return ⟨text, count, .lines (String.ofList b.inner)⟩
  | none => .error (.malformed text)

/-- Reads a tag that asks for sections. -/
def ofTag (text : String) : Except ReferenceError Reference :=
  match Written.tagged? text.toList with
  | some (t, rest) => do
    let count ← countOf t.count text.toList rest
    return ⟨text, count, .tag (String.ofList t.tag) ((t.kinds.map Section.kinds).getD [])⟩
  | none => .error (.malformed text)

/-- Reads a tag that asks for links. -/
def ofLink (text : String) : Except ReferenceError Reference :=
  match Written.tagged? text.toList with
  | some (t, rest) => do
    let count ← countOf t.count text.toList rest
    return ⟨text, count, .links (String.ofList t.tag)⟩
  | none => .error (.malformed text)

/-- The reference of a lexeme; a lexeme of another kind is malformed. -/
def ofLexeme (lexeme : Lexeme) : Except ReferenceError Reference :=
  match lexeme.kind with
  | .reference .table => ofTable lexeme.data
  | .reference .sections => ofSections lexeme.data
  | .reference .line => ofLines lexeme.data
  | .reference .tag => ofTag lexeme.data
  | .reference .link => ofLink lexeme.data
  | _ => .error (.malformed lexeme.written)

/-- The name of a note in error messages. -/
def noteName (note : String) : String :=
  "[[" ++ note ++ "]]"

/-- The name of a block of a note in error messages. -/
def blockName (note block : String) : String :=
  "[[" ++ note ++ "#^" ++ block ++ "]]"

end Reference

/-- What a reference came to. -/
structure ReferenceResult where
  kind : ReferenceKind
  /-- The text of the reference. -/
  written : String
  /-- The drawn entries. -/
  entries : List String
  /-- The entries in one text. -/
  display : String
  deriving DecidableEq, Repr

end Tabletop
