import Tabletop.Text.Basic
import Tabletop.Text.CodePoints
import Tabletop.Text.Lowercase
import Tabletop.SortedMap

/-!
# Documents

References draw from documents: from the sections and lines of notes, from tables, and from the
notes that carry a tag. A content store answers look-ups; where it has no answer, the note, block
or tag does not exist.
-/

namespace Tabletop

/-- A table: the names of its columns, and its rows. -/
structure Table where
  header : List String
  rows : List (List String)
  deriving DecidableEq, Repr

/-- The place of the column with a name, without regard to ASCII case and surrounding white
space. -/
def Table.column? (t : Table) (name : String) : Option Nat :=
  let key (s : String) := Text.foldAscii (Text.trim s.toList)
  t.header.findIdx? fun cell => key cell == key name

/-- A block of a note: a paragraph, a list, a heading, and so on. -/
structure Section where
  kind : String
  text : String
  deriving DecidableEq, Repr

/-- The kinds of sections named by a list with commas, in lower case. -/
def Section.kinds (names : List Char) : List String :=
  (Text.splitAll (· == ',') names).filterMap fun name =>
    let kind := Text.lowercase (Text.trim name)
    if kind.isEmpty then none else some (String.ofList kind)

/-- The sections of the given kinds; of any kind if there are none. -/
def Section.ofKinds (kinds : List String) (all : List Section) : List Section :=
  if kinds.isEmpty then all
  else all.filter fun s => kinds.contains (String.ofList (Text.lowercase s.kind.toList))

/-- Read access to documents. -/
structure ContentStore where
  /-- The table in a block of a note. -/
  table? (note block : String) : Option Table
  /-- The sections of a note. -/
  sections? (note : String) : Option (List Section)
  /-- The notes that carry a tag, which begins with a number sign. -/
  tagged? (tag : String) : Option (List String)

/-- The lines of a note that are not blank, trimmed. -/
def ContentStore.lines? (store : ContentStore) (note : String) : Option (List String) :=
  (store.sections? note).map fun sections =>
    sections.flatMap fun s =>
      (Text.lines s.text.toList).filterMap fun line =>
        let line := Text.trim line
        if line.isEmpty then none else some (String.ofList line)

/-- Documents held in memory. -/
structure MemoryStore where
  /-- The tables of each note, by block. -/
  tables : SortedMap String (SortedMap String Table) := .empty
  notes : SortedMap String (List Section) := .empty
  tags : SortedMap String (List String) := .empty

/-- The look-ups of documents held in memory. -/
def MemoryStore.toContentStore (m : MemoryStore) : ContentStore where
  table? note block := (m.tables.get? note).bind (·.get? block)
  sections? note := m.notes.get? note
  tagged? tag := m.tags.get? tag

end Tabletop
