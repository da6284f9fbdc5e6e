import Tabletop.Content
import Tabletop.Json.Decode
import Tabletop.Json.Read

/-!
# Documents as JSON

Documents held in memory can be read from a text.
-/

namespace Tabletop

/-- Several texts. -/
def textsOfJson? (level : Nat) (j : Json) : Option (List String) := do
  let (_, elements) ← j.asArray? level
  elements.mapM Json.asText?

/-- A map whose keys are texts. Of entries with the same key the last counts. -/
def mapOfJson? (value : (level : Nat) → Json → Option α) (level : Nat) (j : Json) :
    Option (SortedMap String α) := do
  let (level, fields) ← j.asMap? level
  let entries ← fields.mapM fun (name, j) => do
    let key ← Json.text? name
    let a ← value level j
    return (String.ofList key, a)
  return .ofList entries

/-- A table. -/
def Table.ofJson? (level : Nat) (j : Json) : Option Table := do
  match ← j.asRecord? level ["header", "rows"] with
  | (level, [some header, some rows]) =>
    let header ← textsOfJson? level header
    let (level, rows) ← rows.asArray? level
    let rows ← rows.mapM (textsOfJson? level)
    return { header, rows }
  | _ => none

/-- A section. -/
def Section.ofJson? (level : Nat) (j : Json) : Option Section := do
  match ← j.asRecord? level ["kind", "text"] with
  | (_, [some kind, some text]) =>
    let kind ← kind.asText?
    let text ← text.asText?
    return { kind, text }
  | _ => none

/-- Several sections. -/
def sectionsOfJson? (level : Nat) (j : Json) : Option (List Section) := do
  let (level, elements) ← j.asArray? level
  elements.mapM (Section.ofJson? level)

namespace MemoryStore

/-- Documents, of which each part may be missing. -/
def ofJson? (level : Nat) (j : Json) : Option MemoryStore := do
  match ← j.asRecord? level ["tables", "notes", "tags"] with
  | (level, [tables, notes, tags]) =>
    let tables ← Json.orDefault .empty (mapOfJson? (mapOfJson? Table.ofJson?) level) tables
    let notes ← Json.orDefault .empty (mapOfJson? sectionsOfJson? level) notes
    let tags ← Json.orDefault .empty (mapOfJson? textsOfJson? level) tags
    return { tables, notes, tags }
  | _ => none

/-- The documents that a text holds. -/
def read? (s : String) : Option MemoryStore :=
  (Json.read? s).bind (ofJson? Json.levels)

end MemoryStore

end Tabletop
