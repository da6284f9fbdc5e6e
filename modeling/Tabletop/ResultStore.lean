import Tabletop.Dice.Stored
import Tabletop.SortedMap

/-!
# Result stores

Results are kept between sessions by the place of their notation. The store is a map of maps of
maps, and writing it down shows all three, so a store that was read can hold lines and documents
without results. These are taken away when something is removed.
-/

namespace Tabletop

/-- Where a notation stands: the document, the line in it, and the index within the line. -/
structure Place where
  path : String
  line : UInt64
  index : UInt64
  deriving DecidableEq, Repr

/-- The results of the lines of a document. -/
abbrev LineResults := SortedMap UInt64 (SortedMap UInt64 RollResult)

/-- Results by path, line and index. -/
structure ResultStore where
  documents : SortedMap String LineResults

namespace ResultStore

/-- The store without results. -/
def empty : ResultStore where
  documents := .empty

instance : Inhabited ResultStore := ⟨empty⟩

/-- The result at a place. -/
def get? (s : ResultStore) (place : Place) : Option RollResult := do
  let lines ← s.documents.get? place.path
  let results ← lines.get? place.line
  results.get? place.index

/-- The store with a result put at a place, and the result that was there. -/
def insert (s : ResultStore) (place : Place) (result : RollResult) :
    Option RollResult × ResultStore :=
  let lines := (s.documents.get? place.path).getD .empty
  let results := (lines.get? place.line).getD .empty
  let lines := lines.insert place.line (results.insert place.index result)
  (results.get? place.index, ⟨s.documents.insert place.path lines⟩)

/-- The store without lines and documents that hold nothing. -/
def clearEmpties (s : ResultStore) : ResultStore where
  documents := s.documents.filterMap fun lines =>
    let lines := lines.filterMap fun results => if results.isEmpty then none else some results
    if lines.isEmpty then none else some lines

/-- The store without the result at a place, and that result. If the line is in the store, lines and
documents that hold nothing are taken away too. -/
def remove (s : ResultStore) (place : Place) : Option RollResult × ResultStore :=
  match s.documents.get? place.path with
  | none => (none, s)
  | some lines =>
    match lines.get? place.line with
    | none => (none, s)
    | some results =>
      let lines := lines.insert place.line (results.erase place.index)
      (results.get? place.index, clearEmpties ⟨s.documents.insert place.path lines⟩)

/-- The store without the results of a line, and these results. If the document is in the store,
lines and documents that hold nothing are taken away too. -/
def removeLine (s : ResultStore) (path : String) (line : UInt64) :
    Option (SortedMap UInt64 RollResult) × ResultStore :=
  match s.documents.get? path with
  | none => (none, s)
  | some lines =>
    (lines.get? line, clearEmpties ⟨s.documents.insert path (lines.erase line)⟩)

/-- Whether the store holds nothing, not even a document without results. -/
def isEmpty (s : ResultStore) : Bool :=
  s.documents.isEmpty

/-- The number of results. -/
def size (s : ResultStore) : Nat :=
  let sizes := s.documents.values.flatMap fun lines => lines.values.map SortedMap.size
  sizes.foldl (· + ·) 0

/-- Whether two lists of entries have the same keys in the same order, and equal values. -/
def sameEntries [BEq κ] (same : α → α → Bool) : List (κ × α) → List (κ × α) → Bool
  | [], [] => true
  | (k, a) :: xs, (k', b) :: ys => k == k' && same a b && sameEntries same xs ys
  | _, _ => false

/-- Whether two stores are the same up to the distinction of integers and floats of equal value. -/
def same (a b : ResultStore) : Bool :=
  sameEntries
    (fun lines lines' =>
      sameEntries (fun results results' => sameEntries RollResult.same results.entries results'.entries)
        lines.entries lines'.entries)
    a.documents.entries b.documents.entries

/-- A map whose keys are numbers as an object. -/
def objectOfMap (value : α → Json) (m : SortedMap UInt64 α) : Json :=
  .record (m.entries.map fun (key, a) => (toString key.toNat, value a))

/-- The store as nested objects, paths in the order of their bytes and numbers in theirs. -/
def toJson (s : ResultStore) : Json :=
  .record (s.documents.entries.map fun (path, lines) =>
    (path, objectOfMap (objectOfMap RollResult.toJson) lines))

/-- A map whose keys are numbers. Of entries with the same key the last counts. -/
def mapOfObject? (value : (level : Nat) → Json → Option α) (level : Nat) (j : Json) :
    Option (SortedMap UInt64 α) := do
  let (level, fields) ← j.asMap? level
  let entries ← fields.mapM fun (name, j) => do
    let key ← Json.key64? name
    let a ← value level j
    return (key, a)
  return .ofList entries

/-- The store that nested objects stand for. -/
def ofJson? (level : Nat) (j : Json) : Option ResultStore := do
  let (level, fields) ← j.asMap? level
  let entries ← fields.mapM fun (name, j) => do
    let path ← Json.text? name
    let lines ← mapOfObject? (mapOfObject? RollResult.ofJson?) level j
    return (String.ofList path, lines)
  return ⟨.ofList entries⟩

/-- The text that holds the store. -/
def write (s : ResultStore) : String :=
  s.toJson.compact

/-- The store that a text holds. -/
def read? (s : String) : Option ResultStore :=
  (Json.read? s).bind (ofJson? Json.levels)

end ResultStore

end Tabletop
