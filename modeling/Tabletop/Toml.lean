import Tabletop.Decimal.Integer

/-!
# TOML documents

A document is a list of tables, each with a header and the pairs that follow it. The tables are
kept as they stand in the text; what is expected of a document decides which of them may occur
twice.
-/

namespace Tabletop.Toml

/-- A value. -/
inductive Value where
  | text (s : String)
  | integer (n : Int64)
  | float (x : Float)
  | boolean (b : Bool)
  /-- A date or a time, by its text. -/
  | date (s : String)
  | array (elements : List Value)
  /-- A table in braces. -/
  | inline (pairs : List (String × Value))
  /-- A table that is there because of keys with dots. -/
  | dotted (pairs : List (String × Value))

/-- A table of a document. -/
structure Block where
  /-- The parts of the header; none for the pairs before the first header. -/
  header : List String
  /-- Whether the header is in double brackets, so that the table is one of several. -/
  element : Bool
  pairs : List (String × Value)

/-- Adds a value under a key with dots. The parts of the key but the last are tables, and may be so
only because of other keys with dots. -/
def addPair (pairs : List (String × Value)) (key : String) (inner : List String) (value : Value) :
    Option (List (String × Value)) :=
  match inner with
  | [] => some (pairs ++ [(key, value)])
  | next :: inner =>
    match pairs.findIdx? (·.1 = key) with
    | none => (addPair [] next inner value).map fun table => pairs ++ [(key, .dotted table)]
    | some i =>
      match pairs[i]? with
      | some (_, .dotted table) =>
        (addPair table next inner value).map fun table => pairs.set i (key, .dotted table)
      | _ => none

end Tabletop.Toml
