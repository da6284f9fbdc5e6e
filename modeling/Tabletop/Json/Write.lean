import Tabletop.Json

/-!
# Writing JSON

Values are written without spaces, the fields of objects in their order.
-/

namespace Tabletop.Json

/-- A piece of a string between the quotes. -/
def Piece.text : Piece → List Char
  | plain c => [c]
  | escaped '\x08' => ['\\', 'b']
  | escaped '\x0c' => ['\\', 'f']
  | escaped '\n' => ['\\', 'n']
  | escaped '\r' => ['\\', 'r']
  | escaped '\t' => ['\\', 't']
  | escaped c => ['\\', c]
  | unit n =>
    let digits := Nat.toDigits 16 n
    '\\' :: 'u' :: (List.replicate (4 - digits.length) '0' ++ digits)

/-- A string in its quotes. -/
def quotedPieces (pieces : List Piece) : List Char :=
  '"' :: pieces.flatMap Piece.text ++ ['"']

mutual

/-- The text of a value. -/
def write : Json → List Char
  | null => ['n', 'u', 'l', 'l']
  | bool true => ['t', 'r', 'u', 'e']
  | bool false => ['f', 'a', 'l', 's', 'e']
  | number n => n.text
  | string pieces => quotedPieces pieces
  | array elements => '[' :: writeElements elements ++ [']']
  | object fields => '{' :: writeFields fields ++ ['}']

/-- The texts of values with commas between them. -/
def writeElements : List Json → List Char
  | [] => []
  | [x] => write x
  | x :: y :: elements => write x ++ ',' :: writeElements (y :: elements)

/-- The texts of fields with commas between them. -/
def writeFields : List (List Piece × Json) → List Char
  | [] => []
  | [(name, value)] => quotedPieces name ++ ':' :: write value
  | (name, value) :: field :: fields =>
    quotedPieces name ++ ':' :: write value ++ ',' :: writeFields (field :: fields)

end

/-- The text of a value. -/
def compact (j : Json) : String :=
  String.ofList j.write

end Tabletop.Json
