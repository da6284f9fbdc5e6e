import Tabletop.Json

/-!
# Taking JSON values apart

Values are turned into what they stand for by the shape that is expected. The number of arrays and
objects that may lie inside each other is limited: every step into one uses up a level, and the
last level may not be entered. Fields and elements that nothing is expected of are not looked at,
however deep they are.
-/

namespace Tabletop.Json

/-- The number of levels at the outside of a text. -/
def levels : Nat := 128

/-- The levels that are left inside of an array or object. -/
def enter? : Nat → Option Nat
  | level + 2 => some (level + 1)
  | _ => none

/-- A text. -/
def asText? : Json → Option String
  | string pieces => (text? pieces).map String.ofList
  | _ => none

/-- True or false. -/
def asBool? : Json → Option Bool
  | bool b => some b
  | _ => none

/-- A natural number of 32 bits. -/
def asWord32? : Json → Option UInt32
  | number n => (n.natural? UInt32.size).map UInt32.ofNat
  | _ => none

/-- An integer of 64 bits. -/
def asInt64? : Json → Option Int64
  | number n => n.int64?
  | _ => none

/-- The elements of an array, and the levels left inside. -/
def asArray? (level : Nat) : Json → Option (Nat × List Json)
  | array elements => (enter? level).map (·, elements)
  | _ => none

/-- The entries of an object as a map, with the levels left inside. -/
def asMap? (level : Nat) : Json → Option (Nat × List (List Piece × Json))
  | object fields => (enter? level).map (·, fields)
  | _ => none

/-- The value of a field that may occur at most once. -/
def single? (fields : List (String × Json)) (name : String) : Option (Option Json) :=
  match fields.filter (·.1 = name) with
  | [] => some none
  | [(_, value)] => some (some value)
  | _ => none

/-- The values of the fields of a record, in the order of their names, and the levels left inside.
A record is an object, in which unknown fields are passed over, or an array of the values, of which
the last may be missing. -/
def asRecord? (level : Nat) (names : List String) : Json → Option (Nat × List (Option Json))
  | object fields => do
    let level ← enter? level
    let fields ← fields.mapM fun (name, value) => (text? name).map fun t => (String.ofList t, value)
    let values ← names.mapM (single? fields)
    return (level, values)
  | array elements => do
    let level ← enter? level
    if names.length < elements.length then none
    else
      let missing := List.replicate (names.length - elements.length) none
      return (level, elements.map some ++ missing)
  | _ => none

/-- One of several alternatives that carry a value: an object with its name as the only field. -/
def asVariant? (level : Nat) : Json → Option (Nat × String × Json)
  | object [(name, value)] => do
    let level ← enter? level
    let name ← text? name
    return (level, String.ofList name, value)
  | _ => none

/-- One of several alternatives that carry nothing: its name, alone or as the only field of an
object with nothing in it. -/
def asName? (level : Nat) : Json → Option String
  | string pieces => asText? (string pieces)
  | object [(name, null)] => do
    let _ ← enter? level
    asText? (string name)
  | _ => none

/-- A field that has a default where it is missing. -/
def orDefault (default : α) (decode : Json → Option α) : Option Json → Option α
  | none => some default
  | some value => decode value

/-- A natural number of 64 bits as the name of a field: its digits, written plainly. -/
def key64? (name : List Piece) : Option UInt64 := do
  let digits ← name.mapM fun
    | .plain c => if c.isDigit then some c else none
    | _ => none
  if digits.isEmpty ∨ (1 < digits.length ∧ digits.head? = some '0') then none
  else
    let n := Nat.ofDigitChars 10 digits 0
    if n < UInt64.size then some (UInt64.ofNat n) else none

end Tabletop.Json
