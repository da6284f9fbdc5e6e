import Tabletop.Dice.RollResult
import Tabletop.Json.Decode
import Tabletop.Json.Read
import Tabletop.Json.Write

/-!
# Results as JSON

The form in which results are stored. Lists of conditionals and of values added to a die are left
out when they are empty. A stored integer comes back as an integer and a stored float as a float.
-/

namespace Tabletop

/-- A number: an integer by its digits, a float always with a point or an exponent. -/
def Number.toJson : Number → Json
  | int n => .ofInt n.toInt
  | float x => if x.isFinite then .number (.ofFloat x) else .null

/-- A number: an integer if it is written as one that fits 64 bits, and otherwise a float. -/
def Number.ofJson? : Json → Option Number
  | .number n =>
    match n.int64? with
    | some n => some (.int n)
    | none => n.float?.map .float
  | _ => none

/-- A word as a number. -/
def jsonOfWord (n : UInt32) : Json :=
  .ofInt n.toNat

namespace Comparison

/-- The name of a comparison. -/
def name : Comparison → String
  | eq => "Eq"
  | ne => "Ne"
  | gt => "Gt"
  | ge => "Ge"
  | lt => "Lt"
  | le => "Le"

/-- The comparison with a name. -/
def ofName? : String → Option Comparison
  | "Eq" => some eq
  | "Ne" => some ne
  | "Gt" => some gt
  | "Ge" => some ge
  | "Lt" => some lt
  | "Le" => some le
  | _ => none

end Comparison

namespace BinaryOperator

/-- The name of an operator. -/
def name : BinaryOperator → String
  | add => "Add"
  | sub => "Sub"
  | mul => "Mul"
  | div => "Div"
  | pow => "Pow"

/-- The operator with a name. -/
def ofName? : String → Option BinaryOperator
  | "Add" => some add
  | "Sub" => some sub
  | "Mul" => some mul
  | "Div" => some div
  | "Pow" => some pow
  | _ => none

end BinaryOperator

namespace Conditional

/-- A conditional. -/
def toJson (c : Conditional) : Json :=
  .record [("operator", .ofString c.comparison.name), ("comparer", .ofInt c.comparer.toInt)]

/-- A conditional. -/
def ofJson? (level : Nat) (j : Json) : Option Conditional := do
  match ← j.asRecord? level ["operator", "comparer"] with
  | (level, [some operator, some comparer]) =>
    let comparison ← Comparison.ofName? (← operator.asName? level)
    let comparer ← comparer.asInt64?
    return ⟨comparison, comparer⟩
  | _ => none

/-- Several conditionals. -/
def listOfJson? (level : Nat) (j : Json) : Option (List Conditional) := do
  let (level, elements) ← j.asArray? level
  elements.mapM (ofJson? level)

end Conditional

/-- A number of faces. -/
def Faces.ofJson? (j : Json) : Option Faces :=
  j.asWord32?.bind Faces.ofWord?

/-- Several words. -/
def wordsOfJson? (level : Nat) (j : Json) : Option (List UInt32) := do
  let (_, elements) ← j.asArray? level
  elements.mapM Json.asWord32?

namespace Die

/-- A die with its history. -/
def toJson (d : Die) : Json :=
  .record <|
    [("faces", jsonOfWord d.faces.count), ("rolls", .array (d.rolls.map jsonOfWord))] ++
    (if d.bonus.isEmpty then [] else [("bonus", .array (d.bonus.map jsonOfWord))]) ++
    [("dropped", .bool d.dropped), ("rerolled", .bool d.rerolled), ("exploded", .bool d.exploded),
      ("triggered", .bool d.triggered), ("matched", .bool d.matched)]

/-- A die with its history, which holds at least one face. -/
def ofJson? (level : Nat) (j : Json) : Option Die := do
  match ← j.asRecord? level
      ["faces", "rolls", "bonus", "dropped", "rerolled", "exploded", "triggered", "matched"] with
  | (level, [some faces, some rolls, bonus, dropped, rerolled, exploded, triggered, matched]) =>
    let faces ← Faces.ofJson? faces
    let rolls ← wordsOfJson? level rolls
    let face ← rolls.getLast?
    let bonus ← Json.orDefault [] (wordsOfJson? level) bonus
    let dropped ← Json.orDefault false Json.asBool? dropped
    let rerolled ← Json.orDefault false Json.asBool? rerolled
    let exploded ← Json.orDefault false Json.asBool? exploded
    let triggered ← Json.orDefault false Json.asBool? triggered
    let matched ← Json.orDefault false Json.asBool? matched
    return { faces, earlier := rolls.dropLast, face, bonus, dropped, rerolled, exploded, triggered,
             matched }
  | _ => none

end Die

namespace RollGroup

/-- A group of dice. -/
def toJson (g : RollGroup) : Json :=
  .record <|
    [("notation", .ofString g.written), ("count", jsonOfWord g.count),
      ("faces", jsonOfWord g.faces.count)] ++
    (if g.conditionals.isEmpty then []
     else [("conditionals", .array (g.conditionals.map Conditional.toJson))]) ++
    [("dice", .array (g.dice.map Die.toJson))]

/-- A group of dice. -/
def ofJson? (level : Nat) (j : Json) : Option RollGroup := do
  match ← j.asRecord? level ["notation", "count", "faces", "conditionals", "dice"] with
  | (level, [some written, some count, some faces, conditionals, some dice]) =>
    let written ← written.asText?
    let count ← count.asWord32?
    let faces ← Faces.ofJson? faces
    let conditionals ← Json.orDefault [] (Conditional.listOfJson? level) conditionals
    let (level, dice) ← dice.asArray? level
    let dice ← dice.mapM (Die.ofJson? level)
    return { written, count, faces, conditionals, dice }
  | _ => none

/-- The group of dice that a text holds. -/
def read? (s : String) : Option RollGroup :=
  (Json.read? s).bind (ofJson? Json.levels)

end RollGroup

namespace StuntRoll

/-- The dice of a stunt. -/
def toJson (s : StuntRoll) : Json :=
  .record
    [("notation", .ofString s.written),
      ("regular", .array [jsonOfWord s.regular.1, jsonOfWord s.regular.2]),
      ("stunt", jsonOfWord s.stunt)]

/-- The dice of a stunt. -/
def ofJson? (level : Nat) (j : Json) : Option StuntRoll := do
  match ← j.asRecord? level ["notation", "regular", "stunt"] with
  | (level, [some written, some regular, some stunt]) =>
    let written ← written.asText?
    let stunt ← stunt.asWord32?
    match ← wordsOfJson? level regular with
    | [first, second] => return { written, regular := (first, second), stunt }
    | _ => none
  | _ => none

end StuntRoll

namespace RollTree

/-- A rolled tree: an object with the kind of its node as the only field. -/
def toJson : RollTree → Json
  | literal value => .record [("literal", value.toJson)]
  | dice group => .record [("dice", group.toJson)]
  | stunt roll => .record [("stunt", roll.toJson)]
  | grouping inner => .record [("grouping", inner.toJson)]
  | negate inner => .record [("negate", inner.toJson)]
  | binary left op right =>
    .record [("binary",
      .record [("left", left.toJson), ("op", .ofString op.name), ("right", right.toJson)])]

/-- A rolled tree that lies within the given number of levels. -/
def ofJson? : (level : Nat) → Json → Option RollTree
  | 0, _ => none
  | 1, _ => none
  | level + 2, j => do
    match ← j.asVariant? (level + 2) with
    | (_, "literal", value) => (Number.ofJson? value).map literal
    | (inside, "dice", value) => (RollGroup.ofJson? inside value).map dice
    | (inside, "stunt", value) => (StuntRoll.ofJson? inside value).map stunt
    | (_, "grouping", value) => (ofJson? (level + 1) value).map grouping
    | (_, "negate", value) => (ofJson? (level + 1) value).map negate
    | (inside, "binary", value) =>
      match ← value.asRecord? inside ["left", "op", "right"] with
      | (inside, [some left, some op, some right]) =>
        let op ← BinaryOperator.ofName? (← op.asName? inside)
        let left ← ofJson? level left
        let right ← ofJson? level right
        return binary left op right
      | _ => none
    | _ => none

/-- The rolled tree that a text holds. -/
def read? (s : String) : Option RollTree :=
  (Json.read? s).bind (ofJson? Json.levels)

end RollTree

namespace RollResult

/-- A result. -/
def toJson (r : RollResult) : Json :=
  .record
    [("notation", .ofString r.written), ("total", r.total.toJson),
      ("display", .ofString r.display), ("tree", r.tree.toJson)]

/-- A result. -/
def ofJson? (level : Nat) (j : Json) : Option RollResult := do
  match ← j.asRecord? level ["notation", "total", "display", "tree"] with
  | (level, [some written, some total, some display, some tree]) =>
    let written ← written.asText?
    let total ← Number.ofJson? total
    let display ← display.asText?
    let tree ← RollTree.ofJson? level tree
    return { written, total, display, tree }
  | _ => none

/-- The result that a text holds. -/
def read? (s : String) : Option RollResult :=
  (Json.read? s).bind (ofJson? Json.levels)

/-- The text that holds a result. -/
def write (r : RollResult) : String :=
  r.toJson.compact

end RollResult

end Tabletop
