import Tabletop.Decimal.Integer
import Tabletop.Text.Basic
import Tabletop.Text.CodePoints

/-!
# Cells of lookup tables

The first cell of a row of a lookup table says for which rolled values the row stands: a number,
a range with a hyphen or a dash, or a number and a plus sign for all from it on.
-/

namespace Tabletop.Cell

/-- The number in a part of a cell. -/
def number? (cs : List Char) : Option Int64 :=
  Decimal.int64? cs

/-- Whether the cell of a lookup table stands for a value. -/
def covers (cell : String) (value : Int64) : Bool :=
  let cell := Text.trim cell.toList
  if cell.getLast? == some '+' then
    match number? (Text.trim cell.dropLast) with
    | some least => least ≤ value
    | none => false
  else
    match Text.splitFirst? (fun c => c == '-' || c == '–') cell with
    | some (lo, hi) =>
      match number? (Text.trim lo), number? (Text.trim hi) with
      | some lo, some hi => lo ≤ value && value ≤ hi
      | _, _ => false
    | none =>
      match number? cell with
      | some only => only == value
      | none => false

/-- The entry that a row gives: its cell in the given column, or else all its cells from `skip` on,
joined by bars. -/
def entry (row : List String) (column : Option Nat) (skip : Nat) : String :=
  match column with
  | some i => row.getD i ""
  | none =>
    " | ".intercalate ((row.drop skip).map fun cell => String.ofList (Text.trim cell.toList))

end Tabletop.Cell
