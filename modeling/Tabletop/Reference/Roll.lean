import Tabletop.Engine
import Tabletop.Reference.Cell
import Tabletop.Reference.Draw

/-!
# Rolling references

Each kind of reference finds its candidates in the documents and draws as many of them as it asks
for. A table whose first column is headed by a dice notation is a lookup table: there the notation
is rolled, and the value chooses the row.
-/

namespace Tabletop

namespace Engine

/-- Whether a reference may draw a number of entries: the limit on dice holds for entries too. -/
def allowsDraws (engine : Engine) (count : Nat) : Bool :=
  match engine.settings.maxRolls with
  | some limit => count ≤ limit.toNat
  | none => true

/-- The dice notation at the head of a lookup table. A head on which the parser breaks off is one
too, but the table cannot be rolled. -/
def lookupFormula? (engine : Engine) (table : Table) : Option String :=
  match table.header with
  | [] => none
  | first :: _ =>
    let first := Text.trim first.toList
    let begins := match first with
      | c :: _ => c.isDigit || c == 'd' || c == 'D'
      | [] => false
    if begins then
      match engine.parse (String.ofList first) with
      | .ok e => if e.groups.isEmpty then none else some (String.ofList first)
      | .error e => if e.breaksOff then some (String.ofList first) else none
    else none

end Engine

namespace Reference

/-- Rolls the notation of a lookup table for each entry, and finds the row for its value. The
entries found so far are in reverse in `found`. -/
def lookUp (engine : Engine) (formula : String) (table : Table) (name : String)
    (column : Option Nat) : (count : Nat) → (found : List String) →
      Rolling (Except RollError (List String))
  | 0, found => return .ok found.reverse
  | count + 1, found => do
    match ← engine.rollDice formula with
    | .error e => return .error e
    | .ok result =>
      let value := result.total.toInt64
      match table.rows.find? fun row => row.head?.any (Cell.covers · value) with
      | none => return .error (.reference (.noRow name value))
      | some row => lookUp engine formula table name column count (Cell.entry row column 1 :: found)

/-- The entries drawn from a table. -/
def tableEntries (engine : Engine) (name : String) (table : Table) (column : Option Nat)
    (count : Nat) : Rolling (Except RollError (List String)) :=
  match engine.lookupFormula? table with
  | some formula =>
    match engine.parse formula with
    | .error e => return .error e
    | .ok _ => lookUp engine formula table name column count []
  | none => do
    let rows ← Draw.entries table.rows count engine.settings.tableExhaustion
    return .ok (rows.map fun row => Cell.entry row column 0)

/-- Draws an entry from each note that has a section of the kinds asked for. The entries drawn so
far are in reverse in `drawn`. -/
def oneOfEach (exhaustion : Exhaustion) (drawn : List String) :
    List (List Section) → Rolling (List String)
  | [] => return drawn.reverse
  | sections :: others => do
    let entries ← Draw.entries sections 1 exhaustion
    oneOfEach exhaustion ((entries.map (·.text)).reverse ++ drawn) others

/-- The entries of a reference, or why there are none. -/
def entries (engine : Engine) (store : ContentStore) (r : Reference) :
    Rolling (Except RollError (List String)) :=
  let fail (e : ReferenceError) : Rolling (Except RollError (List String)) :=
    return .error (.reference e)
  let count := r.count.toNat
  let exhaustion := engine.settings.tableExhaustion
  match r.target with
  | .table note block columnName =>
    let name := blockName note block
    if !engine.allowsDraws count then return .error (.evaluation .tooManyRolls)
    else
      match store.table? note block with
      | none => fail (.notFound name)
      | some table =>
        if table.rows.isEmpty then fail (.empty name)
        else
          match columnName with
          | none => tableEntries engine name table none count
          | some columnName =>
            match table.column? columnName with
            | none => fail (.unknownColumn name columnName)
            | some column => tableEntries engine name table (some column) count
  | .sections note kinds =>
    if !engine.allowsDraws count then return .error (.evaluation .tooManyRolls)
    else
      match store.sections? note with
      | none => fail (.notFound (noteName note))
      | some sections =>
        let sections := Section.ofKinds kinds sections
        if sections.isEmpty then fail (.empty (noteName note))
        else do
          let drawn ← Draw.entries sections count exhaustion
          return .ok (drawn.map (·.text))
  | .lines note =>
    if !engine.allowsDraws count then return .error (.evaluation .tooManyRolls)
    else
      match store.lines? note with
      | none => fail (.notFound (noteName note))
      | some lines =>
        if lines.isEmpty then fail (.empty (noteName note))
        else do
          let drawn ← Draw.entries lines count exhaustion
          return .ok drawn
  | .tag tag kinds =>
    match store.tagged? tag with
    | none => fail (.notFound tag)
    | some notes =>
      let sectionsOf (note : String) := Section.ofKinds kinds ((store.sections? note).getD [])
      if notes.isEmpty then fail (.empty tag)
      else if engine.settings.returnAllTags then
        if !engine.allowsDraws notes.length then return .error (.evaluation .tooManyRolls)
        else do
          let drawn ← oneOfEach exhaustion [] (notes.map sectionsOf)
          if drawn.isEmpty then fail (.empty tag) else return .ok drawn
      else if !engine.allowsDraws count then return .error (.evaluation .tooManyRolls)
      else do
        let drawn ← Draw.entries (notes.flatMap sectionsOf) count exhaustion
        if drawn.isEmpty then fail (.empty tag) else return .ok (drawn.map (·.text))
  | .links tag =>
    if !engine.allowsDraws count then return .error (.evaluation .tooManyRolls)
    else
      match store.tagged? tag with
      | none => fail (.notFound tag)
      | some notes =>
        if notes.isEmpty then fail (.empty tag)
        else do
          let drawn ← Draw.entries notes count exhaustion
          return .ok (drawn.map noteName)

/-- What stands between the entries of a reference when they are shown. -/
def separator (r : Reference) : String :=
  match r.target with
  | .sections .. | .tag .. => "\n\n"
  | .table .. | .lines .. | .links .. => "\n"

/-- Rolls a reference. -/
def roll (engine : Engine) (store : ContentStore) (r : Reference) :
    Rolling (Except RollError ReferenceResult) := do
  match ← r.entries engine store with
  | .error e => return .error e
  | .ok entries =>
    return .ok
      { kind := r.kind, written := r.written, entries, display := r.separator.intercalate entries }

end Reference

/-- What rolling a notation gives. -/
inductive Outcome where
  | dice (result : RollResult)
  | reference (result : ReferenceResult)
  deriving DecidableEq

namespace Outcome

/-- What was rolled. -/
def kind : Outcome → RollerKind
  | dice _ => .dice
  | reference r => .reference r.kind

/-- The outcome as it is shown. -/
def text : Outcome → String
  | dice r => r.text
  | reference r => r.display

end Outcome

namespace Engine

/-- Rolls any notation: dice, or the first reference of the kind that decides. -/
def roll (engine : Engine) (store : ContentStore) (text : String) :
    Rolling (Except RollError Outcome) :=
  let written := engine.prepare text
  match engine.lex written with
  | .error e => return .error (.lex e)
  | .ok lexemes =>
    match classify lexemes with
    | .dice =>
      match engine.parseLexemes lexemes written with
      | .error e => return .error e
      | .ok e => do
        let result ← engine.eval e
        return result.map .dice
    | .reference kind =>
      match lexemes.find? (·.kind = .reference kind) with
      | none => return .error (.reference (.malformed written))
      | some lexeme =>
        match Reference.ofLexeme lexeme with
        | .error e => return .error (.reference e)
        | .ok reference => do
          let result ← reference.roll engine store
          return result.map .reference

/-- Rolls notations one after the other; a failure does not keep the others from being rolled.
The outcomes so far are in reverse in `outcomes`. -/
def rollEach (engine : Engine) (store : ContentStore) (outcomes : List (Except RollError Outcome)) :
    List String → Rolling (List (Except RollError Outcome))
  | [] => return outcomes.reverse
  | text :: texts => do
    let outcome ← engine.roll store text
    rollEach engine store (outcome :: outcomes) texts

/-- Rolls notations one after the other. -/
def rollAll (engine : Engine) (store : ContentStore) (texts : List String) :
    Rolling (List (Except RollError Outcome)) :=
  rollEach engine store [] texts

end Engine

end Tabletop
