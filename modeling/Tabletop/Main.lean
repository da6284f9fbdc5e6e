import Tabletop.Console
import Tabletop.Content.Stored
import Tabletop.Rolling.Random
import Tabletop.Settings.Stored

/-!
# The command line

Rolls the notations on the standard input, one on each line.
-/

namespace Tabletop.Main

/-- What may be given on the command line. -/
structure Options where
  /-- A file with settings. -/
  config : Option String := none
  /-- A number that decides all rolls. -/
  seed : Option Nat := none
  /-- A file with documents. -/
  store : Option String := none

/-- Options with one more. -/
def Options.set? (options : Options) (name value : String) : Option Options :=
  match name with
  | "--config" => some { options with config := some value }
  | "--seed" =>
    (Decimal.word64? value.toList).map fun seed => { options with seed := some seed.toNat }
  | "--store" => some { options with store := some value }
  | _ => none

/-- The options that the words of a command line make, after those read before. -/
def Options.read? (options : Options) : List String → Option Options
  | [] => some options
  | word :: words =>
    match Text.splitFirst? (· == '=') word.toList with
    | some (name, value) =>
      match options.set? (String.ofList name) (String.ofList value) with
      | some options => options.read? words
      | none => none
    | none =>
      match words with
      | value :: words =>
        match options.set? word value with
        | some options => options.read? words
        | none => none
      | [] => none

/-- What `read?` makes of a file, if it can be read and its text makes sense. -/
def load? (read? : String → Option α) (name : Option String) : IO (Option α) := do
  match name with
  | none => return none
  | some name =>
    try
      let text ← IO.FS.readFile name
      return read? text
    catch _ => return none

/-- Writes what a console has written. -/
def put (written : Transcript) : IO Unit := do
  IO.eprint written.errors
  IO.print written.output
  (← IO.getStdout).flush

/-- Answers the lines of the standard input until it ends. -/
partial def answerLines (console : Console) (generator : StdGen) : IO Unit := do
  let input ← (← IO.getStdin).getLine
  match Text.lines input.toList with
  | [] => return
  | line :: _ =>
    let (written, generator) := (console.answer line).run generator
    put written
    answerLines console generator

/-- Runs a console. -/
def run (options : Options) : IO Unit := do
  let settings ← load? Settings.read? options.config
  let documents ← load? MemoryStore.read? options.store
  let seed ← match options.seed with
    | some seed => pure seed
    | none => IO.rand 0 0xFFFFFFFF
  put Console.prompt
  answerLines
    { engine := { settings := settings.getD {} }
      store := (documents.getD {}).toContentStore }
    (mkStdGen seed)

end Tabletop.Main

/-- Rolls the notations on the standard input. -/
def main (words : List String) : IO UInt32 := do
  match ({} : Tabletop.Main.Options).read? words with
  | some options =>
    Tabletop.Main.run options
    return 0
  | none =>
    IO.eprintln "usage: [--config FILE] [--seed NUMBER] [--store FILE]"
    return 2
