import Tabletop.Reference.Roll

/-!
# Consoles

At a console, every line of input is a notation. A prompt asks for it, and its outcome or its error
follows; a blank line is asked for again. The same answer to a line serves a session that is given
as a whole and one that goes on while its lines come in.
-/

namespace Tabletop

/-- What is written: to the output, and to the output for errors. -/
structure Transcript where
  output : String
  errors : String
  deriving DecidableEq, Repr

/-- One transcript after the other. -/
instance : Append Transcript where
  append a b := { output := a.output ++ b.output, errors := a.errors ++ b.errors }

/-- A console: what its notations are rolled with. -/
structure Console where
  engine : Engine
  store : ContentStore

namespace Console

/-- What asks for the next line. -/
def prompt : Transcript :=
  { output := "> ", errors := "" }

/-- What is written for the outcome of a line. -/
def report : Except RollError Outcome → Transcript
  | .ok outcome => { output := outcome.text ++ "\n", errors := "" }
  | .error e => { output := "", errors := "Error: " ++ e.message ++ "\n" }

/-- What is written for a line, and then asking for the next one. -/
def answer (console : Console) (line : List Char) : Rolling Transcript := do
  if line.all Text.isBlank then return prompt
  else
    let outcome ← console.engine.roll console.store (String.ofList line)
    return report outcome ++ prompt

/-- What is written for the lines, after what was written before. -/
def answerAll (console : Console) (before : Transcript) :
    (lines : List (List Char)) → Rolling Transcript
  | [] => return before
  | line :: lines => do
    let written ← console.answer line
    answerAll console (before ++ written) lines

/-- What is written in a session with the whole input. -/
def session (console : Console) (input : String) : Rolling Transcript :=
  console.answerAll prompt (Text.lines input.toList)

end Console

end Tabletop
