/-!
# Writing TOML

Keys are written as they are where that is possible, and all other texts in double quotes, so that
each text has one written form.
-/

namespace Tabletop.Toml

/-- A hexadecimal digit, in upper case. -/
def hexDigit (n : Nat) : Char :=
  if n < 10 then Char.ofNat ('0'.toNat + n) else Char.ofNat ('A'.toNat + (n - 10))

/-- A character as it is written in a string. -/
def escape (c : Char) : List Char :=
  match c with
  | '\x08' => ['\\', 'b']
  | '\t' => ['\\', 't']
  | '\n' => ['\\', 'n']
  | '\x0c' => ['\\', 'f']
  | '\r' => ['\\', 'r']
  | '"' => ['\\', '"']
  | '\\' => ['\\', '\\']
  | c =>
    if c.toNat < 0x20 ∨ c.toNat = 0x7F then
      ['\\', 'u', '0', '0', hexDigit (c.toNat / 16), hexDigit (c.toNat % 16)]
    else [c]

/-- A string in double quotes. -/
def quoted (s : String) : String :=
  String.ofList ('"' :: s.toList.flatMap escape ++ ['"'])

/-- Whether a key needs no quotes. -/
def isBare (s : String) : Bool :=
  !s.isEmpty && s.toList.all fun c => c.isAlphanum || c == '-' || c == '_'

/-- A key. -/
def key (s : String) : String :=
  if isBare s then s else quoted s

/-- A line with a key and a value that is written already. -/
def line (name value : String) : String :=
  key name ++ " = " ++ value ++ "\n"

end Tabletop.Toml
