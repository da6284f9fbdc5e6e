import Tabletop.Text.Basic
import Tabletop.Text.Printable

/-!
# Escaped texts

A notation copied out of a document may have its comparison signs and quotes written as
entities. They are decoded one kind after the other, the ampersand last, so that an escaped
entity such as `&amp;gt;` becomes the text `&gt;` and no further.

In the other direction, error messages name texts in double quotes. Inside them the quote, the
backslash and the four usual controls are escaped by a backslash, and any other character that
would not show is written `\u{...}` with its number in hexadecimal.
-/

namespace Tabletop.Text

/-! ### Character entities -/

/-- The entities and what they stand for, in the order in which they are decoded. -/
def entities : List (String × Char) :=
  [("&gt;", '>'), ("&lt;", '<'), ("&quot;", '"'), ("&#39;", '\''), ("&apos;", '\''), ("&amp;", '&')]

/-- The text with its entities decoded. -/
def decodeEntities (cs : List Char) : List Char :=
  entities.foldl (fun text (entity, c) => replaceAll entity.toList [c] text) cs

/-! ### Quoted texts -/

/-- One character as it stands between the quotes. -/
def quotedChar (c : Char) : List Char :=
  match c with
  | '"' => ['\\', '"']
  | '\\' => ['\\', '\\']
  | '\n' => ['\\', 'n']
  | '\r' => ['\\', 'r']
  | '\t' => ['\\', 't']
  | '\x00' => ['\\', '0']
  | c => if isPrintable c then [c] else ['\\', 'u', '{'] ++ Nat.toDigits 16 c.toNat ++ ['}']

/-- A text in double quotes. -/
def quoted (s : String) : String :=
  String.ofList (['"'] ++ s.toList.flatMap quotedChar ++ ['"'])

end Tabletop.Text
