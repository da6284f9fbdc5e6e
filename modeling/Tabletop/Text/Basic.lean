/-!
# Texts as lists of characters

The readers of this library walk texts as lists of characters. This module holds what they
share: the length of a text in bytes of its UTF-8 form, cutting at characters and at fixed
words, and replacing one word by another.
-/

namespace Tabletop.Text

/-- The number of bytes of a text in UTF-8. -/
def utf8Length : List Char → Nat
  | [] => 0
  | c :: cs => c.utf8Size + utf8Length cs

/-- The text after `word`, if the text starts with it. -/
def dropWord? [BEq α] : (word cs : List α) → Option (List α)
  | [], cs => some cs
  | _ :: _, [] => none
  | w :: word, c :: cs => if w == c then dropWord? word cs else none

/-- The text with every occurrence of `old` replaced by `new`, from the left and without looking
at a character twice: the first `skip` characters belong to an occurrence already replaced. -/
def replaceFrom (old new : List Char) : (skip : Nat) → List Char → List Char
  | _, [] => []
  | skip + 1, _ :: cs => replaceFrom old new skip cs
  | 0, c :: cs =>
    if old.isPrefixOf (c :: cs) then new ++ replaceFrom old new (old.length - 1) cs
    else c :: replaceFrom old new 0 cs

/-- The text with every occurrence of the non-empty word `old` replaced by `new`. -/
def replaceAll (old new cs : List Char) : List Char :=
  replaceFrom old new 0 cs

/-- The pieces of a text between the characters that satisfy `p`: one more than there are such
characters. -/
def splitAll (p : Char → Bool) : List Char → List (List Char)
  | [] => [[]]
  | c :: cs =>
    if p c then [] :: splitAll p cs
    else
      match splitAll p cs with
      | piece :: pieces => (c :: piece) :: pieces
      | [] => [[c]]

/-- What stands before and after the first character that satisfies `p`. -/
def splitFirst? (p : Char → Bool) : List Char → Option (List Char × List Char)
  | [] => none
  | c :: cs =>
    if p c then some ([], cs)
    else (splitFirst? p cs).map fun (before, after) => (c :: before, after)

/-- The lines of a text. A final line feed ends the last line and starts no further one, and a
carriage return before a line feed belongs to the line end. -/
def lines (cs : List Char) : List (List Char) :=
  let pieces := splitAll (· == '\n') cs
  let ended := pieces.dropLast.map fun line =>
    if line.getLast? == some '\r' then line.dropLast else line
  match pieces.getLast? with
  | some [] | none => ended
  | some last => ended ++ [last]

/-- The text with the ASCII capitals made small, for comparing names without regard to case. -/
def foldAscii (cs : List Char) : List Char :=
  cs.map Char.toLower

end Tabletop.Text
