import Tabletop.Text.Basic
import Tabletop.Text.CodePoints
import Tabletop.Text.TagChar

/-!
# References as they are written

A reference is `[[note]]`, `[[note#^block]]` or `#tag`, with a count such as `3d` before it and
modifiers after bars behind it. The lexer finds references with the readers of this module, and
the rollers take references apart with the same readers, so the two agree.
-/

namespace Tabletop.Written

open Text (isDigit isTagChar)

/-- Whether a character is one of the braces that may surround a notation. -/
def isBrace (c : Char) : Bool :=
  c == '{' || c == '}'

/-- A count and the letter `d`, if the text starts with them, and the text after. -/
def count (cs : List Char) : Option (List Char) × List Char :=
  match cs.takeWhile isDigit, cs.dropWhile isDigit with
  | digit :: digits, d :: rest => if d == 'd' || d == 'D' then (some (digit :: digits), rest) else (none, cs)
  | _, _ => (none, cs)

/-- The text between a bar and the next brace, if the text starts with a bar and there is any. -/
def modifier (cs : List Char) : Option (List Char) × List Char :=
  match cs with
  | '|' :: c :: rest =>
    if isBrace c then (none, cs)
    else (some (c :: rest.takeWhile (!isBrace ·)), rest.dropWhile (!isBrace ·))
  | _ => (none, cs)

/-- A reference in double brackets. -/
structure Bracketed where
  count : Option (List Char)
  /-- The text between the brackets. -/
  inner : List Char
  /-- The text after the bar. -/
  modifier : Option (List Char)
  deriving DecidableEq, Repr

/-- The text in double brackets at the front, up to the first closing bracket, and the rest. -/
def brackets? : List Char → Option (List Char × List Char)
  | '[' :: '[' :: cs =>
    match cs.takeWhile (· != ']'), cs.dropWhile (· != ']') with
    | c :: inner, ']' :: ']' :: rest => some (c :: inner, rest)
    | _, _ => none
  | _ => none

/-- A reference in double brackets at the front of a text, with the rest. -/
def bracketed? (cs : List Char) : Option (Bracketed × List Char) :=
  let (count, afterCount) := count cs
  match brackets? afterCount with
  | none => none
  | some (inner, afterBrackets) =>
    let (modifier, rest) := modifier afterBrackets
    some (⟨count, inner, modifier⟩, rest)

/-- The note and the block of a reference to a block: they are separated by the first caret that
has text on both sides, or by a number sign and a caret. -/
def block? : List Char → Option (List Char × List Char)
  | [] => none
  | first :: cs => split [first] cs
where
  /-- Goes on after a part of the note, given in reverse. -/
  split (note : List Char) : List Char → Option (List Char × List Char)
    | '#' :: '^' :: c :: cs => some (note.reverse, c :: cs)
    | '^' :: c :: cs => some (note.reverse, c :: cs)
    | c :: cs => split (c :: note) cs
    | [] => none

/-- A tag with its modifiers. -/
structure Tagged where
  count : Option (List Char)
  /-- The tag with its number sign. -/
  tag : List Char
  /-- The sign after the first bar: a plus asks for links, a minus for sections. -/
  selector : Option Char
  /-- The kinds of sections asked for. -/
  kinds : Option (List Char)
  deriving DecidableEq, Repr

/-- A plus or a minus after a bar, if the text starts with them, and the text after. -/
def selector (cs : List Char) : Option Char × List Char :=
  match cs with
  | '|' :: c :: rest => if c == '+' || c == '-' then (some c, rest) else (none, cs)
  | _ => (none, cs)

/-- The text after a bar up to the next brace, which does not start with a sign, if the text starts
with a bar and there is any. -/
def kinds (cs : List Char) : Option (List Char) × List Char :=
  match cs with
  | '|' :: c :: _ => if c == '+' || c == '-' then (none, cs) else modifier cs
  | _ => (none, cs)

/-- A tag at the front of a text, with the rest. -/
def tagged? (cs : List Char) : Option (Tagged × List Char) :=
  let (count, afterCount) := count cs
  match afterCount with
  | '#' :: afterSign =>
    let name := afterSign.takeWhile isTagChar
    if name.isEmpty then none
    else
      let (selector, afterSelector) := selector (afterSign.dropWhile isTagChar)
      let (kinds, rest) := kinds afterSelector
      some (⟨count, '#' :: name, selector, kinds⟩, rest)
  | _ => none

/-! ## What is read is a part of the text -/

theorem length_count_le (cs : List Char) : (count cs).2.length ≤ cs.length := by
  unfold count
  split
  · next d rest _ after =>
    have := (List.dropWhile_suffix isDigit (l := cs)).length_le
    split
    · simp only [after, List.length_cons] at this
      exact Nat.le_of_succ_le this
    · exact Nat.le_refl _
  · exact Nat.le_refl _

theorem length_modifier_le (cs : List Char) : (modifier cs).2.length ≤ cs.length := by
  unfold modifier
  split
  · next c rest =>
    split
    · exact Nat.le_refl _
    · have := (List.dropWhile_suffix (!isBrace ·) (l := rest)).length_le
      simp only [List.length_cons]
      omega
  · exact Nat.le_refl _

theorem length_selector_le (cs : List Char) : (selector cs).2.length ≤ cs.length := by
  unfold selector
  split
  · split <;> grind
  · exact Nat.le_refl _

theorem length_kinds_le (cs : List Char) : (kinds cs).2.length ≤ cs.length := by
  unfold kinds
  split
  · split
    · exact Nat.le_refl _
    · exact length_modifier_le _
  · exact Nat.le_refl _

theorem length_of_brackets? {cs inner rest : List Char} (h : brackets? cs = some (inner, rest)) :
    rest.length < cs.length := by
  unfold brackets? at h
  split at h
  · next cs =>
    split at h
    · next after =>
      have := (List.dropWhile_suffix (· != ']') (l := cs)).length_le
      simp only [after, List.length_cons] at this
      obtain ⟨-, rfl⟩ : _ ∧ _ := by simpa using h
      simp only [List.length_cons]
      omega
    · simp at h
  · simp at h

theorem length_of_bracketed? {cs rest : List Char} {b : Bracketed}
    (h : bracketed? cs = some (b, rest)) : rest.length < cs.length := by
  unfold bracketed? at h
  dsimp only at h
  split at h
  · simp at h
  · next found =>
    have := length_of_brackets? found
    have := length_count_le cs
    simp only [Option.some.injEq, Prod.mk.injEq] at h
    rw [← h.2]
    exact Nat.lt_of_le_of_lt (length_modifier_le _) (by omega)

theorem length_of_tagged? {cs rest : List Char} {t : Tagged}
    (h : tagged? cs = some (t, rest)) : rest.length < cs.length := by
  unfold tagged? at h
  dsimp only at h
  split at h
  · next after found =>
    split at h
    · simp at h
    · have bound := length_count_le cs
      simp only [found, List.length_cons] at bound
      simp only [Option.some.injEq, Prod.mk.injEq] at h
      rw [← h.2]
      have := (List.dropWhile_suffix isTagChar (l := after)).length_le
      have := length_selector_le (after.dropWhile isTagChar)
      have := length_kinds_le (selector (after.dropWhile isTagChar)).2
      omega
  · simp at h

end Tabletop.Written
