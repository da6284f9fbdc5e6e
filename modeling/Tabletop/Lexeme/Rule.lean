import Tabletop.Decimal.Layout
import Tabletop.Lexeme
import Tabletop.Lexeme.Suffix
import Tabletop.Reference.Written
import Tabletop.Settings
import Tabletop.Text.CodePoints

/-!
# The rules of the lexer

Each rule looks at the front of a text and either takes a part of it, for a lexeme or to be left
out, or refuses it. The rules stand in a fixed order and the first that does not refuse decides.
A rule sees the text after its part too: a letter such as `k` or `d` is a modifier only if it is
not the beginning of a longer word.

Every rule that takes a part takes at least one character (`length_of_firstMatch`).
-/

namespace Tabletop

/-- What the lexer has to know besides the text. -/
structure LexContext where
  settings : Settings
  /-- The values of the names that may stand in a notation. -/
  fields : String → Option Float

/-- What becomes of the part that a rule takes. -/
inductive Take where
  /-- It is left out. -/
  | skip
  /-- It is a lexeme. -/
  | lexeme (kind : LexemeKind) (data : List Char) (conditionals : Option (List Conditional))

/-- A rule: what becomes of the part it takes at the front of a text, and the text after the part;
nothing if it refuses the text. -/
abbrev Rule := LexContext → List Char → Option (Take × List Char)

namespace Rule

open Text (isDigit isBlank)
open Written (isBrace)

/-- The part of a text before its rest. -/
def part (cs rest : List Char) : List Char :=
  cs.take (cs.length - rest.length)

/-- White space is left out, and so are braces. -/
def gap : Rule := fun _ cs =>
  match cs with
  | c :: _ =>
    if isBlank c then some (.skip, cs.dropWhile isBlank)
    else if isBrace c then some (.skip, cs.dropWhile isBrace)
    else none
  | [] => none

/-- A reference to a table: the text in the brackets names a note and a block. -/
def table : Rule := fun _ cs =>
  match Written.bracketed? cs with
  | some (b, rest) =>
    if (Written.block? b.inner).isSome then
      some (.lexeme (.reference .table) (part cs rest) none, rest)
    else none
  | none => none

/-- A reference to a note: to its lines if the modifier says so, otherwise to its sections. -/
def note : Rule := fun _ cs =>
  match Written.bracketed? cs with
  | some (b, rest) =>
    let kind :=
      if b.modifier.map Text.trim = some ['l', 'i', 'n', 'e'] then ReferenceKind.line else .sections
    some (.lexeme (.reference kind) (part cs rest) none, rest)
  | none => none

/-- A tag: a plus asks for links, and the settings may say that no sign does too. -/
def tag : Rule := fun context cs =>
  match Written.tagged? cs with
  | some (t, rest) =>
    let kind :=
      match t.selector with
      | some '+' => ReferenceKind.link
      | none => if context.settings.rollLinksForTags then .link else .tag
      | some _ => .tag
    some (.lexeme (.reference kind) (part cs rest) none, rest)
  | none => none

/-- Whether the text starts with an ASCII letter. -/
def startsWithLetter : List Char → Bool
  | c :: _ => c.isAlpha
  | [] => false

/-- The faces at the front of a text, decimal digits or a percent sign, and the rest. -/
def faces : List Char → Option (List Char) × List Char
  | '%' :: cs => (some ['1', '0', '0'], cs)
  | cs =>
    let digits := cs.takeWhile isDigit
    (if digits.isEmpty then none else some digits, cs.dropWhile isDigit)

/-- A group of dice `NdM` with its conditionals, where the number or the faces may be missing. The
letter is no dice if both are, or if the faces are and another letter follows: then it belongs to
a drop or a stunt. -/
def dice : Rule := fun context cs =>
  let count := cs.takeWhile isDigit
  match cs.dropWhile isDigit with
  | d :: afterLetter =>
    if d == 'd' || d == 'D' then
      let (faces, afterFaces) := faces afterLetter
      let (conditionals, rest) := Suffix.conditionals afterFaces
      if faces.isNone && (count.isEmpty || startsWithLetter rest) then none
      else
        let count :=
          if count.isEmpty then Nat.toDigits 10 context.settings.defaultRoll.toNat else count
        let faces := faces.getD (Nat.toDigits 10 context.settings.defaultFace.toNat)
        some (.lexeme .dice (count ++ 'd' :: faces) (some conditionals), rest)
    else none
  | [] => none

/-- A number, unless the letter of a group of dice follows. -/
def integer : Rule := fun _ cs =>
  let digits := cs.takeWhile isDigit
  let rest := cs.dropWhile isDigit
  if digits.isEmpty || rest.head? == some 'd' || rest.head? == some 'D' then none
  else some (.lexeme .dice digits (some []), rest)

/-- An operator or a parenthesis. -/
def math : Rule := fun _ cs =>
  match cs with
  | c :: rest =>
    if c ∈ ['-', '+', '*', '/', '^', '(', ')'] then some (.lexeme .math [c] none, rest) else none
  | [] => none

/-- The dice of a stunt. -/
def stunt : Rule := fun _ cs =>
  match cs with
  | '1' :: d :: 'S' :: rest =>
    if d == 'd' || d == 'D' then some (.lexeme .stunt ['1'] (some []), rest) else none
  | _ => none

/-- Whether a character may stand inside of a name. -/
def isNameChar (c : Char) : Bool :=
  c.isAlphanum || c == '_'

/-- Whether a letter that could be a modifier begins a longer word instead: the word is the name
of a field, or a letter follows with which no modifier begins or goes on. -/
def startsWord (context : LexContext) (part rest : List Char) : Bool :=
  let tail := rest.takeWhile isNameChar
  if tail.isEmpty then false
  else
    (context.fields (String.ofList (part ++ tail))).isSome ||
      match rest with
      | c :: _ => c.isAlpha && c ∉ ['k', 'd', 'r', 'l', 'h']
      | [] => false

/-- The digits of a count, where no digits stand for one. -/
def countOr1 (digits : List Char) : List Char :=
  if digits.isEmpty then ['1'] else digits

/-- A modifier with a count: `letters` are its letters and `after` is the text after them. It is
refused before the letter `barred`, which would make it another modifier, and if it begins a
longer word. -/
def counted (kind : ModifierKind) (letters : List Char) (barred : Option Char) (context : LexContext)
    (after : List Char) : Option (Take × List Char) :=
  let digits := after.takeWhile isDigit
  let rest := after.dropWhile isDigit
  if (barred.isSome && rest.head? == barred) || startsWord context (letters ++ digits) rest then none
  else some (.lexeme (.modifier kind) (countOr1 digits) none, rest)

/-- Keeping the highest: `kh` or `k`. -/
def keepHigh : Rule := fun context cs =>
  match cs with
  | 'k' :: 'h' :: after => counted .keepHigh ['k', 'h'] none context after
  | 'k' :: after => counted .keepHigh ['k'] (some 'l') context after
  | _ => none

/-- Dropping the lowest: `dl` or `d`. -/
def dropLow : Rule := fun context cs =>
  match cs with
  | 'd' :: 'l' :: after => counted .dropLow ['d', 'l'] none context after
  | 'd' :: after => counted .dropLow ['d'] (some 'h') context after
  | _ => none

/-- Keeping the lowest: `kl`. -/
def keepLow : Rule := fun context cs =>
  match cs with
  | 'k' :: 'l' :: after => counted .keepLow ['k', 'l'] none context after
  | _ => none

/-- Dropping the highest: `dh`. -/
def dropHigh : Rule := fun context cs =>
  match cs with
  | 'd' :: 'h' :: after => counted .dropHigh ['d', 'h'] none context after
  | _ => none

/-- The number of repetitions at the front of a text, and the rest: `i` stands for the cap, and
nothing for one. -/
def times (settings : Settings) : List Char → List Char × List Char
  | 'i' :: cs => (Nat.toDigits 10 settings.unboundedCap.toNat, cs)
  | cs => (countOr1 (cs.takeWhile isDigit), cs.dropWhile isDigit)

/-- A modifier with a number of repetitions and conditionals, after its sign. -/
def repeated (kind : ModifierKind) (context : LexContext) (after : List Char) :
    Take × List Char :=
  let (times, afterTimes) := times context.settings after
  let (conditionals, rest) := Suffix.conditionals afterTimes
  (.lexeme (.modifier kind) times (some conditionals), rest)

/-- An explosion added to the die itself: `!!`. -/
def explodeCombine : Rule := fun context cs =>
  match cs with
  | '!' :: '!' :: after => some (repeated .explodeCombine context after)
  | _ => none

/-- An explosion: `!`. -/
def explode : Rule := fun context cs =>
  match cs with
  | '!' :: after => some (repeated .explode context after)
  | _ => none

/-- Rolling again: `r`, unless it begins a longer word. -/
def reroll : Rule := fun context cs =>
  match cs with
  | 'r' :: after =>
    let (take, rest) := repeated .reroll context after
    if startsWord context (part cs rest) rest then none else some (take, rest)
  | _ => none

/-- A name of at least two characters: a number if it is the name of a field, and otherwise left
out. -/
def name : Rule := fun context cs =>
  match cs with
  | c :: after =>
    let tail := after.takeWhile isNameChar
    let rest := after.dropWhile isNameChar
    if c.isAlpha && !tail.isEmpty then
      match context.fields (String.ofList (c :: tail)) with
      | some value => some (.lexeme .dice (Decimal.plain value).toList (some []), rest)
      | none => some (.skip, rest)
    else none
  | [] => none

/-- The rules in the order in which they are tried. -/
def all : List Rule :=
  [gap, table, note, tag, dice, integer, math, stunt, keepHigh, dropLow, keepLow, dropHigh,
    explodeCombine, explode, reroll, name]

/-- What the first rule that does not refuse a text takes of it. -/
def firstMatch (context : LexContext) (cs : List Char) : Option (Take × List Char) :=
  all.findSome? fun rule => rule context cs

/-! ## Every rule takes something -/

/-- A rule takes something wherever it does not refuse. -/
def Takes (rule : Rule) : Prop :=
  ∀ {context : LexContext} {cs rest : List Char} {take : Take},
    rule context cs = some (take, rest) → rest.length < cs.length

theorem length_dropWhile_le (p : Char → Bool) (cs : List Char) :
    (cs.dropWhile p).length ≤ cs.length :=
  (List.dropWhile_suffix p).length_le

theorem length_dropWhile_lt {p : Char → Bool} {cs : List Char} (h : (cs.takeWhile p).isEmpty = false) :
    (cs.dropWhile p).length < cs.length := by
  have total := congrArg List.length (List.takeWhile_append_dropWhile (p := p) (l := cs))
  have := List.length_pos_iff.2 (List.isEmpty_eq_false_iff.1 h)
  rw [List.length_append] at total
  omega

theorem takes_gap : Takes gap := by
  intro context cs rest take h
  unfold gap at h
  split at h
  · next c tail =>
    split at h
    · next blank =>
      simp only [Option.some.injEq, Prod.mk.injEq] at h
      rw [← h.2]
      exact length_dropWhile_lt (by simp [blank])
    · split at h
      · next brace =>
        simp only [Option.some.injEq, Prod.mk.injEq] at h
        rw [← h.2]
        exact length_dropWhile_lt (by simp [brace])
      · simp at h
  · simp at h

theorem takes_table : Takes table := by
  intro context cs rest take h
  unfold table at h
  split at h
  · next found =>
    split at h
    · simp only [Option.some.injEq, Prod.mk.injEq] at h
      exact h.2 ▸ Written.length_of_bracketed? found
    · simp at h
  · simp at h

theorem takes_note : Takes note := by
  intro context cs rest take h
  unfold note at h
  split at h
  · next found =>
    simp only [Option.some.injEq, Prod.mk.injEq] at h
    exact h.2 ▸ Written.length_of_bracketed? found
  · simp at h

theorem takes_tag : Takes tag := by
  intro context cs rest take h
  unfold tag at h
  split at h
  · next found =>
    simp only [Option.some.injEq, Prod.mk.injEq] at h
    exact h.2 ▸ Written.length_of_tagged? found
  · simp at h

theorem length_faces_le (cs : List Char) : (faces cs).2.length ≤ cs.length := by
  unfold faces
  split
  · simp
  · exact length_dropWhile_le _ _

theorem takes_dice : Takes dice := by
  intro context cs rest take h
  unfold dice at h
  split at h
  · next d after found =>
    split at h
    · dsimp only at h
      split at h
      · simp at h
      · have bound := length_dropWhile_le isDigit cs
        rw [found, List.length_cons] at bound
        simp only [Option.some.injEq, Prod.mk.injEq] at h
        rw [← h.2]
        have := length_faces_le after
        have := Suffix.length_conditionals_le (faces after).2
        omega
    · simp at h
  · simp at h

theorem takes_integer : Takes integer := by
  intro context cs rest take h
  unfold integer at h
  dsimp only at h
  split at h
  · simp at h
  · next accepted =>
    simp only [Option.some.injEq, Prod.mk.injEq] at h
    rw [← h.2]
    exact length_dropWhile_lt (by grind)

theorem takes_math : Takes math := by
  intro context cs rest take h
  unfold math at h
  grind

theorem takes_stunt : Takes stunt := by
  intro context cs rest take h
  unfold stunt at h
  grind

theorem length_of_counted {kind : ModifierKind} {letters after rest : List Char}
    {barred : Option Char} {context : LexContext} {take : Take}
    (h : counted kind letters barred context after = some (take, rest)) :
    rest.length ≤ after.length := by
  unfold counted at h
  dsimp only at h
  split at h
  · simp at h
  · simp only [Option.some.injEq, Prod.mk.injEq] at h
    exact h.2 ▸ length_dropWhile_le _ _

theorem takes_keepHigh : Takes keepHigh := by
  intro context cs rest take h
  unfold keepHigh at h
  split at h
  · have := length_of_counted h
    simp only [List.length_cons]
    omega
  · have := length_of_counted h
    simp only [List.length_cons]
    omega
  · simp at h

theorem takes_dropLow : Takes dropLow := by
  intro context cs rest take h
  unfold dropLow at h
  split at h
  · have := length_of_counted h
    simp only [List.length_cons]
    omega
  · have := length_of_counted h
    simp only [List.length_cons]
    omega
  · simp at h

theorem takes_keepLow : Takes keepLow := by
  intro context cs rest take h
  unfold keepLow at h
  split at h
  · have := length_of_counted h
    simp only [List.length_cons]
    omega
  · simp at h

theorem takes_dropHigh : Takes dropHigh := by
  intro context cs rest take h
  unfold dropHigh at h
  split at h
  · have := length_of_counted h
    simp only [List.length_cons]
    omega
  · simp at h

theorem length_times_le (settings : Settings) (cs : List Char) :
    (times settings cs).2.length ≤ cs.length := by
  unfold times
  split
  · simp
  · exact length_dropWhile_le _ _

theorem length_repeated_le (kind : ModifierKind) (context : LexContext) (after : List Char) :
    (repeated kind context after).2.length ≤ after.length :=
  Nat.le_trans (Suffix.length_conditionals_le _) (length_times_le _ _)

theorem takes_explodeCombine : Takes explodeCombine := by
  intro context cs rest take h
  unfold explodeCombine at h
  split at h
  · next after =>
    have := length_repeated_le .explodeCombine context after
    rw [Option.some.inj h] at this
    exact Nat.lt_succ_of_le (Nat.le_succ_of_le this)
  · simp at h

theorem takes_explode : Takes explode := by
  intro context cs rest take h
  unfold explode at h
  split at h
  · next after =>
    have := length_repeated_le .explode context after
    rw [Option.some.inj h] at this
    exact Nat.lt_succ_of_le this
  · simp at h

theorem takes_reroll : Takes reroll := by
  intro context cs rest take h
  unfold reroll at h
  split at h
  · next after =>
    dsimp only at h
    split at h
    · simp at h
    · have := length_repeated_le .reroll context after
      simp only [Option.some.injEq, Prod.mk.injEq] at h
      rw [h.2] at this
      simp only [List.length_cons]
      omega
  · simp at h

theorem takes_name : Takes name := by
  intro context cs rest take h
  unfold name at h
  split at h
  · next c after =>
    have := length_dropWhile_le isNameChar after
    simp only [List.length_cons]
    grind
  · simp at h

theorem takes_of_mem_all {rule : Rule} (h : rule ∈ all) : Takes rule := by
  simp only [all, List.mem_cons, List.not_mem_nil, or_false] at h
  rcases h with rfl | rfl | rfl | rfl | rfl | rfl | rfl | rfl | rfl | rfl | rfl | rfl | rfl | rfl |
    rfl | rfl
  · exact takes_gap
  · exact takes_table
  · exact takes_note
  · exact takes_tag
  · exact takes_dice
  · exact takes_integer
  · exact takes_math
  · exact takes_stunt
  · exact takes_keepHigh
  · exact takes_dropLow
  · exact takes_keepLow
  · exact takes_dropHigh
  · exact takes_explodeCombine
  · exact takes_explode
  · exact takes_reroll
  · exact takes_name

theorem length_of_firstMatch {context : LexContext} {cs rest : List Char} {take : Take}
    (h : firstMatch context cs = some (take, rest)) : rest.length < cs.length := by
  obtain ⟨rule, mem, found⟩ := List.exists_of_findSome?_eq_some h
  exact takes_of_mem_all mem found

end Rule

end Tabletop
