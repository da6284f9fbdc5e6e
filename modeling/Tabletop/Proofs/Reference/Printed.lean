import Tabletop.Proofs.Engine.Malformed
import Tabletop.Proofs.Lexeme.Reread
import Tabletop.Proofs.Lexeme.Taken

/-!
# References as they are put together

A reference is put together from a count, the name of a note and perhaps of a block, or a tag, and
modifiers behind bars.  The lexer reads what was put together as one lexeme, and the reader of
references finds the parts again (`ofLexeme_written`).

Every part is read up to where the next begins: a count up to its letter, names in brackets up to
the closing bracket, a tag up to a bar, and modifiers up to the end of the text.  Two places are
less plain.

* A note may end with a number sign, and the block behind its caret may have further carets.  The
  first caret is the one that separates them, and the number sign before it is not the note's
  (`Written.block?_append`).
* A tag has two bars, and the part behind the first can be missing.  The signs of links and sections
  tell them apart, since no list of kinds begins with one.

The kinds of sections are the pieces of a list with commas; pieces without text are left out.

The way back is in two steps.  The text is captured as it was put together (`Distinct.captures`),
which is a matter of the readers alone; and what can be captured is captured by the first rule that
takes something, with all of the text (`Rule.firstMatch_of_captures`).
-/

namespace Tabletop

open Text (isDigit isTagChar)

/-! ## References

A reference by its parts, and the conditions under which its text says what they are. -/

/-- What stands behind the first bar of a tag.  Both are read, and what they ask for is decided when
the lexeme is made. -/
inductive TagSign where
  /-- Links are asked for. -/
  | plus
  /-- Sections are asked for. -/
  | minus
  deriving DecidableEq

def TagSign.char : TagSign → Char
  | plus => '+'
  | minus => '-'

/-- A reference without its count, part by part.  The count is apart because every kind of reference
has one. -/
inductive Referred where
  | block (name part : List Char) (column : Option (List Char))
  | note (name : List Char) (modifier : Option (List Char))
  | tag (name : List Char) (sign : Option TagSign) (kinds : Option (List Char))

namespace Referred

/-- A modifier with its bar. -/
def barred : Option (List Char) → List Char
  | some modifier => '|' :: modifier
  | none => []

/-- The reference as it is written.  It is put together from the parts as they are, with nothing
escaped; the conditions below say when it can be taken apart again. -/
def text : Referred → List Char
  | block name part column =>
    '[' :: '[' :: (name ++ '#' :: '^' :: part ++ ']' :: ']' :: barred column)
  | note name modifier => '[' :: '[' :: (name ++ ']' :: ']' :: barred modifier)
  | tag name sign kinds => '#' :: (name ++ (barred (sign.map fun s => [s.char]) ++ barred kinds))

/-- A count as it is written before a reference. -/
def countText : Option UInt64 → List Char
  | some n => Nat.toDigits 10 n.toNat ++ ['d']
  | none => []

/-- The reference as it is written, with a count before it. -/
def written (count : Option UInt64) (r : Referred) : String :=
  String.ofList (countText count ++ r.text)

/-- A name of a note: some text without closing brackets and carets.  A caret would be taken for the
one before a block, if something stands on both sides of it. -/
structure IsNote (name : List Char) : Prop where
  nonempty : name ≠ []
  noBracket : ']' ∉ name
  noCaret : '^' ∉ name

/-- A modifier has some text and no braces.  It may have bars and spaces, and so may a column, since
a modifier goes to the end. -/
def IsModifier (modifier : Option (List Char)) : Prop :=
  ∀ m ∈ modifier, m ≠ [] ∧ ∀ c ∈ m, Written.isBrace c = false

/-- A reference whose parts can be told from each other.  The name of a tag is in
ASCII here, and the reader takes more. -/
inductive Distinct : Referred → Prop
  | block {name part : List Char} {column : Option (List Char)} (isNote : IsNote name)
      (nonempty : part ≠ []) (noBracket : ']' ∉ part) (isModifier : IsModifier column) :
      Distinct (.block name part column)
  | note {name : List Char} {modifier : Option (List Char)} (isNote : IsNote name)
      (isModifier : IsModifier modifier) : Distinct (.note name modifier)
  | tag {name : List Char} {sign : Option TagSign} {kinds : Option (List Char)}
      (nonempty : name ≠ [])
      (isName : ∀ c ∈ name, c.isAlphanum = true ∨ c ∈ ['_', '/', '-'])
      (isModifier : IsModifier kinds) (noSign : ∀ k ∈ kinds, ∀ c ∈ k.head?, c ∉ ['+', '-']) :
      Distinct (.tag name sign kinds)

/-- The kinds that a list with commas names: its pieces, trimmed and in lower case, without those
that are empty.  A list that is nothing but commas names no kind. -/
def namedKinds (names : List Char) : List (List Char) :=
  ((names.splitOn ',').map fun name => Text.lowercase (Text.trim name)).filter (· ≠ [])

/-- The kinds asked for; none stand for any. -/
def kindsOf (modifier : Option (List Char)) : List String :=
  (modifier.map fun names => (namedKinds names).map String.ofList).getD []

/-- Where the reference draws from. -/
def target (settings : Settings) : Referred → Target
  | block name part column =>
    .table (String.ofList name) (String.ofList part)
      (column.map fun name => String.ofList (Text.trim name))
  | note name modifier =>
    if modifier.map Text.trim = some "line".toList then .lines (String.ofList name)
    else .sections (String.ofList name) (kindsOf modifier)
  | tag name sign kinds =>
    if sign = some .plus ∨ sign = none ∧ settings.rollLinksForTags = true then
      .links (String.ofList ('#' :: name))
    else .tag (String.ofList ('#' :: name)) (kindsOf kinds)

/-- The reference that is to be read, one entry if it has no count.  The text of the reference is
the whole text, count included. -/
def reference (settings : Settings) (count : Option UInt64) (r : Referred) : Reference :=
  ⟨r.written count, count.getD 1, r.target settings⟩

/-- The lexeme of a text that is nothing but a reference. -/
def lexeme (settings : Settings) (count : Option UInt64) (r : Referred) : Lexeme :=
  let text := r.written count
  ⟨.reference (r.reference settings count).kind, text, text, none, ⟨0, Text.utf8Length text.toList⟩⟩

end Referred

/-! ## Lists of kinds

The program takes a list apart while it trims and drops pieces.  Here it is three steps, one after
the other. -/

theorem Text.splitAll_eq_splitOnP (p : Char → Bool) (cs : List Char) :
    splitAll p cs = cs.splitOnP p := by
  induction cs with
  | nil => rw [splitAll, List.splitOnP_nil]
  | cons c cs ih =>
    rw [splitAll, ih, List.splitOnP_cons_eq_if_modifyHead]
    cases pieces : cs.splitOnP p with
    | nil => exact absurd pieces (List.splitOnP_ne_nil p cs)
    | cons piece pieces => rfl

/-- The kinds that the program reads are those that the list names.  The program does the three
steps for each piece in turn, and takes the pieces from the front. -/
theorem Section.kinds_eq (names : List Char) :
    Section.kinds names = (Referred.namedKinds names).map String.ofList := by
  rw [kinds, Text.splitAll_eq_splitOnP, Referred.namedKinds, List.splitOn]
  induction names.splitOnP (· == ',') with
  | nil => rfl
  | cons name names ih =>
    rw [List.filterMap_cons, List.map_cons, List.filter_cons, ih]
    cases Text.lowercase (Text.trim name) <;> rfl

theorem Section.getD_kinds (modifier : Option (List Char)) :
    (modifier.map Section.kinds).getD [] = Referred.kindsOf modifier := by
  cases modifier with
  | none => rfl
  | some names => exact Section.kinds_eq names

/-! ## Reading the parts

Each reader on the text that was put together for it. -/

namespace Written

open Referred (barred countText IsModifier)

variable {note block inner rest : List Char} {m : Option (List Char)}

/-- A count is read before a text that does not begin with a digit, and none is read if none is
there. -/
theorem count_append (count : Option UInt64)
    (stops : ∀ c ∈ rest.head?, isDigit c = false) :
    Written.count (countText count ++ rest) =
      (count.map fun n => Nat.toDigits 10 n.toNat, rest) := by
  cases count with
  | none =>
    show Written.count rest = (none, rest)
    unfold Written.count
    rw [Text.takeWhile_of_stops stops]
  | some n =>
    have text : countText (some n) ++ rest = Nat.toDigits 10 n.toNat ++ 'd' :: rest := by
      simp [countText]
    rw [text, Rule.count_append Text.isDigit_toDigits (.inl rfl), if_neg Nat.toDigits_ne_nil]
    rfl

theorem modifier_barred (isModifier : IsModifier m) : modifier (barred m) = (m, []) := by
  cases m with
  | none => rfl
  | some text =>
    obtain ⟨nonempty, noBrace⟩ := isModifier text rfl
    obtain ⟨c, more, rfl⟩ := List.exists_cons_of_ne_nil nonempty
    obtain ⟨first, others⟩ := List.forall_mem_cons.1 noBrace
    have all : ∀ d ∈ more, (!isBrace d) = true := fun d mem => by rw [others d mem]; rfl
    refine modifier_eq_some_iff.2 ⟨c, more, rfl, first, ?_, List.dropWhile_eq_nil_iff.2 all⟩
    rw [List.takeWhile_eq_self_iff.2 all]

/-- Brackets are read up to the first closing bracket. -/
theorem brackets?_append (nonempty : inner ≠ []) (noBracket : ']' ∉ inner) (rest : List Char) :
    brackets? ('[' :: '[' :: (inner ++ ']' :: ']' :: rest)) = some (inner, rest) := by
  have all : ∀ c ∈ inner, (c != ']') = true := fun c mem =>
    bne_iff_ne.2 fun same => noBracket (same ▸ mem)
  have stops : ∀ c ∈ (']' :: ']' :: rest).head?, (c != ']') = false := by
    intro c mem
    obtain rfl := Option.some.inj mem
    rfl
  exact brackets?_eq_some_iff.2 ⟨nonempty, _, rfl, Text.takeWhile_append_of_stops all stops,
    Text.dropWhile_append_of_stops all stops⟩

/-- A reference in brackets is read whole. -/
theorem bracketed?_append (count : Option UInt64) (nonempty : inner ≠ []) (noBracket : ']' ∉ inner)
    (isModifier : IsModifier m) :
    bracketed? (countText count ++ '[' :: '[' :: (inner ++ ']' :: ']' :: barred m)) =
      some (⟨count.map fun n => Nat.toDigits 10 n.toNat, inner, m⟩, []) := by
  have stops : ∀ c ∈ ('[' :: '[' :: (inner ++ ']' :: ']' :: barred m)).head?,
      isDigit c = false := by
    intro c mem
    obtain rfl := Option.some.inj mem
    rfl
  exact bracketed?_eq_some_iff.2 ⟨_, _, count_append count stops,
    brackets?_append nonempty noBracket _, modifier_barred isModifier⟩

/-! ### Notes and blocks

The reader looks for a number sign and a caret from the second character on, and takes the first
that it finds. -/

/-- A character is the note's if neither it nor the next one is a caret.  Two characters are looked
at, since the number sign alone belongs to the note. -/
theorem split_cons {c : Char} {cs : List Char} (other : c ≠ '^') (next : cs.head? ≠ some '^')
    (before : List Char) : block?.split before (c :: cs) = block?.split (c :: before) cs := by
  rw [block?.split]
  · rintro _ _ - rfl
    exact next rfl
  · rintro _ _ rfl
    exact absurd rfl other

/-- The induction is on the name of the note; `before` is what has been read of it, backwards. -/
theorem split_append (noCaret : '^' ∉ note) (nonempty : block ≠ []) (before : List Char) :
    block?.split before (note ++ '#' :: '^' :: block) = some (before.reverse ++ note, block) := by
  induction note generalizing before with
  | nil =>
    obtain ⟨c, cs, rfl⟩ := List.exists_cons_of_ne_nil nonempty
    rw [List.append_nil]
    rfl
  | cons c note ih =>
    obtain ⟨other, noCaret⟩ := not_or.1 (mt List.mem_cons.2 noCaret)
    have next : (note ++ '#' :: '^' :: block).head? ≠ some '^' := by
      cases note with
      | nil => exact fun caret => nomatch caret
      | cons d note => exact fun caret => noCaret (Option.some.inj caret ▸ .head _)
    rw [List.cons_append, split_cons (Ne.symm other) next, ih noCaret]
    simp

theorem split_eq_none (noCaret : '^' ∉ note) (before : List Char) :
    block?.split before note = none := by
  induction note generalizing before with
  | nil => rfl
  | cons c note ih =>
    obtain ⟨other, noCaret⟩ := not_or.1 (mt List.mem_cons.2 noCaret)
    have next : note.head? ≠ some '^' := fun caret => noCaret (List.mem_of_head? caret)
    rw [split_cons (Ne.symm other) next, ih noCaret]

/-- **A note and a block are told apart** by the first caret with the number sign before it.  The
search begins behind the first character, for a note has at least one. -/
theorem block?_append (isNote : Referred.IsNote note) (nonempty : block ≠ []) :
    block? (note ++ '#' :: '^' :: block) = some (note, block) := by
  obtain ⟨c, cs, rfl⟩ := List.exists_cons_of_ne_nil isNote.nonempty
  exact split_append (List.not_mem_of_not_mem_cons isNote.noCaret) nonempty [c]

/-- The name of a note alone is not one of a block. -/
theorem block?_eq_none (isNote : Referred.IsNote note) : block? note = none := by
  obtain ⟨c, cs, rfl⟩ := List.exists_cons_of_ne_nil isNote.nonempty
  exact split_eq_none (List.not_mem_of_not_mem_cons isNote.noCaret) [c]

/-! ### Tags

What ends the name of a tag is a bar, and what tells the two bars apart is the character behind the
first. -/

/-- The characters of names are among those of tags, of which there are many more. -/
theorem isTagChar_of_isName {c : Char} (isName : c.isAlphanum = true ∨ c ∈ ['_', '/', '-']) :
    isTagChar c = true := by
  have ascii : c.toNat < 128 := by
    rcases isName with word | sign
    · rcases Bool.or_eq_true_iff.1 word with letter | digit
      · have := (Rule.toNat_of_isAlpha letter).2
        omega
      · have small : c.toNat ≤ 57 := (Char.isDigit_iff_toNat.1 digit).2
        omega
    · simp only [List.mem_cons, List.not_mem_nil, or_false] at sign
      rcases sign with rfl | rfl | rfl <;> decide
  unfold isTagChar
  rw [if_pos ascii]
  rcases isName with word | sign
  · rw [word]
    rfl
  · simp only [List.mem_cons, List.not_mem_nil, or_false] at sign
    rcases sign with rfl | rfl | rfl <;> rfl

/-- A sign is read if there is one, since no list of kinds begins with a sign. -/
theorem selector_barred {sign : Option TagSign}
    (noSign : ∀ k ∈ m, ∀ c ∈ k.head?, c ∉ ['+', '-']) :
    selector (barred (sign.map fun s => [s.char]) ++ barred m) =
      (sign.map TagSign.char, barred m) := by
  cases sign with
  | some s => cases s <;> rfl
  | none =>
    show selector (barred m) = (none, barred m)
    match m with
    | none => rfl
    | some [] => rfl
    | some (c :: k) =>
      have other := noSign _ rfl c rfl
      refine if_neg fun sign => other ?_
      simpa using sign

/-- For the same reason the kinds are read as kinds.  Read in the place of the kinds, a sign would
end the reference, and the rest of the text would be another lexeme. -/
theorem kinds_barred (isModifier : IsModifier m)
    (noSign : ∀ k ∈ m, ∀ c ∈ k.head?, c ∉ ['+', '-']) : kinds (barred m) = (m, []) := by
  match m with
  | none => rfl
  | some [] => exact absurd rfl (isModifier [] rfl).1
  | some (c :: k) =>
    have other := noSign _ rfl c rfl
    have noSign : (c == '+' || c == '-') = false := by simpa using other
    exact kinds_eq_some_iff.2 ⟨⟨c, k, rfl, noSign⟩, modifier_barred isModifier⟩

/-- A tag is read whole. -/
theorem tagged?_append {name : List Char} (count : Option UInt64) (sign : Option TagSign)
    (nonempty : name ≠ []) (isName : ∀ c ∈ name, c.isAlphanum = true ∨ c ∈ ['_', '/', '-'])
    (isModifier : IsModifier m) (noSign : ∀ k ∈ m, ∀ c ∈ k.head?, c ∉ ['+', '-']) :
    tagged? (countText count ++
        '#' :: (name ++ (barred (sign.map fun s => [s.char]) ++ barred m))) =
      some (⟨count.map fun n => Nat.toDigits 10 n.toNat, '#' :: name, sign.map TagSign.char, m⟩,
        []) := by
  have stops : ∀ c ∈ (barred (sign.map fun s => [s.char]) ++ barred m).head?,
      isTagChar c = false := by
    intro c mem
    have bar : c = '|' := by
      cases sign <;> cases m <;> cases mem <;> rfl
    rw [bar]
    rfl
  have all : ∀ c ∈ name, isTagChar c = true := fun c mem => isTagChar_of_isName (isName c mem)
  have noDigit : ∀ c ∈ ('#' :: (name ++ (barred (sign.map fun s => [s.char]) ++ barred m))).head?,
      isDigit c = false := by
    intro c mem
    obtain rfl := Option.some.inj mem
    rfl
  exact tagged?_eq_some_iff.2 ⟨name, _, _, _, nonempty, rfl, count_append count noDigit,
    ⟨Text.takeWhile_append_of_stops all stops, Text.dropWhile_append_of_stops all stops⟩,
    selector_barred noSign, kinds_barred isModifier noSign⟩

end Written

/-! ## The lexer and the reader

The rules come in an order: a text that is captured as a note must be none that is captured as a
table, and one that is captured as a tag none with brackets. -/

namespace Rule

variable {context : LexContext} {cs rest : List Char} {kind : ReferenceKind}
  {count : Option (List Char)} {target : Target}

/-- What can be captured is captured, if no gap stands before it.  The premise is about the readers
alone, and what is left to show is that the rules before the right one refuse. -/
theorem firstMatch_of_captures (noGap : gap context cs = none)
    (captured : Captures context.settings cs rest kind count target) :
    firstMatch context cs = some (.lexeme (.reference kind) (part cs rest) none, rest) := by
  have noTable {b : Written.Bracketed} (read : Written.bracketed? cs = some (b, rest))
      (whole : Written.block? b.inner = none) : table context cs = none := by
    rw [table, read]
    dsimp only
    rw [whole]
    rfl
  have noBrackets {t : Written.Tagged} (read : Written.tagged? cs = some (t, rest)) :
      Written.bracketed? cs = none := by
    obtain ⟨_, _, _, _, -, -, counted, -⟩ := Written.tagged?_eq_some_iff.1 read
    unfold Written.bracketed?
    rw [counted]
    rfl
  have before {t : Written.Tagged} (read : Written.tagged? cs = some (t, rest)) :
      ∀ other ∈ [gap, table, note], other context cs = none := by
    simp only [List.forall_mem_cons]
    refine ⟨noGap, ?_, ?_, List.forall_mem_nil _⟩
    · rw [table, noBrackets read]
    · rw [note, noBrackets read]
  cases captured with
  | table read named =>
    refine firstMatch_of_refused [gap] Rule.table rfl (List.forall_mem_singleton.2 noGap) ?_
    rw [Rule.table, read]
    dsimp only
    rw [named]
    rfl
  | sections read whole other =>
    refine firstMatch_of_refused [gap, Rule.table] note rfl ?_ ?_
    · exact List.forall_mem_cons.2 ⟨noGap, List.forall_mem_singleton.2 (noTable read whole)⟩
    · rw [note, read]
      dsimp only
      rw [if_neg other]
  | line read whole asked =>
    refine firstMatch_of_refused [gap, Rule.table] note rfl ?_ ?_
    · exact List.forall_mem_cons.2 ⟨noGap, List.forall_mem_singleton.2 (noTable read whole)⟩
    · rw [note, read]
      dsimp only
      rw [if_pos asked]
  | @tag t read other =>
    refine firstMatch_of_refused [gap, Rule.table, note] Rule.tag rfl (before read) ?_
    rw [Rule.tag, read]
    obtain ⟨noPlus, noSign⟩ := not_or.1 other
    dsimp only
    split
    · next plus => exact absurd plus noPlus
    · next none =>
      rw [if_neg fun links => noSign ⟨none, links⟩]
    · rfl
  | @link t read asked =>
    refine firstMatch_of_refused [gap, Rule.table, note] Rule.tag rfl (before read) ?_
    rw [Rule.tag, read]
    dsimp only
    rcases asked with plus | ⟨none, links⟩
    · rw [plus]
      rfl
    · rw [none]
      dsimp only
      rw [if_pos links]

end Rule

namespace Referred

variable {r : Referred} {settings : Settings}

/-- The parts of a reference are captured as they were put together.  Each of the three forms has
one case, but for the modifier of a note and the sign of a tag, which decide between two kinds. -/
theorem Distinct.captures (distinct : r.Distinct) (settings : Settings) (count : Option UInt64) :
    Rule.Captures settings (countText count ++ r.text) [] (r.reference settings count).kind
      (count.map fun n => Nat.toDigits 10 n.toNat) (r.target settings) := by
  cases distinct with
  | @block name part column isNote nonempty noBracket isModifier =>
    have inner : name ++ '#' :: '^' :: part ≠ [] := by simp
    have noBracket' : ']' ∉ name ++ '#' :: '^' :: part := by
      simp [isNote.noBracket, noBracket]
    exact .table (Written.bracketed?_append count inner noBracket' isModifier)
      (Written.block?_append isNote nonempty)
  | @note name modifier isNote isModifier =>
    have read := Written.bracketed?_append count isNote.nonempty isNote.noBracket isModifier
    have whole := Written.block?_eq_none isNote
    by_cases asked : modifier.map Text.trim = some "line".toList
    · have lines : (Referred.note name modifier).target settings = .lines (String.ofList name) :=
        if_pos asked
      rw [Reference.kind, reference, lines]
      exact .line read whole asked
    · have sections : (Referred.note name modifier).target settings =
          .sections (String.ofList name) (kindsOf modifier) := if_neg asked
      rw [Reference.kind, reference, sections, ← Section.getD_kinds]
      exact .sections read whole asked
  | @tag name sign kinds nonempty isName isModifier noSign =>
    have read := Written.tagged?_append count sign nonempty isName isModifier noSign
    have plus : sign.map TagSign.char = some '+' ↔ sign = some .plus := by
      cases sign with
      | none => simp
      | some s => cases s <;> simp [TagSign.char]
    by_cases asked : sign = some .plus ∨ sign = none ∧ settings.rollLinksForTags = true
    · have links : (Referred.tag name sign kinds).target settings =
          .links (String.ofList ('#' :: name)) := if_pos asked
      rw [Reference.kind, reference, links]
      exact .link read (asked.imp plus.2 fun h => ⟨Option.map_eq_none_iff.2 h.1, h.2⟩)
    · have sections : (Referred.tag name sign kinds).target settings =
          .tag (String.ofList ('#' :: name)) (kindsOf kinds) := if_neg asked
      rw [Reference.kind, reference, sections, ← Section.getD_kinds]
      exact .tag read fun links =>
        asked (links.imp plus.1 fun h => ⟨Option.map_eq_none_iff.1 h.1, h.2⟩)

/-- A reference does not begin with a gap. -/
theorem gap_text (context : LexContext) (count : Option UInt64) (r : Referred) :
    Rule.gap context (countText count ++ r.text) = none := by
  cases count with
  | none => cases r <;> rfl
  | some n =>
    refine Rule.gap_of_isDigit fun c mem => ?_
    rw [countText, List.append_assoc] at mem
    exact Decimal.isDigit_head_toDigits c mem

/-- **References are read as they were put together.** The text of a count and a reference is one
lexeme, of the kind of the reference, and the reader of references finds the count in it, and all
the parts.  There is no assumption on the context: no name and no setting makes anything else of the
text. -/
theorem ofLexeme_written (context : LexContext) (count : Option UInt64) (distinct : r.Distinct) :
    tokenize context (r.written count) = .ok [r.lexeme context.settings count] ∧
      Reference.ofLexeme (r.lexeme context.settings count) =
        .ok (r.reference context.settings count) := by
  have written : (r.written count).toList = countText count ++ r.text := String.toList_ofList
  have captured : Rule.Captures context.settings ((r.written count).toList ++ []) []
      (r.reference context.settings count).kind
      (count.map fun n => Nat.toDigits 10 n.toNat) (r.target context.settings) := by
    rw [List.append_nil, written]
    exact distinct.captures context.settings count
  have number : Reference.number? (count.map fun n => Nat.toDigits 10 n.toNat) =
      some (count.getD 1) := by
    cases count with
    | none => rfl
    | some n => exact Decimal.word64?_toDigits n
  constructor
  · have noGap : Rule.gap context ((r.written count).toList ++ []) = none := by
      rw [List.append_nil, written]
      exact gap_text context count r
    have found := Rule.firstMatch_of_captures noGap captured
    rw [Rule.part_of_append] at found
    have taken : (r.lexeme context.settings count).TakenBefore context [] := found
    exact (tokenize_eq_singleton_iff rfl rfl).2 taken
  · have is : (r.lexeme context.settings count).kind =
        .reference (r.reference context.settings count).kind := rfl
    have read := Reference.ofLexeme_of_captures is captured
    rw [read, Reference.ofCaptures, number]
    rfl

/-- A note that ends with a number sign, a block with a caret, and a column with spaces. -/
theorem ofLexeme_written_twelve :
    let r : Referred := .block ['A', '#'] ['b', '^', 'c'] (some [' ', 'G', 'P', ' '])
    let l : Lexeme :=
      ⟨.reference .table, "12d[[A##^b^c]]| GP ", "12d[[A##^b^c]]| GP ", none, ⟨0, 19⟩⟩
    r.Distinct ∧ tokenize ⟨{}, fun _ => none⟩ "12d[[A##^b^c]]| GP " = .ok [l] ∧
      Reference.ofLexeme l =
        .ok ⟨"12d[[A##^b^c]]| GP ", 12, .table "A#" "b^c" (some "GP")⟩ := by
  intro r l
  have isNote : IsNote ['A', '#'] := ⟨List.cons_ne_nil _ _, by decide, by decide⟩
  have isModifier : IsModifier (some [' ', 'G', 'P', ' ']) := by
    rintro m ⟨⟩
    exact ⟨List.cons_ne_nil _ _, by simp [Written.isBrace]⟩
  have distinct : r.Distinct := .block isNote (List.cons_ne_nil _ _) (by decide) isModifier
  have text : r.written (some 12) = "12d[[A##^b^c]]| GP " := by decide +kernel
  have lexeme : r.lexeme {} (some 12) = l := by decide +kernel
  have reference : r.reference {} (some 12) =
      ⟨"12d[[A##^b^c]]| GP ", 12, .table "A#" "b^c" (some "GP")⟩ := by decide +kernel
  have read := ofLexeme_written ⟨{}, fun _ => none⟩ (some 12) distinct
  rw [text, lexeme, reference] at read
  exact ⟨distinct, read⟩

/-- **Pieces without text are no kinds:** a list that is nothing but a comma has two of them, and
asks for sections of any kind. -/
theorem ofLexeme_written_comma :
    let l : Lexeme := ⟨.reference .sections, "[[N]]|,", "[[N]]|,", none, ⟨0, 7⟩⟩
    (Referred.note ['N'] (some [','])).written none = "[[N]]|," ∧
      tokenize ⟨{}, fun _ => none⟩ "[[N]]|," = .ok [l] ∧
      Reference.ofLexeme l = .ok ⟨"[[N]]|,", 1, .sections "N" []⟩ ∧
      ([','].splitOn ',').map (fun name => Text.lowercase (Text.trim name)) = [[], []] := by
  intro l
  exact ⟨by cbv, by cbv, by cbv, by cbv⟩

end Referred

end Tabletop
