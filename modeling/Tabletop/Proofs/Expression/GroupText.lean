import Tabletop.Proofs.Expression.Grouping
import Tabletop.Proofs.Lexeme.Reread
import Tabletop.Proofs.Lexeme.Taken

/-!
# The text of a group

A group of dice has the texts of its lexemes for its text, without the gaps between them.  This
module says what the text tells of the group: always its count and its faces, and all of it if no
gap stands before an explosion (`Expression.group_of_written`).

* `GroupParts` — what stands before the modifiers, part by part;
* `DiceGroup.ReadAs` — a group with the parts and the modifiers it was read from;
* `Joined` — modifiers read one after another, explosions without a gap before them.

### What a gap keeps apart

Without the gaps the lexemes of a group are read one by one as they were, except for the sign of an
explosion.  Behind another such sign it makes the sign of another explosion, and before an equals
sign it makes a comparison, which goes to the lexeme before it.  Where there never was a gap the
lexer has looked at the same characters and has not done so; this is how `Joined` is used, and the
only use of it.
-/

namespace Tabletop

open List (Forall₂)
open Text (isDigit utf8Length)
open Suffix (Pair textAll)

/-! ## The sign of an explosion before a text

A sign of an explosion is also the first half of a comparison.  It becomes one exactly where an
equals sign with an integer follows, and nothing behind the integer matters.  Both directions are
used: one to see that a comparison would be there, the other that it is complete in what was read.
-/

namespace Suffix

variable {cs : List Char}

/-- A text that begins with a pair begins with a conditional, even if the integer goes on.  The
integer is then a longer one, and it is still a comparison. -/
theorem conditional?_text_append_ne_none (p : Pair) (cs : List Char) :
    conditional? (p.text ++ cs) ≠ none := by
  let long : Pair :=
    { p with
      digits := p.digits ++ cs.takeWhile isDigit
      nonempty := List.append_ne_nil_of_left_ne_nil p.nonempty _
      areDigits := List.forall_mem_append.2
        ⟨p.areDigits, fun c mem => List.mem_takeWhile_imp mem⟩ }
  have text : p.text ++ cs = long.text ++ cs.dropWhile isDigit := by
    simp only [Pair.text, long, List.append_assoc, List.takeWhile_append_dropWhile]
  have stops : ∀ c ∈ (cs.dropWhile isDigit).head?, isDigit c = false := by
    intro c mem
    have := List.head?_dropWhile_not isDigit cs
    rw [Option.mem_def.1 mem] at this
    simpa using this
  rw [text, long.conditional?_text stops]
  exact Option.some_ne_none _

/-- An equals sign with an integer makes a comparison with the sign before it.  That is the
comparison for unequal numbers. -/
theorem bang_ne_none {p : Pair} (equals : p.sign = ['=']) (cs : List Char) :
    conditional? ('!' :: (p.text ++ cs)) ≠ none := by
  let unequal : Pair := { p with comparison := .ne, sign := ['!', '='], spelled := .head _ }
  have text : '!' :: (p.text ++ cs) = unequal.text ++ cs := by
    simp [Pair.text, unequal, equals]
  rw [text]
  exact conditional?_text_append_ne_none unequal cs

/-- Only one spelling of a comparison begins with the sign of an explosion. -/
theorem sign_eq_of_bang {c : Comparison} {sign after : List Char} (spelled : sign ∈ c.spellings)
    (begins : '!' :: cs = sign ++ after) : sign = ['!', '='] := by
  cases c <;>
    simp only [Comparison.spellings, List.mem_cons, List.not_mem_nil, or_false] at spelled
  case eq | gt | lt =>
    subst spelled
    cases begins
  all_goals
    obtain rfl | rfl := spelled <;> cases begins
  rfl

/-- Where the sign of an explosion begins a comparison, an equals sign with an integer follows.
This is the converse of the lemma before the last, and together they say when a gap matters. -/
theorem exists_pair_of_bang (h : conditional? ('!' :: cs) ≠ none) :
    ∃ (p : Pair) (rest : List Char), p.sign = ['='] ∧ cs = p.text ++ rest ∧
      ∀ c ∈ rest.head?, isDigit c = false := by
  obtain ⟨⟨c, rest⟩, found⟩ := Option.ne_none_iff_exists'.1 h
  obtain ⟨p, whole, -, stops⟩ := exists_pair_of_conditional? found
  rw [Pair.text, List.append_assoc] at whole
  have sign := sign_eq_of_bang p.spelled whole
  rw [sign] at whole
  let equal : Pair := { p with comparison := .eq, sign := ['='], spelled := .head _ }
  refine ⟨equal, rest, rfl, ?_, stops⟩
  rw [(List.cons.inj whole).2]
  simp [Pair.text, equal]

end Suffix

/-! ## Modifiers

What a modifier would become before another text than its own.  The marks of modifiers are letters,
which belong to nothing before them, and the sign of an explosion, which may. -/

namespace Rule

variable {context : LexContext} {w after rest data : List Char} {kind : ModifierKind}
  {conditionals : Option (List Conditional)}

/-- The first character of a modifier tells explosions from the others.  All marks begin with one of
four characters, and the marks with a letter are of no concern here. -/
theorem Reads.exists_head (h : Reads context w after (.modifier kind) data conditionals) :
    ∃ c cs, w = c :: cs ∧
      (c ∈ ['k', 'd', 'r'] ∨ c = '!' ∧ (kind = .explode ∨ kind = .explodeCombine)) := by
  cases h with
  | suffixed isStem =>
    cases isStem with
    | repeated isMark =>
      rcases mem_repeatedMarks.1 isMark with ⟨rfl, rfl⟩ | ⟨rfl, rfl⟩ | ⟨rfl, rfl⟩
      · exact ⟨'!', _, rfl, .inr ⟨rfl, .inr rfl⟩⟩
      · exact ⟨'!', _, rfl, .inr ⟨rfl, .inl rfl⟩⟩
      · exact ⟨'r', _, rfl, .inl (by decide)⟩
  | counted isMark =>
    rcases mem_countedMarks.1 isMark with
      ⟨rfl, rfl⟩ | ⟨rfl, rfl⟩ | ⟨rfl, rfl⟩ | ⟨rfl, rfl⟩ | ⟨rfl, rfl⟩ <;>
      exact ⟨_, _, rfl, .inl (by decide)⟩
  | drop => exact ⟨'d', [], rfl, .inl (by decide)⟩

/-- The single sign of an explosion is not followed by another.  It would have been the mark of an
explosion that combines. -/
theorem Reads.head_ne_bang (h : Reads context ['!'] after (.modifier kind) data conditionals) :
    ∀ c ∈ after.head?, c ≠ '!' := by
  rintro c mem rfl
  obtain ⟨more, rfl⟩ : ∃ more, after = '!' :: more := by
    cases after with
    | nil => cases mem
    | cons d ds =>
      obtain rfl := Option.some.inj mem
      exact ⟨ds, rfl⟩
  generalize whole : ['!'] = w at h
  cases h with
  | suffixed isStem single =>
    rw [← whole] at single
    refine single ?_ ⟨more, rfl⟩
    cases isStem with
    | repeated isMark =>
      rcases mem_repeatedMarks.1 isMark with ⟨rfl, rfl⟩ | ⟨rfl, rfl⟩ | ⟨rfl, rfl⟩
      · cases whole
      · rfl
      · cases whole
  | counted isMark =>
    rcases mem_countedMarks.1 isMark with
      ⟨rfl, rfl⟩ | ⟨rfl, rfl⟩ | ⟨rfl, rfl⟩ | ⟨rfl, rfl⟩ | ⟨rfl, rfl⟩ <;>
      cases whole
  | drop => cases whole

/-- A lexeme with conditionals has taken all that were there: the text behind it begins with none.
-/
theorem Reads.conditional?_eq_none
    (h : Reads context w after (.modifier kind) data conditionals) (some : conditionals ≠ none) :
    Suffix.conditional? after = none := by
  cases h with
  | suffixed _ _ ends => exact ends
  | counted | drop => exact absurd rfl some

/-- An equals sign with an integer, where the repetitions of an explosion could stand, is the first
pair of its suffix. -/
theorem TimesText.text_isPrefix {settings : Settings} {t : List Char} {pairs : List Pair} {p : Pair}
    {more : List Char} (read : TimesText settings t data)
    (marks : ∀ c ∈ rest.head?, c ∈ ['k', 'd', 'r', '!']) (equals : p.sign = ['='])
    (stops : ∀ c ∈ more.head?, isDigit c = false)
    (whole : t ++ (textAll pairs ++ rest) = p.text ++ more) : p.text <+: t ++ textAll pairs := by
  have head : (t ++ (textAll pairs ++ rest)).head? = some '=' := by
    rw [whole, Pair.text, equals]
    rfl
  -- The equals sign is neither a letter nor a digit: no repetitions are written before it.
  obtain rfl : t = [] := by
    cases read with
    | cap => cases head
    | digits areDigits =>
      cases t with
      | nil => rfl
      | cons d ds =>
        obtain rfl := Option.some.inj head
        exact absurd (areDigits '=' (.head _)) (by decide)
  cases pairs with
  | nil => exact absurd (marks '=' head) (by decide)
  | cons q qs =>
    rw [List.nil_append, Suffix.textAll_cons] at whole ⊢
    rw [List.append_assoc] at whole
    have noDigit : ∀ c ∈ rest.head?, isDigit c = false := fun c mem =>
      (ends_of_head {} marks).noDigit c mem
    obtain ⟨rfl, -⟩ :=
      Pair.text_append_inj whole (Suffix.stops_textAll_append qs noDigit) stops
    exact List.prefix_append _ _

/-- **A modifier makes no comparison** with the mark of another, if it has made none with what stood
behind it before.  Marks with a letter make none by their first character.  For a sign, a comparison
that is there before the new text was there before the old one too. -/
theorem Reads.conditional?_append (h : Reads context w after (.modifier kind) data conditionals)
    (refused : Suffix.conditional? (w ++ after) = none)
    (marks : ∀ c ∈ rest.head?, c ∈ ['k', 'd', 'r', '!']) :
    Suffix.conditional? (w ++ rest) = none := by
  obtain ⟨c, cs, rfl, letter | ⟨rfl, -⟩⟩ := id h.exists_head
  · refine Suffix.conditional?_eq_none_of_head ?_
    rintro d ⟨⟩
    simp only [List.mem_cons, List.not_mem_nil, or_false] at letter
    rcases letter with rfl | rfl | rfl <;> decide
  · -- A comparison would be complete in the modifier itself, which holds before any text.
    by_contra some
    obtain ⟨p, more, equals, whole, stops⟩ := Suffix.exists_pair_of_bang some
    have inside : p.text <+: cs := by
      generalize text : '!' :: cs = w at h
      cases h with
      | @suffixed _ _ _ _ pairs isStem =>
        cases isStem with
        | @repeated _ _ t _ isMark timesText =>
          rcases mem_repeatedMarks.1 isMark with ⟨rfl, rfl⟩ | ⟨rfl, rfl⟩ | ⟨rfl, rfl⟩
          · obtain ⟨-, rfl⟩ := List.cons.inj text
            rw [Pair.text, equals] at whole
            cases whole
          · obtain ⟨-, rfl⟩ := List.cons.inj text
            replace whole : t ++ textAll pairs ++ rest = p.text ++ more := whole
            rw [List.append_assoc] at whole
            exact timesText.text_isPrefix marks equals stops whole
          · cases text
      | counted isMark =>
        rcases mem_countedMarks.1 isMark with
          ⟨rfl, rfl⟩ | ⟨rfl, rfl⟩ | ⟨rfl, rfl⟩ | ⟨rfl, rfl⟩ | ⟨rfl, rfl⟩ <;>
          cases text
      | drop => cases text
    obtain ⟨tail, rfl⟩ := inside
    refine Suffix.bang_ne_none equals (tail ++ after) ?_
    rwa [← List.append_assoc]

end Rule

/-! ## Lexemes without gaps

The text of a group is that of its lexemes without the gaps between them.  Where it is read again,
all that a lexeme looks for behind itself is the first character of the next one, and this is a mark
of a modifier. -/

/-- The text of lexemes without the gaps between them. -/
def glued (lexemes : List Lexeme) : List Char :=
  lexemes.flatMap (·.written.toList)

/-- The text of a group, which is put together from strings, as characters. -/
theorem toList_join_written (lexemes : List Lexeme) :
    (String.join (lexemes.map (·.written))).toList = glued lexemes := by
  induction lexemes with
  | nil => rfl
  | cons l lexemes ih =>
    rw [List.map_cons, String.join_cons, String.toList_append, ih, glued, glued,
      List.flatMap_cons]

/-- An explosion of either sort. -/
def Lexeme.IsExplosion (l : Lexeme) : Prop :=
  l.kind = .modifier .explode ∨ l.kind = .modifier .explodeCombine

/-- No gap stands between two lexemes if the second is an explosion.  Other modifiers may have any
gaps before them. -/
def Lexeme.Joins (a b : Lexeme) : Prop :=
  b.IsExplosion → a.span.stop = b.span.start

instance (l : Lexeme) : Decidable l.IsExplosion :=
  inferInstanceAs (Decidable (_ ∨ _))

instance : DecidableRel Lexeme.Joins := fun a b =>
  inferInstanceAs (Decidable (b.IsExplosion → a.span.stop = b.span.start))

/-- The lexeme was taken somewhere as a modifier. -/
def Lexeme.TakenAsModifier (context : LexContext) (l : Lexeme) : Prop :=
  (∃ kind, l.kind = .modifier kind) ∧ ∃ rest, l.TakenBefore context rest

/-- **Modifiers read from a text one after another**, with gaps before them, but with none before an
explosion.  The text that is left stands for what was behind the last modifier when it was read. -/
inductive Joined (context : LexContext) : List Char → List Lexeme → Prop
  | nil {rest : List Char} : Joined context rest []
  | cons {between after : List Char} {kind : ModifierKind} {l : Lexeme} {ls : List Lexeme}
      (isModifier : l.kind = .modifier kind) (taken : l.TakenBefore context after)
      (joins : l.IsExplosion → between = []) (more : Joined context after ls) :
      Joined context (between ++ (l.written.toList ++ after)) (l :: ls)

section Glued

variable {context : LexContext} {rest : List Char} {l : Lexeme} {ls : List Lexeme}

/-- A modifier was read by the rule of its kind; a reference, the other thing that is taken, is
none. -/
theorem Lexeme.TakenBefore.reads_modifier {kind : ModifierKind}
    (isModifier : l.kind = .modifier kind) (taken : l.TakenBefore context rest) :
    Rule.Reads context l.written.toList rest (.modifier kind) l.data.toList l.conditionals := by
  rw [← isModifier]
  exact taken.reads fun document is => nomatch isModifier.symm.trans is

/-- Modifiers put together begin with a mark of a modifier, whichever they are.  All that is asked
of what follows a lexeme is asked of its first character, so that this is all that has to be known
of them. -/
theorem head_glued (each : ∀ l ∈ ls, l.TakenAsModifier context) :
    ∀ c ∈ (glued ls).head?, c ∈ ['k', 'd', 'r', '!'] := by
  cases ls with
  | nil => exact fun c mem => nomatch mem
  | cons l ls =>
    obtain ⟨⟨kind, isModifier⟩, rest, taken⟩ := each l (.head _)
    obtain ⟨c, cs, text, mark⟩ := (taken.reads_modifier isModifier).exists_head
    rw [glued, List.flatMap_cons, text]
    rintro d ⟨⟩
    rcases mark with letter | ⟨rfl, -⟩
    · exact List.mem_append_left ['!'] letter
    · decide

theorem Joined.takenAsModifier (h : Joined context rest ls) :
    ∀ l ∈ ls, l.TakenAsModifier context := by
  induction h with
  | nil => exact List.forall_mem_nil _
  | cons isModifier taken _ _ ih =>
    exact List.forall_mem_cons.2 ⟨⟨⟨_, isModifier⟩, _, taken⟩, ih⟩

/-- The first modifier begins with a letter, or at the very front.  In the second case there is no
gap before it, and this is what `Joined` gives. -/
theorem Joined.exists_first (h : Joined context rest (l :: ls)) :
    ∃ kind after, l.kind = .modifier kind ∧ l.TakenBefore context after ∧ Joined context after ls ∧
      ((∀ c ∈ (l.written.toList ++ glued ls).head?, c ∈ ['k', 'd', 'r']) ∨
        rest = l.written.toList ++ after) := by
  cases h with
  | @cons between after kind _ _ isModifier taken joins more =>
    refine ⟨kind, after, isModifier, taken, more, ?_⟩
    obtain ⟨c, cs, text, letter | ⟨-, explosion⟩⟩ := (taken.reads_modifier isModifier).exists_head
    · left
      rw [text]
      rintro d ⟨⟩
      exact letter
    · right
      have isExplosion : l.IsExplosion := by
        rcases explosion with rfl | rfl
        · exact .inl isModifier
        · exact .inr isModifier
      rw [joins isExplosion, List.nil_append]

/-- Modifiers make no comparison for what stands before them, if there was none in the text that
they were read from.  The text that they were read from stood behind a group, which has taken all
comparisons, so the condition is met. -/
theorem Joined.conditional?_glued (h : Joined context rest ls)
    (refused : Suffix.conditional? rest = none) : Suffix.conditional? (glued ls) = none := by
  cases ls with
  | nil => exact Suffix.conditional?_eq_none_of_head fun c mem => nomatch mem
  | cons l ls =>
    obtain ⟨kind, after, isModifier, taken, more, letter | rfl⟩ := h.exists_first
    · refine Suffix.conditional?_eq_none_of_head fun c mem => ?_
      have letter := letter c mem
      simp only [List.mem_cons, List.not_mem_nil, or_false] at letter
      rcases letter with rfl | rfl | rfl <;> decide
    · exact (taken.reads_modifier isModifier).conditional?_append refused
        (head_glued more.takenAsModifier)

/-- Nor do they add a sign of an explosion to one before them. -/
theorem Joined.head_ne_bang (h : Joined context rest ls) (other : ∀ c ∈ rest.head?, c ≠ '!') :
    ∀ c ∈ (glued ls).head?, c ≠ '!' := by
  cases ls with
  | nil => exact fun c mem => nomatch mem
  | cons l ls =>
    obtain ⟨kind, after, isModifier, taken, more, letter | rfl⟩ := h.exists_first
    · rintro c mem rfl
      exact absurd (letter '!' mem) (by decide)
    · obtain ⟨c, cs, text, -⟩ := (taken.reads_modifier isModifier).exists_head
      rw [text] at other
      rw [glued, List.flatMap_cons, text]
      exact other

/-- **Without the gaps the first modifier is read as before**, where no names have values.  A lexeme
is read again before any text that does not continue it (`Rule.firstMatch_of_reads`).  The three
things to check are its digits, its conditionals and the sign of an explosion, and each of them was
checked against the old text when it was read there. -/
theorem Joined.firstMatch_glued {kind : ModifierKind} {after : List Char}
    (isModifier : l.kind = .modifier kind) (taken : l.TakenBefore context after)
    (more : Joined context after ls) :
    Rule.firstMatch ⟨context.settings, fun _ => none⟩ (l.written.toList ++ glued ls) =
      some (.lexeme l.kind l.data.toList l.conditionals, glued ls) := by
  have reads := taken.reads_modifier isModifier
  have same : (⟨context.settings, fun _ => none⟩ : LexContext).settings = context.settings := rfl
  rw [isModifier]
  refine Rule.firstMatch_of_reads same reads
    (Rule.ends_of_head _ (head_glued more.takenAsModifier))
    (fun some => more.conditional?_glued (reads.conditional?_eq_none some)) fun bang => ?_
  rw [bang] at reads
  exact more.head_ne_bang reads.head_ne_bang

/-- **Modifiers are told from their texts**, put together without the gaps.  The induction is on the
modifiers of the first text; those of the second are told apart as it goes. -/
theorem Joined.content_eq {rest' : List Char} {ls' : List Lexeme} (h : Joined context rest ls)
    (h' : Joined context rest' ls') (same : glued ls = glued ls') :
    ls.map Lexeme.content = ls'.map Lexeme.content := by
  induction h generalizing rest' ls' with
  | nil =>
    cases h' with
    | nil => rfl
    | cons _ taken' =>
      rw [glued, glued, List.flatMap_cons] at same
      exact absurd (List.append_eq_nil_iff.1 same.symm).1 taken'.written_ne_nil
  | @cons _ _ _ l ls isModifier taken _ more ih =>
    cases h' with
    -- A text without characters is the text of no lexeme.
    | nil =>
      rw [glued, glued, List.flatMap_cons] at same
      exact absurd (List.append_eq_nil_iff.1 same).1 taken.written_ne_nil
    | @cons _ _ _ l' ls' isModifier' taken' _ more' =>
      -- Both are what the rules find at the front of the one text, so they say the same and leave
      -- the same text to the others.
      have found := more.firstMatch_glued isModifier taken
      have found' := more'.firstMatch_glued isModifier' taken'
      replace same : l.written.toList ++ glued ls = l'.written.toList ++ glued ls' := same
      rw [same, found', Option.some.injEq, Prod.mk.injEq, Take.lexeme.injEq] at found
      obtain ⟨⟨kind, data, conditionals⟩, others⟩ := found
      rw [others] at same
      have written := String.toList_inj.1 (List.append_cancel_right same)
      have content : l.content = l'.content := by
        rw [Lexeme.content, Lexeme.content, kind, String.toList_inj.1 data, written, conditionals]
      rw [List.map_cons, List.map_cons, content, ih more' others.symm]

end Glued

/-- What the loop reads behind a lexeme is joined to it if no gap stands before an explosion. -/
theorem Scans.joined {context : LexContext} {l : Lexeme} {ls others : List Lexeme}
    {cs rest : List Char} {stop : Nat}
    (h : Scans context l.span.stop cs (ls ++ others) stop rest)
    (modifiers : ∀ m ∈ ls, ∃ kind, m.kind = .modifier kind)
    (chain : (l :: ls).IsChain Lexeme.Joins) : Joined context cs ls := by
  induction ls generalizing l cs with
  | nil => exact .nil
  | cons m ls ih =>
    obtain ⟨between, after, rfl, start, taken, more⟩ := h.exists_cons
    obtain ⟨⟨kind, isModifier⟩, modifiers⟩ := List.forall_mem_cons.1 modifiers
    obtain ⟨joins, chain⟩ := List.isChain_cons_cons.1 chain
    refine .cons isModifier taken (fun explosion => ?_) (ih more modifiers chain)
    -- Spans count bytes, so where they meet there is no byte between, and no character.
    have length : utf8Length between = 0 := by
      have := joins explosion
      omega
    by_contra gap
    exact absurd (Text.utf8Length_pos gap) (by omega)

/-! ## Groups

The texts of groups are taken apart from the front: count, letter and faces end by themselves, since
none of them can go on with what comes next.  The pairs do not, and `eq_of_text` leaves them
together with the modifiers. -/

/-- What a group is written as before its modifiers, part by part. -/
structure GroupParts where
  count : List Char
  letter : Char
  faces : List Char
  /-- The digits that the faces are read as. -/
  read : Option (List Char)
  pairs : List Pair
  areDigits : ∀ c ∈ count, isDigit c = true
  isLetter : letter = 'd' ∨ letter = 'D'
  isFaces : Rule.FacesText faces read

namespace GroupParts

/-- The text of the parts. -/
def text (p : GroupParts) : List Char :=
  p.count ++ p.letter :: (p.faces ++ textAll p.pairs)

/-- What the lexeme of the parts says. -/
def data (p : GroupParts) (settings : Settings) : String :=
  String.ofList (Rule.groupData settings p.count p.read)

variable {p q : GroupParts} {cs ds : List Char}

/-- **The parts are told from the text**, whatever modifiers follow; the pairs only together with
what follows. -/
theorem eq_of_text (same : p.text ++ cs = q.text ++ ds)
    (marks : ∀ c ∈ cs.head?, c ∈ ['k', 'd', 'r', '!'])
    (marks' : ∀ c ∈ ds.head?, c ∈ ['k', 'd', 'r', '!']) :
    p.count = q.count ∧ p.read = q.read ∧ textAll p.pairs ++ cs = textAll q.pairs ++ ds := by
  have text (p : GroupParts) (cs : List Char) :
      p.text ++ cs = p.count ++ p.letter :: (p.faces ++ (textAll p.pairs ++ cs)) := by
    simp [GroupParts.text]
  have stops (p : GroupParts) (cs : List Char) :
      ∀ c ∈ (p.letter :: (p.faces ++ (textAll p.pairs ++ cs))).head?, isDigit c = false := by
    rintro c ⟨⟩
    exact Rule.isDigit_letter p.isLetter
  have read (p : GroupParts) {cs : List Char}
      (marks : ∀ c ∈ cs.head?, c ∈ ['k', 'd', 'r', '!']) :
      Rule.faces (p.faces ++ (textAll p.pairs ++ cs)) = (p.read, textAll p.pairs ++ cs) := by
    refine p.isFaces.faces_append (Rule.head_textAll p.pairs fun c mem => ?_)
    have mark := marks c mem
    simp only [List.mem_cons, List.not_mem_nil, or_false] at mark
    rcases mark with rfl | rfl | rfl | rfl <;> decide
  rw [text, text] at same
  have count := congrArg (List.takeWhile isDigit) same
  rw [Text.takeWhile_append_of_stops p.areDigits (stops p cs),
    Text.takeWhile_append_of_stops q.areDigits (stops q ds)] at count
  rw [count] at same
  have faces := congrArg Rule.faces (List.cons.inj (List.append_cancel_left same)).2
  rw [read p marks, read q marks', Prod.mk.injEq] at faces
  exact ⟨count, faces⟩

end GroupParts

/-! ### Groups as they were read

A lexeme that says a count and faces was read as a group of dice, since no number and no name has
the letter in what it says. -/

/-- Numbers are written without the letter of dice.  So the value of a name is not taken for a
group. -/
theorem Decimal.not_mem_plain (x : Float) : 'd' ∉ (plain x).toList := by
  have digits (n : Nat) : 'd' ∉ Nat.toDigits 10 n := fun mem => nomatch isDigit_toDigits 'd' mem
  have places (d : Scaled) : 'd' ∉ d.positional := by
    unfold Scaled.positional
    dsimp only
    split
    · split
      · decide
      · simp [digits]
    · intro mem
      have filled (n : Nat) : 'd' ∉ List.replicate n '0' ++ Nat.toDigits 10 d.digits := by
        simp [digits]
      simp only [parted, List.splitAt_eq, List.mem_append, List.mem_cons, Char.reduceEq,
        false_or] at mem
      rcases mem with mem | mem
      · exact filled _ (List.mem_of_mem_take mem)
      · exact filled _ (List.mem_of_mem_drop mem)
  unfold plain
  split
  · decide
  · split
    · split <;> decide
    · dsimp only
      rw [withSign, String.toList_ofList]
      split
      · exact List.not_mem_cons_of_ne_of_not_mem (by decide) (places _)
      · exact places _

section Groups

variable {context : LexContext} {l : Lexeme} {rest : List Char}

/-- A lexeme that stands for a group is written as the parts of one. -/
theorem Lexeme.TakenBefore.exists_parts (taken : l.TakenBefore context rest)
    {count : UInt32} {faces : Faces} (group : l.IsGroup count faces) :
    ∃ p : GroupParts, l.written.toList = p.text ∧ l.data = p.data context.settings ∧
      l.conditionals = some (p.pairs.filterMap Pair.conditional?) ∧
      Suffix.conditional? rest = none := by
  obtain ⟨isDice, n, m, data, -⟩ := group
  have letter : 'd' ∈ l.data.toList := by
    rw [data]
    exact List.mem_append_right n (.head m)
  have reads := taken.reads fun document is => nomatch isDice.symm.trans is
  rw [isDice] at reads
  generalize l.written.toList = w, said : l.data.toList = data', l.conditionals = conditionals
    at reads letter ⊢
  cases reads with
  | @suffixed _ _ _ _ pairs isStem _ ends =>
    cases isStem with
    | @group count faces d read areDigits isLetter isFaces =>
      refine ⟨⟨count, d, faces, read, pairs, areDigits, isLetter, isFaces⟩, ?_, ?_, rfl, ends⟩
      · simp [GroupParts.text]
      · rw [GroupParts.data, ← said, String.ofList_toList]
  | number _ areDigits => exact nomatch areDigits 'd' letter
  | field => exact absurd letter (Decimal.not_mem_plain _)

/-- **A group as it was read**: its parts from the front of a text, its modifiers from behind. -/
structure DiceGroup.ReadAs (context : LexContext) (g : DiceGroup) (p : GroupParts)
    (after : List Char) (ls : List Lexeme) : Prop where
  written : g.written.toList = p.text ++ glued ls
  size : Expr.countAndFaces? (p.data context.settings) = some (some g.count, some g.faces)
  conditionals : g.conditionals = p.pairs.filterMap Pair.conditional?
  ends : Suffix.conditional? after = none
  modifiers : Forall₂ Lexeme.IsModifier ls g.modifiers
  taken : ∀ l ∈ ls, l.TakenAsModifier context

/-- Lexemes that are read as modifiers have the kinds of modifiers. -/
theorem Lexeme.exists_kind_of_mem {ls : List Lexeme} {ms : List Modifier}
    (h : Forall₂ IsModifier ls ms) : ∀ l ∈ ls, ∃ kind, l.kind = .modifier kind := by
  induction h with
  | nil => exact List.forall_mem_nil _
  | cons first _ ih =>
    obtain ⟨kind, _, isKind, -⟩ := first
    exact List.forall_mem_cons.2 ⟨⟨kind, isKind⟩, ih⟩

/-- Modifiers of the same kinds that say the same are the same.  What a modifier is follows from its
lexeme alone, and lexemes are compared here without their places. -/
theorem Lexeme.isModifier_unique {ls ls' : List Lexeme} {ms ms' : List Modifier}
    (h : Forall₂ IsModifier ls ms) (h' : Forall₂ IsModifier ls' ms')
    (same : ls.map content = ls'.map content) : ms = ms' := by
  induction h generalizing ls' ms' with
  | nil =>
    cases h' with
    | nil => rfl
    | cons => cases same
  | cons first _ ih =>
    cases h' with
    | nil => cases same
    | cons first' others' =>
      obtain ⟨content, others⟩ := List.cons.inj same
      simp only [Lexeme.content, Prod.mk.injEq] at content
      obtain ⟨kind, data, -, conditionals⟩ := content
      obtain ⟨_, n, isKind, count, rfl⟩ := first
      obtain ⟨_, n', isKind', count', rfl⟩ := first'
      rw [isKind, isKind', LexemeKind.modifier.injEq] at kind
      rw [data, count', Option.some.injEq] at count
      rw [ih others' others, kind, count, conditionalList, conditionalList, conditionals]

namespace DiceGroup.ReadAs

variable {g g' : DiceGroup} {p p' : GroupParts} {after after' : List Char} {ls ls' : List Lexeme}

/-- The texts of groups agree part by part. -/
theorem parts_eq (h : g.ReadAs context p after ls) (h' : g'.ReadAs context p' after' ls')
    (same : g.written = g'.written) : p.count = p'.count ∧ p.read = p'.read ∧
      textAll p.pairs ++ glued ls = textAll p'.pairs ++ glued ls' := by
  have text : p.text ++ glued ls = p'.text ++ glued ls' := by
    rw [← h.written, ← h'.written, same]
  exact GroupParts.eq_of_text text (head_glued h.taken) (head_glued h'.taken)

/-- The same text means the same count and the same faces, with gaps or without: what the lexeme
says of them is made of the parts that the text tells. -/
theorem size_eq (h : g.ReadAs context p after ls) (h' : g'.ReadAs context p' after' ls')
    (same : g.written = g'.written) : g.count = g'.count ∧ g.faces = g'.faces := by
  obtain ⟨count, read, -⟩ := h.parts_eq h' same
  have size := h.size
  rw [GroupParts.data, count, read, ← GroupParts.data, h'.size] at size
  simp only [Option.some.injEq, Prod.mk.injEq] at size
  exact ⟨size.1.symm, size.2.symm⟩

/-- **A group is told from its text** if no gap stands before an explosion: the pairs end where the
modifiers begin, and the modifiers are read one by one.  The text tells the count and faces first,
then the pairs, and then one modifier after the other. -/
theorem eq_of_joined (h : g.ReadAs context p after ls) (h' : g'.ReadAs context p' after' ls')
    (joined : Joined context after ls) (joined' : Joined context after' ls')
    (same : g.written = g'.written) : g = g' := by
  obtain ⟨count, faces⟩ := h.size_eq h' same
  obtain ⟨-, -, suffix⟩ := h.parts_eq h' same
  have read {p : GroupParts} {after : List Char} {ls : List Lexeme}
      (joined : Joined context after ls) (ends : Suffix.conditional? after = none) :
      Suffix.conditionals (textAll p.pairs ++ glued ls) =
        (p.pairs.filterMap Pair.conditional?, glued ls) :=
    Suffix.conditionals_pairs p.pairs (joined.conditional?_glued ends) fun c mem =>
      (Rule.ends_of_head {} (head_glued joined.takenAsModifier)).noDigit c mem
  have both := congrArg Suffix.conditionals suffix
  rw [read joined h.ends, read joined' h'.ends, Prod.mk.injEq] at both
  obtain ⟨conditionals, others⟩ := both
  rw [← h.conditionals, ← h'.conditionals] at conditionals
  have modifiers :=
    Lexeme.isModifier_unique h.modifiers h'.modifiers (joined.content_eq joined' others)
  cases g
  cases g'
  simp_all

end DiceGroup.ReadAs

/-- The lexemes of a group in a text, and how it was read from there.  The notation is cut before
the lexemes of the group, and what stands behind the first of them is the text of the modifiers. -/
theorem DiceGroup.exists_readAs {text : String} {lexemes ls : List Lexeme} {g : DiceGroup}
    (read : tokenize context text = .ok lexemes) (inside : ls <:+: lexemes)
    (spells : (Expr.dice g).Spells ls) :
    ∃ p after ms, g.ReadAs context p after ms ∧
      (ls.IsChain Lexeme.Joins → Joined context after ms) := by
  obtain ⟨before, others, rfl⟩ := inside
  obtain ⟨_, scans⟩ := scans_of_scan_ok read
  rw [List.append_assoc] at scans
  obtain ⟨_, _, scans⟩ := scans.drop before
  cases spells with
  | @dice l count faces ms modifiers group isModifier =>
    obtain ⟨_, after, -, -, taken, more⟩ := scans.exists_cons
    obtain ⟨p, written, data, conditionals, ends⟩ := taken.exists_parts group
    have kinds := Lexeme.exists_kind_of_mem isModifier
    refine ⟨p, after, ms, ⟨?_, ?_, ?_, ends, isModifier, ?_⟩, more.joined kinds⟩
    · rw [← written, toList_join_written]
      rfl
    · rw [← data]
      exact (Expr.countAndFaces?_eq_some_iff group.1).2 group
    · rw [Lexeme.conditionalList, conditionals]
      rfl
    · exact fun m mem => ⟨kinds m mem, more.taken m (List.mem_append_left others mem)⟩

end Groups

/-! ## Whole notations

A group is somewhere in the tree, its lexemes stand together somewhere in the notation, and they
were read there. -/

/-- The lexemes of a group stand together in those of the whole tree.  The induction is on how the
tree was spelled, and each case adds what stands around a part. -/
theorem Expr.Spells.exists_segment {e : Expr} {lexemes : List Lexeme} (h : e.Spells lexemes)
    {g : DiceGroup} (mem : g ∈ e.groups) :
    ∃ ls, ls <:+: lexemes ∧ (Expr.dice g).Spells ls := by
  induction h with
  | number | stunt => cases mem
  | dice group modifiers =>
    obtain rfl := List.mem_singleton.1 mem
    exact ⟨_, List.infix_rfl, .dice group modifiers⟩
  | @parentheses opening closing _ w _ _ _ ih =>
    obtain ⟨ls, inside, spells⟩ := ih mem
    exact ⟨ls, inside.trans ⟨[opening], [closing], by simp⟩, spells⟩
  | @minus sign _ w _ _ ih =>
    obtain ⟨ls, inside, spells⟩ := ih mem
    exact ⟨ls, inside.trans (List.suffix_cons sign w).isInfix, spells⟩
  | @binary _ _ _ sign v w _ _ _ ihLeft ihRight =>
    rcases List.mem_append.1 mem with mem | mem
    · obtain ⟨ls, inside, spells⟩ := ihLeft mem
      exact ⟨ls, inside.trans (List.prefix_append v _).isInfix, spells⟩
    · obtain ⟨ls, inside, spells⟩ := ihRight mem
      exact ⟨ls, inside.trans ⟨v ++ [sign], [], by simp⟩, spells⟩

/-- Somewhere in a notation the group is written so that no gap stands before an explosion.  A group
may stand in a notation more than once, with gaps in one place and without in another. -/
def DiceGroup.WrittenWhole (lexemes : List Lexeme) (g : DiceGroup) : Prop :=
  ∃ ls, ls <:+: lexemes ∧ (Expr.dice g).Spells ls ∧ ls.IsChain Lexeme.Joins

/-- **What the text of a group tells.** If groups of two notations, which are read under the same
settings with the same names, have the same text, they have the same count and the same faces.  They
are the same group if both are written without a gap before an explosion.  For the first part any
place of the group will do.  For the second the places are the ones that are written without such
gaps, so the parts are taken a second time, from there. -/
theorem Expression.group_of_written {context : LexContext} {table table' : PrecedenceTable}
    {text text' : String} {lexemes lexemes' : List Lexeme} {e e' : Expression}
    (read : tokenize context text = .ok lexemes) (read' : tokenize context text' = .ok lexemes')
    (parsed : Expression.ofLexemes table lexemes text = .ok e)
    (parsed' : Expression.ofLexemes table' lexemes' text' = .ok e') {g g' : DiceGroup}
    (mem : g ∈ e.groups) (mem' : g' ∈ e'.groups) (same : g.written = g'.written) :
    g.count = g'.count ∧ g.faces = g'.faces ∧
      (g.WrittenWhole lexemes → g'.WrittenWhole lexemes' → g = g') := by
  obtain ⟨ls, inside, spelled⟩ := (spells_of_ofLexemes parsed).exists_segment mem
  obtain ⟨ls', inside', spelled'⟩ := (spells_of_ofLexemes parsed').exists_segment mem'
  obtain ⟨p, after, ms, readAs, -⟩ := DiceGroup.exists_readAs read inside spelled
  obtain ⟨p', after', ms', readAs', -⟩ := DiceGroup.exists_readAs read' inside' spelled'
  obtain ⟨count, faces⟩ := readAs.size_eq readAs' same
  refine ⟨count, faces, ?_⟩
  rintro ⟨ls, inside, spelled, chain⟩ ⟨ls', inside', spelled', chain'⟩
  obtain ⟨p, after, ms, readAs, joined⟩ := DiceGroup.exists_readAs read inside spelled
  obtain ⟨p', after', ms', readAs', joined'⟩ := DiceGroup.exists_readAs read' inside' spelled'
  exact readAs.eq_of_joined readAs' (joined chain) (joined' chain') same

/-- The same group with a gap, which is not before the explosion, and without one. -/
theorem Expression.group_of_written_spaced :
    let context : LexContext := ⟨{}, fun _ => none⟩
    let text := "3d6!2=6 k2"
    let text' := "3d6!2=6k2"
    let lexemes : List Lexeme :=
      [⟨.dice, "3d6", "3d6", some [], ⟨0, 3⟩⟩,
        ⟨.modifier .explode, "2", "!2=6", some [⟨.eq, 6⟩], ⟨3, 7⟩⟩,
        ⟨.modifier .keepHigh, "2", "k2", none, ⟨8, 10⟩⟩]
    let lexemes' : List Lexeme :=
      [⟨.dice, "3d6", "3d6", some [], ⟨0, 3⟩⟩,
        ⟨.modifier .explode, "2", "!2=6", some [⟨.eq, 6⟩], ⟨3, 7⟩⟩,
        ⟨.modifier .keepHigh, "2", "k2", none, ⟨7, 9⟩⟩]
    let modifiers : List Modifier := [.explode 2 [⟨.eq, 6⟩], .keep .high 2]
    let g : DiceGroup := ⟨3, ⟨6, by decide⟩, [], modifiers, text'⟩
    let g' : DiceGroup := ⟨3, ⟨6, by decide⟩, [], modifiers, text'⟩
    tokenize context text = .ok lexemes ∧ tokenize context text' = .ok lexemes' ∧
      Expression.ofLexemes .standard lexemes text = .ok ⟨.dice g, text⟩ ∧
      Expression.ofLexemes .standard lexemes' text' = .ok ⟨.dice g', text'⟩ ∧
      g.written = g'.written ∧ g.WrittenWhole lexemes ∧ g'.WrittenWhole lexemes' ∧
      g.count = g'.count ∧ g.faces = g'.faces ∧ g = g' := by
  intro context text text' lexemes lexemes' modifiers g g'
  have read : tokenize context text = .ok lexemes := by cbv
  have read' : tokenize context text' = .ok lexemes' := by cbv
  have parsed : Expression.ofLexemes .standard lexemes text = .ok ⟨.dice g, text⟩ := by cbv
  have parsed' : Expression.ofLexemes .standard lexemes' text' = .ok ⟨.dice g', text'⟩ := by cbv
  have whole : g.WrittenWhole lexemes :=
    ⟨lexemes, List.infix_rfl, Expression.spells_of_ofLexemes parsed, by decide⟩
  have whole' : g'.WrittenWhole lexemes' :=
    ⟨lexemes', List.infix_rfl, Expression.spells_of_ofLexemes parsed', by decide⟩
  have mem : g ∈ (⟨.dice g, text⟩ : Expression).groups := .head _
  have mem' : g' ∈ (⟨.dice g', text'⟩ : Expression).groups := .head _
  obtain ⟨count, faces, unique⟩ :=
    Expression.group_of_written read read' parsed parsed' mem mem' rfl
  exact ⟨read, read', parsed, parsed', rfl, whole, whole', count, faces, unique whole whole'⟩

/-- **A gap is lost:** behind dice, an explosion on a six and a comparison with six have the same
text, and so have the groups, of which one explodes and the other counts. -/
theorem Expression.group_of_written_gap :
    let context : LexContext := ⟨{}, fun _ => none⟩
    let lexemes : List Lexeme :=
      [⟨.dice, "1d6", "1d6", some [], ⟨0, 3⟩⟩,
        ⟨.modifier .explode, "1", "!=6", some [⟨.eq, 6⟩], ⟨4, 7⟩⟩]
    let lexemes' : List Lexeme := [⟨.dice, "1d6", "1d6!=6", some [⟨.ne, 6⟩], ⟨0, 6⟩⟩]
    let g : DiceGroup := ⟨1, ⟨6, by decide⟩, [], [.explode 1 [⟨.eq, 6⟩]], "1d6!=6"⟩
    let g' : DiceGroup := ⟨1, ⟨6, by decide⟩, [⟨.ne, 6⟩], [], "1d6!=6"⟩
    tokenize context "1d6 !=6" = .ok lexemes ∧ tokenize context "1d6!=6" = .ok lexemes' ∧
      Expression.ofLexemes .standard lexemes "1d6 !=6" = .ok ⟨.dice g, "1d6 !=6"⟩ ∧
      Expression.ofLexemes .standard lexemes' "1d6!=6" = .ok ⟨.dice g', "1d6!=6"⟩ ∧
      g.written = g'.written ∧ g.conditionals ≠ g'.conditionals ∧ g.modifiers ≠ g'.modifiers := by
  intro context lexemes lexemes' g g'
  refine ⟨by cbv, by cbv, by cbv, by cbv, rfl, ?_, ?_⟩
  · simp [g, g']
  · simp [g, g']

end Tabletop
