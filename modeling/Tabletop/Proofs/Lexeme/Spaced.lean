import Tabletop.Proofs.Lexeme.Reread
import Tabletop.Proofs.Lexeme.Taken

/-!
# Lexemes set apart

The texts of the lexemes of a notation, joined by single spaces, are a notation again.  It has as
many lexemes, of the same texts; this module says which of them say the same.

A rule accepts or refuses by what follows, and a space takes that away.  An acceptance does not
suffer: no rule asks for a certain character after its part (`Rule.firstMatch_of_separated`).  But a
refusal may, and there is one kind of lexeme that owes itself to a refusal.  The name of a field
that a modifier could be written as (`Rule.IsModifierWord`) is read as a name only where the rule of
the modifier has refused it, for the sake of what follows.  Set apart, it is a modifier
(`Rule.firstMatch_of_isModifierWord`).  With this exception every lexeme is read back
(`tokenize_spaced`).

The rules of modifiers look at the word that their letters begin, up to its end and including what
they have taken.  Where a name was read this word was longer than the name or the modifier, and it
may have reached over characters that are no part of the name.  Before a space the word is the name
itself.  The two cases of `Lexeme.Again` are the two things that can then be the case: the modifier
takes less than the word, and is refused, or all of it, and is taken.
-/

namespace Tabletop

open Text (isDigit isBlank utf8Length)

/-- What begins a text that is set apart from what stands before it.  The last lexeme is followed by
nothing, and the others by the space before the next one. -/
def Separated (rest : List Char) : Prop :=
  ∀ c ∈ rest.head?, c = ' '

theorem Separated.eq_nil_or {rest : List Char} (apart : Separated rest) :
    rest = [] ∨ ∃ more, rest = ' ' :: more := by
  cases rest with
  | nil => exact .inl rfl
  | cons c more =>
    obtain rfl := apart c rfl
    exact .inr ⟨more, rfl⟩

namespace Rule

variable {context : LexContext} {cs w rest after data : List Char} {kind : LexemeKind}
  {conditionals : Option (List Conditional)}

/-- A word that is written as a modifier is: a letter or two with a count, or the letter of rolling
again with a number of times.  The marks of signs are no letters, so no word is written as an
explosion. -/
inductive IsModifierWord : List Char → Prop
  | counted {kind : ModifierKind} {mark digits : List Char} (isMark : (kind, mark) ∈ countedMarks)
      (areDigits : ∀ c ∈ digits, isDigit c = true) : IsModifierWord (mark ++ digits)
  | reroll {times : List Char} (number : times = ['i'] ∨ ∀ c ∈ times, isDigit c = true) :
      IsModifierWord ('r' :: times)

/-! ## Before a space

A space ends everything that can end: words, digits, pairs and marks. -/

theorem startsWord_of_separated (apart : Separated rest) (part : List Char) :
    startsWord context part rest = false := by
  have none : rest.takeWhile isNameChar = [] :=
    Text.takeWhile_of_stops fun c mem => by rw [apart c mem]; rfl
  unfold startsWord
  rw [none]
  rfl

/-- Nothing goes on over a space.  So what has been proved about reading a modifier again applies to
all of them. -/
theorem ends_of_separated (apart : Separated rest) : Ends context rest where
  noWord := startsWord_of_separated apart
  noDigit c mem := by rw [apart c mem]; rfl
  noLetter c mem := by rw [apart c mem]; decide

theorem startsWithLetter_of_separated (apart : Separated rest) : startsWithLetter rest = false := by
  obtain rfl | ⟨more, rfl⟩ := apart.eq_nil_or <;> rfl

theorem conditional?_of_separated (apart : Separated rest) : Suffix.conditional? rest = none :=
  Suffix.conditional?_eq_none_of_head fun c mem => by rw [apart c mem]; decide

/-! ## Stunts

The one lexeme that has a letter behind the letter of dice. -/

/-- The count and the letter of a stunt would make dice, but for the letter behind them.  The rule
of dice stands before that of stunts and looks for such a letter, so it refuses. -/
theorem firstMatch_stunt {d : Char} (letter : d = 'd' ∨ d = 'D') :
    firstMatch context ('1' :: d :: 'S' :: rest) = some (.lexeme .stunt ['1'] (some []), rest) := by
  have suffix : Suffix.conditionals ('S' :: rest) = ([], 'S' :: rest) :=
    Suffix.conditionals_of_conditional?_none rfl
  refine firstMatch_of_refused [gap, table, note, tag, dice, integer, math] stunt rfl ?_ ?_
  · rcases letter with rfl | rfl <;>
    · simp only [List.forall_mem_cons]
      refine ⟨rfl, rfl, rfl, rfl, ?_, rfl, rfl, List.forall_mem_nil _⟩
      show (if (true && (false || startsWithLetter (Suffix.conditionals ('S' :: rest)).2)) = true
        then none else _) = none
      rw [suffix]
      rfl
  · rcases letter with rfl | rfl <;> rfl

/-! ## Names

A name is refused by fifteen rules before it is taken.  For most of them one character is enough.
The rules of modifiers are the ones that look at the whole word. -/

section Name

variable {part more tail : List Char} {c : Char} {value : Float}

/-- A letter of a modifier begins a longer word if the word is a name that has a value.  Only a word
with a value is asked for: other words may begin with a modifier, and then the modifier is read. -/
theorem startsWord_of_known (nonempty : more ≠ []) (word : ∀ d ∈ more, isNameChar d = true)
    (known : context.fields (String.ofList (part ++ more)) = some value) (apart : Separated rest) :
    startsWord context part (more ++ rest) = true := by
  have stops : ∀ c ∈ rest.head?, isNameChar c = false := fun c mem => by rw [apart c mem]; rfl
  unfold startsWord
  rw [Text.takeWhile_append_of_stops word stops]
  dsimp only
  rw [known, List.isEmpty_eq_false_iff.2 nonempty]
  rfl

/-- What is left of a name behind digits at its front.  The space ends them in any case, so the rest
is left as it was. -/
theorem span_append_of_word {p : Char → Bool} (blank : p ' ' = false) (apart : Separated rest)
    (tail : List Char) :
    (tail ++ rest).takeWhile p = tail.takeWhile p ∧
      (tail ++ rest).dropWhile p = tail.dropWhile p ++ rest := by
  have stops : ∀ c ∈ rest.head?, p c = false := fun c mem => by rw [apart c mem, blank]
  induction tail with
  | nil => exact ⟨Text.takeWhile_of_stops stops, Text.dropWhile_of_stops stops⟩
  | cons c tail ih =>
    rw [List.cons_append, List.takeWhile_cons, List.takeWhile_cons, List.dropWhile_cons,
      List.dropWhile_cons, ih.1, ih.2]
    cases p c <;> simp

/-- If not all characters pass a test, dropping those that do leaves something. -/
theorem dropWhile_ne_nil {p : Char → Bool} {cs : List Char} (other : ¬ ∀ c ∈ cs, p c = true) :
    cs.dropWhile p ≠ [] := by
  intro empty
  refine other fun c mem => ?_
  rw [← List.takeWhile_append_dropWhile (p := p) (l := cs), empty, List.append_nil] at mem
  exact List.mem_takeWhile_imp mem

/-- A name that is more than the letters of a modifier and a count is not read as one.  Behind the
letters the rule takes the digits that follow; what is left of the name is not empty, and the word
up to its end is the whole name again, which has a value. -/
theorem counted_eq_none_of_known {modifier : ModifierKind} {letters : List Char}
    {barred : Option Char} (word : ∀ d ∈ tail, isNameChar d = true)
    (other : ¬ ∀ d ∈ tail, isDigit d = true)
    (known : context.fields (String.ofList (letters ++ tail)) = some value)
    (apart : Separated rest) : counted modifier letters barred context (tail ++ rest) = none := by
  obtain ⟨taken, left⟩ := span_append_of_word (p := isDigit) rfl apart tail
  have whole : letters ++ tail.takeWhile isDigit ++ tail.dropWhile isDigit = letters ++ tail := by
    rw [List.append_assoc, List.takeWhile_append_dropWhile]
  have starts : startsWord context (letters ++ tail.takeWhile isDigit)
      (tail.dropWhile isDigit ++ rest) = true :=
    startsWord_of_known (dropWhile_ne_nil other)
      (fun d mem => word d ((List.dropWhile_suffix _).subset mem)) (whole ▸ known) apart
  unfold counted
  rw [taken, left]
  dsimp only
  rw [starts, Bool.or_true]
  rfl

/-- What begins a word that is not empty is a character of it. -/
theorem head_of_word (nonempty : more ≠ []) (word : ∀ d ∈ more, isNameChar d = true) :
    ∀ d ∈ (more ++ rest).head?, isNameChar d = true := by
  intro d mem
  obtain ⟨e, es, rfl⟩ := List.exists_cons_of_ne_nil nonempty
  obtain rfl := Option.some.inj mem
  exact word e (.head _)

/-- A name that is more than a number of times goes on behind the number.  This is the only place
where the letter of the cap needs a case of its own. -/
theorem exists_times_of_known (settings : Settings) (notCap : tail ≠ ['i'])
    (other : ¬ ∀ d ∈ tail, isDigit d = true) (apart : Separated rest) :
    ∃ t more number, tail = t ++ more ∧ more ≠ [] ∧
      times settings (tail ++ rest) = (number, more ++ rest) := by
  -- The letter of the cap is read first, and only as the first character.
  by_cases cap : ∃ more, tail = 'i' :: more
  · obtain ⟨more, rfl⟩ := cap
    exact ⟨['i'], more, _, rfl, fun empty => notCap (by rw [empty]), rfl⟩
  · have noCap : ∀ c ∈ (tail ++ rest).head?, c ≠ 'i' := by
      rintro c mem rfl
      cases tail with
      | nil =>
        rw [List.nil_append] at mem
        exact absurd (apart 'i' mem) (by decide)
      | cons c tail =>
        obtain rfl := Option.some.inj mem
        exact cap ⟨tail, rfl⟩
    obtain ⟨taken, left⟩ := span_append_of_word (p := isDigit) rfl apart tail
    refine ⟨tail.takeWhile isDigit, tail.dropWhile isDigit, countOr1 (tail.takeWhile isDigit),
      List.takeWhile_append_dropWhile.symm, dropWhile_ne_nil other, ?_⟩
    rw [times_of_head noCap, taken, left]

/-- A name that is more than the letter of rolling again and a number of times is not read as
one. -/
theorem reroll_eq_none_of_known (word : ∀ d ∈ tail, isNameChar d = true) (notCap : tail ≠ ['i'])
    (other : ¬ ∀ d ∈ tail, isDigit d = true)
    (known : context.fields (String.ofList ('r' :: tail)) = some value)
    (apart : Separated rest) : reroll context ('r' :: (tail ++ rest)) = none := by
  obtain ⟨t, more, number, rfl, nonempty, read⟩ :=
    exists_times_of_known context.settings notCap other apart
  have wordMore : ∀ d ∈ more, isNameChar d = true := fun d mem =>
    word d (List.mem_append_right t mem)
  have noSuffix : Suffix.conditionals (more ++ rest) = ([], more ++ rest) :=
    Suffix.conditionals_of_conditional?_none <| Suffix.conditional?_eq_none_of_head fun d mem =>
      not_mem_signs_of_isNameChar (head_of_word nonempty wordMore d mem)
  have repeats : repeated .reroll context (t ++ more ++ rest) =
      (.lexeme (.modifier .reroll) number (some []), more ++ rest) := by
    unfold repeated
    rw [read]
    dsimp only
    rw [noSuffix]
  have cut : part ('r' :: (t ++ more ++ rest)) (more ++ rest) = 'r' :: t := by
    have text : 'r' :: (t ++ more ++ rest) = 'r' :: t ++ (more ++ rest) := by simp
    rw [text, part_of_append]
  have starts : startsWord context ('r' :: t) (more ++ rest) = true :=
    startsWord_of_known nonempty wordMore known apart
  simp only [reroll, repeats, cut, starts]
  rfl

/-- A name that is at least as long as a mark begins with it, if the text does.  The marks are two
letters at most, and a name is never shorter. -/
theorem exists_append_of_mark {mark : List Char} (short : mark.length ≤ w.length)
    (text : w ++ rest = mark ++ after) : ∃ more, w = mark ++ more ∧ after = more ++ rest := by
  rcases List.append_eq_append_iff.1 text with ⟨more, rfl, rfl⟩ | ⟨more, rfl, rfl⟩
  · obtain rfl : more = [] := by simpa using short
    exact ⟨[], by simp, by simp⟩
  · exact ⟨more, rfl, rfl⟩

/-- The rule of a mark with a count refuses a name that begins with the mark, unless the name is
written as the modifier is. -/
theorem counted_eq_none_of_mark {modifier : ModifierKind} {mark : List Char}
    (barred : Option Char) (isMark : (modifier, mark) ∈ countedMarks) (long : 2 ≤ w.length)
    (word : ∀ d ∈ w, isNameChar d = true)
    (known : context.fields (String.ofList w) = some value) (other : ¬ IsModifierWord w)
    (apart : Separated rest) (text : w ++ rest = mark ++ after) :
    counted modifier mark barred context after = none := by
  have short : mark.length ≤ 2 := by
    rcases mem_countedMarks.1 isMark with
      ⟨-, rfl⟩ | ⟨-, rfl⟩ | ⟨-, rfl⟩ | ⟨-, rfl⟩ | ⟨-, rfl⟩ <;> decide
  obtain ⟨more, rfl, rfl⟩ := exists_append_of_mark (Nat.le_trans short long) text
  exact counted_eq_none_of_known (fun d mem => word d (List.mem_append_right mark mem))
    (fun digits => other (.counted isMark digits)) known apart

/-- A name that has a value, and is not a group of dice.  The premises are those of the way in which
a name is written, without the text that followed it there. -/
structure IsField (context : LexContext) (c : Char) (tail : List Char) (value : Float) : Prop where
  letter : c.isAlpha = true
  long : tail ≠ []
  word : ∀ d ∈ tail, isNameChar d = true
  noGroup : c = 'd' ∨ c = 'D' → ∀ d ∈ tail.head?, isDigit d = false
  known : context.fields (String.ofList (c :: tail)) = some value

namespace IsField

variable (field : IsField context c tail value)

include field

/-- Behind the first letter of a name comes a character of the name, since names are longer than
one. -/
theorem head_tail : ∀ d ∈ (tail ++ rest).head?, d ∈ tail.head? ∧ isNameChar d = true := by
  intro d mem
  obtain ⟨e, es, rfl⟩ := List.exists_cons_of_ne_nil field.long
  exact ⟨mem, head_of_word (List.cons_ne_nil e es) field.word d mem⟩

theorem dice_eq_none : dice context (c :: (tail ++ rest)) = none := by
  by_cases isLetter : c = 'd' ∨ c = 'D'
  · refine dice_of_letter isLetter fun d mem => ?_
    obtain ⟨first, word⟩ := field.head_tail d mem
    refine ⟨field.noGroup isLetter d first, ?_⟩
    rintro rfl
    cases word
  · have other : (c == 'd' || c == 'D') = false := by simpa using isLetter
    unfold dice
    rw [List.dropWhile_cons, isDigit_eq_false_of_isAlpha field.letter]
    exact if_neg (Bool.eq_false_iff.1 other)

/-- The rules for all that is neither a modifier nor a name look for something else. -/
theorem refused_first (noGap : gap context (c :: (tail ++ rest)) = none) :
    ∀ other ∈ all.take 8, other context (c :: (tail ++ rest)) = none := by
  have letter := field.letter
  have count : Written.count (c :: (tail ++ rest)) = (none, c :: (tail ++ rest)) := by
    unfold Written.count
    rw [List.takeWhile_cons, isDigit_eq_false_of_isAlpha letter]
    rfl
  have noSign : ∀ d ∈ (Written.count (c :: (tail ++ rest))).2.head?, d ≠ '[' ∧ d ≠ '#' := by
    rw [count]
    rintro d ⟨⟩
    constructor <;> (rintro rfl; cases letter)
  have noInteger : integer context (c :: (tail ++ rest)) = none := by
    unfold integer
    rw [List.takeWhile_cons, isDigit_eq_false_of_isAlpha letter]
    rfl
  have noMath : math context (c :: (tail ++ rest)) = none := by
    refine if_neg fun sign => ?_
    simp only [List.mem_cons, List.not_mem_nil, or_false] at sign
    rcases sign with rfl | rfl | rfl | rfl | rfl | rfl | rfl <;> cases letter
  have noStunt : stunt context (c :: (tail ++ rest)) = none := by
    unfold stunt
    split
    · next eq =>
      obtain ⟨rfl, -⟩ := List.cons.inj eq
      cases letter
    · rfl
  obtain ⟨noTable, noNote, noTag⟩ := refused_of_count context noSign
  simp only [all, List.take, List.forall_mem_cons]
  exact ⟨noGap, noTable, noNote, noTag, field.dice_eq_none, noInteger, noMath, noStunt,
    List.forall_mem_nil _⟩

/-- The rules for modifiers with a count find more than a count behind the mark. -/
theorem counted_eq_none {modifier : ModifierKind} {mark : List Char} (barred : Option Char)
    (isMark : (modifier, mark) ∈ countedMarks) (other : ¬ IsModifierWord (c :: tail))
    (apart : Separated rest) (text : c :: (tail ++ rest) = mark ++ after) :
    counted modifier mark barred context after = none := by
  have long : 2 ≤ (c :: tail).length := Nat.succ_le_succ (List.length_pos_iff.2 field.long)
  have word : ∀ d ∈ c :: tail, isNameChar d = true :=
    List.forall_mem_cons.2 ⟨isNameChar_of_isAlpha field.letter, field.word⟩
  exact counted_eq_none_of_mark barred isMark long word field.known other apart text

/-- No low dice are dropped at the front of the name. -/
theorem dropLow_eq_none (other : ¬ IsModifierWord (c :: tail)) (apart : Separated rest) :
    dropLow context (c :: (tail ++ rest)) = none := by
  unfold dropLow
  split
  · next eq =>
    have isMark : (.dropLow, ['d', 'l']) ∈ countedMarks := by decide
    exact field.counted_eq_none none isMark other apart eq
  · next eq =>
    -- The mark alone takes no count: digits behind it would have made the name a group.
    obtain ⟨rfl, rfl⟩ := List.cons.inj eq
    refine counted_eq_none_of_known field.word (fun digits => ?_) field.known apart
    obtain ⟨e, es, rfl⟩ := List.exists_cons_of_ne_nil field.long
    exact Bool.false_ne_true ((field.noGroup (.inl rfl) e rfl).symm.trans (digits e (.head _)))
  · rfl

/-- No modifier is read, though the name may begin with the mark of one. -/
theorem refused_second (other : ¬ IsModifierWord (c :: tail)) (apart : Separated rest) :
    ∀ rule ∈ [keepHigh, dropLow, keepLow, dropHigh, explodeCombine, explode, reroll],
      rule context (c :: (tail ++ rest)) = none := by
  have letter := field.letter
  have noKeepHigh : keepHigh context (c :: (tail ++ rest)) = none := by
    unfold keepHigh
    split
    · next eq =>
      have isMark : (.keepHigh, ['k', 'h']) ∈ countedMarks := by decide
      exact field.counted_eq_none none isMark other apart eq
    · next eq =>
      have isMark : (.keepHigh, ['k']) ∈ countedMarks := by decide
      exact field.counted_eq_none (some 'l') isMark other apart eq
    · rfl
  have noKeepLow : keepLow context (c :: (tail ++ rest)) = none := by
    unfold keepLow
    split
    · next eq =>
      have isMark : (.keepLow, ['k', 'l']) ∈ countedMarks := by decide
      exact field.counted_eq_none none isMark other apart eq
    · rfl
  have noDropHigh : dropHigh context (c :: (tail ++ rest)) = none := by
    unfold dropHigh
    split
    · next eq =>
      have isMark : (.dropHigh, ['d', 'h']) ∈ countedMarks := by decide
      exact field.counted_eq_none none isMark other apart eq
    · rfl
  have noExplodeCombine : explodeCombine context (c :: (tail ++ rest)) = none := by
    unfold explodeCombine
    split
    · next eq =>
      obtain ⟨rfl, -⟩ := List.cons.inj eq
      cases letter
    · rfl
  have noExplode : explode context (c :: (tail ++ rest)) = none := by
    unfold explode
    split
    · next eq =>
      obtain ⟨rfl, -⟩ := List.cons.inj eq
      cases letter
    · rfl
  have noReroll : reroll context (c :: (tail ++ rest)) = none := by
    by_cases isReroll : c = 'r'
    · subst isReroll
      exact reroll_eq_none_of_known field.word (fun cap => other (.reroll (.inl cap)))
        (fun digits => other (.reroll (.inr digits))) field.known apart
    · unfold reroll
      split
      · next eq => exact absurd (List.cons.inj eq).1 isReroll
      · rfl
  simp only [List.forall_mem_cons]
  exact ⟨noKeepHigh, field.dropLow_eq_none other apart, noKeepLow, noDropHigh, noExplodeCombine,
    noExplode, noReroll, List.forall_mem_nil _⟩

/-- **A name is read again as a name** if no modifier is written as it is.  The rules for modifiers
find the whole name before the space, and refuse it because it has a value. -/
theorem firstMatch (other : ¬ IsModifierWord (c :: tail)) (apart : Separated rest)
    (noGap : gap context (c :: (tail ++ rest)) = none) :
    firstMatch context (c :: (tail ++ rest)) =
      some (.lexeme .dice (Decimal.plain value).toList (some []), rest) := by
  have stops : ∀ d ∈ rest.head?, isNameChar d = false := fun d mem => by rw [apart d mem]; rfl
  refine firstMatch_of_refused (all.take 8 ++
    [keepHigh, dropLow, keepLow, dropHigh, explodeCombine, explode, reroll]) name rfl
    (List.forall_mem_append.2 ⟨field.refused_first noGap, field.refused_second other apart⟩) ?_
  unfold name
  dsimp only
  rw [Text.takeWhile_append_of_stops field.word stops,
    Text.dropWhile_append_of_stops field.word stops, field.letter,
    List.isEmpty_eq_false_iff.2 field.long, field.known]
  rfl

end IsField

end Name

/-! ## Lexemes

Each way of writing, before a space. -/

/-- **Every lexeme is read again before a space**, if no modifier is written as it is.  The cases
are the ways of writing.  Six of them need nothing but the space, and modifiers are read again
before anything that does not go on with them. -/
theorem firstMatch_of_separated (read : Reads context w after kind data conditionals)
    (other : kind = .dice → ¬ IsModifierWord w) (apart : Separated rest)
    (noGap : gap context (w ++ rest) = none) :
    firstMatch context (w ++ rest) = some (.lexeme kind data conditionals, rest) := by
  have single : w = ['!'] → ∀ c ∈ rest.head?, c ≠ '!' := fun _ c mem => by
    rw [apart c mem]
    decide
  have modifier {kind : ModifierKind}
      (read : Reads context w after (.modifier kind) data conditionals) :
      firstMatch context (w ++ rest) = some (.lexeme (.modifier kind) data conditionals, rest) :=
    firstMatch_of_reads rfl read (ends_of_separated apart)
      (fun _ => conditional?_of_separated apart) single
  cases read with
  | suffixed isStem single ends =>
    cases isStem with
    | @group count faces d m areDigits letter facesText either =>
      have text (pairs : List Suffix.Pair) : count ++ d :: faces ++ Suffix.textAll pairs ++ rest =
          count ++ d :: (faces ++ (Suffix.textAll pairs ++ rest)) := by simp
      rw [text] at noGap ⊢
      refine firstMatch_of_group _ areDigits letter facesText ?_ (conditional?_of_separated apart)
        (fun c mem => ?_) noGap
      · exact either.symm.imp_right fun some => ⟨some, startsWithLetter_of_separated apart⟩
      · rw [apart c mem]
        exact ⟨rfl, by decide⟩
    | repeated isMark timesText =>
      exact modifier (.suffixed (.repeated isMark timesText) single ends)
  | number nonempty areDigits =>
    exact firstMatch_number nonempty areDigits (fun c mem => by rw [apart c mem]; decide) noGap
  -- The one lexeme for which it matters that other rules refuse its text.
  | field letter long word noGroup known =>
    exact IsField.firstMatch ⟨letter, long, word, noGroup, known⟩ (other rfl) apart noGap
  | sign isSign => exact firstMatch_sign isSign
  | stunt letter => exact firstMatch_stunt letter
  | counted isMark areDigits => exact modifier (.counted isMark areDigits)
  | drop => exact modifier .drop

/-- A name that a modifier is written as is read as the modifier before a space.  Whether the name
has a value is not asked: the word that the rule looks for is longer than the modifier, and here
none is. -/
theorem firstMatch_of_isModifierWord (context : LexContext) (word : IsModifierWord w)
    (apart : Separated rest) :
    ∃ modifier data conditionals, firstMatch context (w ++ rest) =
      some (.lexeme (.modifier modifier) data conditionals, rest) := by
  have ends : Ends context rest := ends_of_separated apart
  cases word with
  | counted isMark areDigits =>
    rw [List.append_assoc]
    exact ⟨_, _, _, ends.firstMatch_counted isMark areDigits⟩
  | @reroll t number =>
    have isMark : (.reroll, ['r']) ∈ repeatedMarks := by decide
    obtain ⟨data, timesText⟩ : ∃ data, TimesText context.settings t data := by
      rcases number with rfl | areDigits
      · exact ⟨_, .cap⟩
      · exact ⟨_, .digits areDigits⟩
    exact ⟨_, _, _, ends.firstMatch_repeated isMark timesText []
      (conditional?_of_separated apart) nofun⟩

end Rule

/-! ## Lexemes of a text

A lexeme that stands in some text was read there in some way, and by the same way it is read again.
-/

variable {context : LexContext} {rest : List Char} {l : Lexeme}

/-- A lexeme is read again from its own text, as itself unless it is a name and the text that of a
modifier.  Its place is left out, for the spaces move it. -/
def Lexeme.Again (l l' : Lexeme) : Prop :=
  l'.written = l.written ∧
    (l'.content = l.content ↔ (l.kind = .dice → ¬ Rule.IsModifierWord l.written.toList))

namespace Lexeme.TakenBefore

variable (taken : l.TakenBefore context rest)

include taken

/-- The text of a lexeme does not begin with a gap, whatever stands behind it. -/
theorem gap_eq_none (rest' : List Char) : Rule.gap context (l.written.toList ++ rest') = none := by
  have first := Rule.gap_eq_none_iff.1 (Rule.gap_eq_none_of_firstMatch taken)
  refine Rule.gap_eq_none_iff.2 fun c mem => first c ?_
  obtain ⟨d, ds, eq⟩ := List.exists_cons_of_ne_nil taken.written_ne_nil
  rw [eq] at mem ⊢
  exact mem

/-- **One lexeme.** Its text is a lexeme again before a space.  The position is arbitrary and moves
nothing but the place of the lexeme. -/
theorem exists_again (plain : ∀ document, l.kind ≠ .reference document) {rest' : List Char}
    (apart : Separated rest') (position : Nat) :
    ∃ kind data conditionals,
      Rule.firstMatch context (l.written.toList ++ rest') =
        some (.lexeme kind data conditionals, rest') ∧
      l.Again ⟨kind, String.ofList data, String.ofList l.written.toList, conditionals,
        ⟨position, position + utf8Length l.written.toList⟩⟩ := by
  -- Either the rules find what they found before, or a name turns into a modifier.
  by_cases other : l.kind = .dice → ¬ Rule.IsModifierWord l.written.toList
  · have found := Rule.firstMatch_of_separated (taken.reads plain) other apart
      (taken.gap_eq_none rest')
    refine ⟨_, _, _, found, String.ofList_toList, ?_⟩
    simp only [content, String.ofList_toList, true_iff]
    exact other
  · obtain ⟨isDice, word⟩ := Classical.not_imp.1 other
    obtain ⟨modifier, data, conditionals, found⟩ :=
      Rule.firstMatch_of_isModifierWord context (not_not.1 word) apart
    refine ⟨_, _, _, found, String.ofList_toList, iff_of_false (fun same => ?_) other⟩
    cases isDice.symm.trans (congrArg Prod.fst same).symm

end Lexeme.TakenBefore

/-! ## Texts

The induction is on the lexemes, and each of them is read behind the space before it. -/

/-- Lexemes each with a space before it. -/
def spacedAfter (lexemes : List Lexeme) : List Char :=
  lexemes.flatMap fun l => ' ' :: l.written.toList

/-- Lexemes with spaces before them begin with a space. -/
theorem separated_spacedAfter (lexemes : List Lexeme) : Separated (spacedAfter lexemes) := by
  cases lexemes with
  | nil => exact fun c none => nomatch none
  | cons l lexemes =>
    rintro c ⟨⟩
    rfl

/-- The texts joined by spaces are the first text and the others with spaces before them.  The first
lexeme has no space before it, and is treated apart in the end. -/
theorem toList_intercalate_written (l : Lexeme) (lexemes : List Lexeme) :
    (" ".intercalate ((l :: lexemes).map (·.written))).toList =
      l.written.toList ++ spacedAfter lexemes := by
  induction lexemes generalizing l with
  | nil => simp [spacedAfter]
  | cons l' lexemes ih =>
    have more := ih l'
    rw [List.map_cons] at more
    rw [List.map_cons, List.map_cons, String.intercalate_cons_cons, String.toList_append, more]
    simp [spacedAfter]

/-- The lexeme stands in some text, and is no reference. -/
def Lexeme.Readable (context : LexContext) (l : Lexeme) : Prop :=
  (∃ rest, l.TakenBefore context rest) ∧ ∀ document, l.kind ≠ .reference document

/-- **Lexemes are read again one by one**, each behind its space.  What is left to be read begins
with a space, or is nothing, and this is all that the next one needs to know. -/
theorem scan_spacedAfter {lexemes : List Lexeme} (each : ∀ l ∈ lexemes, l.Readable context)
    (position : Nat) :
    ∃ again, scan context position (spacedAfter lexemes) = .ok again ∧
      List.Forall₂ Lexeme.Again lexemes again := by
  induction lexemes generalizing position with
  | nil =>
    refine ⟨[], ?_, .nil⟩
    rw [spacedAfter, List.flatMap_nil, scan]
    rfl
  | cons l lexemes ih =>
    obtain ⟨⟨⟨rest, taken⟩, plain⟩, others⟩ := List.forall_mem_cons.1 each
    obtain ⟨kind, data, conditionals, found, again⟩ :=
      taken.exists_again plain (separated_spacedAfter lexemes) (position + utf8Length [' '])
    -- The space is no lexeme, but it moves the position of the ones behind it.
    obtain ⟨ls, scanned, more⟩ := ih others _
    have space := Rule.firstMatch_space (taken.gap_eq_none (spacedAfter lexemes))
    have text : spacedAfter (l :: lexemes) =
        [' '] ++ (l.written.toList ++ spacedAfter lexemes) := List.flatMap_cons
    rw [text]
    exact ⟨_, scan_skip space (scan_lexeme found scanned), .cons again more⟩

/-- Lexemes that are read again have the same texts.  The position at which they are read plays no
part. -/
theorem map_written_eq {lexemes again : List Lexeme}
    (h : List.Forall₂ Lexeme.Again lexemes again) :
    again.map (·.written) = lexemes.map (·.written) := by
  induction h with
  | nil => rfl
  | cons again _ ih => rw [List.map_cons, List.map_cons, ih, again.1]

theorem map_content_eq_iff {lexemes again : List Lexeme}
    (h : List.Forall₂ Lexeme.Again lexemes again) :
    again.map Lexeme.content = lexemes.map Lexeme.content ↔
      ∀ l ∈ lexemes, l.kind = .dice → ¬ Rule.IsModifierWord l.written.toList := by
  induction h with
  | nil => simp
  | cons again _ ih =>
    rw [List.map_cons, List.map_cons, List.cons_eq_cons, ih, again.2, List.forall_mem_cons]

/-- **Lexemes set apart are read again.**  If the lexemes of a text contain no reference, their
texts joined by spaces are as many lexemes, of the same texts.  They are of the same kinds, and say
the same, exactly if no name among them is written as a modifier is. -/
theorem tokenize_spaced {context : LexContext} {text : String} {lexemes : List Lexeme}
    (read : tokenize context text = .ok lexemes)
    (plain : ∀ l ∈ lexemes, ∀ document, l.kind ≠ .reference document) :
    ∃ again, tokenize context (" ".intercalate (lexemes.map (·.written))) = .ok again ∧
      again.map (·.written) = lexemes.map (·.written) ∧
      (again.map Lexeme.content = lexemes.map Lexeme.content ↔
        ∀ l ∈ lexemes, l.kind = .dice → ¬ Rule.IsModifierWord l.written.toList) := by
  have each : ∀ l ∈ lexemes, l.Readable context := fun l mem =>
    ⟨exists_takenBefore_of_tokenize read mem, plain l mem⟩
  -- The first lexeme stands without a space, and the others are those of `scan_spacedAfter`.
  obtain ⟨again, scanned, same⟩ : ∃ again,
      tokenize context (" ".intercalate (lexemes.map (·.written))) = .ok again ∧
        List.Forall₂ Lexeme.Again lexemes again := by
    cases lexemes with
    | nil => exact ⟨[], by rw [tokenize, scan]; rfl, .nil⟩
    | cons l lexemes =>
      obtain ⟨⟨⟨rest, taken⟩, plain⟩, others⟩ := List.forall_mem_cons.1 each
      obtain ⟨kind, data, conditionals, found, first⟩ :=
        taken.exists_again plain (separated_spacedAfter lexemes) 0
      obtain ⟨ls, scanned, more⟩ := scan_spacedAfter others _
      refine ⟨_, ?_, .cons first more⟩
      rw [tokenize, toList_intercalate_written]
      exact scan_lexeme found scanned
  exact ⟨again, scanned, map_written_eq same, map_content_eq_iff same⟩

/-- A group, a modifier, a sign and a number, none of them a name. -/
theorem tokenize_spaced_group :
    let context : LexContext := ⟨{}, fun _ => none⟩
    let lexemes : List Lexeme :=
      [⟨.dice, "2d6", "2d6=>5", some [⟨.ge, 5⟩], ⟨0, 6⟩⟩,
        ⟨.modifier .keepHigh, "1", "k", none, ⟨6, 7⟩⟩, ⟨.math, "+", "+", none, ⟨7, 8⟩⟩,
        ⟨.dice, "3", "3", some [], ⟨8, 9⟩⟩]
    tokenize context "2d6=>5k+3" = .ok lexemes ∧
      (∀ l ∈ lexemes, ∀ document, l.kind ≠ .reference document) ∧
      ∃ again, tokenize context (" ".intercalate (lexemes.map (·.written))) = .ok again ∧
        again.map (·.written) = lexemes.map (·.written) ∧
        (again.map Lexeme.content = lexemes.map Lexeme.content ↔
          ∀ l ∈ lexemes, l.kind = .dice → ¬ Rule.IsModifierWord l.written.toList) := by
  intro context lexemes
  have read : tokenize context "2d6=>5k+3" = .ok lexemes := by cbv
  have plain : ∀ l ∈ lexemes, ∀ document, l.kind ≠ .reference document := by simp [lexemes]
  exact ⟨read, plain, tokenize_spaced read plain⟩

/-- **A name becomes a modifier:** the word that begins with `ri` and holds the comparison is not
the name, but it keeps the letter from being read as a modifier.  Before a space nothing does. -/
theorem tokenize_spaced_name :
    let context : LexContext := ⟨{}, fun name => if name = "ri" then some 2 else none⟩
    let lexemes : List Lexeme := [⟨.dice, Decimal.plain 2, "ri", some [], ⟨0, 2⟩⟩,
      ⟨.modifier .explode, "1", "!=1", some [⟨.eq, 1⟩], ⟨2, 5⟩⟩]
    let again : List Lexeme := [⟨.modifier .reroll, "100", "ri", some [], ⟨0, 2⟩⟩,
      ⟨.modifier .explode, "1", "!=1", some [⟨.eq, 1⟩], ⟨3, 6⟩⟩]
    tokenize context "ri!=1xy" = .ok lexemes ∧
      tokenize context (" ".intercalate (lexemes.map (·.written))) = .ok again ∧
      again.map Lexeme.content ≠ lexemes.map Lexeme.content := by
  intro context lexemes again
  open Rule in
  have named : firstMatch context (['r', 'i'] ++ ['!', '=', '1', 'x', 'y']) =
      some (.lexeme .dice (Decimal.plain 2).toList (some []), ['!', '=', '1', 'x', 'y']) := by
    refine firstMatch_of_refused [gap, table, note, tag, dice, integer, math, stunt, keepHigh,
      dropLow, keepLow, dropHigh, explodeCombine, explode, reroll] name rfl ?_ rfl
    simp only [List.forall_mem_cons]
    refine ⟨rfl, rfl, rfl, rfl, rfl, rfl, rfl, rfl, rfl, rfl, rfl, rfl, rfl, rfl, ?_,
      List.forall_mem_nil _⟩
    cbv
  have rerolled : Rule.firstMatch context (['r', 'i'] ++ [' ', '!', '=', '1']) =
      some (.lexeme (.modifier .reroll) ['1', '0', '0'] (some []), [' ', '!', '=', '1']) := by cbv
  have exploded : ∀ rest ∈ [[], ['x', 'y']], Rule.firstMatch context (['!', '=', '1'] ++ rest) =
      some (.lexeme (.modifier .explode) ['1'] (some [⟨.eq, 1⟩]), rest) := by
    simp only [List.forall_mem_cons]
    exact ⟨by cbv, by cbv, List.forall_mem_nil _⟩
  have unknown : Rule.firstMatch context (['x', 'y'] ++ []) = some (.skip, []) := by cbv
  have space : Rule.firstMatch context ([' '] ++ ['!', '=', '1']) =
      some (.skip, ['!', '=', '1']) := by cbv
  have noMore (position : Nat) : scan context position [] = .ok [] := by
    rw [scan]
    rfl
  refine ⟨?_, ?_, fun same => ?_⟩
  · refine (scan_lexeme named (scan_lexeme (exploded ['x', 'y'] (by decide))
      (scan_skip unknown (noMore _)))).trans ?_
    rw [String.ofList_toList]
    rfl
  · have text : (" ".intercalate (lexemes.map (·.written))).toList =
        ['r', 'i'] ++ [' ', '!', '=', '1'] := by
      show (" ".intercalate ["ri", "!=1"]).toList = _
      cbv
    rw [tokenize, text]
    exact scan_lexeme rerolled
      (scan_skip space (scan_lexeme (exploded [] (by decide)) (noMore _)))
  · cases congrArg (·.map Prod.fst) same

end Tabletop
