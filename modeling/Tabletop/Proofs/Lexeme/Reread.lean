import Tabletop.Proofs.Lexeme.Reading
import Tabletop.Proofs.Text.Blank

/-!
# Reading a lexeme again

The text of a lexeme is put before another text, and is the first lexeme of it: the same rules read
it, whatever follows that does not go on with it.

* `Rule.firstMatch_of_group`, `Rule.firstMatch_number`, `Rule.firstMatch_sign` — groups of dice,
  numbers and signs;
* `Rule.Ends` — what may stand after a modifier;
* `Rule.firstMatch_of_reads` — modifiers.

### What may follow

Rules look beyond their part.  Most of what they look for is a character that would make the part
longer, and then the text after it is bound to begin otherwise.  But a letter is refused as a
modifier for the sake of the word it begins, which may reach far, and may be the name of a field.
For reading again this is an assumption about the new text (`Rule.Ends`), not a fact about the old
one: that a rule has accepted its part before one text says nothing of another.

Reading again takes two things: that the rules before the right one refuse the new text, and that
the right one takes as much as before.  The first is mostly seen from one character
(`firstMatch_of_begins`, `refused_of_count`).  The second is that digits, pairs and words end where
they ended.
-/

namespace Tabletop.Rule

open Text (isDigit isBlank)
open Suffix (Pair textAll)

variable {context : LexContext} {cs rest data : List Char} {kind : LexemeKind}
  {conditionals : Option (List Conditional)}

/-- A rule decides if those before it refuse.  This is the form in which the order of the rules
enters every lemma below. -/
theorem firstMatch_of_refused (front : List Rule) (rule : Rule) {back : List Rule}
    {taken : Take × List Char} (rules : all = front ++ rule :: back)
    (refused : ∀ other ∈ front, other context cs = none) (takes : rule context cs = some taken) :
    firstMatch context cs = some taken := by
  unfold firstMatch
  rw [rules, List.findSome?_append, List.findSome?_eq_none_iff.2 refused, Option.none_or,
    List.findSome?_cons, takes]

/-- A text that begins as a modifier with its sign, where a `d` has no faces behind it.  One sign is
enough to know that no rule of dice, numbers or references applies. -/
inductive Begins : List Char → Prop
  | sign {c : Char} {cs : List Char} (sign : c ∈ ['k', 'r', '!']) : Begins (c :: cs)
  | drop {cs : List Char} (noFaces : ∀ c ∈ cs.head?, isDigit c = false ∧ c ≠ '%') :
      Begins ('d' :: cs)

/-- Without faces and without a count a letter is no group. -/
theorem dice_of_letter {d : Char} (letter : d = 'd' ∨ d = 'D')
    (noFaces : ∀ c ∈ cs.head?, isDigit c = false ∧ c ≠ '%') : dice context (d :: cs) = none := by
  have missing : (faces cs).1 = none := by
    unfold faces
    split
    · exact absurd rfl (noFaces '%' rfl).2
    · rw [Text.takeWhile_of_stops fun c mem => (noFaces c mem).1]
      rfl
  have notDigit : isDigit d = false := by rcases letter with rfl | rfl <;> rfl
  have isLetter : (d == 'd' || d == 'D') = true := by simpa using letter
  unfold dice
  rw [List.dropWhile_cons, List.takeWhile_cons, notDigit]
  simp [isLetter, missing]

/-- All rules that come before those of the modifiers refuse a modifier.  Only those of modifiers
that stand before its own are left to refuse it. -/
theorem firstMatch_of_begins (begins : Begins cs) (front : List Rule) (rule : Rule)
    {back : List Rule} {taken : Take × List Char} (rules : all.drop 8 = front ++ rule :: back)
    (refused : ∀ other ∈ front, other context cs = none) (takes : rule context cs = some taken) :
    firstMatch context cs = some taken := by
  -- Eight rules stand before those of the modifiers, and all but that of dice refuse by
  -- computation.
  have before : ∀ other ∈ all.take 8, other context cs = none := by
    simp only [all, List.take, List.forall_mem_cons]
    cases begins with
    | sign sign =>
      simp only [List.mem_cons, List.not_mem_nil, or_false] at sign
      rcases sign with rfl | rfl | rfl <;>
        exact ⟨rfl, rfl, rfl, rfl, rfl, rfl, rfl, rfl, List.forall_mem_nil _⟩
    | drop noFaces =>
      exact ⟨rfl, rfl, rfl, rfl, dice_of_letter (.inl rfl) noFaces, rfl, rfl, rfl,
        List.forall_mem_nil _⟩
  have whole : all = (all.take 8 ++ front) ++ rule :: back := by
    rw [List.append_assoc, ← rules, List.take_append_drop]
  exact firstMatch_of_refused _ rule whole (List.forall_mem_append.2 ⟨before, refused⟩) takes

/-! ## Groups

The rules before that of dice look for a reference, and a reference may begin with a count as well.
What tells them apart stands behind the letter. -/

theorem isDigit_letter {d : Char} (letter : d = 'd' ∨ d = 'D') : isDigit d = false := by
  rcases letter with rfl | rfl <;> rfl

/-- Digits with the letter of dice behind are read as a count, and the letter alone is not.
References have the same reader for their count, so this is what the rules for them find as well. -/
theorem count_append {count : List Char} (areDigits : ∀ c ∈ count, isDigit c = true) {d : Char}
    (letter : d = 'd' ∨ d = 'D') (cs : List Char) :
    Written.count (count ++ d :: cs) =
      if count = [] then (none, d :: cs) else (some count, cs) := by
  have stops : ∀ c ∈ (d :: cs).head?, isDigit c = false := by
    rintro c ⟨⟩
    exact isDigit_letter letter
  have isLetter : (d == 'd' || d == 'D') = true := by simpa using letter
  unfold Written.count
  rw [Text.takeWhile_append_of_stops areDigits stops,
    Text.dropWhile_append_of_stops areDigits stops]
  cases count with
  | nil => rfl
  | cons c count => exact if_pos isLetter

/-- A text is no reference if neither a bracket nor the sign of a tag follows its count.  So the
rules for references refuse most texts by one character. -/
theorem refused_of_count (context : LexContext)
    (other : ∀ c ∈ (Written.count cs).2.head?, c ≠ '[' ∧ c ≠ '#') :
    table context cs = none ∧ note context cs = none ∧ tag context cs = none := by
  have noBracket : Written.bracketed? cs = none := by
    have : Written.brackets? (Written.count cs).2 = none := by
      unfold Written.brackets?
      split
      · next eq => exact absurd rfl (other '[' (by rw [eq]; rfl)).1
      · rfl
    unfold Written.bracketed?
    dsimp only
    rw [this]
  have noTag : Written.tagged? cs = none := by
    unfold Written.tagged?
    dsimp only
    split
    · next eq => exact absurd rfl (other '#' (by rw [eq]; rfl)).2
    · rfl
  refine ⟨?_, ?_, ?_⟩
  · rw [table, noBracket]
  · rw [note, noBracket]
  · rw [tag, noTag]

/-- Faces are read again before anything that does not go on with them. -/
theorem FacesText.faces_append {f : List Char} {m : Option (List Char)} (read : FacesText f m)
    (stops : ∀ c ∈ cs.head?, isDigit c = false ∧ c ≠ '%') : faces (f ++ cs) = (m, cs) := by
  have noDigit : ∀ c ∈ cs.head?, isDigit c = false := fun c mem => (stops c mem).1
  cases read with
  | percent => rfl
  | missing =>
    unfold faces
    split
    · next eq => exact absurd rfl (stops '%' (by rw [← List.nil_append cs, eq]; rfl)).2
    · rw [List.nil_append, Text.takeWhile_of_stops noDigit, Text.dropWhile_of_stops noDigit]
      rfl
  | digits nonempty areDigits =>
    obtain ⟨d, ds, rfl⟩ := List.exists_cons_of_ne_nil nonempty
    unfold faces
    split
    · next eq =>
      obtain ⟨rfl, -⟩ := List.cons.inj eq
      exact nomatch areDigits '%' (.head _)
    · rw [Text.takeWhile_append_of_stops areDigits noDigit,
        Text.dropWhile_append_of_stops areDigits noDigit]
      rfl

section Group

variable {count f : List Char} {d : Char} {m : Option (List Char)} (pairs : List Pair)

/-- What stands behind the faces of a group is none. -/
theorem head_textAll (stops : ∀ c ∈ rest.head?, isDigit c = false ∧ c ≠ '%') :
    ∀ c ∈ (textAll pairs ++ rest).head?, isDigit c = false ∧ c ≠ '%' := by
  intro c mem
  rcases Suffix.head_textAll_append pairs c mem with sign | mem
  · simp only [List.mem_cons, List.not_mem_nil, or_false] at sign
    rcases sign with rfl | rfl | rfl | rfl <;> decide
  · exact stops c mem

/-- The rule of dice takes the group.  A group without faces must have a count and no letter behind
it.  With a letter behind it, the rule would leave the text to one of the other rules: `2dh` is no
group. -/
theorem dice_of_group (areDigits : ∀ c ∈ count, isDigit c = true) (letter : d = 'd' ∨ d = 'D')
    (read : FacesText f m) (accepted : m ≠ none ∨ count ≠ [] ∧ startsWithLetter rest = false)
    (suffix : Suffix.conditional? rest = none)
    (stops : ∀ c ∈ rest.head?, isDigit c = false ∧ c ≠ '%') :
    dice context (count ++ d :: (f ++ (textAll pairs ++ rest))) =
      some (.lexeme .dice (groupData context.settings count m)
        (some (pairs.filterMap Pair.conditional?)), rest) := by
  have isLetter : (d == 'd' || d == 'D') = true := by simpa using letter
  have notDigit : ∀ c ∈ (d :: (f ++ (textAll pairs ++ rest))).head?, isDigit c = false := by
    rintro c ⟨⟩
    exact isDigit_letter letter
  have taken : (m.isNone && (count.isEmpty || startsWithLetter rest)) = false := by
    rcases accepted with some | ⟨some, noLetter⟩
    · rw [Option.isNone_eq_false_iff.2 (Option.isSome_iff_ne_none.2 some), Bool.false_and]
    · rw [List.isEmpty_eq_false_iff.2 some, noLetter, Bool.or_false, Bool.and_false]
  unfold dice
  rw [Text.takeWhile_append_of_stops areDigits notDigit,
    Text.dropWhile_append_of_stops areDigits notDigit]
  dsimp only
  rw [if_pos isLetter, read.faces_append (head_textAll pairs stops)]
  dsimp only
  rw [Suffix.conditionals_pairs pairs suffix fun c mem => (stops c mem).1]
  dsimp only
  rw [taken]
  rfl

/-- No reference has a count with faces or conditionals behind it. -/
theorem head_faces (read : FacesText f m) (stops : ∀ c ∈ rest.head?, c ≠ '[' ∧ c ≠ '#') :
    ∀ c ∈ (f ++ (textAll pairs ++ rest)).head?, c ≠ '[' ∧ c ≠ '#' := by
  intro c mem
  cases read with
  | missing =>
    rcases Suffix.head_textAll_append pairs c mem with sign | mem
    · simp only [List.mem_cons, List.not_mem_nil, or_false] at sign
      rcases sign with rfl | rfl | rfl | rfl <;> decide
    · exact stops c mem
  | percent =>
    obtain rfl := Option.some.inj mem
    decide
  | digits nonempty areDigits =>
    obtain ⟨d, ds, rfl⟩ := List.exists_cons_of_ne_nil nonempty
    obtain rfl := Option.some.inj mem
    have digit := areDigits d (.head _)
    constructor <;> (rintro rfl; cases digit)

/-- **A group is read again** before another text that does not go on with it.  That it is no gap is
asked for, since blanks are a matter of its first character alone.  It is known where the group has
been read before (`gap_eq_none_of_firstMatch`). -/
theorem firstMatch_of_group (areDigits : ∀ c ∈ count, isDigit c = true)
    (letter : d = 'd' ∨ d = 'D') (read : FacesText f m)
    (accepted : m ≠ none ∨ count ≠ [] ∧ startsWithLetter rest = false)
    (suffix : Suffix.conditional? rest = none)
    (stops : ∀ c ∈ rest.head?, isDigit c = false ∧ c ∉ ['%', '[', '#'])
    (noGap : gap context (count ++ d :: (f ++ (textAll pairs ++ rest))) = none) :
    firstMatch context (count ++ d :: (f ++ (textAll pairs ++ rest))) =
      some (.lexeme .dice (groupData context.settings count m)
        (some (pairs.filterMap Pair.conditional?)), rest) := by
  have other : ∀ c ∈ (Written.count (count ++ d :: (f ++ (textAll pairs ++ rest)))).2.head?,
      c ≠ '[' ∧ c ≠ '#' := by
    rw [count_append areDigits letter]
    split
    · rintro c ⟨⟩
      rcases letter with rfl | rfl <;> decide
    · exact head_faces pairs read fun c mem =>
        ⟨fun bracket => (stops c mem).2 (bracket ▸ .tail _ (.head _)),
          fun tag => (stops c mem).2 (tag ▸ .tail _ (.tail _ (.head _)))⟩
  have noFaces : ∀ c ∈ rest.head?, isDigit c = false ∧ c ≠ '%' := fun c mem =>
    ⟨(stops c mem).1, fun percent => (stops c mem).2 (percent ▸ .head _)⟩
  obtain ⟨noTable, noNote, noTag⟩ := refused_of_count context other
  refine firstMatch_of_refused [gap, table, note, tag] dice rfl ?_
    (dice_of_group pairs areDigits letter read accepted suffix noFaces)
  simp only [List.forall_mem_cons]
  exact ⟨noGap, noTable, noNote, noTag, List.forall_mem_nil _⟩

end Group

/-! ## Gaps, numbers and signs

Digits alone are the longest of these: a count of dice, a count of a reference, or a number. -/

/-- Whether a text begins with a gap is a matter of its first character. -/
theorem gap_eq_none_iff :
    gap context cs = none ↔ ∀ c ∈ cs.head?, isBlank c = false ∧ Written.isBrace c = false := by
  cases cs with
  | nil => simp [gap]
  | cons c cs =>
    simp only [gap, List.head?_cons, Option.mem_def, Option.some.injEq, forall_eq']
    cases isBlank c <;> cases Written.isBrace c <;> simp

/-- A text that a lexeme is read from does not begin with a gap. -/
theorem gap_eq_none_of_firstMatch
    (found : firstMatch context cs = some (.lexeme kind data conditionals, rest)) :
    gap context cs = none := by
  -- The rule of gaps is the first, so it would have decided, and a gap is no lexeme.
  cases skipped : gap context cs with
  | none => rfl
  | some taken =>
    have first : firstMatch context cs = some taken := by
      unfold firstMatch
      rw [all, List.findSome?_cons, skipped]
    cases first.symm.trans found
    unfold gap at skipped
    grind

/-- A space before a lexeme is a gap, and all of it. -/
theorem firstMatch_space {cs : List Char} (noGap : gap context cs = none) :
    firstMatch context ([' '] ++ cs) = some (.skip, cs) := by
  have left : (' ' :: cs).dropWhile isBlank = cs :=
    Text.dropWhile_of_stops fun c mem => (gap_eq_none_iff.1 noGap c mem).1
  have skipped : gap context ([' '] ++ cs) = some (.skip, (' ' :: cs).dropWhile isBlank) := rfl
  unfold firstMatch
  rw [all, List.findSome?_cons, skipped, left]

theorem isBrace_of_isDigit {c : Char} (digit : c.isDigit = true) : Written.isBrace c = false := by
  unfold Written.isBrace
  rw [Bool.or_eq_false_iff, beq_eq_false_iff_ne, beq_eq_false_iff_ne]
  constructor <;> (rintro rfl; cases digit)

/-- A text that begins with a digit has no gap in front. -/
theorem gap_of_isDigit {context : LexContext} {cs : List Char}
    (digit : ∀ c ∈ cs.head?, c.isDigit = true) : gap context cs = none := by
  cases cs with
  | nil => rfl
  | cons c cs =>
    rw [gap, Text.isBlank_of_isDigit (digit c rfl), isBrace_of_isDigit (digit c rfl)]
    rfl

/-- **A number is read again.** Its digits alone are no count, neither of dice nor of a reference.
The rule of dice and those of references stand before that of integers, and each of them looks for
its letter behind the digits. -/
theorem firstMatch_number {digits : List Char} (nonempty : digits ≠ [])
    (areDigits : ∀ c ∈ digits, isDigit c = true)
    (stops : ∀ c ∈ rest.head?, isDigit c = false ∧ c ∉ ['d', 'D'])
    (noGap : gap context (digits ++ rest) = none) :
    firstMatch context (digits ++ rest) = some (.lexeme .dice digits (some []), rest) := by
  have noDigit : ∀ c ∈ rest.head?, isDigit c = false := fun c mem => (stops c mem).1
  have noLetter : ∀ c ∈ rest.head?, (c == 'd' || c == 'D') = false := by
    simpa using fun c mem => (stops c mem).2
  have taken := Text.takeWhile_append_of_stops areDigits noDigit
  have left := Text.dropWhile_append_of_stops areDigits noDigit
  obtain ⟨digit, others, rfl⟩ := List.exists_cons_of_ne_nil nonempty
  have noCount : Written.count (digit :: others ++ rest) = (none, digit :: others ++ rest) := by
    unfold Written.count
    rw [taken, left]
    cases rest with
    | nil => rfl
    | cons c more => exact if_neg (Bool.eq_false_iff.1 (noLetter c rfl))
  have other : ∀ c ∈ (Written.count (digit :: others ++ rest)).2.head?, c ≠ '[' ∧ c ≠ '#' := by
    have isNumber : isDigit digit = true := areDigits digit (.head _)
    rw [noCount]
    rintro c ⟨⟩
    constructor <;> (rintro rfl; cases isNumber)
  have noDice : dice context (digit :: others ++ rest) = none := by
    unfold dice
    rw [left]
    cases rest with
    | nil => rfl
    | cons c more => exact if_neg (Bool.eq_false_iff.1 (noLetter c rfl))
  obtain ⟨noTable, noNote, noTag⟩ := refused_of_count context other
  refine firstMatch_of_refused [gap, table, note, tag, dice] integer rfl ?_ ?_
  · simp only [List.forall_mem_cons]
    exact ⟨noGap, noTable, noNote, noTag, noDice, List.forall_mem_nil _⟩
  · unfold integer
    rw [taken, left]
    cases rest with
    | nil => rfl
    | cons c more =>
      have accepted : (c == 'd' || c == 'D') = false := noLetter c rfl
      rw [← Option.some_beq_some, ← Option.some_beq_some] at accepted
      exact if_neg (Bool.eq_false_iff.1 accepted)

/-- A sign is read again whatever follows.  The rules before it look for other characters. -/
theorem firstMatch_sign {c : Char} (isSign : c ∈ ['-', '+', '*', '/', '^', '(', ')']) :
    firstMatch context (c :: rest) = some (.lexeme .math [c] none, rest) := by
  simp only [List.mem_cons, List.not_mem_nil, or_false] at isSign
  rcases isSign with rfl | rfl | rfl | rfl | rfl | rfl | rfl <;>
  · refine firstMatch_of_refused [gap, table, note, tag, dice, integer] math rfl ?_ rfl
    simp only [List.forall_mem_cons]
    exact ⟨rfl, rfl, rfl, rfl, rfl, rfl, List.forall_mem_nil _⟩

/-! ## Modifiers

What follows a modifier may be a character of its mark, of its count, or of a word that it begins.
`Ends` excludes the three, once for all modifiers. -/

/-- What may stand after a modifier for it to be read again: no longer word begins with it, and
neither its count nor its mark goes on.  The first is asked of every part, for the word may begin at
any letter of a mark. -/
structure Ends (context : LexContext) (rest : List Char) : Prop where
  noWord : ∀ part, startsWord context part rest = false
  noDigit : ∀ c ∈ rest.head?, isDigit c = false
  noLetter : ∀ c ∈ rest.head?, c ∉ ['h', 'l', 'i', '%']

/-- Where no names have values, a modifier does not go on with the mark of another.  This is the
case of a printed group, whose modifiers stand one behind the other: no word is known, and no mark
goes on with another. -/
theorem ends_of_head (settings : Settings) (head : ∀ c ∈ rest.head?, c ∈ ['k', 'd', 'r', '!']) :
    Ends ⟨settings, fun _ => none⟩ rest where
  noWord part := by
    unfold startsWord
    cases rest with
    | nil => rfl
    | cons c cs =>
      have mark := head c rfl
      simp only [List.mem_cons, List.not_mem_nil, or_false] at mark
      rcases mark with rfl | rfl | rfl | rfl
      iterate 3 simp
      rfl
  noDigit c mem := by
    have mark := head c mem
    simp only [List.mem_cons, List.not_mem_nil, or_false] at mark
    rcases mark with rfl | rfl | rfl | rfl <;> rfl
  noLetter c mem := by
    have mark := head c mem
    simp only [List.mem_cons, List.not_mem_nil, or_false] at mark
    rcases mark with rfl | rfl | rfl | rfl <;> decide

/-! ### Behind the mark

What the mark is followed by, repetitions and conditionals or a count, is read again first. -/

/-- Without the letter of the cap, repetitions are digits. -/
theorem times_of_head {settings : Settings} (other : ∀ c ∈ cs.head?, c ≠ 'i') :
    times settings cs = (countOr1 (cs.takeWhile isDigit), cs.dropWhile isDigit) := by
  unfold times
  split
  · exact absurd rfl (other 'i' rfl)
  · rfl

theorem TimesText.times_append {settings : Settings} {t : List Char}
    (read : TimesText settings t data) (stops : ∀ c ∈ cs.head?, isDigit c = false)
    (other : ∀ c ∈ cs.head?, c ≠ 'i') : times settings (t ++ cs) = (data, cs) := by
  cases read with
  | cap => rfl
  | digits areDigits =>
    rw [times_of_head, Text.takeWhile_append_of_stops areDigits stops,
      Text.dropWhile_append_of_stops areDigits stops]
    intro c mem
    cases t with
    | nil => exact other c mem
    | cons d ds =>
      obtain rfl := Option.some.inj mem
      rintro rfl
      exact nomatch areDigits 'i' (.head _)

/-- Behind its mark, a modifier that repeats is read again, with all its pairs.  Pairs begin with a
sign of comparison, so they go on neither with digits nor with the letter of the cap. -/
theorem Ends.repeated_append (ends : Ends context rest) (modifier : ModifierKind) {t : List Char}
    (read : TimesText context.settings t data) (pairs : List Pair)
    (suffix : Suffix.conditional? rest = none) :
    repeated modifier context (t ++ (textAll pairs ++ rest)) =
      (.lexeme (.modifier modifier) data (some (pairs.filterMap Pair.conditional?)), rest) := by
  have head : ∀ c ∈ (textAll pairs ++ rest).head?, isDigit c = false ∧ c ≠ 'i' := by
    intro c mem
    rcases Suffix.head_textAll_append pairs c mem with sign | mem
    · simp only [List.mem_cons, List.not_mem_nil, or_false] at sign
      rcases sign with rfl | rfl | rfl | rfl <;> decide
    · refine ⟨ends.noDigit c mem, ?_⟩
      rintro rfl
      exact absurd (ends.noLetter 'i' mem) (by decide)
  unfold repeated
  rw [read.times_append (fun c mem => (head c mem).1) fun c mem => (head c mem).2]
  dsimp only
  rw [Suffix.conditionals_pairs pairs suffix ends.noDigit]

/-- Behind its mark, a modifier with a count is read again.  A letter that would make another mark
of it does not follow, and neither does the rest of a word.  The same lemma serves a mark of one
letter, for which the other letters are barred, and one of two, for which none is. -/
theorem Ends.counted_append (ends : Ends context rest) {modifier : ModifierKind}
    (letters : List Char) {barred : Option Char} (other : barred ∈ [none, some 'h', some 'l'])
    {digits : List Char} (areDigits : ∀ c ∈ digits, isDigit c = true) :
    counted modifier letters barred context (digits ++ rest) =
      some (.lexeme (.modifier modifier) (countOr1 digits) none, rest) := by
  have free : (barred.isSome && rest.head? == barred) = false := by
    cases barred with
    | none => rfl
    | some b =>
      have letter : b ∈ ['h', 'l', 'i', '%'] := by
        simp only [List.mem_cons, List.not_mem_nil, or_false, reduceCtorEq, false_or,
          Option.some.injEq] at other
        rcases other with rfl | rfl <;> decide
      rw [Option.isSome_some, Bool.true_and, beq_eq_false_iff_ne]
      exact fun barred => ends.noLetter b barred letter
  unfold counted
  rw [Text.takeWhile_append_of_stops areDigits ends.noDigit,
    Text.dropWhile_append_of_stops areDigits ends.noDigit]
  dsimp only
  rw [free, ends.noWord]
  rfl

/-! ### The marks themselves

Marks overlap: one letter is the front of two, and one sign is the front of two.  For each of them
it is shown that the longer one is not read. -/

/-- One sign of an explosion makes none that combines. -/
theorem explodeCombine_of_head (other : ∀ c ∈ cs.head?, c ≠ '!') :
    explodeCombine context ('!' :: cs) = none := by
  unfold explodeCombine
  split
  · next eq =>
    obtain rfl := (List.cons.inj eq).2
    exact absurd rfl (other '!' rfl)
  · rfl

/-- After a letter with a count another letter of the mark would have been read with the first. -/
theorem Ends.head_digits (ends : Ends context rest) {digits : List Char}
    (areDigits : ∀ c ∈ digits, isDigit c = true) :
    ∀ c ∈ (digits ++ rest).head?, c ∉ ['h', 'l'] := by
  intro c mem side
  cases digits with
  | nil => exact ends.noLetter c mem (List.mem_append_left ['i', '%'] side)
  | cons d ds =>
    obtain rfl := Option.some.inj mem
    have digit := areDigits d (.head _)
    simp only [List.mem_cons, List.not_mem_nil, or_false] at side
    rcases side with rfl | rfl <;> cases digit

theorem keepHigh_of_ends (ends : Ends context rest) {digits : List Char}
    (areDigits : ∀ c ∈ digits, isDigit c = true) :
    keepHigh context ('k' :: (digits ++ rest)) =
      some (.lexeme (.modifier .keepHigh) (countOr1 digits) none, rest) := by
  unfold keepHigh
  split
  · next eq =>
    have := ends.head_digits areDigits 'h' (by rw [(List.cons.inj eq).2]; rfl)
    exact absurd this (by decide)
  · next eq =>
    rw [← (List.cons.inj eq).2]
    exact ends.counted_append ['k'] (by decide) areDigits
  · next other => exact absurd rfl (other _)

/-- With one letter and nothing behind it, a low die is dropped. -/
theorem dropLow_of_ends (ends : Ends context rest) :
    dropLow context ('d' :: rest) = some (.lexeme (.modifier .dropLow) ['1'] none, rest) := by
  unfold dropLow
  split
  · next eq =>
    have := ends.noLetter 'l' (by rw [(List.cons.inj eq).2]; rfl)
    exact absurd this (by decide)
  · next eq =>
    rw [← (List.cons.inj eq).2]
    exact ends.counted_append ['d'] (by decide) (List.forall_mem_nil fun c => isDigit c = true)
  · next other => exact absurd rfl (other _)

/-- Dice are rolled again, unless the letter begins a longer word. -/
theorem reroll_of_ends (ends : Ends context rest) {take : Take}
    (read : repeated .reroll context cs = (take, rest)) :
    reroll context ('r' :: cs) = some (take, rest) := by
  simp only [reroll, read, ends.noWord]
  rfl

/-- The rules for modifiers that come before its own refuse a mark that repeats: they look for
another sign.  An explosion has a rule before it that looks for the same sign twice, and only there
the text behind matters. -/
theorem Ends.firstMatch_repeated (ends : Ends context rest) {modifier : ModifierKind}
    {mark t : List Char} (isMark : (modifier, mark) ∈ repeatedMarks)
    (timesText : TimesText context.settings t data) (pairs : List Pair)
    (suffix : Suffix.conditional? rest = none)
    (single : modifier = .explode → ∀ c ∈ (t ++ (textAll pairs ++ rest)).head?, c ≠ '!') :
    firstMatch context (mark ++ (t ++ (textAll pairs ++ rest))) =
      some (.lexeme (.modifier modifier) data (some (pairs.filterMap Pair.conditional?)),
        rest) := by
  have repeated := ends.repeated_append modifier timesText pairs suffix
  rcases mem_repeatedMarks.1 isMark with ⟨rfl, rfl⟩ | ⟨rfl, rfl⟩ | ⟨rfl, rfl⟩
  · refine firstMatch_of_begins (.sign (by decide)) [keepHigh, dropLow, keepLow, dropHigh]
      explodeCombine rfl ?_ (congrArg some repeated)
    simp only [List.forall_mem_cons]
    exact ⟨rfl, rfl, rfl, rfl, List.forall_mem_nil _⟩
  · refine firstMatch_of_begins (.sign (by decide))
      [keepHigh, dropLow, keepLow, dropHigh, explodeCombine] explode rfl ?_
      (congrArg some repeated)
    simp only [List.forall_mem_cons]
    exact ⟨rfl, rfl, rfl, rfl, explodeCombine_of_head (single rfl), List.forall_mem_nil _⟩
  · refine firstMatch_of_begins (.sign (by decide))
      [keepHigh, dropLow, keepLow, dropHigh, explodeCombine, explode] reroll rfl ?_
      (reroll_of_ends ends repeated)
    simp only [List.forall_mem_cons]
    exact ⟨rfl, rfl, rfl, rfl, rfl, rfl, List.forall_mem_nil _⟩

/-- The rules for modifiers that come before its own refuse a mark with a count: they look for
another letter, or for the letter of another side after it. -/
theorem Ends.firstMatch_counted (ends : Ends context rest) {modifier : ModifierKind}
    {mark digits : List Char} (isMark : (modifier, mark) ∈ countedMarks)
    (areDigits : ∀ c ∈ digits, isDigit c = true) :
    firstMatch context (mark ++ (digits ++ rest)) =
      some (.lexeme (.modifier modifier) (countOr1 digits) none, rest) := by
  rcases mem_countedMarks.1 isMark with
    ⟨rfl, rfl⟩ | ⟨rfl, rfl⟩ | ⟨rfl, rfl⟩ | ⟨rfl, rfl⟩ | ⟨rfl, rfl⟩
  · exact firstMatch_of_begins (.sign (by decide)) [] keepHigh rfl (List.forall_mem_nil _)
      (ends.counted_append ['k', 'h'] (by decide) areDigits)
  · exact firstMatch_of_begins (.sign (by decide)) [] keepHigh rfl (List.forall_mem_nil _)
      (keepHigh_of_ends ends areDigits)
  · exact firstMatch_of_begins (.drop (by simp; decide)) [keepHigh] dropLow rfl
      (List.forall_mem_singleton.2 rfl) (ends.counted_append ['d', 'l'] (by decide) areDigits)
  · refine firstMatch_of_begins (.sign (by decide)) [keepHigh, dropLow] keepLow rfl ?_
      (ends.counted_append ['k', 'l'] (by decide) areDigits)
    simp only [List.forall_mem_cons]
    exact ⟨rfl, rfl, List.forall_mem_nil _⟩
  · refine firstMatch_of_begins (.drop (by simp; decide)) [keepHigh, dropLow, keepLow] dropHigh
      rfl ?_ (ends.counted_append ['d', 'h'] (by decide) areDigits)
    simp only [List.forall_mem_cons]
    exact ⟨rfl, rfl, rfl, List.forall_mem_nil _⟩

/-- The letter of dice alone is read again as a modifier, since neither faces nor a percent sign
follow. -/
theorem Ends.firstMatch_drop (ends : Ends context rest) :
    firstMatch context ('d' :: rest) = some (.lexeme (.modifier .dropLow) ['1'] none, rest) := by
  refine firstMatch_of_begins (.drop fun c mem => ⟨ends.noDigit c mem, ?_⟩) [keepHigh] dropLow
    rfl (List.forall_mem_singleton.2 rfl) (dropLow_of_ends ends)
  rintro rfl
  exact ends.noLetter '%' mem (by decide)

/-- **A modifier is read again** before another text, by a lexer of the same settings, if the text
does not go on with it.  Only those with conditionals can go on with a comparison, and only the
single sign of an explosion with another.  The settings enter by the cap alone, and which names have
values is a matter of the new text, not of the old. -/
theorem firstMatch_of_reads {again : LexContext} {modifier : ModifierKind} {w after : List Char}
    (same : again.settings = context.settings)
    (read : Reads context w after (.modifier modifier) data conditionals)
    (ends : Ends again rest) (suffix : conditionals ≠ none → Suffix.conditional? rest = none)
    (single : w = ['!'] → ∀ c ∈ rest.head?, c ≠ '!') :
    firstMatch again (w ++ rest) = some (.lexeme (.modifier modifier) data conditionals, rest) := by
  cases read with
  | @suffixed _ stem _ _ pairs isStem alone _ =>
    cases isStem with
    | @repeated _ mark t _ isMark timesText =>
      rw [← same] at timesText
      rw [List.append_assoc, List.append_assoc]
      refine ends.firstMatch_repeated isMark timesText pairs (suffix nofun) ?_
      -- The second sign would be in the part itself or stand behind it.
      rintro rfl c mem rfl
      obtain rfl : mark = ['!'] := by simpa [repeatedMarks] using isMark
      rw [← List.append_assoc] at mem
      cases part : t ++ textAll pairs with
      | nil =>
        rw [part] at mem
        exact single (by simp [part]) '!' mem rfl
      | cons d ds =>
        rw [part] at mem
        obtain rfl := Option.some.inj mem
        exact alone rfl ⟨ds ++ after, by simp [part]⟩
  | counted isMark areDigits =>
    rw [List.append_assoc]
    exact ends.firstMatch_counted isMark areDigits
  | drop => exact ends.firstMatch_drop

end Tabletop.Rule
