import Tabletop.Proofs.Lexeme.Pair

/-!
# How lexemes are written

A lexeme is read from a part of the text, and what it is depends on that part alone.  This module
says which parts there are, without the rules and their order.

* `Rule.Stem` — what stands before a conditional suffix: dice, or a modifier with its repetitions;
* `Rule.Reads` — every way in which a lexeme that is no reference is written, with what it says and
  with what must not follow it;
* `Rule.reads_of_firstMatch` — whatever the rules read is written in one of these ways.

Two rules cannot be understood without those before them.  A `d` is a drop only where it makes no
dice, and then no digit follows it; and the sign of an explosion is not followed by another, since
then it would have been the other mark.  For both the inversion needs what an earlier rule refused.

For each rule there is one inversion, from the fact that it took something to one of the ways of
`Reads`.  They are put together in `reads_of_firstMatch` by splitting the rules where one of those
two stands: before it, at it, and after it with the knowledge that it refused.
-/

namespace Tabletop.Rule

open Text (isDigit)
open Suffix (Pair textAll)

/-! ## The ways of writing

A way of writing says nothing about the rules.  What it says about the text behind it is only what
is needed to tell one lexeme from a longer one. -/

/-- How faces are written, and the digits that are read.  Without them the number in the settings
stands, and a percent sign stands for a hundred. -/
inductive FacesText : List Char → Option (List Char) → Prop
  | missing : FacesText [] none
  | percent : FacesText ['%'] (some ['1', '0', '0'])
  | digits {digits : List Char} (nonempty : digits ≠ [])
      (areDigits : ∀ c ∈ digits, isDigit c = true) : FacesText digits (some digits)

/-- How a number of repetitions is written, and the digits that are read.  Without digits a modifier
acts once, and the letter of the cap stands for the number in the settings. -/
inductive TimesText (settings : Settings) : List Char → List Char → Prop
  | cap : TimesText settings ['i'] (Nat.toDigits 10 settings.unboundedCap.toNat)
  | digits {digits : List Char} (areDigits : ∀ c ∈ digits, isDigit c = true) :
      TimesText settings digits (countOr1 digits)

/-- What a group of dice says, with what the settings say where a number is missing.  The lexeme
says this text, and the parser reads the numbers from it; so a missing number is already filled in
here. -/
def groupData (settings : Settings) (count : List Char) (faces : Option (List Char)) : List Char :=
  (if count.isEmpty then Nat.toDigits 10 settings.defaultRoll.toNat else count) ++
    'd' :: faces.getD (Nat.toDigits 10 settings.defaultFace.toNat)

/-- The modifiers that take repetitions and conditionals, and their marks. -/
def repeatedMarks : List (ModifierKind × List Char) :=
  [(.explodeCombine, ['!', '!']), (.explode, ['!']), (.reroll, ['r'])]

/-- The modifiers that take a count, and their marks.  There is one more mark, the `d` alone, but a
count behind it makes it a group of dice. -/
def countedMarks : List (ModifierKind × List Char) :=
  [(.keepHigh, ['k', 'h']), (.keepHigh, ['k']), (.dropLow, ['d', 'l']), (.keepLow, ['k', 'l']),
    (.dropHigh, ['d', 'h'])]

theorem mem_repeatedMarks {kind : ModifierKind} {mark : List Char} :
    (kind, mark) ∈ repeatedMarks ↔ kind = .explodeCombine ∧ mark = ['!', '!'] ∨
      kind = .explode ∧ mark = ['!'] ∨ kind = .reroll ∧ mark = ['r'] := by
  simp [repeatedMarks]

/-- The marks of modifiers with a count, one by one. -/
theorem mem_countedMarks {kind : ModifierKind} {mark : List Char} :
    (kind, mark) ∈ countedMarks ↔ kind = .keepHigh ∧ mark = ['k', 'h'] ∨
      kind = .keepHigh ∧ mark = ['k'] ∨ kind = .dropLow ∧ mark = ['d', 'l'] ∨
      kind = .keepLow ∧ mark = ['k', 'l'] ∨ kind = .dropHigh ∧ mark = ['d', 'h'] := by
  simp [countedMarks]

/-- What stands before a conditional suffix, with its kind and what it says.  A group has a count or
faces: the letter alone is a modifier, if anything. -/
inductive Stem (settings : Settings) : LexemeKind → (stem data : List Char) → Prop
  | group {count faces : List Char} {d : Char} {m : Option (List Char)}
      (areDigits : ∀ c ∈ count, isDigit c = true) (letter : d = 'd' ∨ d = 'D')
      (read : FacesText faces m) (either : count ≠ [] ∨ m ≠ none) :
      Stem settings .dice (count ++ d :: faces) (groupData settings count m)
  | repeated {kind : ModifierKind} {mark times data : List Char}
      (isMark : (kind, mark) ∈ repeatedMarks) (read : TimesText settings times data) :
      Stem settings (.modifier kind) (mark ++ times) data

/-- **The ways in which lexemes are written**, references apart.  `Reads context w rest kind data
conditionals`: the text `w`, before the text `rest`, is a lexeme of this kind that says this.  What
must not follow is said with it: a further pair behind conditionals, and a digit behind a `d` that
begins a name.

The ways do not exclude one another, and need not: this is what is known of a lexeme after it has
been read, and not how to read one. -/
inductive Reads (context : LexContext) : (w rest : List Char) → LexemeKind → (data : List Char) →
    Option (List Conditional) → Prop
  | suffixed {rest stem data : List Char} {kind : LexemeKind} {pairs : List Pair}
      (isStem : Stem context.settings kind stem data)
      (single : kind = .modifier .explode → ¬ ['!', '!'] <+: stem ++ textAll pairs ++ rest)
      (ends : Suffix.conditional? rest = none) :
      Reads context (stem ++ textAll pairs) rest kind data
        (some (pairs.filterMap Pair.conditional?))
  | number {rest digits : List Char} (nonempty : digits ≠ [])
      (areDigits : ∀ c ∈ digits, isDigit c = true) :
      Reads context digits rest .dice digits (some [])
  | field {rest tail : List Char} {c : Char} {value : Float} (letter : c.isAlpha = true)
      (long : tail ≠ []) (word : ∀ d ∈ tail, isNameChar d = true)
      (noGroup : c = 'd' ∨ c = 'D' → ∀ d ∈ tail.head?, isDigit d = false)
      (known : context.fields (String.ofList (c :: tail)) = some value) :
      Reads context (c :: tail) rest .dice (Decimal.plain value).toList (some [])
  | sign {rest : List Char} {c : Char} (isSign : c ∈ ['-', '+', '*', '/', '^', '(', ')']) :
      Reads context [c] rest .math [c] none
  | stunt {rest : List Char} {d : Char} (letter : d = 'd' ∨ d = 'D') :
      Reads context ['1', d, 'S'] rest .stunt ['1'] (some [])
  | counted {rest mark digits : List Char} {kind : ModifierKind}
      (isMark : (kind, mark) ∈ countedMarks) (areDigits : ∀ c ∈ digits, isDigit c = true) :
      Reads context (mark ++ digits) rest (.modifier kind) (countOr1 digits) none
  | drop {rest : List Char} : Reads context ['d'] rest (.modifier .dropLow) ['1'] none

/-! ## Characters of names

Letters, digits and signs exclude one another. -/

theorem not_mem_signs_of_isNameChar {c : Char} (word : isNameChar c = true) :
    c ∉ ['=', '!', '>', '<'] := by
  intro mem
  simp only [List.mem_cons, List.not_mem_nil, or_false] at mem
  rcases mem with rfl | rfl | rfl | rfl <;> cases word

theorem isNameChar_of_isAlpha {c : Char} (letter : c.isAlpha = true) : isNameChar c = true := by
  simp [isNameChar, Char.isAlphanum, letter]

/-- Letters are those of ASCII; other facts about them go through these bounds.  The digits of other
scripts lie above them. -/
theorem toNat_of_isAlpha {c : Char} (letter : c.isAlpha = true) : 65 ≤ c.toNat ∧ c.toNat ≤ 122 := by
  -- An upper case letter is below the lower case ones, and the bounds are those of both ranges.
  rcases Bool.or_eq_true_iff.1 letter with upper | lower
  · have range : 'A'.val ≤ c.val ∧ c.val ≤ 'Z'.val := of_decide_eq_true upper
    exact ⟨UInt32.le_iff_toNat_le.1 range.1,
      Nat.le_trans (UInt32.le_iff_toNat_le.1 range.2) (by decide)⟩
  · obtain ⟨first, last⟩ := Bool.and_eq_true_iff.1 lower
    exact ⟨Nat.le_trans (by decide) (UInt32.le_iff_toNat_le.1 (of_decide_eq_true first)),
      UInt32.le_iff_toNat_le.1 (of_decide_eq_true last)⟩

theorem isDigit_eq_false_of_isAlpha {c : Char} (letter : c.isAlpha = true) :
    isDigit c = false := by
  have bounds := toNat_of_isAlpha letter
  rw [Text.isDigit, if_pos (by omega), Bool.eq_false_iff]
  intro digit
  have small := (Char.isDigit_iff_toNat.1 digit).2
  have nine : '9'.toNat = 57 := rfl
  omega

/-! ## What the rules read

In the order of the rules, each by the cases of its definition. -/

variable {context : LexContext} {cs rest data : List Char} {kind : LexemeKind}
  {conditionals : Option (List Conditional)}

theorem exists_facesText (cs : List Char) :
    ∃ f, cs = f ++ (faces cs).2 ∧ FacesText f (faces cs).1 := by
  unfold faces
  split
  · exact ⟨['%'], rfl, .percent⟩
  · refine ⟨cs.takeWhile isDigit, List.takeWhile_append_dropWhile.symm, ?_⟩
    dsimp only
    split
    · next none =>
      rw [List.isEmpty_iff.1 none]
      exact .missing
    · next some =>
      exact .digits (mt List.isEmpty_iff.2 some) fun c mem => List.mem_takeWhile_imp mem

/-- What is read as repetitions is written as repetitions.  Any other character, the cap apart, is
left where it is. -/
theorem exists_timesText (settings : Settings) (cs : List Char) :
    ∃ t, cs = t ++ (times settings cs).2 ∧ TimesText settings t (times settings cs).1 := by
  unfold times
  split
  · exact ⟨['i'], rfl, .cap⟩
  · exact ⟨cs.takeWhile isDigit, List.takeWhile_append_dropWhile.symm,
      .digits fun c mem => List.mem_takeWhile_imp mem⟩

/-- The rule of dice takes a count, the letter, faces and all pairs that follow.  It has accepted
them only if there is a count or there are faces.  What stands behind the letter is cut twice, into
faces and pairs, and the last step puts the three parts together. -/
theorem reads_of_dice (h : dice context cs = some (.lexeme kind data conditionals, rest)) :
    ∃ w, cs = w ++ rest ∧ Reads context w rest kind data conditionals := by
  unfold dice at h
  split at h
  · next d after left =>
    split at h
    · next letter =>
      dsimp only at h
      split at h
      · cases h
      · next accepted =>
        simp only [Option.some.injEq, Prod.mk.injEq, Take.lexeme.injEq] at h
        obtain ⟨⟨rfl, rfl, rfl⟩, rfl⟩ := h
        obtain ⟨f, whole, facesText⟩ := exists_facesText after
        obtain ⟨pairs, suffix, values, ends⟩ := Suffix.exists_pairs (faces after).2
        have letter : d = 'd' ∨ d = 'D' := by simpa using letter
        have either : cs.takeWhile isDigit ≠ [] ∨ (faces after).1 ≠ none := by
          by_cases none : cs.takeWhile isDigit = []
          · refine .inr fun missing => ?_
            simp [none, missing] at accepted
          · exact .inl none
        have stem : Stem context.settings _ _ _ :=
          .group (fun c mem => List.mem_takeWhile_imp mem) letter facesText either
        generalize Suffix.conditionals (faces after).2 = taken at suffix values ends ⊢
        rw [values]
        refine ⟨_, ?_, .suffixed stem nofun ends⟩
        calc cs = cs.takeWhile isDigit ++ d :: after := by
              rw [← left, List.takeWhile_append_dropWhile]
          _ = cs.takeWhile isDigit ++ d :: (f ++ (textAll pairs ++ taken.2)) := by
              rw [whole, suffix]
          _ = cs.takeWhile isDigit ++ d :: f ++ textAll pairs ++ taken.2 := by simp
    · cases h
  · cases h

/-- The rule of integers takes digits, and at least one. -/
theorem reads_of_integer (h : integer context cs = some (.lexeme kind data conditionals, rest)) :
    ∃ w, cs = w ++ rest ∧ Reads context w rest kind data conditionals := by
  unfold integer at h
  dsimp only at h
  split at h
  · cases h
  · next accepted =>
    simp only [Option.some.injEq, Prod.mk.injEq, Take.lexeme.injEq] at h
    obtain ⟨⟨rfl, rfl, rfl⟩, rfl⟩ := h
    refine ⟨_, List.takeWhile_append_dropWhile.symm, .number ?_ ?_⟩
    · intro none
      simp [none] at accepted
    · exact fun c mem => List.mem_takeWhile_imp mem

/-- The rule of signs takes one of seven characters. -/
theorem reads_of_math (h : math context cs = some (.lexeme kind data conditionals, rest)) :
    ∃ w, cs = w ++ rest ∧ Reads context w rest kind data conditionals := by
  unfold math at h
  split at h
  · next c after =>
    split at h
    · next sign =>
      simp only [Option.some.injEq, Prod.mk.injEq, Take.lexeme.injEq] at h
      obtain ⟨⟨rfl, rfl, rfl⟩, rfl⟩ := h
      exact ⟨[c], rfl, .sign sign⟩
    · cases h
  · cases h

/-- The rule of stunts takes a one, the letter of dice and an `S`. -/
theorem reads_of_stunt (h : stunt context cs = some (.lexeme kind data conditionals, rest)) :
    ∃ w, cs = w ++ rest ∧ Reads context w rest kind data conditionals := by
  unfold stunt at h
  split at h
  · next d after =>
    split at h
    · next letter =>
      simp only [Option.some.injEq, Prod.mk.injEq, Take.lexeme.injEq] at h
      obtain ⟨⟨rfl, rfl, rfl⟩, rfl⟩ := h
      exact ⟨['1', d, 'S'], rfl, .stunt (by simpa using letter)⟩
    · cases h
  · cases h

/-! ### Modifiers

Two functions make all of them, one for counts and one for repetitions, so two of the inversions do
the work. -/

/-- Behind its mark, a modifier with a count takes digits.  This serves five rules.  What it must
not be followed by was asked when it was read, and is not recorded here. -/
theorem reads_of_counted {modifier : ModifierKind} {mark after : List Char} {barred : Option Char}
    (isMark : (modifier, mark) ∈ countedMarks)
    (h : counted modifier mark barred context after =
      some (.lexeme kind data conditionals, rest)) :
    ∃ w, mark ++ after = w ++ rest ∧ Reads context w rest kind data conditionals := by
  unfold counted at h
  dsimp only at h
  split at h
  · cases h
  · simp only [Option.some.injEq, Prod.mk.injEq, Take.lexeme.injEq] at h
    obtain ⟨⟨rfl, rfl, rfl⟩, rfl⟩ := h
    refine ⟨mark ++ after.takeWhile isDigit, ?_, ?_⟩
    · rw [List.append_assoc, List.takeWhile_append_dropWhile]
    · exact .counted isMark fun c mem => List.mem_takeWhile_imp mem

theorem reads_of_keepHigh (h : keepHigh context cs = some (.lexeme kind data conditionals, rest)) :
    ∃ w, cs = w ++ rest ∧ Reads context w rest kind data conditionals := by
  unfold keepHigh at h
  split at h
  · exact reads_of_counted (by decide) h
  · exact reads_of_counted (by decide) h
  · cases h

theorem reads_of_keepLow (h : keepLow context cs = some (.lexeme kind data conditionals, rest)) :
    ∃ w, cs = w ++ rest ∧ Reads context w rest kind data conditionals := by
  unfold keepLow at h
  split at h
  · exact reads_of_counted (by decide) h
  · cases h

theorem reads_of_dropHigh (h : dropHigh context cs = some (.lexeme kind data conditionals, rest)) :
    ∃ w, cs = w ++ rest ∧ Reads context w rest kind data conditionals := by
  unfold dropHigh at h
  split at h
  · exact reads_of_counted (by decide) h
  · cases h

/-- A letter that the rule for dice refuses has no faces behind it.  With a digit there, they would
have been faces, and dice with faces are accepted. -/
theorem isDigit_head_of_dice {d : Char} {after : List Char} (letter : d = 'd' ∨ d = 'D')
    (refused : dice context (d :: after) = none) : ∀ c ∈ after.head?, isDigit c = false := by
  intro c mem
  rw [Bool.eq_false_iff]
  intro digit
  obtain ⟨after, rfl⟩ : ∃ cs, after = c :: cs := by
    cases after with
    | nil => cases mem
    | cons x cs =>
      obtain rfl := Option.some.inj mem
      exact ⟨cs, rfl⟩
  have notPercent : c ≠ '%' := by
    rintro rfl
    cases digit
  have some : (faces (c :: after)).1 ≠ none := by
    unfold faces
    split
    · next eq => exact absurd (List.cons.inj eq).1 notPercent
    · simp [digit]
  have notDigit : isDigit d = false := by rcases letter with rfl | rfl <;> rfl
  have isLetter : (d == 'd' || d == 'D') = true := by simpa using letter
  have skips : (d :: c :: after).dropWhile isDigit = d :: c :: after := by
    rw [List.dropWhile_cons, if_neg (by rw [notDigit]; exact Bool.false_ne_true)]
  unfold dice at refused
  rw [skips] at refused
  simp [isLetter, some] at refused

/-- The rule for dropping low dice, where dice have been refused: its shorter mark then has no
digits behind it.  That is why `Reads.drop` has a constructor without a count. -/
theorem reads_of_dropLow (noDice : dice context cs = none)
    (h : dropLow context cs = some (.lexeme kind data conditionals, rest)) :
    ∃ w, cs = w ++ rest ∧ Reads context w rest kind data conditionals := by
  unfold dropLow at h
  split at h
  · exact reads_of_counted (by decide) h
  · next after _ =>
    have none : after.takeWhile isDigit = [] :=
      Text.takeWhile_of_stops (isDigit_head_of_dice (.inl rfl) noDice)
    have all : after.dropWhile isDigit = after :=
      Text.dropWhile_of_stops (isDigit_head_of_dice (.inl rfl) noDice)
    unfold counted at h
    rw [none, all] at h
    dsimp only at h
    split at h
    · cases h
    · simp only [Option.some.injEq, Prod.mk.injEq, Take.lexeme.injEq] at h
      obtain ⟨⟨rfl, rfl, rfl⟩, rfl⟩ := h
      exact ⟨['d'], rfl, .drop⟩
  · cases h

/-- Behind its mark, a modifier that repeats takes repetitions and all pairs that follow.  This
serves three rules. -/
theorem reads_of_repeated {modifier : ModifierKind} {mark after : List Char}
    (isMark : (modifier, mark) ∈ repeatedMarks)
    (single : modifier = .explode → ¬ ['!', '!'] <+: mark ++ after)
    (h : repeated modifier context after = (.lexeme kind data conditionals, rest)) :
    ∃ w, mark ++ after = w ++ rest ∧ Reads context w rest kind data conditionals := by
  unfold repeated at h
  dsimp only at h
  simp only [Prod.mk.injEq, Take.lexeme.injEq] at h
  obtain ⟨⟨rfl, rfl, rfl⟩, rfl⟩ := h
  obtain ⟨t, whole, timesText⟩ := exists_timesText context.settings after
  obtain ⟨pairs, suffix, values, ends⟩ := Suffix.exists_pairs (times context.settings after).2
  generalize Suffix.conditionals (times context.settings after).2 = taken at suffix values ends ⊢
  have cut : mark ++ after = mark ++ t ++ textAll pairs ++ taken.2 := by
    calc mark ++ after = mark ++ (t ++ (textAll pairs ++ taken.2)) := by rw [whole, suffix]
      _ = mark ++ t ++ textAll pairs ++ taken.2 := by simp
  rw [values]
  refine ⟨_, cut, .suffixed (.repeated isMark timesText) (fun is => ?_) ends⟩
  rw [← cut]
  exact single (LexemeKind.modifier.inj is)

theorem reads_of_explodeCombine
    (h : explodeCombine context cs = some (.lexeme kind data conditionals, rest)) :
    ∃ w, cs = w ++ rest ∧ Reads context w rest kind data conditionals := by
  unfold explodeCombine at h
  split at h
  · have isMark : (.explodeCombine, ['!', '!']) ∈ repeatedMarks := by decide
    exact reads_of_repeated isMark nofun (Option.some.inj h)
  · cases h

/-- The rule for explosions, where those that combine have been refused: no second sign follows the
first.  With a second one the rule before it would have taken both. -/
theorem reads_of_explode (notCombined : explodeCombine context cs = none)
    (h : explode context cs = some (.lexeme kind data conditionals, rest)) :
    ∃ w, cs = w ++ rest ∧ Reads context w rest kind data conditionals := by
  unfold explode at h
  split at h
  · next after =>
    have isMark : (.explode, ['!']) ∈ repeatedMarks := by decide
    refine reads_of_repeated isMark (fun _ => ?_) (Option.some.inj h)
    rintro ⟨more, eq⟩
    obtain ⟨-, rfl⟩ := List.cons.inj eq
    cases notCombined
  · cases h

/-- The rule for rolling again.  That it refuses the beginning of a longer word is of no use here.
It matters where a lexeme is read again before another text. -/
theorem reads_of_reroll (h : reroll context cs = some (.lexeme kind data conditionals, rest)) :
    ∃ w, cs = w ++ rest ∧ Reads context w rest kind data conditionals := by
  unfold reroll at h
  split at h
  · dsimp only at h
    split at h
    · cases h
    · have isMark : (.reroll, ['r']) ∈ repeatedMarks := by decide
      exact reads_of_repeated isMark nofun (Option.some.inj h)
  · cases h

/-- The rule of names, where dice have been refused: a name that begins with the letter of dice goes
on with something else than a digit. -/
theorem reads_of_name (noDice : dice context cs = none)
    (h : name context cs = some (.lexeme kind data conditionals, rest)) :
    ∃ w, cs = w ++ rest ∧ Reads context w rest kind data conditionals := by
  unfold name at h
  split at h
  · next c after =>
    dsimp only at h
    split at h
    · next word =>
      rw [Bool.and_eq_true, Bool.not_eq_true', List.isEmpty_eq_false_iff] at word
      split at h
      · next value known =>
        simp only [Option.some.injEq, Prod.mk.injEq, Take.lexeme.injEq] at h
        obtain ⟨⟨rfl, rfl, rfl⟩, rfl⟩ := h
        refine ⟨c :: after.takeWhile isNameChar, ?_, .field word.1 word.2 ?_ ?_ known⟩
        · rw [List.cons_append, List.takeWhile_append_dropWhile]
        · exact fun d mem => List.mem_takeWhile_imp mem
        · intro letter d mem
          refine isDigit_head_of_dice letter noDice d ?_
          obtain ⟨e, es, rfl⟩ : ∃ e es, after = e :: es := by
            cases after with
            | nil => cases mem
            | cons e es => exact ⟨e, es, rfl⟩
          rw [List.takeWhile_cons] at mem
          split at mem
          · exact mem
          · cases mem
      · cases h
    · cases h
  · cases h

/-! ### All rules

The rules are tried in their order, and the first that takes something decides. -/

/-- The rules before that for dice leave something out or make a reference. -/
theorem exists_reference_of_mem_take {rule : Rule} (mem : rule ∈ all.take 4)
    (h : rule context cs = some (.lexeme kind data conditionals, rest)) :
    ∃ document, kind = .reference document := by
  -- A gap is no lexeme, and the other three make nothing but references.
  simp only [all, List.take, List.mem_cons, List.not_mem_nil, or_false] at mem
  rcases mem with rfl | rfl | rfl | rfl
  · unfold gap at h
    grind
  · unfold table at h
    grind
  · unfold note at h
    grind
  · unfold tag at h
    grind

/-- Either a rule takes something, or one before it does, or it refuses and one after it does.
Splitting at a rule is how later rules learn what it refused. -/
theorem taken_of_firstMatch {taken : Take × List Char} (front : List Rule) (rule : Rule)
    {back : List Rule} (rules : all = front ++ rule :: back)
    (h : firstMatch context cs = some taken) :
    (∃ other ∈ front, other context cs = some taken) ∨ rule context cs = some taken ∨
      rule context cs = none ∧ ∃ other ∈ back, other context cs = some taken := by
  unfold firstMatch at h
  rw [rules, List.findSome?_append, List.findSome?_cons] at h
  -- The first rule that takes something decides, so the list is searched up to the rule and then
  -- on.
  cases first : front.findSome? (· context cs) with
  | some other =>
    rw [first] at h
    obtain ⟨other, mem, found⟩ := List.exists_of_findSome?_eq_some first
    exact .inl ⟨other, mem, found.trans h⟩
  | none =>
    rw [first, Option.none_or] at h
    split at h
    · next found => exact .inr (.inl (found.trans h))
    · next refused => exact .inr (.inr ⟨refused, List.exists_of_findSome?_eq_some h⟩)

/-- **What the rules read is written in one of the ways**, unless it is a reference.  The rules are
split at that of dice first, since two of the later rules need that it refused. -/
theorem reads_of_firstMatch (plain : ∀ document, kind ≠ .reference document)
    (h : firstMatch context cs = some (.lexeme kind data conditionals, rest)) :
    ∃ w, cs = w ++ rest ∧ Reads context w rest kind data conditionals := by
  rcases taken_of_firstMatch (all.take 4) dice rfl h with
    ⟨other, mem, found⟩ | found | ⟨noDice, -⟩
  · obtain ⟨document, eq⟩ := exists_reference_of_mem_take mem found
    exact absurd eq (plain document)
  · exact reads_of_dice found
  rcases taken_of_firstMatch (all.take 12) explodeCombine rfl h with
    ⟨other, mem, found⟩ | found | ⟨notCombined, other, mem, found⟩
  · simp only [all, List.take, List.mem_cons, List.not_mem_nil, or_false] at mem
    rcases mem with rfl | rfl | rfl | rfl | rfl | rfl | rfl | rfl | rfl | rfl | rfl | rfl
    iterate 4
      obtain ⟨document, eq⟩ := exists_reference_of_mem_take (by simp [all]) found
      exact absurd eq (plain document)
    · exact reads_of_dice found
    · exact reads_of_integer found
    · exact reads_of_math found
    · exact reads_of_stunt found
    · exact reads_of_keepHigh found
    · exact reads_of_dropLow noDice found
    · exact reads_of_keepLow found
    · exact reads_of_dropHigh found
  · exact reads_of_explodeCombine found
  · simp only [List.mem_cons, List.not_mem_nil, or_false] at mem
    rcases mem with rfl | rfl | rfl
    · exact reads_of_explode notCombined found
    · exact reads_of_reroll found
    · exact reads_of_name noDice found

end Tabletop.Rule
