import Tabletop.Proofs.Expression.GroupText
import Tabletop.Proofs.Lexeme.Spaced

/-!
# Names of fields

A name that stands for a value is read as the value, and as nothing else, only if no rule before the
rule for names takes its front.  This module says which names these are (`tokenize_field_iff`).

* The rules for modifiers look at the whole word and refuse a name that has a value, unless the name
  is nothing but one modifier (`Rule.IsModifierWord`).
* The rule for dice does not: it takes `d6` from the front of every word (`Rule.beginsGroup`), and
  the value of a name such as `d6x` is never used.

A name that is not made up of dice and modifiers (`Rule.IsRun`) is no modifier, so for such a name
only the second point remains.

Both directions are about the order of the rules.  A name is taken as a name if all earlier rules
refuse it; for the rules of modifiers this is `Rule.IsField.firstMatch`, of which a name that is the
whole notation is the simplest case.  For the other direction it is enough that what an earlier rule
takes is something else, and a group of dice always has the letter of dice in its lexeme, which no
value has.
-/

namespace Tabletop

open Text (isDigit isBlank utf8Length)

namespace Rule

variable {context : LexContext} {w tail : List Char} {c : Char} {value : Float}

/-- A word of the form of a name: a letter with letters, digits and underscores behind it. -/
inductive IsName : List Char → Prop
  | intro {c : Char} {tail : List Char} (letter : c.isAlpha = true) (long : tail ≠ [])
      (word : ∀ d ∈ tail, isNameChar d = true) : IsName (c :: tail)

/-- Whether a word begins with a group of dice without a count. -/
def beginsGroup : List Char → Bool
  | d :: face :: _ => (d == 'd' || d == 'D') && isDigit face
  | _ => false

/-- A term of a notation that is written with letters and digits: dice, a number, the dice of a
stunt, or a modifier. -/
inductive IsTerm : List Char → Prop
  | group {count faces : List Char} {d : Char} (areDigits : ∀ c ∈ count, isDigit c = true)
      (letter : d = 'd' ∨ d = 'D') (areFaces : ∀ c ∈ faces, isDigit c = true)
      (either : count ≠ [] ∨ faces ≠ []) : IsTerm (count ++ d :: faces)
  | number {digits : List Char} (areDigits : ∀ c ∈ digits, isDigit c = true) : IsTerm digits
  | stunt {d : Char} (letter : d = 'd' ∨ d = 'D') : IsTerm ['1', d, 'S']
  | modifier {w : List Char} (word : IsModifierWord w) : IsTerm w
  | drop : IsTerm ['d']

/-- A word that is terms from its front to its end. -/
def IsRun (w : List Char) : Prop :=
  ∃ terms : List (List Char), (∀ t ∈ terms, IsTerm t) ∧ w = terms.flatten

/-! ## Runs

Terms are written with few letters.  A word with any other character is therefore no run, which is
how a name is shown not to be one. -/

theorem IsModifierWord.isRun (word : IsModifierWord w) : IsRun w :=
  ⟨[w], List.forall_mem_singleton.2 (.modifier word), by simp⟩

/-- Few letters stand in terms. -/
theorem IsTerm.isDigit_or_mem (term : IsTerm w) :
    ∀ c ∈ w, isDigit c = true ∨ c ∈ ['d', 'D', 'S', 'k', 'h', 'l', 'r', 'i'] := by
  have isLetter {d : Char} (letter : d = 'd' ∨ d = 'D') :
      d ∈ ['d', 'D', 'S', 'k', 'h', 'l', 'r', 'i'] := by
    rcases letter with rfl | rfl <;> decide
  cases term with
  | group areDigits letter areFaces =>
    refine List.forall_mem_append.2 ⟨fun c mem => .inl (areDigits c mem), ?_⟩
    exact List.forall_mem_cons.2 ⟨.inr (isLetter letter), fun c mem => .inl (areFaces c mem)⟩
  | number areDigits => exact fun c mem => .inl (areDigits c mem)
  | stunt letter =>
    simp only [List.forall_mem_cons]
    exact ⟨.inl rfl, .inr (isLetter letter), .inr (by decide), List.forall_mem_nil _⟩
  | modifier word =>
    cases word with
    | counted isMark areDigits =>
      refine List.forall_mem_append.2 ⟨fun c mem => .inr ?_, fun c mem => .inl (areDigits c mem)⟩
      revert c
      rcases mem_countedMarks.1 isMark with
        ⟨-, rfl⟩ | ⟨-, rfl⟩ | ⟨-, rfl⟩ | ⟨-, rfl⟩ | ⟨-, rfl⟩ <;> simp
    | reroll number =>
      refine List.forall_mem_cons.2 ⟨.inr (by decide), ?_⟩
      rcases number with rfl | areDigits
      · exact List.forall_mem_singleton.2 (.inr (by decide))
      · exact fun c mem => .inl (areDigits c mem)
  | drop => exact List.forall_mem_singleton.2 (.inr (by decide))

theorem IsRun.isDigit_or_mem (run : IsRun w) :
    ∀ c ∈ w, isDigit c = true ∨ c ∈ ['d', 'D', 'S', 'k', 'h', 'l', 'r', 'i'] := by
  obtain ⟨terms, each, rfl⟩ := run
  intro c mem
  obtain ⟨t, isTerm, inside⟩ := List.mem_flatten.1 mem
  exact (each t isTerm).isDigit_or_mem c inside

/-! ## The first rule that takes a name

A name that is the whole notation has nothing behind it, so that it is set apart trivially. -/

theorem separated_nil : Separated [] :=
  fun _ none => nomatch none

/-- White space and braces do not begin names. -/
theorem gap_of_isAlpha (letter : c.isAlpha = true) : gap context (c :: tail) = none := by
  refine gap_eq_none_iff.2 fun d mem => ?_
  obtain rfl := Option.some.inj mem
  have bounds := toNat_of_isAlpha letter
  refine ⟨Text.isBlank_of_visible (by omega) (by omega), ?_⟩
  rw [Written.isBrace, Bool.or_eq_false_iff, beq_eq_false_iff_ne, beq_eq_false_iff_ne]
  constructor <;> (rintro rfl; cases letter)

/-- Dice are taken from the front of a word, whatever the word is. -/
theorem exists_firstMatch_of_beginsGroup (context : LexContext) (name : IsName w)
    (group : beginsGroup w = true) :
    ∃ data rest, 'd' ∈ data ∧
      firstMatch context w = some (.lexeme .dice data (some []), rest) := by
  cases name with
  | @intro d tail isLetter long word =>
  obtain ⟨face, more, rfl⟩ := List.exists_cons_of_ne_nil long
  obtain ⟨letter, digit⟩ := Bool.and_eq_true_iff.1 group
  have letter : d = 'd' ∨ d = 'D' := by simpa using letter
  have areDigits : ∀ c ∈ (face :: more).takeWhile isDigit, isDigit c = true := fun _ =>
    List.mem_takeWhile_imp
  have nonempty : (face :: more).takeWhile isDigit ≠ [] := by
    rw [List.takeWhile_cons, digit]
    exact List.cons_ne_nil _ _
  have left : ∀ c ∈ ((face :: more).dropWhile isDigit).head?,
      isDigit c = false ∧ isNameChar c = true := by
    intro c mem
    refine ⟨?_, word c ((List.dropWhile_suffix _).subset (List.mem_of_head? mem))⟩
    have stopped := List.head?_dropWhile_not isDigit (face :: more)
    rw [Option.mem_def.1 mem] at stopped
    simpa using stopped
  have suffix : Suffix.conditional? ((face :: more).dropWhile isDigit) = none :=
    Suffix.conditional?_eq_none_of_head fun c mem => not_mem_signs_of_isNameChar (left c mem).2
  have stops : ∀ c ∈ ((face :: more).dropWhile isDigit).head?,
      isDigit c = false ∧ c ∉ ['%', '[', '#'] := by
    refine fun c mem => ⟨(left c mem).1, fun sign => ?_⟩
    have inName := (left c mem).2
    simp only [List.mem_cons, List.not_mem_nil, or_false] at sign
    rcases sign with rfl | rfl | rfl <;> cases inName
  have whole : d :: face :: more =
      [] ++ d :: ((face :: more).takeWhile isDigit ++
        (Suffix.textAll [] ++ (face :: more).dropWhile isDigit)) := by
    rw [Suffix.textAll, List.flatMap_nil, List.nil_append, List.nil_append,
      List.takeWhile_append_dropWhile]
  have noGap : gap context (d :: face :: more) = none := gap_of_isAlpha isLetter
  rw [whole] at noGap ⊢
  refine ⟨_, _, ?_, firstMatch_of_group [] (List.forall_mem_nil _) letter
    (.digits nonempty areDigits) (.inl (Option.some_ne_none _)) suffix stops noGap⟩
  exact List.mem_append_right _ (.head _)

/-- **Which names are taken as names**: all that are no modifier and do not begin with dice. -/
theorem firstMatch_field_iff (name : IsName w)
    (known : context.fields (String.ofList w) = some value) :
    firstMatch context w = some (.lexeme .dice (Decimal.plain value).toList (some []), []) ↔
      ¬ IsModifierWord w ∧ beginsGroup w = false := by
  constructor
  · intro found
    refine ⟨fun modifier => ?_, Bool.eq_false_iff.2 fun group => ?_⟩
    · obtain ⟨_, _, _, other⟩ := firstMatch_of_isModifierWord context modifier separated_nil
      rw [List.append_nil, found] at other
      cases other
    · obtain ⟨data, rest, letter, other⟩ := exists_firstMatch_of_beginsGroup context name group
      rw [found] at other
      obtain ⟨taken, -⟩ := Prod.mk.inj (Option.some.inj other)
      obtain ⟨-, rfl, -⟩ := Take.lexeme.inj taken
      exact Decimal.not_mem_plain value letter
  · rintro ⟨noModifier, noDice⟩
    cases name with
    | @intro c tail letter long word =>
    have noGroup : c = 'd' ∨ c = 'D' → ∀ d ∈ tail.head?, isDigit d = false := by
      intro isLetter d mem
      obtain ⟨e, es, rfl⟩ := List.exists_cons_of_ne_nil long
      obtain rfl := Option.some.inj mem
      have isLetter : (c == 'd' || c == 'D') = true := by simpa using isLetter
      rwa [beginsGroup, isLetter, Bool.true_and] at noDice
    have field : IsField context c tail value := ⟨letter, long, word, noGroup, known⟩
    have noGap : gap context (c :: (tail ++ [])) = none := gap_of_isAlpha letter
    have taken := field.firstMatch noModifier separated_nil noGap
    rwa [List.append_nil] at taken

end Rule

/-! ## Names as notations

The lexer is at the end after one lexeme, so that what it returns is what the first rule takes. -/

/-- The lexeme of a notation that is the name of a field. -/
def Lexeme.ofField (name : String) (value : Float) : Lexeme :=
  ⟨.dice, Decimal.plain value, name, some [], ⟨0, utf8Length name.toList⟩⟩

/-- **Names that have a value.**  Such a name is read as its value and nothing else exactly if it is
no modifier and does not begin with dice.  If it is not made up of dice and modifiers, the dice at
its front are all that can keep it from being read. -/
theorem tokenize_field_iff {context : LexContext} {name : String} {value : Float}
    (isName : Rule.IsName name.toList)
    (known : context.fields name = some value) :
    (tokenize context name = .ok [.ofField name value] ↔
      ¬ Rule.IsModifierWord name.toList ∧ Rule.beginsGroup name.toList = false) ∧
    (¬ Rule.IsRun name.toList →
      (tokenize context name = .ok [.ofField name value] ↔
        Rule.beginsGroup name.toList = false)) := by
  rw [← String.ofList_toList (s := name)] at known
  have taken := Rule.firstMatch_field_iff isName known
  have read : tokenize context name = .ok [.ofField name value] ↔
      ¬ Rule.IsModifierWord name.toList ∧ Rule.beginsGroup name.toList = false := by
    have one : tokenize context name = .ok [.ofField name value] ↔
        (Lexeme.ofField name value).TakenBefore context [] := tokenize_eq_singleton_iff rfl rfl
    rw [one, ← taken, Lexeme.TakenBefore, List.append_nil]
    rfl
  refine ⟨read, fun noRun => read.trans ?_⟩
  exact and_iff_right fun word => noRun word.isRun

/-- A name that begins with two modifiers, which are not all of it. -/
theorem tokenize_field_iff_rkl :
    let context : LexContext := ⟨{}, fun name => if name = "rkl_2" then some 4 else none⟩
    Rule.IsName "rkl_2".toList ∧ context.fields "rkl_2" = some 4 ∧ ¬ Rule.IsRun "rkl_2".toList ∧
      tokenize context "rkl_2" = .ok [⟨.dice, "4", "rkl_2", some [], ⟨0, 5⟩⟩] := by
  intro context
  have chars : "rkl_2".toList = ['r', 'k', 'l', '_', '2'] := by cbv
  have word : ∀ d ∈ ['k', 'l', '_', '2'], Rule.isNameChar d = true := by simp [Rule.isNameChar]
  have isName : Rule.IsName "rkl_2".toList := chars ▸ .intro rfl (List.cons_ne_nil _ _) word
  have known : context.fields "rkl_2" = some 4 := by simp [context]
  have noRun : ¬ Rule.IsRun "rkl_2".toList := fun run => by
    rcases run.isDigit_or_mem '_' (by decide) with digit | mem
    · cases digit
    · exact absurd mem (by decide)
  have read := ((tokenize_field_iff isName known).2 noRun).2 rfl
  have four : Decimal.plain 4 = "4" := by decide +kernel
  have size : utf8Length "rkl_2".toList = 5 := by cbv
  rw [Lexeme.ofField, four, size] at read
  exact ⟨isName, known, noRun, read⟩

/-- **A value that is not used:** the lexer takes the die from the front of the name and then
stands before a letter that nothing begins with. -/
theorem tokenize_field_lost :
    let context : LexContext := ⟨{}, fun name => if name = "d6x" then some 2 else none⟩
    Rule.IsName "d6x".toList ∧ context.fields "d6x" = some 2 ∧ ¬ Rule.IsRun "d6x".toList ∧
      tokenize context "d6x" = .error ⟨2, "x"⟩ := by
  intro context
  have noRun : ¬ Rule.IsRun "d6x".toList := fun run => by
    rcases run.isDigit_or_mem 'x' (by decide) with digit | mem
    · cases digit
    · exact absurd mem (by decide)
  have chars : "d6x".toList = ['d', '6', 'x'] := by cbv
  have word : ∀ d ∈ ['6', 'x'], Rule.isNameChar d = true := by simp [Rule.isNameChar]
  have isName : Rule.IsName "d6x".toList := chars ▸ .intro rfl (List.cons_ne_nil _ _) word
  exact ⟨isName, by simp [context], noRun, by cbv⟩

end Tabletop
