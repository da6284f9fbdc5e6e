import Tabletop.Proofs.Decimal.Integer
import Tabletop.Proofs.Expression.Climbing
import Tabletop.Proofs.Expression.Terminal
import Tabletop.Proofs.Lexeme.Reread
import Tabletop.Proofs.Lexeme.Taken

/-!
# Groups of dice in canonical form

A group of dice has a text in canonical form, and this text is read as the same group: its count,
its faces, its conditionals and its modifiers in their order.  The exception is an explosion that
happens once, since its sign is the first half of another sign (`Modifier.Plain`).

* `Follows` — what may stand after a group or a modifier in such a text;
* `Conditional.pair` — a conditional as a pair of a suffix, in the spelling it is displayed in;
* `Rule.firstMatch_modifier`, `Rule.firstMatch_groupText` — the first lexeme of a text that goes on
  so;
* `scan_modifiers` — the modifiers of a text, by induction on them;
* `DiceGroup.ofLexemes_text` — the group.

### Where one thing ends

No part of the text says how long it is.  A number ends where no digit follows, the conditionals
end where no comparison follows, and a letter is a modifier only where no longer word begins.  So
every part is read under the assumption `Follows` about the text after it, and each has to provide
the assumption for the part before it.  It holds of everything that a plain modifier begins with
(`Modifier.follows_text`), and nothing else about the next modifier is needed: which letters come
second is settled by the order of the rules.
-/

namespace Tabletop

open Text (isDigit)

/-- What may stand after a group of dice or a modifier in canonical form: the first letter of a
modifier, or the sign of an explosion, which is not the first of the two signs of a comparison. -/
inductive Follows : List Char → Prop
  | nil : Follows []
  | letter {c : Char} {cs : List Char} (letter : c ∈ ['k', 'd', 'r']) : Follows (c :: cs)
  | explosion {cs : List Char} (other : cs.head? ≠ some '=') : Follows ('!' :: cs)

theorem Follows.head {rest : List Char} (follows : Follows rest) :
    ∀ c ∈ rest.head?, c ∈ ['k', 'd', 'r', '!'] := by
  rintro c mem
  cases follows with
  | nil => cases mem
  | letter letter =>
    obtain rfl := Option.some.inj mem
    exact List.mem_append_left ['!'] letter
  | explosion =>
    obtain rfl := Option.some.inj mem
    decide

/-! ## Conditionals

The texts of conditionals are texts of pairs, so that the lemmas on pairs apply to them. -/

namespace Conditional

/-- A conditional as a pair of a suffix.  The comparison is spelled in the first way that it has,
and the number as it is written. -/
def pair (c : Conditional) : Suffix.Pair where
  comparison := c.comparison
  sign := c.comparison.text.toList
  spelled := by cases c.comparison <;> exact .head _
  negative := decide (c.comparer.toInt < 0)
  digits := Nat.toDigits 10 c.comparer.toInt.natAbs
  nonempty := Nat.toDigits_ne_nil
  areDigits := Text.isDigit_toDigits

theorem text_pair (c : Conditional) : c.pair.text = c.text.toList := by
  rw [text, String.toList_append, Decimal.toList_ofInt]
  simp only [Suffix.Pair.text, pair, decide_eq_true_eq]
  split <;> rfl

/-- The pair has the conditional, since its digits are those of ASCII and its number fits. -/
theorem conditional?_pair (c : Conditional) : c.pair.conditional? = some c := by
  have ascii : c.pair.ascii = Nat.toDigits 10 c.comparer.toInt.natAbs :=
    List.takeWhile_eq_self_iff.2 Decimal.isDigit_toDigits
  refine Suffix.Pair.conditional?_eq_some_iff.2 ⟨ascii ▸ Nat.toDigits_ne_nil, rfl, ?_⟩
  rw [Suffix.Pair.integer, ascii, Nat.ofDigitChars_toDigits (by decide) (by decide)]
  simp only [pair, decide_eq_true_eq]
  split <;> omega

/-- The text of several conditionals is that of their pairs. -/
theorem textAll_pair (cs : List Conditional) :
    Suffix.textAll (cs.map pair) = (textAll cs).toList := by
  induction cs with
  | nil => rfl
  | cons c cs ih =>
    have whole : textAll (c :: cs) = c.text ++ textAll cs := String.join_cons
    rw [List.map_cons, Suffix.textAll_cons, text_pair, ih, whole, String.toList_append]

theorem filterMap_pair (cs : List Conditional) :
    (cs.map pair).filterMap Suffix.Pair.conditional? = cs := by
  rw [List.filterMap_map]
  exact (List.filterMap_congr fun c _ => conditional?_pair c).trans List.filterMap_some

end Conditional

/-- No conditional begins where something else may follow. -/
theorem Suffix.conditional?_of_follows {rest : List Char} (follows : Follows rest) :
    conditional? rest = none := by
  have none : comparison? rest = none := by
    cases follows with
    | nil => rfl
    | @letter c cs letter =>
      simp only [List.mem_cons, List.not_mem_nil, or_false] at letter
      rcases letter with rfl | rfl | rfl <;> rfl
    | @explosion cs other =>
      unfold comparison?
      split <;> simp_all
  rw [conditional?, none]

/-! ## Modifiers

Modifiers that repeat go by one lemma and those with a number by another; what differs between
modifiers of one sort is the mark. -/

namespace Rule

variable {settings : Settings} {rest : List Char}

/-- The number of repetitions as it is written, where one is not. -/
def timesText (n : UInt32) : List Char :=
  if n = 1 then [] else Nat.toDigits 10 n.toNat

/-- Both ways of writing it are read as the number. -/
theorem timesText_isTimes (n : UInt32) :
    TimesText settings (timesText n) (Nat.toDigits 10 n.toNat) := by
  unfold timesText
  split
  · next one =>
    rw [one]
    exact .digits (List.forall_mem_nil fun c => isDigit c = true)
  · have digits : TimesText settings _ _ := .digits (Text.isDigit_toDigits (n := n.toNat))
    rwa [countOr1, Decimal.isEmpty_toDigits] at digits

/-- A modifier that repeats, after its sign, and the text after it. -/
def repeatTail (n : UInt32) (conditionals : List Conditional) (rest : List Char) : List Char :=
  timesText n ++ ((Conditional.textAll conditionals).toList ++ rest)

/-- A modifier that repeats more than once has a digit behind its sign. -/
theorem head_repeatTail {n : UInt32} (several : n ≠ 1) (conditionals : List Conditional) :
    ∀ c ∈ (repeatTail n conditionals rest).head?, c.isDigit = true := by
  unfold repeatTail timesText
  rw [if_neg several]
  exact Decimal.isDigit_head_toDigits

/-- A modifier that repeats is the first lexeme of its text. -/
theorem firstMatch_repeatTail {kind : ModifierKind} {mark : List Char}
    (isMark : (kind, mark) ∈ repeatedMarks) (n : UInt32) (conditionals : List Conditional)
    (several : kind = .explode → n ≠ 1) (follows : Follows rest) :
    firstMatch ⟨settings, fun _ => none⟩ (mark ++ repeatTail n conditionals rest) =
      some (.lexeme (.modifier kind) (Nat.toDigits 10 n.toNat) (some conditionals), rest) := by
  have read := (ends_of_head settings follows.head).firstMatch_repeated isMark
    (timesText_isTimes n) (conditionals.map Conditional.pair)
    (Suffix.conditional?_of_follows follows)
  rw [Conditional.textAll_pair, Conditional.filterMap_pair] at read
  refine read fun is c mem => ?_
  rintro rfl
  exact nomatch head_repeatTail (several is) conditionals '!' mem

theorem firstMatch_toDigits {kind : ModifierKind} {mark : List Char}
    (isMark : (kind, mark) ∈ countedMarks) (n : UInt32) (follows : Follows rest) :
    firstMatch ⟨settings, fun _ => none⟩ (mark ++ (Nat.toDigits 10 n.toNat ++ rest)) =
      some (.lexeme (.modifier kind) (Nat.toDigits 10 n.toNat) none, rest) := by
  have read := (ends_of_head settings follows.head).firstMatch_counted isMark
    (Text.isDigit_toDigits (n := n.toNat))
  rwa [countOr1, Decimal.isEmpty_toDigits] at read

end Rule

namespace Modifier

/-- The modifier is no explosion that happens once.  Such a one is written by its sign alone, which
would be read together with the sign of the conditional or of the explosion after it. -/
def Plain (m : Modifier) : Prop :=
  ∀ conditionals, m ≠ .explode 1 conditionals

/-- The text of a modifier that repeats, taken apart. -/
theorem toList_repeatText (sign : String) (n : UInt32) (conditionals : List Conditional)
    (rest : List Char) :
    (repeatText sign n conditionals).toList ++ rest =
      sign.toList ++ Rule.repeatTail n conditionals rest := by
  have times : (if n = 1 then "" else toString n.toNat : String).toList = Rule.timesText n := by
    unfold Rule.timesText
    split
    · rfl
    · exact Nat.toList_repr
  rw [repeatText, String.toList_append, String.toList_append, times, Rule.repeatTail]
  simp only [List.append_assoc]

variable (n : UInt32) (conditionals : List Conditional) (rest : List Char)

theorem toList_reroll : (reroll n conditionals).text.toList ++ rest =
    'r' :: Rule.repeatTail n conditionals rest :=
  toList_repeatText "r" n conditionals rest

theorem toList_explode : (explode n conditionals).text.toList ++ rest =
    '!' :: Rule.repeatTail n conditionals rest :=
  toList_repeatText "!" n conditionals rest

theorem toList_explodeCombine : (explodeCombine n conditionals).text.toList ++ rest =
    '!' :: '!' :: Rule.repeatTail n conditionals rest :=
  toList_repeatText "!!" n conditionals rest

theorem toList_keep (side : Side) :
    (keep side n).text.toList ++ rest =
      'k' :: (side.text.toList ++ (Nat.toDigits 10 n.toNat ++ rest)) := by
  have digits : (toString n.toNat).toList = Nat.toDigits 10 n.toNat := Nat.toList_repr
  rw [text, String.toList_append, String.toList_append, digits]
  simp

theorem toList_drop (side : Side) :
    (drop side n).text.toList ++ rest =
      'd' :: (side.text.toList ++ (Nat.toDigits 10 n.toNat ++ rest)) := by
  have digits : (toString n.toNat).toList = Nat.toDigits 10 n.toNat := Nat.toList_repr
  rw [text, String.toList_append, String.toList_append, digits]
  simp

/-! ### What follows a modifier

Each modifier is read in front of the next one, so its text has to begin with nothing that the one
before it could take. -/

/-- What a modifier begins with may follow another.  An explosion begins with its sign, and the
equals sign cannot come next, because a digit does. -/
theorem follows_text {m : Modifier} (plain : m.Plain) : Follows (m.text.toList ++ rest) := by
  cases m with
  | reroll n conditionals =>
    rw [toList_reroll]
    exact .letter (by decide)
  | explode n conditionals =>
    rw [toList_explode]
    refine .explosion fun equals => ?_
    have several : n ≠ 1 := fun one => plain conditionals (by rw [one])
    exact nomatch Rule.head_repeatTail several conditionals '=' equals
  | explodeCombine n conditionals =>
    rw [toList_explodeCombine]
    exact .explosion (show some '!' ≠ some '=' by decide)
  | keep side n =>
    rw [toList_keep]
    exact .letter (by decide)
  | drop side n =>
    rw [toList_drop]
    exact .letter (by decide)

end Modifier

namespace Rule

variable {settings : Settings} {rest : List Char}

/-- **A modifier is the first lexeme of its text**, whatever follows, and the lexeme stands for it.
The cases are the modifiers, and each is an instance of one of the two lemmas above. -/
theorem firstMatch_modifier (settings : Settings) {m : Modifier} (plain : m.Plain)
    (follows : Follows rest) :
    ∃ kind n conditionals,
      firstMatch ⟨settings, fun _ => none⟩ (m.text.toList ++ rest) =
        some (.lexeme (.modifier kind) (Nat.toDigits 10 (UInt32.toNat n)) conditionals, rest) ∧
      m = kind.modifier n (conditionals.getD []) := by
  cases m with
  | reroll n conditionals =>
    have isMark : (.reroll, ['r']) ∈ repeatedMarks := by decide
    rw [Modifier.toList_reroll]
    exact ⟨.reroll, n, some conditionals,
      firstMatch_repeatTail isMark n conditionals nofun follows, rfl⟩
  | explode n conditionals =>
    have isMark : (.explode, ['!']) ∈ repeatedMarks := by decide
    have several : n ≠ 1 := fun one => plain conditionals (by rw [one])
    rw [Modifier.toList_explode]
    exact ⟨.explode, n, some conditionals,
      firstMatch_repeatTail isMark n conditionals (fun _ => several) follows, rfl⟩
  | explodeCombine n conditionals =>
    have isMark : (.explodeCombine, ['!', '!']) ∈ repeatedMarks := by decide
    rw [Modifier.toList_explodeCombine]
    exact ⟨.explodeCombine, n, some conditionals,
      firstMatch_repeatTail isMark n conditionals nofun follows, rfl⟩
  | keep side n =>
    rw [Modifier.toList_keep]
    cases side with
    | high =>
      have isMark : (.keepHigh, ['k', 'h']) ∈ countedMarks := by decide
      exact ⟨.keepHigh, n, none, firstMatch_toDigits isMark n follows, rfl⟩
    | low =>
      have isMark : (.keepLow, ['k', 'l']) ∈ countedMarks := by decide
      exact ⟨.keepLow, n, none, firstMatch_toDigits isMark n follows, rfl⟩
  | drop side n =>
    rw [Modifier.toList_drop]
    cases side with
    | high =>
      have isMark : (.dropHigh, ['d', 'h']) ∈ countedMarks := by decide
      exact ⟨.dropHigh, n, none, firstMatch_toDigits isMark n follows, rfl⟩
    | low =>
      have isMark : (.dropLow, ['d', 'l']) ∈ countedMarks := by decide
      exact ⟨.dropLow, n, none, firstMatch_toDigits isMark n follows, rfl⟩

/-! ## Groups

The dice themselves are read by another rule, under the same assumption about what follows. -/

/-- The text of a group before its modifiers, and the text after it. -/
def groupText (count : UInt32) (faces : Faces) (conditionals : List Conditional)
    (rest : List Char) : List Char :=
  Nat.toDigits 10 count.toNat ++
    'd' :: (Nat.toDigits 10 faces.count.toNat ++
      ((Conditional.textAll conditionals).toList ++ rest))

/-- **A group is the first lexeme of its text**, but for its modifiers. -/
theorem firstMatch_groupText (count : UInt32) (faces : Faces) (conditionals : List Conditional)
    (context : LexContext) (follows : Follows rest) :
    firstMatch context (groupText count faces conditionals rest) =
      some (.lexeme .dice (Nat.toDigits 10 count.toNat ++ 'd' :: Nat.toDigits 10 faces.count.toNat)
        (some conditionals), rest) := by
  -- None of the characters that may follow continues the faces of the group.
  have head : ∀ c ∈ rest.head?, isDigit c = false ∧ c ∉ ['%', '[', '#'] := by
    intro c mem
    have letter := follows.head c mem
    simp only [List.mem_cons, List.not_mem_nil, or_false] at letter
    rcases letter with rfl | rfl | rfl | rfl <;> decide
  have noGap (tail : List Char) : gap context (Nat.toDigits 10 count.toNat ++ tail) = none :=
    gap_of_isDigit Decimal.isDigit_head_toDigits
  have read := firstMatch_of_group (conditionals.map Conditional.pair)
    (Text.isDigit_toDigits (n := count.toNat)) (.inl rfl)
    (.digits Nat.toDigits_ne_nil (Text.isDigit_toDigits (n := faces.count.toNat)))
    (.inl (Option.some_ne_none _)) (Suffix.conditional?_of_follows follows) head
    (noGap _)
  rw [Conditional.textAll_pair, Conditional.filterMap_pair, groupData, Decimal.isEmpty_toDigits]
    at read
  exact read

end Rule

/-! ## Whole texts

The parts are put together from the end of the text to its front, as the scan is a recursion. -/

/-- Modifiers may follow a group, however many there are. -/
theorem follows_modifiers {ms : List Modifier} (plain : ∀ m ∈ ms, m.Plain) :
    Follows (String.join (ms.map Modifier.text)).toList := by
  cases ms with
  | nil => exact .nil
  | cons m ms =>
    rw [List.map_cons, String.join_cons, String.toList_append]
    exact Modifier.follows_text _ (plain m (.head _))

/-- **Modifiers are read as they are written**, in their order.  The position is a parameter, since
every modifier moves it. -/
theorem scan_modifiers (settings : Settings) {ms : List Modifier} (plain : ∀ m ∈ ms, m.Plain)
    (position : Nat) :
    ∃ ls, scan ⟨settings, fun _ => none⟩ position (String.join (ms.map Modifier.text)).toList =
        .ok ls ∧
      List.Forall₂ Lexeme.IsModifier ls ms ∧
      ls.map (·.written) = ms.map Modifier.text := by
  induction ms generalizing position with
  | nil =>
    refine ⟨[], ?_, .nil, rfl⟩
    show scan _ position [] = _
    rw [scan]
    rfl
  | cons m ms ih =>
    obtain ⟨plain, others⟩ := List.forall_mem_cons.1 plain
    obtain ⟨kind, n, conditionals, found, eq⟩ :=
      Rule.firstMatch_modifier settings plain (follows_modifiers others)
    obtain ⟨ls, scanned, modifiers, texts⟩ := ih others (position + Text.utf8Length m.text.toList)
    rw [List.map_cons, String.join_cons, String.toList_append]
    refine ⟨_, scan_lexeme found scanned, .cons ⟨kind, n, rfl, ?_, eq⟩ modifiers, ?_⟩
    · rw [String.toList_ofList, Decimal.word32?_toDigits]
    · rw [List.map_cons, texts, String.ofList_toList]

namespace DiceGroup

/-- The text of a group without its modifiers. -/
def head (g : DiceGroup) : String :=
  toString g.count.toNat ++ "d" ++ g.faces.text ++ Conditional.textAll g.conditionals

/-- The text of the group before its modifiers, taken apart. -/
theorem toList_head (g : DiceGroup) (rest : List Char) :
    g.head.toList ++ rest = Rule.groupText g.count g.faces g.conditionals rest := by
  have digits (n : UInt32) : (toString n.toNat).toList = Nat.toDigits 10 n.toNat := Nat.toList_repr
  simp only [head, Faces.text, String.toList_append, digits, Rule.groupText, List.append_assoc]
  rfl

/-- **A group of dice in canonical form is read back.** -/
theorem ofLexemes_text (settings : Settings) (table : PrecedenceTable) (g : DiceGroup)
    (plain : ∀ m ∈ g.modifiers, m.Plain) :
    ∃ lexemes, tokenize ⟨settings, fun _ => none⟩ g.text = .ok lexemes ∧
      Expression.ofLexemes table lexemes g.text =
        .ok ⟨.dice { g with written := g.text }, g.text⟩ := by
  obtain ⟨ls, scanned, modifiers, texts⟩ :=
    scan_modifiers settings plain (0 + Text.utf8Length g.head.toList)
  have found := Rule.firstMatch_groupText g.count g.faces g.conditionals ⟨settings, fun _ => none⟩
    (follows_modifiers plain)
  rw [← toList_head] at found
  -- The text is that of the dice and that of the modifiers behind it.
  have whole : g.text.toList =
      g.head.toList ++ (String.join (g.modifiers.map Modifier.text)).toList :=
    String.toList_append
  have tokenized := scan_lexeme found scanned
  rw [← whole] at tokenized
  refine ⟨_, tokenized, Expression.ofLexemes_eq_ok_iff.2 ⟨Expr.ofLexemes_eq_ok_iff.2 ?_, rfl⟩⟩
  refine .climb (.dice rfl ((Expr.diceOf_eq_ok_iff rfl).2 (.inr ?_))) (.stop trivial)
  refine ⟨g.count, g.faces, ls, g.modifiers, ⟨rfl, _, _, String.toList_ofList, ?_,
    Decimal.word32?_toDigits g.count, Decimal.word32?_toDigits g.faces.count⟩,
    (List.append_nil ls).symm, modifiers, nofun, ?_⟩
  · exact fun mem => nomatch Decimal.isDigit_toDigits 'd' mem
  · rw [List.map_cons, texts, String.join_cons, String.ofList_toList]
    rfl

/-- A group with each of the signs that could be mistaken for another. -/
theorem ofLexemes_text_mixed :
    let modifiers : List Modifier :=
      [.explodeCombine 1 [⟨.eq, 6⟩], .explode 2 [], .reroll 1 [], .drop .low 0, .keep .high 2]
    let g : DiceGroup := ⟨3, ⟨6, by decide⟩, [⟨.gt, 5⟩, ⟨.ne, -1⟩], modifiers, ""⟩
    let text := "3d6>5!=-1!!=6!2rdl0kh2"
    (∀ m ∈ modifiers, m.Plain) ∧ g.text = text ∧
      ∃ lexemes, tokenize ⟨{}, fun _ => none⟩ text = .ok lexemes ∧
        Expression.ofLexemes .standard lexemes text =
          .ok ⟨.dice { g with written := text }, text⟩ := by
  intro modifiers g text
  have plain : ∀ m ∈ modifiers, m.Plain := by simp [modifiers, Modifier.Plain]
  have written : g.text = text := by cbv
  have read := ofLexemes_text {} .standard g plain
  rw [written] at read
  exact ⟨plain, written, read⟩

/-- An explosion that happens once and a conditional of the group can have the same text. -/
example : text ⟨1, .one, [], [.explode 1 [⟨.eq, 1⟩]], ""⟩ = text ⟨1, .one, [⟨.ne, 1⟩], [], ""⟩ := by
  cbv

end DiceGroup

end Tabletop
