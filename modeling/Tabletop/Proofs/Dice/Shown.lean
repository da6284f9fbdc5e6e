import Mathlib.Data.List.Forall2
import Tabletop.Dice.Breakdown
import Tabletop.Proofs.Decimal.Integer

/-!
# What the breakdown of a group shows

The breakdown with markup writes numbers, arrows, marks and commas behind one another without saying
how many there are.  None of them can be taken for another, so each part of the text says where it
ends: a number before the first character that is no digit, a list of numbers where its separator
does not come again, a mark by being there.  Two texts that begin with such parts and are equal have
equal parts and equal rests, and this is put together from the parts of a die to the dice of a
group.

* `Text.ite_append_inj`, `Decimal.toDigits_append_inj`, `Text.flatMap_append_inj` — marks, numbers,
  and lists;
* `Die.history_append_inj`, `Breakdown.die_append_inj` — a die;
* `Breakdown.markdown_group_eq_iff` — a group, and which of its data its text shows.

What it does not show are the number of faces, and whether a die was added by an explosion.  That a
die was rolled again shows in its faces, and whether it made an explosion happen only if nothing has
been added to it.

Every lemma about a part has the same form: two texts that begin with such a part, and go on with
something that does not continue it, are equal only if the parts are equal and the rests are.  The
condition on the rest is about its first character alone, and for each part there is a lemma that
the next part fulfils it.
-/

namespace Tabletop

open List (Forall₂)

namespace Text

variable {r r' : List Char}

/-- A text that begins with a character has no other first character. -/
theorem forall_head_cons {p : Char → Prop} {c : Char} {cs : List Char} (first : p c) :
    ∀ d ∈ (c :: cs).head?, p d := by
  intro d head
  obtain rfl := Option.some.inj head
  exact first

/-- A text does not begin with a word if it does not begin with the first character of the word. -/
theorem not_prefix_of_head {c : Char} {cs separator : List Char} (other : c ∉ cs.head?) :
    ¬ c :: separator <+: cs := by
  rintro ⟨rest, rfl⟩
  exact other rfl

/-- A mark that may be there says whether it is, if what follows does not begin with it.  The cases
are whether the mark is there on the left, and on the right. -/
theorem ite_append_inj {marked marked' : Bool} {mark : List Char} (other : ¬ mark <+: r)
    (other' : ¬ mark <+: r')
    (same : (if marked then mark else []) ++ r = (if marked' then mark else []) ++ r') :
    marked = marked' ∧ r = r' := by
  cases marked <;> cases marked'
  case false.false => exact ⟨rfl, same⟩
  case false.true => exact absurd ⟨r', same.symm⟩ other
  case true.false => exact absurd ⟨r, same⟩ other'
  case true.true => exact ⟨rfl, List.append_cancel_left same⟩

/-- Items behind separators say how many they are, if each item says where it ends, and if no
separator follows.  The induction is on the first list, and an end on one side only would leave a
separator where none can be. -/
theorem flatMap_append_inj (Ends : List Char → Prop) {R : α → α → Prop} {text : α → List Char}
    {separator : List Char}
    (item : ∀ {a b r r'}, Ends r → Ends r' → text a ++ r = text b ++ r' → R a b ∧ r = r')
    (goesOn : ∀ cs, Ends (separator ++ cs)) {xs ys : List α} (ends : Ends r) (ends' : Ends r')
    (last : ¬ separator <+: r) (last' : ¬ separator <+: r')
    (same : (xs.flatMap fun a => separator ++ text a) ++ r =
      (ys.flatMap fun a => separator ++ text a) ++ r') :
    Forall₂ R xs ys ∧ r = r' := by
  have endsAt {r : List Char} (ends : Ends r) (xs : List α) :
      Ends ((xs.flatMap fun a => separator ++ text a) ++ r) := by
    cases xs with
    | nil => exact ends
    | cons x xs =>
      rw [List.flatMap_cons, List.append_assoc, List.append_assoc]
      exact goesOn _
  induction xs generalizing ys with
  | nil =>
    cases ys with
    | nil => exact ⟨.nil, same⟩
    | cons y ys =>
      rw [List.flatMap_cons, List.append_assoc, List.append_assoc] at same
      exact absurd ⟨_, same.symm⟩ last
  | cons x xs ih =>
    cases ys with
    | nil =>
      rw [List.flatMap_cons, List.append_assoc, List.append_assoc] at same
      exact absurd ⟨_, same⟩ last'
    | cons y ys =>
      simp only [List.flatMap_cons, List.append_assoc, List.append_cancel_left_eq] at same
      obtain ⟨first, others⟩ := item (endsAt ends xs) (endsAt ends' ys) same
      obtain ⟨rest, eq⟩ := ih others
      exact ⟨.cons first rest, eq⟩

/-- Items with separators between them: the first, and the others behind separators. -/
theorem intercalate_cons (separator first : List Char) (others : List (List Char)) :
    separator.intercalate (first :: others) = first ++ others.flatMap (separator ++ ·) := by
  induction others generalizing first with
  | nil => simp
  | cons second others ih =>
    rw [List.intercalate_cons_cons, ih, List.flatMap_cons]
    simp only [List.append_assoc]

end Text

namespace Decimal

/-- A number ends before the first character that is no digit.  The digits are cut off on both
sides, and read as numbers they give the numbers back. -/
theorem toDigits_append_inj {m n : UInt32} {r r' : List Char}
    (stops : ∀ c ∈ r.head?, c.isDigit = false) (stops' : ∀ c ∈ r'.head?, c.isDigit = false)
    (same : Nat.toDigits 10 m.toNat ++ r = Nat.toDigits 10 n.toNat ++ r') : m = n ∧ r = r' := by
  have digits := congrArg (List.takeWhile Char.isDigit) same
  have rests := congrArg (List.dropWhile Char.isDigit) same
  rw [Text.takeWhile_append_of_stops isDigit_toDigits stops,
    Text.takeWhile_append_of_stops isDigit_toDigits stops'] at digits
  rw [Text.dropWhile_append_of_stops isDigit_toDigits stops,
    Text.dropWhile_append_of_stops isDigit_toDigits stops'] at rests
  refine ⟨Option.some.inj ?_, rests⟩
  rw [← word32?_toDigits, ← word32?_toDigits, digits]

/-- Numbers behind separators. -/
def numbersBehind (separator : List Char) (ns : List UInt32) : List Char :=
  ns.flatMap fun n => separator ++ Nat.toDigits 10 n.toNat

/-- Numbers behind separators say how many they are. -/
theorem numbersBehind_append_inj {c : Char} {separator : List Char} (noDigit : c.isDigit = false)
    {ms ns : List UInt32} {r r' : List Char} (stops : ∀ c ∈ r.head?, c.isDigit = false)
    (stops' : ∀ c ∈ r'.head?, c.isDigit = false) (last : ¬ c :: separator <+: r)
    (last' : ¬ c :: separator <+: r')
    (same : numbersBehind (c :: separator) ms ++ r = numbersBehind (c :: separator) ns ++ r') :
    ms = ns ∧ r = r' := by
  have goesOn (cs : List Char) : ∀ d ∈ (c :: separator ++ cs).head?, d.isDigit = false :=
    Text.forall_head_cons noDigit
  obtain ⟨each, rest⟩ := Text.flatMap_append_inj (fun cs => ∀ c ∈ cs.head?, c.isDigit = false)
    toDigits_append_inj goesOn stops stops' last last' same
  exact ⟨List.forall₂_eq_eq_eq ▸ each, rest⟩

end Decimal

/-! ## Dice

The history of a die is the faces with arrows between them, what was added behind signs, and a mark.
-/

namespace Die

/-- What may follow the history of a die: a mark of the markup, a comma, or the end of the group. -/
def Closes (cs : List Char) : Prop :=
  ∀ c ∈ cs.head?, c ∈ ['*', '~', ',', ')']

/-- The mark of a die that made an explosion happen, and to which nothing has been added. -/
def marked (d : Die) : Bool :=
  d.triggered && d.bonus.isEmpty

theorem toList_history {d : Die} {first : UInt32} {others : List UInt32}
    (rolls : d.rolls = first :: others) :
    d.history.toList =
      Nat.toDigits 10 first.toNat ++ (Decimal.numbersBehind [' ', '-', '>', ' '] others ++
        (Decimal.numbersBehind ['!', '+'] d.bonus ++ if d.marked then ['!'] else [])) := by
  have digits (n : UInt32) : (toString n.toNat).toList = Nat.toDigits 10 n.toNat := Nat.toList_repr
  have added (n : UInt32) :
      ("!+" ++ toString n.toNat).toList = ['!', '+'] ++ Nat.toDigits 10 n.toNat := by
    rw [String.toList_append, digits]
    rfl
  have mark : (if d.marked then "!" else "").toList = if d.marked then ['!'] else [] := by
    cases d.marked <;> rfl
  show (_ ++ _ ++ if d.marked then "!" else "").toList = _
  rw [String.toList_append, String.toList_append, mark, String.toList_intercalate, rolls,
    List.map_cons, List.map_cons, Text.intercalate_cons, digits, String.toList_join]
  simp only [Decimal.numbersBehind, List.flatMap_map, digits, added, List.append_assoc]
  rfl

/-! ### Behind the history

What stands behind the faces of a die tells where its numbers end. -/

/-- What follows the faces of a die in its history, and behind it. -/
def behindFaces (d : Die) (r : List Char) : List Char :=
  Decimal.numbersBehind ['!', '+'] d.bonus ++ ((if d.marked then ['!'] else []) ++ r)

variable {d d' : Die} {r r' : List Char}

/-- With or without the mark, no digit and no arrow comes next. -/
theorem head_mark (closes : Closes r) :
    ∀ c ∈ ((if d.marked then ['!'] else []) ++ r).head?, c ∈ ['!', '*', '~', ',', ')'] := by
  cases d.marked with
  | true => exact Text.forall_head_cons (by decide)
  | false => exact fun c mem => .tail _ (closes c mem)

/-- Behind the faces there comes neither a digit nor an arrow. -/
theorem head_behindFaces (closes : Closes r) :
    ∀ c ∈ (d.behindFaces r).head?, c ∈ ['!', '*', '~', ',', ')'] := by
  unfold behindFaces
  cases d.bonus with
  | nil => exact head_mark closes
  | cons => exact Text.forall_head_cons (by decide)

/-- A mark is not taken for a value that has been added, because no plus sign follows. -/
theorem not_prefix_mark (closes : Closes r) :
    ¬ ['!', '+'] <+: (if d.marked then ['!'] else []) ++ r := by
  cases d.marked with
  | true =>
    intro begins
    have plus : ['+'] <+: r := (List.cons_prefix_cons.1 begins).2
    exact Text.not_prefix_of_head (fun head => absurd (closes _ head) (by decide)) plus
  | false =>
    exact Text.not_prefix_of_head fun head => absurd (closes _ head) (by decide)

theorem isDigit_eq_false_of_head {cs : List Char}
    (head : ∀ c ∈ cs.head?, c ∈ ['!', '*', '~', ',', ')']) : ∀ c ∈ cs.head?, c.isDigit = false := by
  have none : ['!', '*', '~', ',', ')'].any Char.isDigit = false := rfl
  exact fun c mem => Bool.eq_false_iff.2 (List.any_eq_false.1 none c (head c mem))

/-- The text behind the first face of a die begins with no digit. -/
theorem isDigit_head_behindFirst (closes : Closes r) (others : List UInt32) :
    ∀ c ∈ (Decimal.numbersBehind [' ', '-', '>', ' '] others ++ d.behindFaces r).head?,
      c.isDigit = false := by
  cases others with
  | nil => exact isDigit_eq_false_of_head (head_behindFaces closes)
  | cons => exact Text.forall_head_cons rfl

/-- **A history says where it ends,** and shows the faces, the values that have been added, and the
mark. -/
theorem history_append_inj (closes : Closes r) (closes' : Closes r')
    (same : d.history.toList ++ r = d'.history.toList ++ r') :
    d.rolls = d'.rolls ∧ d.bonus = d'.bonus ∧ d.marked = d'.marked ∧ r = r' := by
  obtain ⟨first, others, rolls⟩ := List.exists_cons_of_ne_nil d.rolls_ne_nil
  obtain ⟨first', others', rolls'⟩ := List.exists_cons_of_ne_nil d'.rolls_ne_nil
  rw [toList_history rolls, toList_history rolls'] at same
  simp only [List.append_assoc] at same
  obtain ⟨rfl, behindFirst⟩ := Decimal.toDigits_append_inj
    (isDigit_head_behindFirst (d := d) closes others)
    (isDigit_head_behindFirst (d := d') closes' others') same
  -- One part after the other: the first face, the other faces, what was added, and the mark.
  have noArrow {d : Die} {r : List Char} (closes : Closes r) :
      ¬ [' ', '-', '>', ' '] <+: d.behindFaces r :=
    Text.not_prefix_of_head fun head => absurd (head_behindFaces closes _ head) (by decide)
  obtain ⟨rfl, behindFaces⟩ := Decimal.numbersBehind_append_inj rfl
    (isDigit_eq_false_of_head (head_behindFaces (d := d) closes))
    (isDigit_eq_false_of_head (head_behindFaces (d := d') closes'))
    (noArrow closes) (noArrow closes') behindFirst
  obtain ⟨bonus, behindBonus⟩ := Decimal.numbersBehind_append_inj rfl
    (isDigit_eq_false_of_head (head_mark closes)) (isDigit_eq_false_of_head (head_mark closes'))
    (not_prefix_mark closes) (not_prefix_mark closes') behindFaces
  have noMark {r : List Char} (closes : Closes r) : ¬ ['!'] <+: r :=
    Text.not_prefix_of_head fun head => absurd (closes _ head) (by decide)
  obtain ⟨marked, rest⟩ := Text.ite_append_inj (noMark closes) (noMark closes') behindBonus
  exact ⟨rolls.trans rolls'.symm, bonus, marked, rest⟩

theorem isDigit_head_history (d : Die) (r : List Char) :
    ∀ c ∈ (d.history.toList ++ r).head?, c.isDigit = true := by
  obtain ⟨first, others, rolls⟩ := List.exists_cons_of_ne_nil d.rolls_ne_nil
  rw [toList_history rolls, List.append_assoc]
  exact Decimal.isDigit_head_toDigits

/-! ### Dice that look alike

The condition is what the text shows and nothing else, so that equal texts and this condition are
the same thing. -/

/-- The same is shown of two dice: the faces, the values that have been added, the marks of the
markup, and, if nothing has been added, the mark of an explosion. -/
structure ShownAlike (d d' : Die) : Prop where
  rolls : d.rolls = d'.rolls
  bonus : d.bonus = d'.bonus
  dropped : d.dropped = d'.dropped
  matched : d.matched = d'.matched
  triggered : d.bonus = [] → d.triggered = d'.triggered

/-- The mark shows whether the die made an explosion happen, unless something has been added to it.
-/
theorem marked_eq_iff (bonus : d.bonus = d'.bonus) :
    d.marked = d'.marked ↔ (d.bonus = [] → d.triggered = d'.triggered) := by
  rw [marked, marked, ← bonus]
  cases d.bonus with
  | nil => simp
  | cons => simp

theorem ShownAlike.history_eq (alike : ShownAlike d d') : d.history = d'.history := by
  have marked : (d.triggered && d.bonus.isEmpty) = (d'.triggered && d'.bonus.isEmpty) :=
    (marked_eq_iff alike.bonus).2 alike.triggered
  rw [history, history, alike.rolls, marked, alike.bonus]

end Die

/-! ## Groups

In its group a die stands between marks of the markup, and the dice stand between commas. -/

namespace Breakdown

variable {d d' : Die} {r r' : List Char}

/-- The marks of a dropped die are outside of those of a matched one. -/
theorem markdown_die (d : Die) (text : String) :
    markdown.die d text =
      (if d.dropped then "~~" ++ (if d.matched then "**" ++ text ++ "**" else text) ++ "~~"
        else if d.matched then "**" ++ text ++ "**" else text) :=
  rfl

theorem toList_markdown_die (d : Die) (text : String) :
    (markdown.die d text).toList =
      (if d.dropped then ['~', '~'] else []) ++ ((if d.matched then ['*', '*'] else []) ++
        (text.toList ++ ((if d.matched then ['*', '*'] else []) ++
          if d.dropped then ['~', '~'] else []))) := by
  rw [markdown_die]
  cases d.dropped <;> cases d.matched <;> simp

/-- The text of a die does not begin like the end of its group. -/
theorem head_markdown_die (d : Die) (r : List Char) :
    ')' ∉ ((markdown.die d d.history).toList ++ r).head? := by
  rw [toList_markdown_die]
  cases d.dropped with
  | true => exact fun mem => absurd (Option.some.inj mem) (by decide)
  | false =>
    cases d.matched with
    | true => exact fun mem => absurd (Option.some.inj mem) (by decide)
    | false =>
      intro mem
      refine absurd (d.isDigit_head_history r ')' ?_) (by decide)
      simpa using mem

theorem markdown_die_eq_of_shownAlike (alike : Die.ShownAlike d d') :
    markdown.die d d.history = markdown.die d' d'.history := by
  rw [markdown_die, markdown_die, alike.history_eq, alike.matched, alike.dropped]

/-- The marks behind the history of a die close it. -/
theorem closes_marks (matched dropped : Bool) (ends : ∀ c ∈ r.head?, c ∈ [',', ')']) :
    Die.Closes ((if matched then ['*', '*'] else []) ++
      ((if dropped then ['~', '~'] else []) ++ r)) := by
  cases matched with
  | true => exact Text.forall_head_cons (by decide)
  | false =>
    cases dropped with
    | true => exact Text.forall_head_cons (by decide)
    | false => exact fun c mem => .tail _ (.tail _ (ends c mem))

/-- **A die says where it ends** in the text of its group, and what its text shows. -/
theorem die_append_inj (ends : ∀ c ∈ r.head?, c ∈ [',', ')'])
    (ends' : ∀ c ∈ r'.head?, c ∈ [',', ')'])
    (same : (markdown.die d d.history).toList ++ r = (markdown.die d' d'.history).toList ++ r') :
    Die.ShownAlike d d' ∧ r = r' := by
  rw [toList_markdown_die, toList_markdown_die] at same
  simp only [List.append_assoc] at same
  have noStar (d : Die) (r : List Char) : ¬ ['*', '*'] <+: d.history.toList ++ r :=
    Text.not_prefix_of_head fun head => absurd (d.isDigit_head_history r _ head) (by decide)
  have noTilde (d : Die) (r : List Char) : ¬ ['~', '~'] <+:
      (if d.matched then ['*', '*'] else []) ++ (d.history.toList ++ r) := by
    cases d.matched with
    | true => exact Text.not_prefix_of_head fun head => absurd (Option.some.inj head) (by decide)
    | false =>
      exact Text.not_prefix_of_head fun head => absurd (d.isDigit_head_history r _ head) (by decide)
  obtain ⟨dropped, behindDropped⟩ := Text.ite_append_inj (noTilde d _) (noTilde d' _) same
  obtain ⟨matched, behindMatched⟩ := Text.ite_append_inj (noStar d _) (noStar d' _) behindDropped
  obtain ⟨rolls, bonus, marked, behindHistory⟩ := Die.history_append_inj
    (closes_marks d.matched d.dropped ends) (closes_marks d'.matched d'.dropped ends') behindMatched
  rw [matched, dropped] at behindHistory
  exact ⟨⟨rolls, bonus, dropped, matched, (Die.marked_eq_iff bonus).1 marked⟩,
    List.append_cancel_left (List.append_cancel_left behindHistory)⟩

/-! ### Lists of dice

Dice are separated by commas and blanks, and no die has a comma in its text. -/

/-- The dice of a group, with the parenthesis behind them. -/
def diceText (dice : List Die) : List Char :=
  [',', ' '].intercalate (dice.map fun d => (markdown.die d d.history).toList) ++ [')']

/-- The text of a group is what was written, and its dice in parentheses. -/
theorem toList_markdown_group (g : RollGroup) :
    (markdown.group g).toList = g.written.toList ++ ([' ', '('] ++ diceText g.dice) := by
  have separators : String.toList ", " = [',', ' '] := rfl
  rw [group, diceText, String.toList_append, String.toList_append, String.toList_append,
    String.toList_intercalate, List.map_map, separators]
  simp only [List.append_assoc]
  rfl

/-- With a separator in front, all dice are alike: each comes behind a separator. -/
theorem diceText_cons (d : Die) (dice : List Die) :
    [',', ' '] ++ diceText (d :: dice) =
      ((d :: dice).flatMap fun d => [',', ' '] ++ (markdown.die d d.history).toList) ++ [')'] := by
  rw [diceText, List.map_cons, Text.intercalate_cons, List.flatMap_map, List.flatMap_cons]
  simp only [List.append_assoc]

/-- A group without dice shows none. -/
theorem diceText_cons_ne_nil (d : Die) (dice : List Die) : diceText (d :: dice) ≠ diceText [] := by
  intro same
  have closing : ')' ∈ (diceText []).head? := rfl
  rw [← same, diceText, List.map_cons, Text.intercalate_cons, List.append_assoc] at closing
  exact head_markdown_die d _ closing

/-- **The dice of a group are told apart:** their text shows how many they are, and what is shown of
each. -/
theorem forall₂_of_diceText_eq {dice dice' : List Die} (same : diceText dice = diceText dice') :
    Forall₂ Die.ShownAlike dice dice' := by
  cases dice with
  | nil =>
    cases dice' with
    | nil => exact .nil
    | cons d' dice' => exact absurd same.symm (diceText_cons_ne_nil d' dice')
  | cons d dice =>
    cases dice' with
    | nil => exact absurd same (diceText_cons_ne_nil d dice)
    | cons d' dice' =>
      have behindSeparators := congrArg ([',', ' '] ++ ·) same
      simp only [diceText_cons] at behindSeparators
      have comma (cs : List Char) : ∀ c ∈ ([',', ' '] ++ cs).head?, c ∈ [',', ')'] :=
        Text.forall_head_cons (by decide)
      have closing : ∀ c ∈ [')'].head?, c ∈ [',', ')'] := Text.forall_head_cons (by decide)
      exact (Text.flatMap_append_inj (fun cs => ∀ c ∈ cs.head?, c ∈ [',', ')']) die_append_inj comma
        closing closing (by decide) (by decide) behindSeparators).1

/-- **The breakdown with markup loses nothing about the dice.**  Two groups with the same notation
have the same text if and only if they have the same number of dice, and the same is shown of each
die: the faces it showed, the values added to it, whether it is dropped, whether it matches, and, if
nothing has been added to it, whether it made an explosion happen. -/
theorem markdown_group_eq_iff {a b : RollGroup} (written : a.written = b.written) :
    markdown.group a = markdown.group b ↔ Forall₂ Die.ShownAlike a.dice b.dice := by
  constructor
  · intro same
    have texts := congrArg String.toList same
    rw [toList_markdown_group, toList_markdown_group, written] at texts
    exact forall₂_of_diceText_eq (List.append_cancel_left (List.append_cancel_left texts))
  · intro alike
    have texts : a.dice.map (fun d => markdown.die d d.history) =
        b.dice.map fun d => markdown.die d d.history := by
      refine List.forall₂_eq_eq_eq ▸ List.forall₂_map_left_iff.2 (List.forall₂_map_right_iff.2 ?_)
      exact alike.imp fun _ _ => markdown_die_eq_of_shownAlike
    rw [group, group, written, texts]

/-- Whether a die made an explosion happen shows on a die to which nothing has been added, and not
on one to which something has been added. -/
theorem markdown_group_eq_iff_triggered :
    let six : Faces := ⟨6, by decide⟩
    let rolled (first second : Bool) : RollGroup :=
      { written := "2d6kh", count := 2, faces := six, conditionals := []
        dice := [{ faces := six, face := 6, triggered := first },
          { faces := six, earlier := [1], face := 6, bonus := [6, 2], dropped := true
            triggered := second }] }
    (rolled true false).written = (rolled true true).written ∧
      markdown.group (rolled true false) = markdown.group (rolled true true) ∧
      markdown.group (rolled false true) ≠ markdown.group (rolled true true) := by
  intro six rolled
  have written : (rolled false true).written = (rolled true true).written := rfl
  refine ⟨rfl, ?_, fun same => ?_⟩
  · refine (markdown_group_eq_iff rfl).2 (.cons ?_ (.cons ?_ .nil))
    · exact ⟨rfl, rfl, rfl, rfl, fun _ => rfl⟩
    · exact ⟨rfl, rfl, rfl, rfl, fun none => nomatch none⟩
  · cases (markdown_group_eq_iff written).1 same with
    | cons first _ => exact absurd (first.triggered rfl) Bool.false_ne_true

end Breakdown

end Tabletop
