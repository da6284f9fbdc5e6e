import Mathlib.Data.List.TakeWhile
import Tabletop.Lexeme.Rule

/-!
# The parts that rules take

A rule takes a part at the front of a text and returns the text after it.  This module shows that
the text returned is really an end of the text given, for every reader that the rules are made of
and so for every rule, and that only gaps are left out.

* `Rule.suffix_of_firstMatch` — what is left after a rule is an end of the text;
* `Rule.part_of_firstMatch` — the part and what is left make up the text, and the part is not empty;
* `Rule.gap_of_firstMatch` — a part that is left out is a gap.

The readers and rules are taken in the order in which they are defined, each by the cases of its
definition.

That something is an end of the text is transitive.  A reader that calls others is therefore proved
by their lemmas and by what it drops itself.  `Cuts` says of a rule what the lexer needs to know,
and is the only property of rules that the loop uses; a rule that is added has to be shown to cut,
and `Rule.cuts_of_mem_all` is where it is missed otherwise.
-/

namespace Tabletop

/-- A text without lexemes: white space, braces, and names of at least two characters that are not
names of fields.  Names of one character are missing on purpose.  The rule of names refuses them, so
a single letter that no other rule takes is an error and not a gap. -/
inductive Gap (fields : String → Option Float) : List Char → Prop
  | nil : Gap fields []
  | blank {c : Char} {cs : List Char} (blank : Text.isBlank c) (more : Gap fields cs) :
      Gap fields (c :: cs)
  | brace {c : Char} {cs : List Char} (brace : Written.isBrace c) (more : Gap fields cs) :
      Gap fields (c :: cs)
  | name {c : Char} {tail cs : List Char} (letter : c.isAlpha) (long : tail ≠ [])
      (word : ∀ d ∈ tail, Rule.isNameChar d) (unknown : fields (String.ofList (c :: tail)) = none)
      (more : Gap fields cs) : Gap fields (c :: tail ++ cs)

namespace Gap

variable {fields : String → Option Float}

theorem append {cs ds : List Char} (first : Gap fields cs) (second : Gap fields ds) :
    Gap fields (cs ++ ds) := by
  induction first with
  | nil => exact second
  | blank blank _ ih => exact .blank blank ih
  | brace brace _ ih => exact .brace brace ih
  -- A name goes on with what is behind it as a text, not as characters one by one.
  | name letter long word unknown _ ih =>
    rw [List.append_assoc]
    exact .name letter long word unknown ih

theorem of_forall {cs : List Char} (h : ∀ c ∈ cs, Text.isBlank c ∨ Written.isBrace c) :
    Gap fields cs := by
  induction cs with
  | nil => exact .nil
  | cons c cs ih =>
    rw [List.forall_mem_cons] at h
    rcases h.1 with blank | brace
    · exact .blank blank (ih h.2)
    · exact .brace brace (ih h.2)

end Gap

/-! ## Readers of references

What each reader leaves is an end of what it was given.  Those that may find nothing then leave all
of it. -/

namespace Written

open Text (isDigit isTagChar)

theorem count_suffix (cs : List Char) : (count cs).2 <:+ cs := by
  unfold count
  split
  · next d rest _ after =>
    split
    · have digits := List.dropWhile_suffix isDigit (l := cs)
      rw [after] at digits
      exact (List.suffix_cons d rest).trans digits
    · exact List.suffix_rfl
  · exact List.suffix_rfl

/-- A modifier drops its bar and the characters up to the next brace. -/
theorem modifier_suffix (cs : List Char) : (modifier cs).2 <:+ cs := by
  unfold modifier
  split
  · next c rest =>
    split
    · exact List.suffix_rfl
    · exact (List.dropWhile_suffix _).trans
        ((List.suffix_cons c rest).trans (List.suffix_cons '|' (c :: rest)))
  · exact List.suffix_rfl

theorem suffix_of_brackets? {cs inner rest : List Char} (h : brackets? cs = some (inner, rest)) :
    rest <:+ cs := by
  unfold brackets? at h
  split at h
  · next cs =>
    split at h
    · next c front rest _ after =>
      obtain ⟨-, rfl⟩ := Prod.mk.inj (Option.some.inj h)
      have inside := List.dropWhile_suffix (· != ']') (l := cs)
      rw [after] at inside
      have opened : cs <:+ '[' :: '[' :: cs := ⟨['[', '['], rfl⟩
      have closed : rest <:+ ']' :: ']' :: rest := ⟨[']', ']'], rfl⟩
      exact closed.trans (inside.trans opened)
    · cases h
  · cases h

/-- A reference in brackets drops what its three parts drop. -/
theorem suffix_of_bracketed? {cs rest : List Char} {b : Bracketed}
    (h : bracketed? cs = some (b, rest)) : rest <:+ cs := by
  unfold bracketed? at h
  dsimp only at h
  split at h
  · cases h
  · next found =>
    obtain ⟨-, rfl⟩ := Prod.mk.inj (Option.some.inj h)
    exact (modifier_suffix _).trans ((suffix_of_brackets? found).trans (count_suffix cs))

theorem selector_suffix (cs : List Char) : (selector cs).2 <:+ cs := by
  unfold selector
  split
  · next c rest =>
    split
    · exact (List.suffix_cons c rest).trans (List.suffix_cons '|' (c :: rest))
    · exact List.suffix_rfl
  · exact List.suffix_rfl

theorem kinds_suffix (cs : List Char) : (kinds cs).2 <:+ cs := by
  unfold kinds
  split
  · split
    · exact List.suffix_rfl
    · exact modifier_suffix _
  · exact List.suffix_rfl

/-- A tag drops its count, its name, a selector and kinds. -/
theorem suffix_of_tagged? {cs rest : List Char} {t : Tagged} (h : tagged? cs = some (t, rest)) :
    rest <:+ cs := by
  unfold tagged? at h
  dsimp only at h
  split at h
  · next after found =>
    split at h
    · cases h
    · obtain ⟨-, rfl⟩ := Prod.mk.inj (Option.some.inj h)
      have sign := count_suffix cs
      rw [found] at sign
      have name : after.dropWhile isTagChar <:+ cs :=
        (List.dropWhile_suffix _).trans ((List.suffix_cons '#' after).trans sign)
      exact (kinds_suffix _).trans ((selector_suffix _).trans name)
  · cases h

end Written

/-! ## Readers of conditionals

The readers of signs and digits, and the loop over pairs. -/

namespace Suffix

theorem suffix_of_comparison? {cs rest : List Char} {c : Comparison}
    (h : comparison? cs = some (c, rest)) : rest <:+ cs := by
  unfold comparison? at h
  split at h
  case h_10 => cases h
  all_goals
    obtain ⟨-, rfl⟩ := Prod.mk.inj (Option.some.inj h)
    first
    | exact List.suffix_cons _ _
    | exact (List.suffix_cons _ _).trans (List.suffix_cons _ _)

theorem minus_suffix (cs : List Char) : (minus cs).2 <:+ cs := by
  unfold minus
  split
  · exact List.suffix_cons _ _
  · exact List.suffix_rfl

/-- A pair drops its comparison, a minus and digits. -/
theorem suffix_of_conditional? {cs rest : List Char} {c : Option Conditional}
    (h : conditional? cs = some (c, rest)) : rest <:+ cs := by
  unfold conditional? at h
  split at h
  · cases h
  · next after found =>
    dsimp only at h
    split at h
    · cases h
    · obtain ⟨-, rfl⟩ := Prod.mk.inj (Option.some.inj h)
      have unsigned := (minus_suffix after).trans (suffix_of_comparison? found)
      exact (List.dropWhile_suffix _).trans unsigned

/-- The induction is on the pairs that are found. -/
theorem conditionals_suffix (cs : List Char) : (conditionals cs).2 <:+ cs := by
  fun_induction conditionals cs with
  | case1 => exact List.suffix_rfl
  | case2 cs c rest found others last more ih =>
    rw [more] at ih
    exact ih.trans (suffix_of_conditional? found)

end Suffix

/-! ## Rules

Sixteen rules, of which only the first and the last leave anything out.  For the others the second
half of `Cuts` has nothing to show, and the first is what the readers above leave. -/

namespace Rule

open Text (isDigit isBlank)
open Written (isBrace)

/-- What a rule takes is a part at the front of the text, and if it is left out it is a gap.  The
second part is about the three rules that leave something out: gaps, and names that are unknown.  A
lexeme may be any part of the text, and nothing is said of it here; what it looks like is told in
`Reading`. -/
def Cuts (rule : Rule) : Prop :=
  ∀ {context : LexContext} {cs rest : List Char} {take : Take},
    rule context cs = some (take, rest) →
      rest <:+ cs ∧ (take = .skip → Gap context.fields (part cs rest))

theorem part_of_append (front rest : List Char) : part (front ++ rest) rest = front := by
  rw [part, List.length_append, Nat.add_sub_cancel]
  exact List.take_left

/-- Where the rest is an end of the text, the part and the rest make it up. -/
theorem part_append {cs rest : List Char} (h : rest <:+ cs) : part cs rest ++ rest = cs := by
  obtain ⟨front, rfl⟩ := h
  rw [part_of_append]

/-- The part of a rule that drops characters behind a front is the front with these characters. -/
theorem part_dropWhile (front : List Char) (p : Char → Bool) (cs : List Char) :
    part (front ++ cs) (cs.dropWhile p) = front ++ cs.takeWhile p := by
  calc part (front ++ cs) (cs.dropWhile p)
      = part (front ++ cs.takeWhile p ++ cs.dropWhile p) (cs.dropWhile p) := by
        rw [List.append_assoc, List.takeWhile_append_dropWhile]
    _ = front ++ cs.takeWhile p := part_of_append _ _

/-- The rule of gaps takes blanks or braces, and these are a gap. -/
theorem cuts_gap : Cuts gap := by
  intro context cs rest take h
  unfold gap at h
  split at h
  · next c tail =>
    split at h
    -- Blanks are taken up to the first other character, and each of them is part of a gap.
    · obtain ⟨rfl, rfl⟩ := Prod.mk.inj (Option.some.inj h)
      have taken : part (c :: tail) _ = _ := part_dropWhile [] isBlank (c :: tail)
      refine ⟨List.dropWhile_suffix _, fun _ => ?_⟩
      rw [taken]
      exact .of_forall fun d mem => .inl (List.mem_takeWhile_imp mem)
    · split at h
      · obtain ⟨rfl, rfl⟩ := Prod.mk.inj (Option.some.inj h)
        have taken : part (c :: tail) _ = _ := part_dropWhile [] isBrace (c :: tail)
        refine ⟨List.dropWhile_suffix _, fun _ => ?_⟩
        rw [taken]
        exact .of_forall fun d mem => .inr (List.mem_takeWhile_imp mem)
      · cases h
  · cases h

theorem cuts_table : Cuts table := by
  intro context cs rest take h
  unfold table at h
  split at h
  · next found =>
    split at h
    · obtain ⟨rfl, rfl⟩ := Prod.mk.inj (Option.some.inj h)
      exact ⟨Written.suffix_of_bracketed? found, nofun⟩
    · cases h
  · cases h

theorem cuts_note : Cuts note := by
  intro context cs rest take h
  unfold note at h
  split at h
  · next found =>
    obtain ⟨rfl, rfl⟩ := Prod.mk.inj (Option.some.inj h)
    exact ⟨Written.suffix_of_bracketed? found, nofun⟩
  · cases h

theorem cuts_tag : Cuts tag := by
  intro context cs rest take h
  unfold tag at h
  split at h
  · next found =>
    obtain ⟨rfl, rfl⟩ := Prod.mk.inj (Option.some.inj h)
    exact ⟨Written.suffix_of_tagged? found, nofun⟩
  · cases h

theorem faces_suffix (cs : List Char) : (faces cs).2 <:+ cs := by
  unfold faces
  split
  · exact List.suffix_cons _ _
  · exact List.dropWhile_suffix _

theorem cuts_dice : Cuts dice := by
  intro context cs rest take h
  unfold dice at h
  split at h
  · next d after found =>
    split at h
    · dsimp only at h
      split at h
      · cases h
      · obtain ⟨rfl, rfl⟩ := Prod.mk.inj (Option.some.inj h)
        -- Three readers one after the other, and the letter between the first two.
        have digits := List.dropWhile_suffix isDigit (l := cs)
        rw [found] at digits
        have faces := (Suffix.conditionals_suffix _).trans (faces_suffix after)
        exact ⟨faces.trans ((List.suffix_cons d after).trans digits), nofun⟩
    · cases h
  · cases h

theorem cuts_integer : Cuts integer := by
  intro context cs rest take h
  unfold integer at h
  dsimp only at h
  split at h
  · cases h
  · obtain ⟨rfl, rfl⟩ := Prod.mk.inj (Option.some.inj h)
    exact ⟨List.dropWhile_suffix _, nofun⟩

theorem cuts_math : Cuts math := by
  intro context cs rest take h
  unfold math at h
  split at h
  · split at h
    · obtain ⟨rfl, rfl⟩ := Prod.mk.inj (Option.some.inj h)
      exact ⟨List.suffix_cons _ _, nofun⟩
    · cases h
  · cases h

/-- Stunts, three characters of which one is a letter in either case. -/
theorem cuts_stunt : Cuts stunt := by
  intro context cs rest take h
  unfold stunt at h
  split at h
  · next d after =>
    split at h
    · obtain ⟨rfl, rfl⟩ := Prod.mk.inj (Option.some.inj h)
      exact ⟨⟨['1', d, 'S'], rfl⟩, nofun⟩
    · cases h
  · cases h

/-! ### Modifiers

Two functions read all of them, so what is shown of these serves seven rules. -/

/-- A modifier with a count cuts the text if its letters stand at the front.  The letters are not
read again by the rule that the letters have led to, so the front is a parameter here. -/
theorem cuts_of_counted {kind : ModifierKind} {letters after rest : List Char}
    {barred : Option Char} {context : LexContext} {take : Take} (front : List Char)
    (h : counted kind letters barred context after = some (take, rest)) :
    rest <:+ front ++ after ∧
      (take = .skip → Gap context.fields (part (front ++ after) rest)) := by
  unfold counted at h
  dsimp only at h
  split at h
  · cases h
  · obtain ⟨rfl, rfl⟩ := Prod.mk.inj (Option.some.inj h)
    exact ⟨(List.dropWhile_suffix _).trans (List.suffix_append front after), nofun⟩

theorem cuts_keepHigh : Cuts keepHigh := by
  intro context cs rest take h
  unfold keepHigh at h
  split at h
  · exact cuts_of_counted ['k', 'h'] h
  · exact cuts_of_counted ['k'] h
  · cases h

theorem cuts_dropLow : Cuts dropLow := by
  intro context cs rest take h
  unfold dropLow at h
  split at h
  · exact cuts_of_counted ['d', 'l'] h
  · exact cuts_of_counted ['d'] h
  · cases h

theorem cuts_keepLow : Cuts keepLow := by
  intro context cs rest take h
  unfold keepLow at h
  split at h
  · exact cuts_of_counted ['k', 'l'] h
  · cases h

theorem cuts_dropHigh : Cuts dropHigh := by
  intro context cs rest take h
  unfold dropHigh at h
  split at h
  · exact cuts_of_counted ['d', 'h'] h
  · cases h

/-- Repetitions drop the letter of the cap or digits. -/
theorem times_suffix (settings : Settings) (cs : List Char) : (times settings cs).2 <:+ cs := by
  unfold times
  split
  · exact List.suffix_cons _ _
  · exact List.dropWhile_suffix _

theorem repeated_suffix (kind : ModifierKind) (context : LexContext) (after : List Char) :
    (repeated kind context after).2 <:+ after :=
  (Suffix.conditionals_suffix _).trans (times_suffix context.settings after)

/-- A repeating modifier cuts the text if its sign stands at the front.  The same for the marks of
explosions and of rolling again. -/
theorem cuts_of_repeated {kind : ModifierKind} {context : LexContext} {after rest : List Char}
    {take : Take} (front : List Char) (h : repeated kind context after = (take, rest)) :
    rest <:+ front ++ after ∧
      (take = .skip → Gap context.fields (part (front ++ after) rest)) := by
  have suffix := repeated_suffix kind context after
  rw [h] at suffix
  refine ⟨suffix.trans (List.suffix_append front after), ?_⟩
  rintro rfl
  exact nomatch congrArg Prod.fst h

theorem cuts_explodeCombine : Cuts explodeCombine := by
  intro context cs rest take h
  unfold explodeCombine at h
  split at h
  · exact cuts_of_repeated ['!', '!'] (Option.some.inj h)
  · cases h

theorem cuts_explode : Cuts explode := by
  intro context cs rest take h
  unfold explode at h
  split at h
  · exact cuts_of_repeated ['!'] (Option.some.inj h)
  · cases h

theorem cuts_reroll : Cuts reroll := by
  intro context cs rest take h
  unfold reroll at h
  split at h
  · dsimp only at h
    split at h
    · cases h
    · exact cuts_of_repeated ['r'] (Option.some.inj h)
  · cases h

/-- The rule of names takes a word.  If the name is unknown the word is left out, and then it is a
gap because it was long enough and is no field. -/
theorem cuts_name : Cuts name := by
  intro context cs rest take h
  unfold name at h
  split at h
  · next c after =>
    dsimp only at h
    split at h
    · next word =>
      rw [Bool.and_eq_true, Bool.not_eq_true', List.isEmpty_eq_false_iff] at word
      have left : after.dropWhile isNameChar <:+ c :: after :=
        (List.dropWhile_suffix _).trans (List.suffix_cons c after)
      split at h
      · obtain ⟨rfl, rfl⟩ := Prod.mk.inj (Option.some.inj h)
        exact ⟨left, nofun⟩
      -- An unknown name is left out, and it is a gap only because the rule has looked at its
      -- length.
      · next unknown =>
        obtain ⟨rfl, rfl⟩ := Prod.mk.inj (Option.some.inj h)
        refine ⟨left, fun _ => ?_⟩
        have taken : part (c :: after) _ = c :: after.takeWhile isNameChar :=
          part_dropWhile [c] isNameChar after
        rw [taken, ← List.append_nil (c :: _)]
        exact .name word.1 word.2 (fun d mem => List.mem_takeWhile_imp mem) unknown .nil
    · cases h
  · cases h

/-! ### All rules

What holds of each rule holds of the first that takes something. -/

theorem cuts_of_mem_all {rule : Rule} (h : rule ∈ all) : Cuts rule := by
  simp only [all, List.mem_cons, List.not_mem_nil, or_false] at h
  rcases h with rfl | rfl | rfl | rfl | rfl | rfl | rfl | rfl | rfl | rfl | rfl | rfl | rfl | rfl |
    rfl | rfl
  · exact cuts_gap
  · exact cuts_table
  · exact cuts_note
  · exact cuts_tag
  · exact cuts_dice
  · exact cuts_integer
  · exact cuts_math
  · exact cuts_stunt
  · exact cuts_keepHigh
  · exact cuts_dropLow
  · exact cuts_keepLow
  · exact cuts_dropHigh
  · exact cuts_explodeCombine
  · exact cuts_explode
  · exact cuts_reroll
  · exact cuts_name

/-! ## The first rule that takes something

All rules cut, so the first that takes something does. -/

variable {context : LexContext} {cs rest : List Char} {take : Take}

theorem suffix_of_firstMatch (h : firstMatch context cs = some (take, rest)) : rest <:+ cs := by
  obtain ⟨rule, mem, found⟩ := List.exists_of_findSome?_eq_some h
  exact (cuts_of_mem_all mem found).1

theorem gap_of_firstMatch (h : firstMatch context cs = some (.skip, rest)) :
    Gap context.fields (part cs rest) := by
  obtain ⟨rule, mem, found⟩ := List.exists_of_findSome?_eq_some h
  exact (cuts_of_mem_all mem found).2 rfl

/-- The part and the rest make up the text, and the part is not empty.  That the part is not empty
is what lets the loop of the lexer end; the length of what is left is decreasing along its calls. -/
theorem part_of_firstMatch (h : firstMatch context cs = some (take, rest)) :
    part cs rest ++ rest = cs ∧ part cs rest ≠ [] := by
  have whole := part_append (suffix_of_firstMatch h)
  refine ⟨whole, fun none => ?_⟩
  rw [none, List.nil_append] at whole
  exact absurd (length_of_firstMatch h) (whole ▸ Nat.lt_irrefl _)

/-- No rule takes anything of a text exactly if each refuses it.  This is what an error of the lexer
says: not that one rule has refused, but that there is none that would have taken anything. -/
theorem firstMatch_eq_none_iff :
    firstMatch context cs = none ↔ ∀ rule ∈ all, rule context cs = none :=
  List.findSome?_eq_none_iff

end Rule

end Tabletop
