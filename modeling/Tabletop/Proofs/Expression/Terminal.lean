import Mathlib.Data.List.Forall2
import Tabletop.Expression.Parse
import Tabletop.Proofs.Except

/-!
# The terminals of dice expressions

A lexeme stands for an operator, a number, a group of dice or a modifier if its kind and its data
say so.  This module says it once without the parser (`IsOperator`, `IsNumber`, `IsGroup`,
`IsModifier`) and then proves what the readers of single terms accept in these words:

* `operatorOf_eq_ok_some_iff` — an operator is a sign that the table binds.
* `literalOf_eq_ok_iff` — a number has no letter `d` and fits 64 bits, or is a finite float.
* `modifiersOf_eq_ok_iff` — all modifiers at the front are read, each with its own lexeme.
* `diceOf_eq_ok_iff` — a dice lexeme is a number, or a group with the modifiers behind it.

After that no proof opens these readers again.

The predicates are about data, and the readers are functions with errors, so each lemma is an
equation about success: which errors there are is left to the module on faults.
-/

namespace Tabletop

/-- The modifier of a kind with a count; only those that repeat take conditionals. -/
def ModifierKind.modifier (kind : ModifierKind) (n : UInt32) (conditionals : List Conditional) :
    Modifier :=
  match kind with
  | explode => .explode n conditionals
  | explodeCombine => .explodeCombine n conditionals
  | reroll => .reroll n conditionals
  | keepHigh => .keep .high n
  | keepLow => .keep .low n
  | dropHigh => .drop .high n
  | dropLow => .drop .low n

namespace Lexeme

/-- The sign of an operator. -/
def IsOperator (l : Lexeme) (op : BinaryOperator) : Prop :=
  l.kind = .math ∧ l.data = String.singleton op.toChar

/-- A number: dice without a letter `d` that read as an integer of 64 bits, or else as a finite
float.  An infinite float is refused, so it is no number at all, and not a greater one. -/
inductive IsNumber (l : Lexeme) : Number → Prop where
  | int {n : Int64} (kind : l.kind = .dice) (noDice : 'd' ∉ l.data.toList)
      (value : Decimal.int64? l.data.toList = some n) : IsNumber l (.int n)
  | float {x : Float} (kind : l.kind = .dice) (noDice : 'd' ∉ l.data.toList)
      (noInt : Decimal.int64? l.data.toList = none)
      (value : Decimal.float? l.data.toList = some x) (finite : x.isFinite) : IsNumber l (.float x)

/-- A group of dice `NdM`: what stands before the first `d` is a count of 32 bits, and what stands
after it is such a number of faces, not zero.  The lexer has written the letter small and filled in
what was missing, so this is the only form. -/
def IsGroup (l : Lexeme) (count : UInt32) (faces : Faces) : Prop :=
  l.kind = .dice ∧ ∃ n m, l.data.toList = n ++ 'd' :: m ∧ 'd' ∉ n ∧
    Decimal.word32? n = some count ∧ Decimal.word32? m = some faces.count

/-- A modifier whose data is a count of 32 bits.  Conditionals that a modifier does not take are not
refused here, since the lexer never makes them. -/
def IsModifier (l : Lexeme) (m : Modifier) : Prop :=
  ∃ kind n, l.kind = .modifier kind ∧ Decimal.word32? l.data.toList = some n ∧
    m = kind.modifier n l.conditionalList

end Lexeme

/-! ## What the readers of terms accept

One lemma for each reader, from operators to dice. -/

/-- The texts of operators are single characters, one for each.  So an operator is known by the data
of its lexeme. -/
theorem BinaryOperator.ofString?_eq_some_iff {s : String} {op : BinaryOperator} :
    ofString? s = some op ↔ s = String.singleton op.toChar := by
  constructor
  · intro h
    unfold ofString? at h
    split at h <;> cases h <;> rfl
  · rintro rfl
    exact ofString?_toChar op

namespace Text

variable {p : Char → Bool} {cs before after : List Char}

/-- What a split has found: the first character that parts the text. -/
theorem eq_of_splitFirst? (h : splitFirst? p cs = some (before, after)) :
    ∃ c, p c ∧ cs = before ++ c :: after ∧ ∀ x ∈ before, ¬ p x := by
  induction cs generalizing before with
  | nil => cases h
  | cons d cs ih =>
    rw [splitFirst?] at h
    split at h
    · next parts =>
      cases h
      exact ⟨d, parts, rfl, by simp⟩
    · next passes =>
      obtain ⟨⟨before', after'⟩, found, eq⟩ := Option.map_eq_some_iff.1 h
      cases eq
      obtain ⟨c, parts, rfl, others⟩ := ih found
      exact ⟨c, parts, rfl, List.forall_mem_cons.2 ⟨passes, others⟩⟩

/-- A text is split at the first character of this kind. -/
theorem splitFirst?_append {c : Char} (parts : p c) (others : ∀ x ∈ before, ¬ p x) :
    splitFirst? p (before ++ c :: after) = some (before, after) := by
  induction before with
  | nil => simp [splitFirst?, parts]
  | cons d before ih =>
    obtain ⟨passes, others⟩ := List.forall_mem_cons.1 others
    simp [splitFirst?, passes, ih others]

/-! ### Texts without the character

The opposite of the two lemmas above, for the data of numbers. -/

theorem splitFirst?_eq_none_iff : splitFirst? p cs = none ↔ ∀ x ∈ cs, ¬ p x := by
  induction cs with
  | nil => simp [splitFirst?]
  | cons d cs ih => by_cases parts : p d <;> simp [splitFirst?, parts, ih]

end Text

/-- Any number but zero is a number of faces. -/
theorem Faces.ofWord?_eq_some_iff {n : UInt32} {f : Faces} : ofWord? n = some f ↔ n = f.count := by
  obtain ⟨count, ne⟩ := f
  simp only [ofWord?]
  split
  · simp
  · constructor
    · simp
    · rintro rfl
      contradiction

namespace Expr

/-! ## The readers

Each reader is a case distinction over its lexeme, and each equivalence goes through the same cases
twice: once for what has been read, and once for what is to be read. -/

/-- What may follow a group of dice: anything but a modifier, since the group takes them all.  The
end of the lexemes is allowed. -/
def NoModifier (rest : List Lexeme) : Prop :=
  ∀ l ∈ rest.head?, ∀ kind, l.kind ≠ .modifier kind

theorem operatorOf_eq_ok_some_iff {table : PrecedenceTable} {l : Lexeme} {op : BinaryOperator}
    {binding : Binding} :
    operatorOf table l = .ok (some (op, binding)) ↔
      l.IsOperator op ∧ table.binding op = some binding := by
  -- Four ends: a parenthesis, no operator, an operator that is bound, and one that is not.
  unfold operatorOf Lexeme.IsOperator
  rw [← BinaryOperator.ofString?_eq_some_iff]
  split
  · next kind => simp [kind]
  · next kind =>
    split
    · next noOperator => simp [noOperator]
    · next op' isOperator =>
      split
      · next binding' bound =>
        simp only [Except.ok.injEq, Option.some.injEq, Prod.mk.injEq, kind, isOperator, true_and]
        constructor
        · rintro ⟨rfl, rfl⟩
          exact ⟨rfl, bound⟩
        · rintro ⟨rfl, found⟩
          exact ⟨rfl, Option.some.inj (bound.symm.trans found)⟩
      · next unbound =>
        simp only [reduceCtorEq, kind, isOperator, true_and, Option.some.injEq, false_iff]
        rintro ⟨rfl, found⟩
        exact absurd (unbound.symm.trans found) (by simp)
  · next notMath => exact ⟨by simp, fun h => absurd h.1.1 notMath⟩

/-- A literal is an integer if it can be one, and a finite float otherwise.  Only if it is no
integer is it tried as a float, so the two cases of `IsNumber` exclude one another. -/
theorem literalOf_eq_ok_iff {l : Lexeme} {x : Number} (kind : l.kind = .dice)
    (noDice : 'd' ∉ l.data.toList) : literalOf l = .ok x ↔ l.IsNumber x := by
  unfold literalOf
  split
  · next n int =>
    constructor
    · intro h
      cases h
      exact .int kind noDice int
    · rintro (⟨_, _, value⟩ | ⟨_, _, noInt, _⟩)
      · exact congrArg (Except.ok ∘ Number.int) (Option.some.inj (int.symm.trans value))
      · exact absurd (int.symm.trans noInt) (by simp)
  · next noInt =>
    split
    · next y float =>
      split
      · next finite =>
        constructor
        · intro h
          cases h
          exact .float kind noDice noInt float finite
        · rintro (⟨_, _, value⟩ | ⟨_, _, _, value, _⟩)
          · exact absurd (noInt.symm.trans value) (by simp)
          · exact congrArg (Except.ok ∘ Number.float) (Option.some.inj (float.symm.trans value))
      · next infinite =>
        refine ⟨by simp, ?_⟩
        rintro (⟨_, _, value⟩ | ⟨_, _, _, value, finite⟩)
        · exact absurd (noInt.symm.trans value) (by simp)
        · exact absurd (Option.some.inj (float.symm.trans value) ▸ finite) infinite
    · next noFloat =>
      refine ⟨by simp, ?_⟩
      rintro (⟨_, _, value⟩ | ⟨_, _, _, value, _⟩)
      · exact absurd (noInt.symm.trans value) (by simp)
      · exact absurd (noFloat.symm.trans value) (by simp)

/-- A modifier is its kind with the number in its data. -/
theorem modifierOf_eq_ok_iff {l : Lexeme} {kind : ModifierKind} {m : Modifier}
    (is : l.kind = .modifier kind) : modifierOf l kind = .ok m ↔ l.IsModifier m := by
  unfold modifierOf Lexeme.IsModifier
  simp only [is, LexemeKind.modifier.injEq]
  cases count : Decimal.word32? l.data.toList with
  | none => simp
  | some n =>
    cases kind <;> simp [ModifierKind.modifier, eq_comm]

/-- All modifiers at the front are read, and reading stops at the first lexeme that is none.  The
induction is on the lexemes from left to right, and on the modifiers from right to left.  The two
directions go by different inductions, because the reader knows its lexemes and the relation knows
its modifiers. -/
theorem modifiersOf_eq_ok_iff {lexemes rest : List Lexeme} {ms : List Modifier}
    {texts : List String} :
    modifiersOf lexemes = .ok (ms, texts, rest) ↔
      ∃ ls, lexemes = ls ++ rest ∧ List.Forall₂ Lexeme.IsModifier ls ms ∧
        texts = ls.map (·.written) ∧ NoModifier rest := by
  constructor
  · intro read
    induction lexemes generalizing ms texts rest with
    | nil =>
      cases read
      exact ⟨[], rfl, .nil, rfl, by simp [NoModifier]⟩
    | cons l after ih =>
      rw [modifiersOf] at read
      split at read
      · next kind is =>
        obtain ⟨m, first, read⟩ := Except.bind_eq_ok_iff.1 read
        obtain ⟨⟨others, texts', rest'⟩, more, eq⟩ := Except.bind_eq_ok_iff.1 read
        cases eq
        obtain ⟨ls, rfl, modifiers, rfl, none⟩ := ih more
        exact ⟨l :: ls, rfl, .cons ((modifierOf_eq_ok_iff is).1 first) modifiers, rfl, none⟩
      · next isNone =>
        cases read
        refine ⟨[], rfl, .nil, rfl, fun l' head kind is => ?_⟩
        cases head
        exact isNone kind is
  · rintro ⟨ls, rfl, modifiers, rfl, none⟩
    -- Before a rest without modifiers the recursion ends, and each modifier in front adds itself.
    induction modifiers with
    | nil =>
      cases rest with
      | nil => rfl
      | cons l rest =>
        rw [List.nil_append, modifiersOf]
        split
        · next kind is => exact absurd is (none l rfl kind)
        · rfl
    | cons first _ ih =>
      obtain ⟨kind, _, is, _⟩ := id first
      rw [List.cons_append, modifiersOf, is]
      exact Except.bind_eq_ok_iff.2 ⟨_, (modifierOf_eq_ok_iff is).2 first,
        Except.bind_eq_ok_iff.2 ⟨_, ih, rfl⟩⟩

/-- The data of a dice lexeme has no count and no faces exactly if it has no letter `d`.  This is
what tells numbers from groups. -/
theorem countAndFaces?_eq_none_iff {data : String} :
    countAndFaces? data = none ↔ 'd' ∉ data.toList := by
  rw [countAndFaces?, Option.map_eq_none_iff, Text.splitFirst?_eq_none_iff]
  simp only [beq_iff_eq]
  exact ⟨fun none mem => none _ mem rfl, fun notMem x mem eq => notMem (eq ▸ mem)⟩

/-- A group has a count and faces, both of which fit their words. -/
theorem countAndFaces?_eq_some_iff {l : Lexeme} {count : UInt32} {faces : Faces}
    (kind : l.kind = .dice) :
    countAndFaces? l.data = some (some count, some faces) ↔ l.IsGroup count faces := by
  simp only [countAndFaces?, Option.map_eq_some_iff, Prod.exists, Prod.mk.injEq,
    Option.bind_eq_some_iff, Faces.ofWord?_eq_some_iff]
  constructor
  · -- The first `d` divides the data, so there is none in the count.
    rintro ⟨n, m, split, isCount, _, isFaces, rfl⟩
    obtain ⟨c, is, data, others⟩ := Text.eq_of_splitFirst? split
    obtain rfl := eq_of_beq is
    exact ⟨kind, n, m, data, fun mem => others _ mem (beq_self_eq_true _), isCount, isFaces⟩
  · rintro ⟨_, n, m, data, notMem, isCount, isFaces⟩
    refine ⟨n, m, ?_, isCount, _, isFaces, rfl⟩
    rw [data]
    exact Text.splitFirst?_append (beq_self_eq_true _) fun x mem eq => notMem (eq_of_beq eq ▸ mem)

/-- **Dice are a number or a group**, and a group takes all modifiers behind it.  The text of a
group is put together from the texts of its lexemes, and so has no spaces in it. -/
theorem diceOf_eq_ok_iff {l : Lexeme} {after rest : List Lexeme} {e : Expr}
    (kind : l.kind = .dice) :
    diceOf l after = .ok (e, rest) ↔
      (∃ x, l.IsNumber x ∧ e = .literal x ∧ rest = after) ∨
      ∃ count faces ls ms, l.IsGroup count faces ∧ after = ls ++ rest ∧
        List.Forall₂ Lexeme.IsModifier ls ms ∧ NoModifier rest ∧
        e = .dice
          { count, faces, conditionals := l.conditionalList, modifiers := ms
            written := String.join ((l :: ls).map (·.written)) } := by
  constructor
  · intro read
    unfold diceOf at read
    split at read
    · next noDice =>
      have noDice := countAndFaces?_eq_none_iff.1 noDice
      obtain ⟨x, number, eq⟩ := Except.bind_eq_ok_iff.1 read
      cases eq
      exact .inl ⟨x, (literalOf_eq_ok_iff kind noDice).1 number, rfl, rfl⟩
    · next count faces split =>
      obtain ⟨⟨ms, texts, rest'⟩, found, eq⟩ := Except.bind_eq_ok_iff.1 read
      cases eq
      obtain ⟨ls, rfl, modifiers, rfl, none⟩ := modifiersOf_eq_ok_iff.1 found
      exact .inr ⟨count, faces, ls, ms, (countAndFaces?_eq_some_iff kind).1 split, rfl, modifiers,
        none, rfl⟩
    · cases read
  · rintro (⟨x, number, rfl, rfl⟩ | ⟨count, faces, ls, ms, group, rfl, modifiers, none, rfl⟩)
    · have noDice : 'd' ∉ l.data.toList := by cases number <;> assumption
      rw [diceOf, countAndFaces?_eq_none_iff.2 noDice]
      exact Except.bind_eq_ok_iff.2 ⟨x, (literalOf_eq_ok_iff kind noDice).2 number, rfl⟩
    · rw [diceOf, (countAndFaces?_eq_some_iff kind).2 group]
      exact Except.bind_eq_ok_iff.2
        ⟨_, modifiersOf_eq_ok_iff.2 ⟨ls, rfl, modifiers, rfl, none⟩, rfl⟩

end Expr

end Tabletop
