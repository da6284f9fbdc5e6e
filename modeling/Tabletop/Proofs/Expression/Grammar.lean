import Tabletop.Proofs.Expression.Climbing
import Tabletop.Proofs.Expression.Terminal

/-!
# The grammar of dice expressions

The language of arithmetic on dice, told without the parser:

    sum     := product | sum (+|-) product
    product := factor | product (*|/) factor
    factor  := - factor | atom | atom ^ factor
    atom    := ( sum ) | number | stunt | dice modifier*

`Derives` is this grammar, with the tree that each derivation stands for.  A derivation names every
lexeme of its phrase once and in order, so what has a derivation has been read whole.

### Climbing and the grammar

Under the standard precedences the two agree (`climbs_iff_derives`), although they differ in shape:
the grammar builds sums and products from the left by recursion, climbing by a loop that carries the
tree so far.  What connects them is what may *follow* a phrase.  A phrase is `Settled` before
lexemes that cannot make it grow, and both inductions carry it along:

* From the rules to the grammar, the loop keeps a left tree that is settled before what is left to
  read, which is why the next operator decides the kind of phrase alone.
* From the grammar to the rules, a phrase is read in front of any settled rest, so that the left
  operand of an operator is read up to the operator and not beyond.
-/

namespace Tabletop

/-- The kinds of phrases, from the most loosely bound to the most tightly bound. -/
inductive Phrase where
  | sum
  | product
  | factor
  | atom
  deriving DecidableEq

open Tabletop.Expr (isSign operatorOf)

/-- **The grammar.**  `Derives p w e`: the lexemes `w`, all of them and in this order, are a phrase
of kind `p`, and `e` is the tree of the derivation. -/
inductive Derives : Phrase → List Lexeme → Expr → Prop where
  | ofProduct {w : List Lexeme} {e : Expr} (phrase : Derives .product w e) : Derives .sum w e
  | sum {v w : List Lexeme} {sign : Lexeme} {a b : Expr} {op : BinaryOperator}
      (left : Derives .sum v a) (sign_op : sign.IsOperator op) (isSum : op = .add ∨ op = .sub)
      (right : Derives .product w b) : Derives .sum (v ++ sign :: w) (.binary a op b)
  | ofFactor {w : List Lexeme} {e : Expr} (phrase : Derives .factor w e) : Derives .product w e
  | product {v w : List Lexeme} {sign : Lexeme} {a b : Expr} {op : BinaryOperator}
      (left : Derives .product v a) (sign_op : sign.IsOperator op)
      (isProduct : op = .mul ∨ op = .div)
      (right : Derives .factor w b) : Derives .product (v ++ sign :: w) (.binary a op b)
  | minus {sign : Lexeme} {w : List Lexeme} {e : Expr} (minus : isSign sign "-")
      (phrase : Derives .factor w e) : Derives .factor (sign :: w) (.negate e)
  | ofAtom {w : List Lexeme} {e : Expr} (phrase : Derives .atom w e) : Derives .factor w e
  | power {v w : List Lexeme} {sign : Lexeme} {a b : Expr} (left : Derives .atom v a)
      (sign_op : sign.IsOperator .pow) (right : Derives .factor w b) :
      Derives .factor (v ++ sign :: w) (.binary a .pow b)
  | parentheses {opening closing : Lexeme} {w : List Lexeme} {e : Expr} (opens : isSign opening "(")
      (phrase : Derives .sum w e) (closes : isSign closing ")") :
      Derives .atom (opening :: (w ++ [closing])) (.grouping e)
  | number {l : Lexeme} {x : Number} (number : l.IsNumber x) : Derives .atom [l] (.literal x)
  | stunt {l : Lexeme} (kind : l.kind = .stunt) : Derives .atom [l] (.stunt l.written)
  | dice {l : Lexeme} {count : UInt32} {faces : Faces} {ls : List Lexeme} {ms : List Modifier}
      (group : l.IsGroup count faces) (modifiers : List.Forall₂ Lexeme.IsModifier ls ms) :
      Derives .atom (l :: ls) (.dice
        { count, faces, conditionals := l.conditionalList, modifiers := ms
          written := String.join ((l :: ls).map (·.written)) })

namespace Derives

/-- No phrase contains a reference to a document.  The induction is on the derivation, whose
terminals are numbers, stunts, groups, modifiers and signs. -/
theorem kind_ne_reference {p : Phrase} {w : List Lexeme} {e : Expr} (h : Derives p w e) :
    ∀ l ∈ w, ∀ kind, l.kind ≠ .reference kind := by
  induction h with
  | ofProduct _ ih | ofFactor _ ih | ofAtom _ ih => exact ih
  | sum _ sign_op _ _ ihLeft ihRight | product _ sign_op _ _ ihLeft ihRight
  | power _ sign_op _ ihLeft ihRight =>
    simp only [List.mem_append, List.mem_cons]
    rintro l (mem | rfl | mem) kind
    · exact ihLeft l mem kind
    · simp [sign_op.1]
    · exact ihRight l mem kind
  | minus minus _ ih =>
    simp only [List.mem_cons]
    rintro l (rfl | mem) kind
    · simp [(Expr.isSign_iff.1 minus).1]
    · exact ih l mem kind
  | parentheses opens _ closes ih =>
    simp only [List.mem_cons, List.mem_append, List.not_mem_nil, or_false]
    rintro l (rfl | mem | rfl) kind
    · simp [(Expr.isSign_iff.1 opens).1]
    · exact ih l mem kind
    · simp [(Expr.isSign_iff.1 closes).1]
  | number number =>
    simp only [List.mem_singleton]
    rintro l rfl kind
    cases number <;> simp_all
  | stunt kind =>
    simp only [List.mem_singleton]
    rintro l rfl _
    simp [kind]
  | dice group modifiers =>
    simp only [List.mem_cons]
    rintro l (rfl | mem) kind
    · simp [group.1]
    · induction modifiers with
      | nil => cases mem
      | cons head _ ih =>
        rcases List.mem_cons.1 mem with rfl | mem
        · obtain ⟨_, _, is, _⟩ := head
          simp [is]
        · exact ih mem

end Derives

/-! ## Strengths and phrases

The grammar has kinds of phrases, and climbing has numbers.  All comparisons of the two are made in
this section, by going through the kinds. -/

namespace Phrase

/-- The strength that climbing asks for when it reads a phrase of this kind.  An atom is read
without asking. -/
def strength : Phrase → UInt8
  | sum => 0
  | product => 2
  | factor => 3
  | atom => 4

/-- Operators below this strength do not make a phrase of this kind grow. -/
def limit : Phrase → UInt8
  | sum => 2
  | product => 3
  | factor => 3
  | atom => 4

theorem strength_le_limit (p : Phrase) : p.strength ≤ p.limit := by
  cases p <;> decide

/-- No operator follows that would make the phrase grow. -/
def Settled (p : Phrase) (rest : List Lexeme) : Prop :=
  ∀ l ∈ rest.head?, ∀ op binding, operatorOf .standard l = .ok (some (op, binding)) →
    binding.precedence < p.limit

end Phrase

namespace BinaryOperator

/-- The phrase that an operator makes of its operands. -/
def phrase : BinaryOperator → Phrase
  | add | sub => .sum
  | mul | div => .product
  | pow => .factor

/-- The phrase that stands before an operator. -/
def leftPhrase : BinaryOperator → Phrase
  | add | sub => .sum
  | mul | div => .product
  | pow => .atom

/-- The phrase that stands after an operator. -/
def rightPhrase : BinaryOperator → Phrase
  | add | sub => .product
  | mul | div => .factor
  | pow => .factor

/-- The binding of an operator in arithmetic. -/
def standardBinding : BinaryOperator → Binding
  | add | sub => ⟨1, .left⟩
  | mul | div => ⟨2, .left⟩
  | pow => ⟨3, .right⟩

variable {op : BinaryOperator}

/-! ### The standard table and the grammar

The table orders operators by numbers and the grammar by phrases.  That they agree is seen for each
of the five operators from these two lists, and no later proof looks at them again. -/

theorem standard_binding : PrecedenceTable.standard.binding op = some op.standardBinding := by
  cases op <;> rfl

/-- The strength that is asked for on the right of an operator is that of the phrase there. -/
theorem rightOperand_standardBinding :
    op.standardBinding.rightOperand = some op.rightPhrase.strength := by
  cases op <;> rfl

/-- The strengths are those of the grammar: an operator is read into its own phrase, it ends the
phrase on its left, and the phrase on its right ends before an operator of its own strength unless
it groups to the right. -/
theorem strength_phrase_le_precedence : op.phrase.strength ≤ op.standardBinding.precedence := by
  cases op <;> decide

/-- The phrase on the left of an operator is settled before the operator. -/
theorem precedence_lt_limit_leftPhrase :
    op.standardBinding.precedence < op.leftPhrase.limit := by
  cases op <;> decide

theorem strength_phrase_le_strength_leftPhrase :
    op.phrase.strength ≤ op.leftPhrase.strength := by
  cases op <;> decide

theorem limit_phrase : op.phrase.limit = op.rightPhrase.strength := by
  cases op <;> rfl

/-- A phrase that would not grow by an operator stands on its left. -/
theorem strength_leftPhrase_le {q : Phrase} (grows : op.standardBinding.precedence < q.limit) :
    op.leftPhrase.strength ≤ q.strength := by
  revert grows
  cases op <;> cases q <;> decide

/-- An operator that is strong enough makes a phrase of the kind asked for, or of a tighter one. -/
theorem strength_le_strength_phrase {p : Phrase} (notAtom : p ≠ .atom)
    (strong : ¬ op.standardBinding.precedence < p.strength) :
    p.strength ≤ op.phrase.strength := by
  revert notAtom strong
  cases op <;> cases p <;> decide

end BinaryOperator

namespace Derives

/-- A tightly bound phrase is also a phrase of every looser kind. -/
theorem loosen {p q : Phrase} {w : List Lexeme} {e : Expr} (h : Derives p w e)
    (le : q.strength ≤ p.strength) : Derives q w e :=
  match p, q, h with
  | .sum, .sum, h | .product, .product, h | .factor, .factor, h | .atom, .atom, h => h
  | .product, .sum, h => .ofProduct h
  | .factor, .sum, h => .ofProduct (.ofFactor h)
  | .atom, .sum, h => .ofProduct (.ofFactor (.ofAtom h))
  | .factor, .product, h => .ofFactor h
  | .atom, .product, h => .ofFactor (.ofAtom h)
  | .atom, .factor, h => .ofAtom h
  | .sum, .product, _ | .sum, .factor, _ | .sum, .atom, _ | .product, .factor, _
  | .product, .atom, _ | .factor, .atom, _ => absurd le (by decide)

/-- The three rules of the grammar that join two phrases by an operator, as one. -/
theorem binary {op : BinaryOperator} {v w : List Lexeme} {sign : Lexeme} {a b : Expr}
    (left : Derives op.leftPhrase v a) (sign_op : sign.IsOperator op)
    (right : Derives op.rightPhrase w b) :
    Derives op.phrase (v ++ sign :: w) (.binary a op b) := by
  cases op with
  | add => exact .sum left sign_op (.inl rfl) right
  | sub => exact .sum left sign_op (.inr rfl) right
  | mul => exact .product left sign_op (.inl rfl) right
  | div => exact .product left sign_op (.inr rfl) right
  | pow => exact .power left sign_op right

end Derives

namespace Expr

open PrecedenceTable (standard)

/-- Under this table every sign of an operator is one. -/
theorem operatorOf_standard_eq_ok_some_iff {l : Lexeme} {op : BinaryOperator} {binding : Binding} :
    operatorOf standard l = .ok (some (op, binding)) ↔
      l.IsOperator op ∧ binding = op.standardBinding := by
  rw [operatorOf_eq_ok_some_iff, BinaryOperator.standard_binding, Option.some.injEq,
    eq_comm (a := binding)]

theorem settled_of_stopsAt {p : Phrase} {least : UInt8} {rest : List Lexeme}
    (stops : StopsAt standard least rest) (le : least ≤ p.limit) : p.Settled rest := by
  rintro l head op binding operator
  cases rest with
  | nil => cases head
  | cons l' rest =>
    cases head
    exact UInt8.lt_of_lt_of_le (stops.precedence_lt operator) le

/-- An atom is settled before anything, since no operator binds inside of it. -/
theorem settled_atom (rest : List Lexeme) : Phrase.atom.Settled rest := by
  rintro l - op binding operator
  obtain ⟨-, rfl⟩ := operatorOf_standard_eq_ok_some_iff.1 operator
  cases op <;> decide

/-! ## From the rules to the grammar

The invariant of the loop is in the definition; what is left is an induction over the rules. -/

/-- What the grammar says of a reader that has succeeded.  The loop is given a left tree with its
own derivation, settled before what the loop has yet to read. -/
def Reader.Derived : Reader → List Lexeme → Expr → List Lexeme → Prop
  | operand, lexemes, e, rest =>
      ∃ w, lexemes = w ++ rest ∧
        (Derives .atom w e ∨ Derives .factor w e ∧ Phrase.factor.Settled rest)
  | climb least, lexemes, e, rest =>
      ∀ p : Phrase, p ≠ .atom → p.strength = least →
        ∃ w, lexemes = w ++ rest ∧ Derives p w e ∧ StopsAt standard least rest
  | operations least left, lexemes, e, rest =>
      ∀ p : Phrase, p ≠ .atom → p.strength = least →
        ∀ (q : Phrase) (v : List Lexeme), Derives q v left → p.strength ≤ q.strength →
          q.Settled lexemes →
            ∃ w, lexemes = w ++ rest ∧ Derives p (v ++ w) e ∧ StopsAt standard least rest

/-- **What is read has a derivation.** The cases are the rules. -/
theorem derived_of_climbs {reader : Reader} {lexemes rest : List Lexeme} {e : Expr}
    (h : Climbs standard reader lexemes e rest) : reader.Derived lexemes e rest := by
  induction h with
  -- Inside of parentheses any sum is read.
  | @parentheses opening closing _ rest _ opens _ closes ih =>
    obtain ⟨w, rfl, phrase, -⟩ := ih .sum (by decide) rfl
    exact ⟨opening :: (w ++ [closing]), by simp, .inl (.parentheses opens phrase closes)⟩
  -- A minus asks for the greatest strength, which is that of a factor.
  | @minus sign _ _ _ minus _ ih =>
    obtain ⟨w, rfl, phrase, stops⟩ := ih .factor (by decide) (by decide)
    exact ⟨sign :: w, rfl, .inr ⟨.minus minus phrase, settled_of_stopsAt stops (by decide)⟩⟩
  | @dice l _ _ _ kind read =>
    rcases (diceOf_eq_ok_iff kind).1 read with
      ⟨x, number, rfl, rfl⟩ | ⟨count, faces, ls, ms, group, rfl, modifiers, -, rfl⟩
    · exact ⟨[l], rfl, .inl (.number number)⟩
    · exact ⟨l :: ls, rfl, .inl (.dice group modifiers)⟩
  | @stunt l _ kind => exact ⟨[l], rfl, .inl (.stunt kind)⟩
  | climb _ _ ihFirst ihOthers =>
    intro p notAtom strength
    obtain ⟨v, rfl, atom | ⟨factor, settled⟩⟩ := ihFirst
    · obtain ⟨w, rfl, phrase, stops⟩ := ihOthers p notAtom strength .atom v atom
        (by cases p <;> decide) (settled_atom _)
      exact ⟨v ++ w, by simp, phrase, stops⟩
    · obtain ⟨w, rfl, phrase, stops⟩ := ihOthers p notAtom strength .factor v factor
        (by revert notAtom; cases p <;> decide) settled
      exact ⟨v ++ w, by simp, phrase, stops⟩
  -- Nothing is added to the left tree, which is a phrase of a kind tight enough.
  | stop stops =>
    intro p _ _ q v phrase tight _
    exact ⟨[], rfl, by simpa using phrase.loosen tight, stops⟩
  | @step least _ l _ _ _ left _ _ op _ operator strong asks _ _ ihOperand ihMore =>
    rintro p notAtom rfl q v phrase _ settled
    obtain ⟨sign, rfl⟩ := operatorOf_standard_eq_ok_some_iff.1 operator
    -- what follows the left tree is this operator, so the tree is a left operand for it
    have grows := settled l rfl op _ operator
    obtain rfl := Option.some.inj (BinaryOperator.rightOperand_standardBinding.symm.trans asks)
    obtain ⟨w, rfl, right, stops⟩ := ihOperand op.rightPhrase (by cases op <;> decide) rfl
    have joined := (phrase.loosen (BinaryOperator.strength_leftPhrase_le grows)).binary sign right
    obtain ⟨u, rfl, whole, stops⟩ := ihMore p notAtom rfl op.phrase _ joined
      (BinaryOperator.strength_le_strength_phrase notAtom strong)
      (settled_of_stopsAt stops (UInt8.le_of_eq BinaryOperator.limit_phrase.symm))
    exact ⟨l :: (w ++ u), by simp, by simpa using whole, stops⟩

/-! ## From the grammar to the rules

The converse goes by what may follow a phrase. -/

/-- Where reading stops it stops for a greater strength. -/
theorem stopsAt_of_stopsAt {table : PrecedenceTable} {least least' : UInt8} {rest : List Lexeme}
    (stops : StopsAt table least rest) (le : least ≤ least') : StopsAt table least' rest := by
  cases rest with
  | nil => trivial
  | cons l rest =>
    rcases stops with none | ⟨op, binding, operator, weak⟩
    · exact .inl none
    · exact .inr ⟨op, binding, operator, UInt8.lt_of_lt_of_le weak le⟩

theorem noModifier_of_stopsAt {table : PrecedenceTable} {least : UInt8} {rest : List Lexeme}
    (stops : StopsAt table least rest) : NoModifier rest := by
  rintro l head kind is
  cases rest with
  | nil => cases head
  | cons l' rest =>
    cases head
    simp [StopsAt, operatorOf, is] at stops

/-- Reading stops at a closing parenthesis, whatever strength is asked for. -/
theorem stopsAt_closing {table : PrecedenceTable} {least : UInt8} {closing : Lexeme}
    {rest : List Lexeme} (closes : isSign closing ")") : StopsAt table least (closing :: rest) := by
  obtain ⟨kind, data⟩ := isSign_iff.1 closes
  left
  simp [operatorOf, kind, data, BinaryOperator.ofString?]

/-! ### Phrases in front of other lexemes

A phrase is read as a whole in front of anything at which reading stops for it.  This is the
statement that goes through an induction on derivations, since in a longer phrase a part has the
rest behind it. -/

/-- A phrase is read whole in front of anything that does not make it grow: climbing comes to its
tree and goes on with what follows. -/
def ReadsWhole (p : Phrase) (w : List Lexeme) (e : Expr) : Prop :=
  ∀ least rest e' rest', least ≤ p.strength → StopsAt standard p.limit rest →
    Climbs standard (.operations least e) rest e' rest' →
      Climbs standard (.climb least) (w ++ rest) e' rest'

namespace ReadsWhole

variable {p q : Phrase} {v w : List Lexeme} {a b e : Expr}

theorem loosen (h : ReadsWhole p w e) (strength : q.strength ≤ p.strength)
    (limit : q.limit ≤ p.limit) : ReadsWhole q w e :=
  fun least rest e' rest' le stops more =>
    h least rest e' rest' (UInt8.le_trans le strength) (stopsAt_of_stopsAt stops limit) more

theorem ofOperand (h : ∀ rest, NoModifier rest → Climbs standard .operand (w ++ rest) e rest) :
    ReadsWhole .atom w e :=
  fun _ rest _ _ _ stops more => .climb (h rest (noModifier_of_stopsAt stops)) more

/-- Read before a rest that stops climbing at once, a phrase comes to its own tree. -/
theorem climbs (h : ReadsWhole p w e) (rest : List Lexeme)
    (stops : StopsAt standard p.strength rest) :
    Climbs standard (.climb p.strength) (w ++ rest) e rest :=
  h p.strength rest e rest (UInt8.le_refl _) (stopsAt_of_stopsAt stops p.strength_le_limit)
    (.stop stops)

/-- **Two phrases and an operator are read whole.** The left one is read up to the operator, since
it is settled before it; then the loop takes the operator, and the right one behind it. -/
theorem binary (op : BinaryOperator) {sign : Lexeme} (left : ReadsWhole op.leftPhrase v a)
    (sign_op : sign.IsOperator op) (right : ReadsWhole op.rightPhrase w b) :
    ReadsWhole op.phrase (v ++ sign :: w) (.binary a op b) := by
  intro least rest e' rest' le stops more
  have operator := operatorOf_standard_eq_ok_some_iff.2 ⟨sign_op, rfl⟩
  have strong : ¬ op.standardBinding.precedence < least :=
    UInt8.not_lt.2 (UInt8.le_trans le BinaryOperator.strength_phrase_le_precedence)
  rw [BinaryOperator.limit_phrase] at stops
  have rightRead := right.climbs rest stops
  rw [List.append_assoc, List.cons_append]
  exact left least _ e' rest'
    (UInt8.le_trans le BinaryOperator.strength_phrase_le_strength_leftPhrase)
    (.inr ⟨op, _, operator, BinaryOperator.precedence_lt_limit_leftPhrase⟩)
    (.step operator strong BinaryOperator.rightOperand_standardBinding rightRead more)

end ReadsWhole

/-- **What has a derivation is read whole.** The induction is on the derivation, and only atoms and
operators take any work. -/
theorem readsWhole_of_derives {p : Phrase} {w : List Lexeme} {e : Expr} (h : Derives p w e) :
    ReadsWhole p w e := by
  induction h with
  | ofProduct _ ih => exact ih.loosen (by decide) (by decide)
  | ofFactor _ ih => exact ih.loosen (by decide) (by decide)
  | ofAtom _ ih => exact ih.loosen (by decide) (by decide)
  | sum _ sign_op isSum _ ihLeft ihRight =>
    rcases isSum with rfl | rfl
    · exact .binary .add ihLeft sign_op ihRight
    · exact .binary .sub ihLeft sign_op ihRight
  | product _ sign_op isProduct _ ihLeft ihRight =>
    rcases isProduct with rfl | rfl
    · exact .binary .mul ihLeft sign_op ihRight
    · exact .binary .div ihLeft sign_op ihRight
  | power _ sign_op _ ihLeft ihRight => exact .binary .pow ihLeft sign_op ihRight
  | minus minus _ ih =>
    intro least rest e' rest' _ stops more
    exact .climb (.minus minus (ih.climbs rest stops)) more
  | @parentheses _ closing w _ opens _ closes ih =>
    refine .ofOperand fun rest _ => ?_
    have within := ih.climbs (closing :: rest) (stopsAt_closing closes)
    rw [List.cons_append, List.append_assoc]
    exact .parentheses opens within closes
  | @number l _ number =>
    refine .ofOperand fun rest _ => ?_
    have kind : l.kind = .dice := by cases number <;> assumption
    exact .dice kind ((diceOf_eq_ok_iff kind).2 (.inl ⟨_, number, rfl, rfl⟩))
  | stunt kind => exact .ofOperand fun rest _ => .stunt kind
  | dice group modifiers =>
    refine .ofOperand fun rest none => ?_
    exact .dice group.1 ((diceOf_eq_ok_iff group.1).2
      (.inr ⟨_, _, _, _, group, rfl, modifiers, none, rfl⟩))

/-- **Climbing under the standard precedences is the grammar of arithmetic.** -/
theorem climbs_iff_derives {lexemes : List Lexeme} {e : Expr} :
    Climbs standard (.climb 0) lexemes e [] ↔ Derives .sum lexemes e := by
  constructor
  · intro h
    obtain ⟨w, eq, phrase, -⟩ := derived_of_climbs h .sum (by decide) rfl
    rwa [eq, List.append_nil]
  · intro h
    have read := (readsWhole_of_derives h).climbs [] trivial
    rwa [List.append_nil] at read

end Expr

/-- **The language of the parser, and its trees.**  Under the standard precedences a sequence of
lexemes is parsed exactly if all of it is derived as a sum, and into the tree of that derivation;
no sequence has two trees; and none that is parsed contains a reference. -/
theorem Expression.ofLexemes_standard_eq_ok_iff_derives (lexemes : List Lexeme) (written : String) :
    (∀ e : Expression, Expression.ofLexemes .standard lexemes written = .ok e ↔
      Derives .sum lexemes e.root ∧ e.written = written) ∧
    (∀ a b : Expr, Derives .sum lexemes a → Derives .sum lexemes b → a = b) ∧
    (∀ e : Expression, Expression.ofLexemes .standard lexemes written = .ok e →
      ∀ l ∈ lexemes, ∀ kind, l.kind ≠ .reference kind) := by
  have parsed (e : Expression) : Expression.ofLexemes .standard lexemes written = .ok e ↔
      Derives .sum lexemes e.root ∧ e.written = written := by
    rw [Expression.ofLexemes_eq_ok_iff, Expr.ofLexemes_eq_ok_iff, Expr.climbs_iff_derives]
  refine ⟨parsed, fun a b derivesA derivesB => ?_, fun e h => ((parsed e).1 h).1.kind_ne_reference⟩
  have first := (parsed ⟨a, written⟩).2 ⟨derivesA, rfl⟩
  have second := (parsed ⟨b, written⟩).2 ⟨derivesB, rfl⟩
  cases first.symm.trans second
  rfl

/-- `-2^1d4kh`: the minus reaches over the power, and the power keeps the modified dice whole. -/
theorem Expression.ofLexemes_standard_minus_power :
    let lexemes : List Lexeme :=
      [⟨.math, "-", "-", none, ⟨0, 1⟩⟩, ⟨.dice, "2", "2", some [], ⟨1, 2⟩⟩,
        ⟨.math, "^", "^", none, ⟨2, 3⟩⟩, ⟨.dice, "1d4", "1d4", some [], ⟨3, 6⟩⟩,
        ⟨.modifier .keepHigh, "1", "kh", none, ⟨6, 8⟩⟩]
    let group : DiceGroup := ⟨1, ⟨4, by decide⟩, [], [.keep .high 1], "1d4kh"⟩
    Expression.ofLexemes .standard lexemes "-2^1d4kh" =
      .ok ⟨.negate (.binary (.literal (.int 2)) .pow (.dice group)), "-2^1d4kh"⟩ ∧
      ∀ l ∈ lexemes, ∀ kind, l.kind ≠ .reference kind := by
  intro lexemes group
  obtain ⟨parsed, -, noReference⟩ :=
    Expression.ofLexemes_standard_eq_ok_iff_derives lexemes "-2^1d4kh"
  have two : Derives .atom [⟨.dice, "2", "2", some [], ⟨1, 2⟩⟩] (.literal (.int 2)) :=
    .number (.int rfl (by decide) (by decide))
  have dice : Derives .atom [⟨.dice, "1d4", "1d4", some [], ⟨3, 6⟩⟩,
      ⟨.modifier .keepHigh, "1", "kh", none, ⟨6, 8⟩⟩] (.dice group) :=
    .dice ⟨rfl, ['1'], ['4'], by decide, by decide, by decide, by decide⟩
      (.cons ⟨.keepHigh, 1, rfl, by decide, rfl⟩ .nil)
  have whole : Derives .sum lexemes (.negate (.binary (.literal (.int 2)) .pow (.dice group))) :=
    .ofProduct (.ofFactor (.minus rfl (.power two ⟨rfl, rfl⟩ (.ofAtom dice))))
  have read := (parsed ⟨_, "-2^1d4kh"⟩).2 ⟨whole, rfl⟩
  exact ⟨read, noReference _ read⟩

end Tabletop
