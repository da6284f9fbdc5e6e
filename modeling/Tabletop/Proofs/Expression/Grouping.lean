import Mathlib
import Tabletop.Proofs.Expression.Climbing
import Tabletop.Proofs.Expression.Terminal

/-!
# How operators group

The grammar of dice expressions is told for the standard precedences.  This module says what
climbing does under any table of operators: equal strengths may group both ways, gaps between the
strengths may be of any size, and a minus may stand before every operand.

* `Expr.Spells` — the lexemes of a tree, read from left to right.
* `Expr.spine` — the operators of a tree that no parentheses and no minus keep apart from its root.
  These are the operators that a parent has to compete with.
* `Expr.Grouped` — every operator of a tree stands below a parent that lets it.
* `Expression.ofLexemes_grouped` — what is parsed is spelled by its lexemes and grouped.

### What the strengths decide

An operator competes twice.  As a parent it asks for a least strength in its right operand
(`Binding.AdmitsRight`).  As a left operand it has been closed by the operator after it, since its
own right operand was read as far as possible and stopped there (`Binding.AdmitsAfter`).  The
second fact cannot be read off the tree that is being built: it is about the lexemes that come
next.  The loop therefore carries it along as `Expr.Awaits`, until the next operator is read.

The strengths are bytes, and the least strength after an operator that groups to the left is one
more than its own.  At 255 there is no such byte.  The parser breaks off before the right operand of
such an operator, so that no tree holds one and nothing here excludes that strength.
-/

namespace Tabletop

/-! ## Strengths

Two relations between operators, and the two tests of the loop that establish them.  Each test
compares bytes, and both relations are about numbers, so that nothing further on depends on how the
bytes add. -/

namespace Binding

/-- An operator may stand in the right operand of another: it binds more strongly, or as strongly if
the other groups to the right. -/
def AdmitsRight (parent inside : Binding) : Prop :=
  match parent.associativity with
  | .left => parent.precedence.toNat + 1 ≤ inside.precedence.toNat
  | .right => parent.precedence.toNat ≤ inside.precedence.toNat

/-- An operator may follow another and take it as its left operand: it binds less strongly, or as
strongly if the other groups to the left. -/
def AdmitsAfter (first next : Binding) : Prop :=
  match first.associativity with
  | .left => next.precedence.toNat ≤ first.precedence.toNat
  | .right => next.precedence.toNat < first.precedence.toNat

variable {binding other : Binding} {least : UInt8}

/-- The strength asked for on the right of an operator, as a number: an operator for which the sum
is no byte asks for none. -/
theorem toNat_of_rightOperand (asks : binding.rightOperand = some least) :
    least.toNat = match binding.associativity with
      | .left => binding.precedence.toNat + 1
      | .right => binding.precedence.toNat := by
  unfold rightOperand at asks
  cases side : binding.associativity with
  | left =>
    rw [side] at asks
    obtain ⟨fits, least_eq⟩ := Option.ite_none_right_eq_some.1 asks
    cases least_eq
    rw [UInt8.toNat_add, UInt8.toNat_one]
    exact Nat.mod_eq_of_lt fits
  | right =>
    rw [side] at asks
    exact congrArg UInt8.toNat (Option.some.inj asks).symm

/-- What is strong enough to stand on the right of an operator is as strong as the operator. -/
theorem precedence_le_of_rightOperand (asks : binding.rightOperand = some least) :
    binding.precedence ≤ least := by
  rw [UInt8.le_iff_toNat_le, toNat_of_rightOperand asks]
  cases binding.associativity with
  | left => exact Nat.le_succ _
  | right => exact Nat.le_refl _

/-- The test that lets an operator into a right operand. -/
theorem admitsRight_of_le (asks : binding.rightOperand = some least)
    (strong : least ≤ other.precedence) : binding.AdmitsRight other := by
  rw [UInt8.le_iff_toNat_le, toNat_of_rightOperand asks] at strong
  unfold AdmitsRight
  cases side : binding.associativity <;> rwa [side] at strong

/-- The test that closes a right operand lets the next operator take the whole. -/
theorem admitsAfter_of_lt (asks : binding.rightOperand = some least)
    (weak : other.precedence < least) : binding.AdmitsAfter other := by
  rw [UInt8.lt_iff_toNat_lt, toNat_of_rightOperand asks] at weak
  unfold AdmitsAfter
  cases side : binding.associativity with
  | left =>
    rw [side] at weak
    exact Nat.lt_succ_iff.1 weak
  | right => rwa [side] at weak

end Binding

namespace PrecedenceTable

variable {table : PrecedenceTable} {op : BinaryOperator} {binding : Binding}

/-- The strength that a minus takes its maximum of is, for a bound operator, the one it is bound
with. -/
theorem strength_of_binding (bound : table.binding op = some binding) :
    table.strength op = binding.precedence := by
  rw [strength, bound]

/-- The maximum that is found from `m` on is at least `m` and at least each strength. -/
theorem le_foldl_strength (ops : List BinaryOperator) (m : UInt8) :
    m ≤ ops.foldl (fun m op => max m (table.strength op)) m ∧
      ∀ op ∈ ops, table.strength op ≤ ops.foldl (fun m op => max m (table.strength op)) m := by
  induction ops generalizing m with
  | nil => exact ⟨UInt8.le_refl m, List.forall_mem_nil _⟩
  | cons op ops ih =>
    obtain ⟨first, each⟩ := ih (max m (table.strength op))
    rw [UInt8.le_iff_toNat_le, UInt8.toNat_max, Nat.max_le] at first
    refine ⟨UInt8.le_iff_toNat_le.2 first.1, List.forall_mem_cons.2 ⟨?_, each⟩⟩
    exact UInt8.le_iff_toNat_le.2 first.2

/-- No operator binds more strongly than a minus does. -/
theorem precedence_le_greatest (bound : table.binding op = some binding) :
    binding.precedence ≤ table.greatest := by
  rw [← strength_of_binding bound]
  exact (le_foldl_strength _ 0).2 op (by cases op <;> decide)

end PrecedenceTable

/-! ## Trees

The spine stops at parentheses and at a minus, because climbing does: both of them read their inside
with a strength of their own.  Being grouped is therefore local to a spine, and a tree is grouped
when each of its spines is. -/

namespace Expr

/-- The operators that are reached from the root without passing parentheses or a minus, from left
to right. -/
def spine : Expr → List BinaryOperator
  | binary left op right => left.spine ++ op :: right.spine
  | literal _ | dice _ | stunt _ | grouping _ | negate _ => []

/-- A tree with all the trees inside of it. -/
def subtrees : Expr → List Expr
  | grouping inner => .grouping inner :: inner.subtrees
  | negate inner => .negate inner :: inner.subtrees
  | binary left op right => .binary left op right :: (left.subtrees ++ right.subtrees)
  | literal x => [.literal x]
  | dice group => [.dice group]
  | stunt written => [.stunt written]

/-- **The lexemes of a tree**, read in order: each term with its own lexemes, parentheses around, a
minus before and an operator between what they apply to. -/
inductive Spells : Expr → List Lexeme → Prop where
  | number {l : Lexeme} {x : Number} (number : l.IsNumber x) : Spells (.literal x) [l]
  | dice {l : Lexeme} {count : UInt32} {faces : Faces} {ls : List Lexeme} {ms : List Modifier}
      (group : l.IsGroup count faces) (modifiers : List.Forall₂ Lexeme.IsModifier ls ms) :
      Spells (.dice
        { count, faces, conditionals := l.conditionalList, modifiers := ms
          written := String.join ((l :: ls).map (·.written)) }) (l :: ls)
  | stunt {l : Lexeme} (kind : l.kind = .stunt) : Spells (.stunt l.written) [l]
  | parentheses {opening closing : Lexeme} {inner : Expr} {w : List Lexeme}
      (opens : isSign opening "(") (within : Spells inner w) (closes : isSign closing ")") :
      Spells (.grouping inner) (opening :: (w ++ [closing]))
  | minus {sign : Lexeme} {inner : Expr} {w : List Lexeme} (minus : isSign sign "-")
      (within : Spells inner w) : Spells (.negate inner) (sign :: w)
  | binary {left right : Expr} {op : BinaryOperator} {sign : Lexeme} {v w : List Lexeme}
      (before : Spells left v) (sign_op : sign.IsOperator op) (after : Spells right w) :
      Spells (.binary left op right) (v ++ sign :: w)

variable {table : PrecedenceTable} {least : UInt8} {e : Expr}

/-- Every operator on the spine is bound by the table and at least as strong as asked for. -/
def AtLeast (table : PrecedenceTable) (least : UInt8) (e : Expr) : Prop :=
  ∀ op ∈ e.spine, ∃ binding, table.binding op = some binding ∧ least ≤ binding.precedence

/-- The operator of a tree, if it has one at its root, lets another follow. -/
def AdmitsAfter (table : PrecedenceTable) (next : Binding) : Expr → Prop
  | binary _ op _ => ∃ binding, table.binding op = some binding ∧ binding.AdmitsAfter next
  | literal _ | dice _ | stunt _ | grouping _ | negate _ => True

/-- **A grouped tree.**  Each operator is let into its place by the operators around it, and below a
minus there are none but those that bind most strongly. -/
def Grouped (table : PrecedenceTable) : Expr → Prop
  | literal _ | dice _ | stunt _ => True
  | grouping inner => inner.Grouped table
  | negate inner => inner.Grouped table ∧ inner.AtLeast table table.greatest
  | binary left op right =>
      left.Grouped table ∧ right.Grouped table ∧
        ∃ binding, table.binding op = some binding ∧ left.AdmitsAfter table binding ∧
          ∀ inside ∈ right.spine, ∃ other, table.binding inside = some other ∧
            binding.AdmitsRight other

/-- What is inside of a grouped tree is grouped. -/
theorem Grouped.of_mem_subtrees (grouped : e.Grouped table) :
    ∀ part ∈ e.subtrees, part.Grouped table := by
  induction e with
  | literal | dice | stunt => exact List.forall_mem_singleton.2 grouped
  | grouping inner ih => exact List.forall_mem_cons.2 ⟨grouped, ih grouped⟩
  | negate inner ih => exact List.forall_mem_cons.2 ⟨grouped, ih grouped.1⟩
  | binary left op right ihLeft ihRight =>
    refine List.forall_mem_cons.2 ⟨grouped, List.forall_mem_append.2 ⟨?_, ?_⟩⟩
    · exact ihLeft grouped.1
    · exact ihRight grouped.2.1

/-- A tree that is strong enough for one reader is strong enough for a reader that asks for less.
The loop needs this of each right operand, which was read for the operator and goes into a tree read
for the loop's own strength. -/
theorem AtLeast.mono {stronger : UInt8} (le : least ≤ stronger)
    (strong : e.AtLeast table stronger) : e.AtLeast table least := by
  intro op mem
  obtain ⟨binding, bound, above⟩ := strong op mem
  exact ⟨binding, bound, UInt8.le_trans le above⟩

/-- The spine of an operation is that of its operands with the operator between them. -/
theorem atLeast_binary {left right : Expr} {op : BinaryOperator} {binding : Binding}
    (before : left.AtLeast table least) (bound : table.binding op = some binding)
    (strong : least ≤ binding.precedence) (after : right.AtLeast table least) :
    (Expr.binary left op right).AtLeast table least :=
  List.forall_mem_append.2 ⟨before, List.forall_mem_cons.2 ⟨⟨binding, bound, strong⟩, after⟩⟩

/-! ## What the readers have read

Two invariants of climbing, each of them a statement for every kind of reader, and each proved by
induction over the run. -/

/-- **The lexemes that a reader takes.**  The loop has a left tree already, whose lexemes come
first. -/
def Reader.Spelled : Reader → List Lexeme → Expr → List Lexeme → Prop
  | operand, lexemes, e, rest => ∃ w, lexemes = w ++ rest ∧ e.Spells w
  | climb _, lexemes, e, rest => ∃ w, lexemes = w ++ rest ∧ e.Spells w
  | operations _ left, lexemes, e, rest =>
      ∀ v, left.Spells v → ∃ w, lexemes = w ++ rest ∧ e.Spells (v ++ w)

/-- Climbing takes the lexemes of the tree and no others.  The induction is on the run of the
parser; the loop is the reason why the statement speaks of any left tree, since the tree it goes on
with is not the one it was called with. -/
theorem spelled_of_climbs {reader : Reader} {lexemes rest : List Lexeme}
    (h : Climbs table reader lexemes e rest) : reader.Spelled lexemes e rest := by
  induction h with
  | @parentheses opening closing _ _ _ opens _ closes ih =>
    obtain ⟨w, rfl, within⟩ := ih
    exact ⟨opening :: (w ++ [closing]), by simp, .parentheses opens within closes⟩
  | @minus sign _ _ _ minus _ ih =>
    obtain ⟨w, rfl, within⟩ := ih
    exact ⟨sign :: w, rfl, .minus minus within⟩
  | @dice l _ _ _ kind read =>
    rcases (diceOf_eq_ok_iff kind).1 read with
      ⟨x, number, rfl, rfl⟩ | ⟨count, faces, ls, ms, group, rfl, modifiers, -, rfl⟩
    · exact ⟨[l], rfl, .number number⟩
    · exact ⟨l :: ls, rfl, .dice group modifiers⟩
  | @stunt l _ kind => exact ⟨[l], rfl, .stunt kind⟩
  | climb _ _ ihFirst ihOthers =>
    obtain ⟨v, rfl, first⟩ := ihFirst
    obtain ⟨w, rfl, whole⟩ := ihOthers v first
    exact ⟨v ++ w, by simp, whole⟩
  | stop _ =>
    intro v left
    exact ⟨[], rfl, by rwa [List.append_nil]⟩
  | @step _ _ l _ _ _ _ _ _ _ _ operator _ _ _ _ ihOperand ihMore =>
    intro v left
    obtain ⟨u, rfl, right⟩ := ihOperand
    have joined := Spells.binary left (operatorOf_eq_ok_some_iff.1 operator).1 right
    obtain ⟨w, rfl, whole⟩ := ihMore _ joined
    exact ⟨l :: (u ++ w), by simp, by simpa using whole⟩

/-- A tree waits for what comes next: if it is an operation, its right operand has been read up to
here and would have taken a stronger operator. -/
def Awaits (table : PrecedenceTable) (lexemes : List Lexeme) : Expr → Prop
  | binary _ op _ =>
      ∃ binding leastRight, table.binding op = some binding ∧
        binding.rightOperand = some leastRight ∧ StopsAt table leastRight lexemes
  | literal _ | dice _ | stunt _ | grouping _ | negate _ => True

/-- What a reader that was asked for a least strength promises. -/
structure Settles (table : PrecedenceTable) (least : UInt8) (e : Expr) (rest : List Lexeme) :
    Prop where
  grouped : e.Grouped table
  atLeast : e.AtLeast table least
  stops : StopsAt table least rest

/-- **The grouping that a reader makes.**  An operand is grouped and has no operator at its root.
The loop needs a left tree that is grouped, strong enough, and waiting for what the loop has to
read. -/
def Reader.Groups (table : PrecedenceTable) : Reader → List Lexeme → Expr → List Lexeme → Prop
  | operand, _, e, _ => e.Grouped table ∧ e.spine = []
  | climb least, _, e, rest => Settles table least e rest
  | operations least left, lexemes, e, rest =>
      left.Grouped table → left.AtLeast table least → left.Awaits table lexemes →
        Settles table least e rest

/-- An operand waits for nothing: it ends where its term ends, whatever comes next. -/
theorem awaits_of_spine {lexemes : List Lexeme} (operand : e.spine = []) :
    e.Awaits table lexemes := by
  cases e with
  | binary left op right => simp [spine] at operand
  | literal | dice | stunt | grouping | negate => trivial

/-- An operand is strong enough for every reader, since no operator of it competes. -/
theorem atLeast_of_spine (operand : e.spine = []) : e.AtLeast table least := by
  unfold AtLeast
  rw [operand]
  exact List.forall_mem_nil _

/-- The operator that a tree has waited for may follow it. -/
theorem Awaits.admitsAfter {lexeme : Lexeme} {after : List Lexeme} {op : BinaryOperator}
    {binding : Binding} (waits : e.Awaits table (lexeme :: after))
    (operator : operatorOf table lexeme = .ok (some (op, binding))) :
    e.AdmitsAfter table binding := by
  cases e with
  | binary left first right =>
    obtain ⟨other, leastRight, bound, asks, stops⟩ := waits
    exact ⟨other, bound, Binding.admitsAfter_of_lt asks (stops.precedence_lt operator)⟩
  | literal | dice | stunt | grouping | negate => trivial

/-- **What is climbed is grouped.** The induction is on the run of the parser, with `Reader.Groups`
as the invariant.  Only the step of the loop has work to do: the tree it has built so far becomes a
left operand, which is where `Awaits` is used up, and the operation takes its place, which is where
`Awaits` is made anew. -/
theorem groups_of_climbs {reader : Reader} {lexemes rest : List Lexeme}
    (h : Climbs table reader lexemes e rest) : reader.Groups table lexemes e rest := by
  induction h with
  | parentheses _ _ _ ih => exact ⟨ih.grouped, rfl⟩
  | minus _ _ ih => exact ⟨⟨ih.grouped, ih.atLeast⟩, rfl⟩
  | dice kind read =>
    rcases (diceOf_eq_ok_iff kind).1 read with
      ⟨x, -, rfl, -⟩ | ⟨count, faces, ls, ms, -, -, -, -, rfl⟩
    · exact ⟨trivial, rfl⟩
    · exact ⟨trivial, rfl⟩
  | stunt _ => exact ⟨trivial, rfl⟩
  | climb _ _ ihFirst ihOthers =>
    obtain ⟨grouped, operand⟩ := ihFirst
    exact ihOthers grouped (atLeast_of_spine operand) (awaits_of_spine operand)
  | stop stops => exact fun grouped strong _ => ⟨grouped, strong, stops⟩
  | @step least leastRight _ _ _ _ _ _ _ _ binding operator strong asks _ _ ihOperand ihMore =>
    intro grouped atLeast waits
    have bound := (operatorOf_eq_ok_some_iff.1 operator).2
    have enough : least ≤ binding.precedence := UInt8.not_lt.1 strong
    have above : least ≤ leastRight :=
      UInt8.le_trans enough (Binding.precedence_le_of_rightOperand asks)
    -- The new tree takes the place of the left one: its operator is the one just read and its right
    -- operand has stopped before the lexemes that the loop goes on with.
    refine ihMore ⟨grouped, ihOperand.grouped, binding, bound, ?_, ?_⟩ ?_ ?_
    · exact waits.admitsAfter operator
    · intro inside mem
      obtain ⟨other, found, strength⟩ := ihOperand.atLeast inside mem
      exact ⟨other, found, Binding.admitsRight_of_le asks strength⟩
    · exact atLeast_binary atLeast bound enough (ihOperand.atLeast.mono above)
    · exact ⟨binding, leastRight, bound, asks, ihOperand.stops⟩

end Expr

/-- The lexemes that are parsed are those of the tree. -/
theorem Expression.spells_of_ofLexemes {table : PrecedenceTable} {lexemes : List Lexeme}
    {written : String} {e : Expression}
    (parsed : Expression.ofLexemes table lexemes written = .ok e) : e.root.Spells lexemes := by
  have climbs := Expr.ofLexemes_eq_ok_iff.1 (Expression.ofLexemes_eq_ok_iff.1 parsed).1
  obtain ⟨w, whole, spells⟩ := Expr.spelled_of_climbs climbs
  rw [whole, List.append_nil]
  exact spells

/-- **Whatever the operators are, their strengths decide the tree.** Let any table be given.  If a
sequence of lexemes is parsed, the tree read in order is the sequence.  For every operation in it,
the operators that its right operand is made of bind more strongly, or at least as strongly if it
groups to the right; and if its left operand is an operation, that one binds as strongly or more so,
and more strongly if it groups to the right.  Below a minus there are only operators that no other
exceeds.  The first part is `Expr.spelled_of_climbs`, the others are `Expr.groups_of_climbs` taken
to each tree inside of the one that is parsed. -/
theorem Expression.ofLexemes_grouped (table : PrecedenceTable) {lexemes : List Lexeme}
    {written : String} {e : Expression}
    (parsed : Expression.ofLexemes table lexemes written = .ok e) :
    e.root.Spells lexemes ∧
    (∀ left op right, .binary left op right ∈ e.root.subtrees →
      ∃ binding, table.binding op = some binding ∧
        (∀ inside ∈ right.spine, ∃ other, table.binding inside = some other ∧
          binding.AdmitsRight other) ∧
        (∀ a first b, left = .binary a first b → ∃ other, table.binding first = some other ∧
          other.AdmitsAfter binding)) ∧
    (∀ inner, .negate inner ∈ e.root.subtrees → ∀ op ∈ inner.spine,
      ∃ binding, table.binding op = some binding ∧
        ∀ op' other, table.binding op' = some other → other.precedence ≤ binding.precedence) := by
  have climbs := Expr.ofLexemes_eq_ok_iff.1 (Expression.ofLexemes_eq_ok_iff.1 parsed).1
  obtain ⟨w, whole, spells⟩ := Expr.spelled_of_climbs climbs
  have grouped := (Expr.groups_of_climbs climbs).grouped.of_mem_subtrees
  rw [List.append_nil] at whole
  refine ⟨whole ▸ spells, fun left op right mem => ?_, fun inner mem op inside => ?_⟩
  · obtain ⟨-, -, binding, bound, follows, within⟩ := grouped _ mem
    refine ⟨binding, bound, within, ?_⟩
    rintro a first b rfl
    exact follows
  · obtain ⟨-, strong⟩ := grouped _ mem
    obtain ⟨binding, bound, most⟩ := strong op inside
    refine ⟨binding, bound, fun op' other bound' => ?_⟩
    exact UInt8.le_trans (PrecedenceTable.precedence_le_greatest bound') most

/-- Sums group to the left and differences to the right, with equal strengths: the difference takes
the sum after it, but `1 + 2` is closed before the minus. -/
theorem Expression.ofLexemes_grouped_mixed :
    let table :=
      PrecedenceTable.empty |>.bind .add 5 .left |>.bind .sub 5 .right |>.bind .pow 254 .left
    let number (digit : String) (i : Nat) : Lexeme := ⟨.dice, digit, digit, some [], ⟨i, i + 1⟩⟩
    let sign (text : String) (i : Nat) : Lexeme := ⟨.math, text, text, none, ⟨i, i + 1⟩⟩
    let lexemes := [number "1" 0, sign "+" 1, number "2" 2, sign "-" 3, sign "-" 4, number "3" 5,
      sign "^" 6, number "4" 7, sign "+" 8, number "5" 9]
    let lit (n : Int64) : Expr := .literal (.int n)
    let tree : Expr := .binary (.binary (lit 1) .add (lit 2)) .sub
      (.binary (.negate (.binary (lit 3) .pow (lit 4))) .add (lit 5))
    Expression.ofLexemes table lexemes "1+2--3^4+5" = .ok ⟨tree, "1+2--3^4+5"⟩ ∧
      tree.Spells lexemes ∧
      (∃ binding, table.binding .sub = some binding ∧
        ∃ inside, table.binding .add = some inside ∧ binding.AdmitsRight inside ∧
          inside.AdmitsAfter binding) ∧
      ∃ most, table.binding .pow = some most ∧
        ∀ op other, table.binding op = some other → other.precedence ≤ most.precedence := by
  intro table number sign lexemes lit tree
  have parsed : Expression.ofLexemes table lexemes "1+2--3^4+5" = .ok ⟨tree, "1+2--3^4+5"⟩ := by
    dsimp only [lexemes, number, sign, tree, lit, table]
    cbv
  obtain ⟨spells, operations, minus⟩ := Expression.ofLexemes_grouped table parsed
  obtain ⟨binding, bound, right, left⟩ := operations _ _ _ (.head _)
  obtain ⟨inside, found, admits⟩ := right .add (by decide)
  obtain ⟨other, found', follows⟩ := left _ _ _ rfl
  cases found.symm.trans found'
  have below : Expr.negate (.binary (lit 3) .pow (lit 4)) ∈ tree.subtrees := by decide
  have most := minus _ below .pow (by decide)
  exact ⟨parsed, spells, ⟨binding, bound, inside, found, admits, follows⟩, most⟩

end Tabletop
