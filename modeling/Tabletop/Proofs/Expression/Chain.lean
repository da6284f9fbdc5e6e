import Tabletop.Proofs.Expression.Calls
import Tabletop.Proofs.Expression.Grammar

/-!
# Chains of operators

A chain is an operand, then any number of operators of one strength with their operands.  If they
all group to the left, each operator takes the tree so far as its left operand, because the least
strength of its right operand is one more than its own and the next operator is too weak for it.

That is so for every strength but 255.  The strengths are bytes, and the sum overflows: reading
breaks off at the first operator of the chain, whatever stands behind it.

* `Expr.Overflows` — the reading of a sequence of lexemes breaks off.
* `Expr.Climbs.append`, `Expr.Operand.climbs` — an operand is read in front of anything that it is
  not a part of.
* `Expr.climbs_links` — a chain behind any left tree is read to the end and grouped to the left.
* `Expr.Operand.overflows` — an operand with an operator behind it that is bound to the left at 255.
* `Expr.ofLexemes_chain` — when the sum overflows in a reading, and how a chain is grouped.

### What is load-bearing

An operand is closed (`Expr.Closed`): parentheses, or a term.  Behind a minus an operator that binds
as strongly as any other goes into what is negated, so that `-1-2` may come out as `-(1-2)`.
-/

namespace Tabletop

namespace Expr

/-- Reading breaks off: at some operator, the least strength of the right operand is no byte. -/
def Overflows (table : PrecedenceTable) (lexemes : List Lexeme) : Prop :=
  ∃ l, ofLexemes table lexemes = .error (.on .overflow l)

/-! ## Operands

What stands between the operators of a chain is read on its own, and it has to be seen that it is
read the same in front of the next operator. -/

/-- A tree that stands between operators as it is: no operation, and nothing behind a minus. -/
def Closed : Expr → Prop
  | binary _ _ _ | negate _ => False
  | literal _ | dice _ | stunt _ | grouping _ => True

/-- An operand without a minus before it: lexemes that are read on their own as a number, dice, a
stunt, or parentheses with any expression between them. -/
structure Operand (table : PrecedenceTable) (lexemes : List Lexeme) (e : Expr) : Prop where
  parsed : ofLexemes table lexemes = .ok e
  closed : e.Closed

variable {table : PrecedenceTable} {lexemes rest : List Lexeme} {e : Expr}

/-- Dice are read in front of anything else that is no modifier. -/
theorem diceOf_append {l : Lexeme} {more : List Lexeme} (kind : l.kind = .dice)
    (read : diceOf l lexemes = .ok (e, rest)) (none : NoModifier rest → NoModifier (rest ++ more)) :
    diceOf l (lexemes ++ more) = .ok (e, rest ++ more) := by
  rw [diceOf_eq_ok_iff kind] at read ⊢
  rcases read with
    ⟨x, number, rfl, rfl⟩ | ⟨count, faces, ls, ms, group, rfl, modifiers, ends, rfl⟩
  · exact .inl ⟨x, number, rfl, rfl⟩
  · exact .inr ⟨count, faces, ls, ms, group, List.append_assoc _ _ _, modifiers, none ends, rfl⟩

/-- What a reader leaves says where it stops; more lexemes behind that change nothing. -/
theorem Climbs.append {reader : Reader} (h : Climbs table reader lexemes e rest)
    (nonempty : rest ≠ []) (more : List Lexeme) :
    Climbs table reader (lexemes ++ more) e (rest ++ more) := by
  have goesOn {reader : Reader} {lexemes rest : List Lexeme} {e : Expr}
      (h : Climbs table reader lexemes e rest) (nonempty : rest ≠ []) : lexemes ≠ [] := by
    rintro rfl
    exact nonempty (List.subset_nil.1 (rest_subset_of_climbs h))
  induction h with
  | parentheses opens _ closes ih => exact .parentheses opens (ih (List.cons_ne_nil _ _)) closes
  | minus minus _ ih => exact .minus minus (ih nonempty)
  | dice kind read =>
    refine .dice kind (diceOf_append kind read fun none l head => ?_)
    rw [List.head?_append_of_ne_nil _ nonempty] at head
    exact none l head
  -- A stunt is one lexeme.
  | stunt kind => exact .stunt kind
  | climb _ others ihFirst ihOthers =>
    exact .climb (ihFirst (goesOn others nonempty)) (ihOthers nonempty)
  | @stop _ rest _ stops =>
    cases rest with
    | nil => exact absurd rfl nonempty
    | cons => exact .stop stops
  | step operator strong asks _ rest ihRight ihMore =>
    exact .step operator strong asks (ihRight (goesOn rest nonempty)) (ihMore nonempty)

/-- The loop comes to a tree that is no operation only by making no round at all. -/
theorem eq_left_of_closed {least : UInt8} {left : Expr}
    (h : Climbs table (.operations least left) lexemes e rest) (closed : e.Closed) :
    e = left ∧ lexemes = rest := by
  generalize of_loop : Reader.operations least left = reader at h
  induction h generalizing left with
  | parentheses | minus | dice | stunt | climb => cases of_loop
  | stop =>
    cases of_loop
    exact ⟨rfl, rfl⟩
  | step _ _ _ _ _ _ ihMore =>
    cases of_loop
    obtain ⟨rfl, -⟩ := ihMore closed rfl
    exact closed.elim

/-- An operand is read in front of anything but a modifier. -/
theorem Operand.climbs (h : Operand table lexemes e) (rest : List Lexeme) (none : NoModifier rest) :
    Climbs table .operand (lexemes ++ rest) e rest := by
  obtain ⟨parsed, closed⟩ := h
  -- An operand that is all there is has no operators behind it.
  have alone : Climbs table .operand lexemes e [] := by
    cases ofLexemes_eq_ok_iff.1 parsed with
    | climb first others =>
      obtain ⟨rfl, rfl⟩ := eq_left_of_closed others closed
      exact first
  cases alone with
  | parentheses opens within closes =>
    exact .parentheses opens (within.append (List.cons_ne_nil _ _) rest) closes
  | minus => exact closed.elim
  | dice kind read => exact .dice kind (diceOf_append kind read fun _ => none)
  | stunt kind => exact .stunt kind

theorem Operand.number {l : Lexeme} {x : Number} (number : l.IsNumber x) :
    Operand table [l] (.literal x) where
  parsed := by
    have kind : l.kind = .dice := by cases number <;> assumption
    have read : diceOf l [] = .ok (.literal x, []) :=
      (diceOf_eq_ok_iff kind).2 (.inl ⟨x, number, rfl, rfl⟩)
    exact ofLexemes_eq_ok_iff.2 (.climb (.dice kind read) (.stop trivial))
  closed := trivial

/-! ## Chains

The loop of the reader makes one round for each link. -/

/-- An operator of a chain, with the operand behind it. -/
structure Link where
  sign : Lexeme
  op : BinaryOperator
  lexemes : List Lexeme
  operand : Expr

namespace Link

/-- The lexemes of an operator and its operand. -/
def all (link : Link) : List Lexeme :=
  link.sign :: link.lexemes

/-- The sign is that of an operator with this strength that groups to the left, and an operand
follows it. -/
structure Binds (table : PrecedenceTable) (strength : UInt8) (link : Link) : Prop where
  sign : link.sign.IsOperator link.op
  bound : table.binding link.op = some ⟨strength, .left⟩
  operand : Operand table link.lexemes link.operand

end Link

/-- A chain that groups to the left: every operator takes the tree so far. -/
def chainLeft (first : Expr) (links : List Link) : Expr :=
  links.foldl (fun left link => .binary left link.op link.operand) first

/-- Reading stops in front of a chain of weaker operators, if it stops behind the chain. -/
theorem stopsAt_links {strength least : UInt8} (more : strength < least) {links : List Link}
    (binds : ∀ link ∈ links, link.Binds table strength) (stops : StopsAt table least rest) :
    StopsAt table least (links.flatMap Link.all ++ rest) := by
  cases links with
  | nil => exact stops
  | cons link links =>
    obtain ⟨sign, bound, -⟩ := binds link (.head _)
    exact .inr ⟨link.op, _, operatorOf_eq_ok_some_iff.2 ⟨sign, bound⟩, more⟩

/-- A chain behind any left tree, and in front of anything at which reading stops.  The induction is
on the links, for any left tree. -/
theorem climbs_links {strength least : UInt8} (bounded : strength ≠ 255)
    (strong : least ≤ strength) {links : List Link}
    (binds : ∀ link ∈ links, link.Binds table strength) (stops : StopsAt table least rest)
    (left : Expr) :
    Climbs table (.operations least left) (links.flatMap Link.all ++ rest) (chainLeft left links)
      rest := by
  have more : strength < strength + 1 := UInt8.lt_add_one bounded
  -- The one use of the bound: one more is a strength again.
  have asks : (⟨strength, .left⟩ : Binding).rightOperand = some (strength + 1) := by
    have byte := strength.toNat_lt
    have small : strength.toNat ≠ 255 := fun eq => bounded (UInt8.toNat_inj.1 eq)
    exact if_pos (show strength.toNat + 1 < 256 by omega)
  -- The loop makes one round for each link, and its left tree is the chain so far.
  induction links generalizing left with
  | nil => exact .stop stops
  | cons link links ih =>
    obtain ⟨bindsFirst, bindsOthers⟩ := List.forall_mem_cons.1 binds
    have follows := stopsAt_links more bindsOthers
      (stopsAt_of_stopsAt stops (UInt8.le_trans strong (UInt8.le_of_lt more)))
    have operand := bindsFirst.operand.climbs _ (noModifier_of_stopsAt follows)
    rw [List.flatMap_cons, Link.all, List.cons_append, List.cons_append, List.append_assoc]
    exact .step (operatorOf_eq_ok_some_iff.2 ⟨bindsFirst.sign, bindsFirst.bound⟩)
      (UInt8.not_lt.2 strong) asks (.climb operand (.stop follows)) (ih bindsOthers _)

/-- A chain that is all there is.  Behind the chain the lexemes end, and reading stops at every
strength. -/
theorem ofLexemes_links {strength : UInt8} (bounded : strength ≠ 255) {links : List Link}
    (first : Operand table lexemes e) (binds : ∀ link ∈ links, link.Binds table strength) :
    ofLexemes table (lexemes ++ links.flatMap Link.all) = .ok (chainLeft e links) := by
  rw [← List.append_nil (links.flatMap Link.all), ofLexemes_eq_ok_iff]
  have ends : StopsAt table 0 [] := trivial
  have follows := stopsAt_links (UInt8.lt_add_one bounded) binds (stopsAt_of_stopsAt ends UInt8.zero_le)
  exact .climb (first.climbs _ (noModifier_of_stopsAt follows))
    (climbs_links bounded UInt8.zero_le binds ends e)

/-! ## When the sum overflows

At 255 the first operator of the chain is met, and the chain behind it is not. -/

/-- An operand, and behind it an operator that is bound to the left at 255: nothing is read of what
comes then.  The operator is met in the loop behind the operand, where any strength is enough. -/
theorem Operand.overflows {sign : Lexeme} {op : BinaryOperator} (first : Operand table lexemes e)
    (isOperator : sign.IsOperator op) (bound : table.binding op = some ⟨255, .left⟩)
    (after : List Lexeme) :
    ofLexemes table (lexemes ++ sign :: after) = .error (.on .overflow sign) := by
  have noModifier : NoModifier (sign :: after) := by
    rintro l head kind modifier
    obtain rfl := Option.some.inj head
    cases isOperator.1.symm.trans modifier
  refine ofLexemes_eq_overflow_iff.2 ⟨op, 0, e, after, ?_, ?_, UInt8.not_lt_zero⟩
  · exact .single (.others (first.climbs _ noModifier))
  · exact operatorOf_eq_ok_some_iff.2 ⟨isOperator, bound⟩

/-- Reading breaks off at an operator among the lexemes.  Only operators among the lexemes are
applied. -/
theorem Overflows.exists_mem (overflows : Overflows table lexemes) :
    ∃ l ∈ lexemes, ∃ op, l.IsOperator op ∧ table.binding op = some ⟨255, .left⟩ := by
  obtain ⟨l, failed⟩ := overflows
  obtain ⟨op, applied⟩ := ofLexemes_eq_overflow_iff.1 failed
  exact ⟨l, applied.mem.1, op, applied.mem.2⟩

/-- All operators of a tree, from left to right. -/
def operators : Expr → List BinaryOperator
  | binary left op right => left.operators ++ op :: right.operators
  | grouping inner => inner.operators
  | negate inner => inner.operators
  | literal _ | dice _ | stunt _ => []

/-- The operators of the tree that a reader is given. -/
def Reader.given : Reader → List BinaryOperator
  | operations _ left => left.operators
  | operand | climb _ => []

/-- An operator that is read has a right operand, and so a least strength for it.  The induction is
on the rules, and the tree that a reader is given is where the operators come from that it has not
read itself. -/
theorem not_overflows_of_climbs {reader : Reader} (h : Climbs table reader lexemes e rest)
    (given : ∀ op ∈ reader.given, table.binding op ≠ some ⟨255, .left⟩) :
    ∀ op ∈ e.operators, table.binding op ≠ some ⟨255, .left⟩ := by
  induction h with
  | parentheses _ _ _ ih | minus _ _ ih => exact ih (List.forall_mem_nil _)
  | dice kind read =>
    rcases (diceOf_eq_ok_iff kind).1 read with
      ⟨x, -, rfl, -⟩ | ⟨count, faces, ls, ms, -, -, -, -, rfl⟩
    · exact List.forall_mem_nil _
    · exact List.forall_mem_nil _
  | stunt => exact List.forall_mem_nil _
  | climb _ _ ihFirst ihOthers => exact ihOthers (ihFirst (List.forall_mem_nil _))
  | stop => exact given
  -- The premise of the rule says that the sum is a byte.
  | step operator _ asks _ _ ihRight ihMore =>
    have right := ihRight (List.forall_mem_nil _)
    refine ihMore (List.forall_mem_append.2 ⟨given, List.forall_mem_cons.2 ⟨fun bound => ?_, right⟩⟩)
    cases (operatorOf_eq_ok_some_iff.1 operator).2.symm.trans bound
    cases asks

/-- **Chains and the strength 255.**  Let any table be given.  Reading breaks off at an operator
exactly if it comes to apply it and it is bound to the left at 255; so it needs such an operator
among the lexemes, and a tree has none.  A chain of operators of one strength, all of them bound to
the left, is grouped to the left at every other strength, alone and behind any left tree.  At 255 an
operand with such an operator behind it is not read, whatever follows: no chain of that strength has
a tree. -/
theorem ofLexemes_chain (table : PrecedenceTable) :
    (∀ lexemes l, ofLexemes table lexemes = .error (.on .overflow l) ↔
      ∃ op, Applies table (.climb 0) lexemes l op ⟨255, .left⟩) ∧
    (∀ lexemes, Overflows table lexemes →
      ∃ l ∈ lexemes, ∃ op, l.IsOperator op ∧ table.binding op = some ⟨255, .left⟩) ∧
    (∀ lexemes e, ofLexemes table lexemes = .ok e →
      ∀ op ∈ e.operators, table.binding op ≠ some ⟨255, .left⟩) ∧
    (∀ (strength : UInt8) (links : List Link), strength ≠ 255 →
      (∀ link ∈ links, link.Binds table strength) →
        (∀ first e, Operand table first e →
          ofLexemes table (first ++ links.flatMap Link.all) = .ok (chainLeft e links)) ∧
        ∀ (least : UInt8) (left : Expr) (rest : List Lexeme), least ≤ strength →
          StopsAt table least rest →
            (Reader.operations least left).Reads table (links.flatMap Link.all ++ rest)
              (chainLeft left links) rest) ∧
    ∀ first e sign op after, Operand table first e → sign.IsOperator op →
      table.binding op = some ⟨255, .left⟩ →
        ofLexemes table (first ++ sign :: after) = .error (.on .overflow sign) := by
  refine ⟨fun lexemes l => ofLexemes_eq_overflow_iff, fun lexemes overflows => overflows.exists_mem,
    fun lexemes e parsed => ?_, fun strength links bounded binds => ⟨?_, ?_⟩, ?_⟩
  · exact not_overflows_of_climbs (ofLexemes_eq_ok_iff.1 parsed) (List.forall_mem_nil _)
  · exact fun first e operand => ofLexemes_links bounded operand binds
  · exact fun least left rest strong stops =>
      climbs_iff_reads.1 (climbs_links bounded strong binds stops left)
  · exact fun first e sign op after operand isOperator bound =>
      operand.overflows isOperator bound after

/-- `1-2+3` with both signs at one strength, bound to the left: at 254 and at 255. -/
theorem ofLexemes_chain_both :
    let table (strength : UInt8) := PrecedenceTable.empty.bind .add strength .left
      |>.bind .sub strength .left
    let number (written : String) : Lexeme := ⟨.dice, written, written, some [], ⟨0, 1⟩⟩
    let sign (written : String) : Lexeme := ⟨.math, written, written, none, ⟨0, 1⟩⟩
    let lexemes := [number "1", sign "-", number "2", sign "+", number "3"]
    let literal (n : Int64) : Expr := .literal (.int n)
    ofLexemes (table 254) lexemes =
        .ok (.binary (.binary (literal 1) .sub (literal 2)) .add (literal 3)) ∧
      ¬ Overflows (table 254) lexemes ∧
      ofLexemes (table 255) lexemes = .error (.on .overflow (sign "-")) := by
  intro table number sign lexemes literal
  have operand (strength : UInt8) {written : String} {n : Int64}
      (noDice : 'd' ∉ written.toList) (value : Decimal.int64? written.toList = some n) :
      Operand (table strength) [number written] (literal n) := .number (.int rfl noDice value)
  have binds : ∀ link ∈ [Link.mk (sign "-") .sub [number "2"] (literal 2),
      ⟨sign "+", .add, [number "3"], literal 3⟩], link.Binds (table 254) 254 :=
    List.forall_mem_cons.2 ⟨⟨⟨rfl, rfl⟩, rfl, operand 254 (by decide) (by decide)⟩,
      List.forall_mem_singleton.2 ⟨⟨rfl, rfl⟩, rfl, operand 254 (by decide) (by decide)⟩⟩
  obtain ⟨-, occurs, -, grouped, -⟩ := ofLexemes_chain (table 254)
  obtain ⟨-, -, -, -, breaks⟩ := ofLexemes_chain (table 255)
  refine ⟨?_, fun overflows => ?_, ?_⟩
  · exact (grouped 254 _ (by decide) binds).1 [number "1"] (literal 1)
      (operand 254 (by decide) (by decide))
  · obtain ⟨_, _, op, _, bound⟩ := occurs lexemes overflows
    cases op <;> cases bound
  · exact breaks [number "1"] (literal 1) (sign "-") .sub _ (operand 255 (by decide) (by decide))
      ⟨rfl, rfl⟩ rfl

/-- `1-2-3` with a minus that is bound to the left at 255: the sum overflows, and the chain does not
group to the left. -/
theorem overflows_minus :
    let table := PrecedenceTable.empty.bind .sub 255 .left
    let number (written : String) : Lexeme := ⟨.dice, written, written, some [], ⟨0, 1⟩⟩
    let minus : Lexeme := ⟨.math, "-", "-", none, ⟨0, 1⟩⟩
    let lexemes := [number "1", minus, number "2", minus, number "3"]
    let literal (n : Int64) : Expr := .literal (.int n)
    Overflows table lexemes ∧
      ofLexemes table lexemes ≠
        .ok (.binary (.binary (literal 1) .sub (literal 2)) .sub (literal 3)) ∧
      ofLexemes table lexemes = .error (.on .overflow minus) := by
  intro table number minus lexemes literal
  have first : Operand table [number "1"] (literal 1) :=
    .number (.int rfl (by decide) (by decide))
  have breaks : ofLexemes table lexemes = .error (.on .overflow minus) :=
    first.overflows (show minus.IsOperator .sub from ⟨rfl, rfl⟩) rfl _
  refine ⟨⟨minus, breaks⟩, fun left => ?_, breaks⟩
  cases breaks.symm.trans left

end Expr

end Tabletop
