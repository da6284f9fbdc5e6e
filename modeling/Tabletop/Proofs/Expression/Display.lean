import Tabletop.Proofs.Dice.Rolled
import Tabletop.Proofs.Expression.Grouping
import Tabletop.Proofs.Lexeme.Reread
import Tabletop.Proofs.Lexeme.Taken
import Tabletop.Rolling.Sequence

/-!
# Displays are notations

The display of a result shows the tree of the expression with its dice.  If there are no dice, and
all numbers are integers, the display is a notation of its own, with the same tree
(`Expression.ofLexemes_display`).

The display sets an operation between its operands, whatever they are, and has no parentheses but
those of the notation.  As a text of the tree it is ambiguous.  It is read as this tree because the
tree has been read before:

* the display has the lexemes of the notation one by one, except that gaps are others and that
  numbers lose the zeros at their front (`Lexeme.Alike`, `readsAs_tree`);
* the rules of climbing do not see the difference (`Expr.Climbs.alike`).

So nothing has to be known of the operators, neither how strongly they bind nor which way they
group.

What is load-bearing is that nothing is said about precedence at all.  A proof that reads the
display by the grammar would have to show that the parentheses in it are enough, and this is true
only because the tree was read from a notation with the same ones.
-/

namespace Tabletop

open List (Forall₂)
open Text (isDigit utf8Length)

/-! ## Lexemes that say the same

A number may be written with zeros in front, so lexemes are compared by what they stand for. -/

namespace Lexeme

/-- Two lexemes stand for the same number, or for the same sign.  Dice have no part in it: where
there are dice the display shows what was rolled. -/
inductive Alike : Lexeme → Lexeme → Prop
  | number {l l' : Lexeme} {x : Number} (number : l.IsNumber x) (number' : l'.IsNumber x) :
      Alike l l'
  | sign {l l' : Lexeme} (kind : l.kind = .math) (kind' : l'.kind = .math)
      (data : l'.data = l.data) : Alike l l'

variable {l l' : Lexeme} {x y : Number}

theorem IsNumber.kind_eq (number : l.IsNumber x) : l.kind = .dice := by
  cases number <;> assumption

theorem IsNumber.not_mem (number : l.IsNumber x) : 'd' ∉ l.data.toList := by
  cases number <;> assumption

theorem IsNumber.unique (number : l.IsNumber x) (other : l.IsNumber y) : x = y := by
  have value := (Expr.literalOf_eq_ok_iff number.kind_eq number.not_mem).2 number
  have value' := (Expr.literalOf_eq_ok_iff other.kind_eq other.not_mem).2 other
  exact Except.ok.inj (value.symm.trans value')

/-- Lexemes that say the same are the same sign, or none. -/
theorem Alike.isSign {sign : String} (alike : l.Alike l') (h : Expr.isSign l sign) :
    Expr.isSign l' sign := by
  obtain ⟨kind, data⟩ := Expr.isSign_iff.1 h
  cases alike with
  | number number => exact nomatch kind.symm.trans number.kind_eq
  | sign _ kind' same => exact Expr.isSign_iff.2 ⟨kind', same.trans data⟩

/-- As operators they are the same, or none. -/
theorem Alike.operatorOf {table : PrecedenceTable} {operator : Option (BinaryOperator × Binding)}
    (alike : l.Alike l') (h : Expr.operatorOf table l = .ok operator) :
    Expr.operatorOf table l' = .ok operator := by
  cases alike with
  | number number number' =>
    unfold Expr.operatorOf at h ⊢
    rw [number.kind_eq] at h
    rw [number'.kind_eq]
    exact h
  | sign kind kind' data =>
    unfold Expr.operatorOf at h ⊢
    rw [kind] at h
    rw [kind', data]
    dsimp only at h ⊢
    split at h
    · exact h
    · split at h
      · exact h
      · cases h

end Lexeme

namespace Expr

variable {table : PrecedenceTable} {lexemes again rest : List Lexeme} {e : Expr}

/-- Reading stops in front of lexemes that say the same. -/
theorem StopsAt.alike {least : UInt8} (stops : StopsAt table least lexemes)
    (alike : Forall₂ Lexeme.Alike lexemes again) : StopsAt table least again := by
  cases alike with
  | nil => trivial
  | cons first _ =>
    rcases stops with none | ⟨op, binding, operator, weak⟩
    · exact .inl (first.operatorOf none)
    · exact .inr ⟨op, binding, first.operatorOf operator, weak⟩

/-- A number is a dice lexeme, but there is nothing to roll, and no modifier behind it. -/
theorem diceOf_alike {l l' : Lexeme} {after after' : List Lexeme} (alike : l.Alike l')
    (others : Forall₂ Lexeme.Alike after after') (kind : l.kind = .dice)
    (read : diceOf l after = .ok (e, rest)) :
    ∃ rest', Forall₂ Lexeme.Alike rest rest' ∧ l'.kind = .dice ∧
      diceOf l' after' = .ok (e, rest') := by
  cases alike with
  | sign math => exact nomatch math.symm.trans kind
  | number number number' =>
    rcases (diceOf_eq_ok_iff kind).1 read with
      ⟨y, other, rfl, rfl⟩ | ⟨_, _, _, _, ⟨-, n, m, data, -⟩, -⟩
    · obtain rfl := number.unique other
      exact ⟨after', others, number'.kind_eq,
        (diceOf_eq_ok_iff number'.kind_eq).2 (.inl ⟨_, number', rfl, rfl⟩)⟩
    · refine absurd ?_ number.not_mem
      rw [data]
      exact List.mem_append_right n (.head m)

/-- **Climbing does not tell lexemes apart that say the same.** The induction is on the rules; each
finds its own lexeme at the front of both sequences.  Lexemes are compared one by one, so both
sequences have the same length and the readers leave the same number of them. -/
theorem Climbs.alike {reader : Reader} (h : Climbs table reader lexemes e rest)
    (alike : Forall₂ Lexeme.Alike lexemes again) :
    ∃ rest', Forall₂ Lexeme.Alike rest rest' ∧ Climbs table reader again e rest' := by
  induction h generalizing again with
  | parentheses opens _ closes ih =>
    cases alike with
    | cons opening others =>
      obtain ⟨_, left, within⟩ := ih others
      cases left with
      | cons closing left =>
        exact ⟨_, left, .parentheses (opening.isSign opens) within (closing.isSign closes)⟩
  | minus minus _ ih =>
    cases alike with
    | cons sign others =>
      obtain ⟨rest', left, within⟩ := ih others
      exact ⟨rest', left, .minus (sign.isSign minus) within⟩
  | dice kind read =>
    cases alike with
    | cons first others =>
      obtain ⟨rest', left, kind', read'⟩ := diceOf_alike first others kind read
      exact ⟨rest', left, .dice kind' read'⟩
  -- A stunt is neither a number nor a sign, so there is none to compare.
  | stunt kind =>
    cases alike with
    | cons first others =>
      cases first with
      | number number => exact nomatch kind.symm.trans number.kind_eq
      | sign math => exact nomatch kind.symm.trans math
  | climb _ _ ihFirst ihOthers =>
    obtain ⟨after, left, first⟩ := ihFirst alike
    obtain ⟨rest', left, others⟩ := ihOthers left
    exact ⟨rest', left, .climb first others⟩
  -- Where the loop stopped it stops again: the next lexeme is the same operator, or none.
  | stop stops => exact ⟨again, alike, .stop (stops.alike alike)⟩
  | step operator strong asks _ _ ihOperand ihMore =>
    cases alike with
    | cons sign others =>
      obtain ⟨after, left, operand⟩ := ihOperand others
      obtain ⟨rest', left, more⟩ := ihMore left
      exact ⟨rest', left, .step (sign.operatorOf operator) strong asks operand more⟩

/-- A tree with nothing to roll, all of whose numbers are integers.  Floats are left out, since the
text of one may be that of an integer. -/
def IsArithmetic : Expr → Prop
  | literal x => ∃ n, x = .int n
  | dice _ | stunt _ => False
  | grouping inner | negate inner => inner.IsArithmetic
  | binary left _ right => left.IsArithmetic ∧ right.IsArithmetic

end Expr

/-! ## Texts with lexemes that say the same

A text is put together from its end, and each lemma puts one thing in front of it. -/

/-- From any place on, the text has lexemes that say the same as these.  The place is arbitrary,
because a text is read behind another one; only the spans depend on it, and they are not compared.
-/
def ReadsAs (context : LexContext) (cs : List Char) (lexemes : List Lexeme) : Prop :=
  ∀ position, ∃ again, scan context position cs = .ok again ∧ Forall₂ Lexeme.Alike lexemes again

/-- The number is not written with a sign. -/
theorem Decimal.nonneg_of_int64? {cs : List Char} {n : Int64} (noSign : ∀ c ∈ cs.head?, c ≠ '-')
    (read : int64? cs = some n) : 0 ≤ n.toInt := by
  obtain ⟨m, value, fits⟩ := Option.bind_eq_some_iff.1 read
  rw [toInt64?_eq_some_iff.1 fits]
  unfold signed? at value
  split at value
  · exact absurd rfl (noSign '-' rfl)
  · obtain ⟨k, -, rfl⟩ := Option.map_eq_some_iff.1 value
    exact Int.natCast_nonneg k

namespace ReadsAs

variable {context : LexContext} {cs : List Char} {lexemes : List Lexeme} {l : Lexeme}

theorem nil : ReadsAs context [] [] := by
  intro position
  refine ⟨[], ?_, .nil⟩
  rw [scan]
  rfl

/-- A sign in front of a text is read first, whatever the text is.  Signs are single characters, so
nothing that follows can make them longer. -/
theorem sign {c : Char} (isSign : c ∈ ['-', '+', '*', '/', '^', '(', ')']) (kind : l.kind = .math)
    (data : l.data = String.singleton c) (more : ReadsAs context cs lexemes) :
    ReadsAs context (c :: cs) (l :: lexemes) := by
  intro position
  obtain ⟨again, scanned, alike⟩ := more (position + utf8Length [c])
  exact ⟨_, scan_lexeme (Rule.firstMatch_sign isSign) scanned,
    .cons (.sign kind rfl data.symm) alike⟩

theorem space (noGap : Rule.gap context cs = none) (more : ReadsAs context cs lexemes) :
    ReadsAs context (' ' :: cs) lexemes := by
  intro position
  obtain ⟨again, scanned, alike⟩ := more (position + utf8Length [' '])
  exact ⟨again, scan_skip (Rule.firstMatch_space noGap) scanned, alike⟩

/-- A number without a sign is read again where no digit and no letter of a group follows. -/
theorem number {n : Int64} (number : l.IsNumber (.int n)) (nonneg : 0 ≤ n.toInt)
    (stops : ∀ c ∈ cs.head?, c ∈ [' ', ')']) (more : ReadsAs context cs lexemes) :
    ReadsAs context ((Number.int n).text.toList ++ cs) (l :: lexemes) := by
  intro position
  have digits : (Number.int n).text.toList = Nat.toDigits 10 n.toInt.natAbs := by
    rw [Number.text, Decimal.toList_ofInt, if_neg (Int.not_lt.2 nonneg)]
  have value : Decimal.int64? (Nat.toDigits 10 n.toInt.natAbs) = some n := by
    rw [← digits]
    exact Decimal.int64?_ofInt n
  have stops' : ∀ c ∈ cs.head?, isDigit c = false ∧ c ∉ ['d', 'D'] := by
    intro c mem
    have either := stops c mem
    simp only [List.mem_cons, List.not_mem_nil, or_false] at either
    rcases either with rfl | rfl <;> decide
  obtain ⟨again, scanned, alike⟩ := more (position + utf8Length (Nat.toDigits 10 n.toInt.natAbs))
  have noGap : Rule.gap context (Nat.toDigits 10 n.toInt.natAbs ++ cs) = none :=
    Rule.gap_of_isDigit Decimal.isDigit_head_toDigits
  have found := Rule.firstMatch_number Nat.toDigits_ne_nil Text.isDigit_toDigits stops' noGap
  rw [digits]
  refine ⟨_, scan_lexeme found scanned, .cons (.number number (.int rfl ?_ ?_)) alike⟩
  · rw [String.toList_ofList]
    exact fun mem => nomatch Decimal.isDigit_toDigits 'd' mem
  · rw [String.toList_ofList, value]

end ReadsAs

/-! ## The display of a tree

The tree and its lexemes are taken apart together, so the display is read in the order in which the
notation was. -/

/-- The lexeme is no number below zero. -/
def Lexeme.Unsigned (l : Lexeme) : Prop :=
  ∀ n, l.IsNumber (.int n) → 0 ≤ n.toInt

/-- **A tree is read as its lexemes** from its display, before a space, a closing parenthesis or the
end.  That the display does not begin with a gap is needed for the space before it.  The induction
is on the lexemes that the tree was read from, for any text behind it.  The display and the lexemes
run side by side: where the notation has a lexeme, so does the display, and the spaces around
operators are gaps. -/
theorem readsAs_tree {context : LexContext} (b : Breakdown) {e : Expr} {t : RollTree}
    {lexemes others : List Lexeme} {cs : List Char} (spells : e.Spells lexemes)
    (arithmetic : e.IsArithmetic) (unsigned : ∀ l ∈ lexemes, l.Unsigned) (outline : e.SameOutline t)
    (stops : ∀ c ∈ cs.head?, c ∈ [' ', ')']) (more : ReadsAs context cs others) :
    Rule.gap context ((b.tree t).toList ++ cs) = none ∧
      ReadsAs context ((b.tree t).toList ++ cs) (lexemes ++ others) := by
  -- What follows is read first: of an operation, the right operand, then the sign, then the left.
  induction spells generalizing t cs others with
  | number number =>
    cases outline
    obtain ⟨n, rfl⟩ := arithmetic
    have nonneg := unsigned _ (.head _) n number
    refine ⟨Rule.gap_of_isDigit ?_, .number number nonneg stops more⟩
    rw [Breakdown.tree, Number.text, Decimal.toList_ofInt, if_neg (Int.not_lt.2 nonneg)]
    exact Decimal.isDigit_head_toDigits
  | dice => exact arithmetic.elim
  | stunt => exact arithmetic.elim
  -- Behind the tree in parentheses there is the closing one, where numbers end as well.
  | @parentheses opening closing _ w opens _ closes ih =>
    cases outline with
    | @grouping _ t inner =>
      obtain ⟨unsigned, -⟩ := List.forall_mem_append.1 (List.forall_mem_cons.1 unsigned).2
      obtain ⟨opens, opens'⟩ := Expr.isSign_iff.1 opens
      obtain ⟨closes, closes'⟩ := Expr.isSign_iff.1 closes
      have close : ReadsAs context (')' :: cs) (closing :: others) :=
        .sign (by decide) closes closes' more
      obtain ⟨-, within⟩ := ih arithmetic unsigned inner (by simp) close
      have text : (b.tree (.grouping t)).toList ++ cs =
          '(' :: ((b.tree t).toList ++ ')' :: cs) := by
        simp [Breakdown.tree]
      rw [text, List.cons_append, List.append_assoc]
      exact ⟨rfl, .sign (by decide) opens opens' within⟩
  -- A minus stands next to what it negates.
  | @minus sign _ w minus _ ih =>
    cases outline with
    | @negate _ t inner =>
      obtain ⟨minus, minus'⟩ := Expr.isSign_iff.1 minus
      obtain ⟨-, within⟩ := ih arithmetic (List.forall_mem_cons.1 unsigned).2 inner stops more
      have text : (b.tree (.negate t)).toList ++ cs = '-' :: ((b.tree t).toList ++ cs) := by
        simp [Breakdown.tree]
      rw [text]
      exact ⟨rfl, .sign (by decide) minus minus' within⟩
  -- The left tree ends before a space, as the right one does before what follows.
  | @binary _ _ op sign v w _ sign_op _ ihLeft ihRight =>
    cases outline with
    | @binary _ _ s t _ left right =>
      obtain ⟨unsignedLeft, unsigned⟩ := List.forall_mem_append.1 unsigned
      obtain ⟨noGap, after⟩ :=
        ihRight arithmetic.2 (List.forall_mem_cons.1 unsigned).2 right stops more
      have isSign : op.toChar ∈ ['-', '+', '*', '/', '^', '(', ')'] := by cases op <;> decide
      have gapSign (cs : List Char) : Rule.gap context (op.toChar :: cs) = none := by
        cases op <;> rfl
      have operator : ReadsAs context (' ' :: op.toChar :: ' ' :: ((b.tree t).toList ++ cs))
          (sign :: (w ++ others)) :=
        .space (gapSign _) (.sign isSign sign_op.1 sign_op.2 (.space noGap after))
      have text : (b.tree (.binary s op t)).toList ++ cs =
          (b.tree s).toList ++ (' ' :: op.toChar :: ' ' :: ((b.tree t).toList ++ cs)) := by
        simp [Breakdown.tree]
      rw [text, List.append_assoc, List.cons_append]
      exact ihLeft arithmetic.1 unsignedLeft left (by simp) operator

/-- Without names, numbers are written in digits.  Names are excluded because the value of a name
may be below zero, and then its text begins with a minus, which would be read as a sign. -/
theorem unsigned_of_tokenize {settings : Settings} {text : String} {lexemes : List Lexeme}
    (read : tokenize ⟨settings, fun _ => none⟩ text = .ok lexemes) :
    ∀ l ∈ lexemes, l.Unsigned := by
  intro l mem n number
  obtain ⟨rest, taken⟩ := exists_takenBefore_of_tokenize read mem
  have isDice := number.kind_eq
  have noLetter := number.not_mem
  have reads := taken.reads fun document is => nomatch isDice.symm.trans is
  obtain ⟨_, _, value⟩ := number
  refine Decimal.nonneg_of_int64? (fun c first => ?_) value
  rw [isDice] at reads
  generalize l.data.toList = data, l.written.toList = written, l.conditionals = conditionals
    at reads noLetter first
  cases reads with
  | suffixed isStem =>
    cases isStem with
    | group => simp [Rule.groupData] at noLetter
  -- The first character of digits is no sign.
  | number _ areDigits =>
    rintro rfl
    exact nomatch areDigits '-' (List.mem_of_mem_head? first)
  | field _ _ _ _ known => cases known

/-- **The display of arithmetic is a notation of the same tree.** Let a notation without names be
parsed to a tree that has nothing to roll and only integers of 64 bits, and let it have a result.
Then the display of the result is a notation, and parsed by the same table to the same tree,
whatever the settings and names.  The settings and names of the second reading play no part, since
the display has neither dice without numbers nor words. -/
theorem Expression.ofLexemes_display {settings : Settings} {table : PrecedenceTable}
    {text : String} {lexemes : List Lexeme} {e : Expression}
    (read : tokenize ⟨settings, fun _ => none⟩ text = .ok lexemes)
    (parsed : Expression.ofLexemes table lexemes text = .ok e) (arithmetic : e.root.IsArithmetic)
    {ρ : Type} [Roller ρ] {rules : RollContext} {drawn : Nat} {roller : ρ} {r : RollResult}
    (rolled : (((e.roll rules).run.run drawn).run roller).1.1 = .ok r) (context : LexContext) :
    ∃ again e', tokenize context r.display = .ok again ∧
      Expression.ofLexemes table again r.display = .ok e' ∧ e'.root = e.root := by
  have climbs := Expr.ofLexemes_eq_ok_iff.1 (Expression.ofLexemes_eq_ok_iff.1 parsed).1
  -- What was read is taken apart twice: by the rules, and as the sequence that the tree spells.
  have spells := spells_of_ofLexemes parsed
  have ensured : Evaluation.Ensures .any (e.roll rules) _ := e.ensures_roll
  obtain ⟨rolled, made⟩ := (ensured drawn).run (Answers.admit_any ρ) roller r rolled
  obtain ⟨_, -, display⟩ := RollResult.ofTree_eq_ok_iff.1 made
  have readsAs := (readsAs_tree .markdown spells arithmetic (unsigned_of_tokenize read)
    rolled.sameOutline (by simp) (ReadsAs.nil : ReadsAs context [] [])).2
  rw [List.append_nil, List.append_nil] at readsAs
  obtain ⟨again, scanned, alike⟩ := readsAs 0
  obtain ⟨_, left, climbs'⟩ := climbs.alike alike
  cases left
  refine ⟨again, ⟨e.root, r.display⟩, ?_, ?_, rfl⟩
  · rw [tokenize, display]
    exact scanned
  · exact Expression.ofLexemes_eq_ok_iff.2 ⟨Expr.ofLexemes_eq_ok_iff.2 climbs', rfl⟩

/-- Zeros at the front of a number, a minus before an operand, and operations that the display sets
one after the other. -/
theorem Expression.ofLexemes_display_chained :
    let text := "-(007-2)-3 * 2"
    let lexemes : List Lexeme :=
      [⟨.math, "-", "-", none, ⟨0, 1⟩⟩, ⟨.math, "(", "(", none, ⟨1, 2⟩⟩,
        ⟨.dice, "007", "007", some [], ⟨2, 5⟩⟩, ⟨.math, "-", "-", none, ⟨5, 6⟩⟩,
        ⟨.dice, "2", "2", some [], ⟨6, 7⟩⟩, ⟨.math, ")", ")", none, ⟨7, 8⟩⟩,
        ⟨.math, "-", "-", none, ⟨8, 9⟩⟩, ⟨.dice, "3", "3", some [], ⟨9, 10⟩⟩,
        ⟨.math, "*", "*", none, ⟨11, 12⟩⟩, ⟨.dice, "2", "2", some [], ⟨13, 14⟩⟩]
    let root : Expr := .binary (.negate (.grouping (.binary (.literal (.int 7)) .sub
      (.literal (.int 2))))) .sub (.binary (.literal (.int 3)) .mul (.literal (.int 2)))
    let tree : RollTree := .binary (.negate (.grouping (.binary (.literal (.int 7)) .sub
      (.literal (.int 2))))) .sub (.binary (.literal (.int 3)) .mul (.literal (.int 2)))
    let r : RollResult := ⟨text, .int (-11), "-(7 - 2) - 3 * 2", tree⟩
    let rules := RollContext.ofSettings {}
    let roller := SequenceRoller.ofList []
    tokenize ⟨{}, fun _ => none⟩ text = .ok lexemes ∧
      Expression.ofLexemes .standard lexemes text = .ok ⟨root, text⟩ ∧ root.IsArithmetic ∧
      (((Expression.roll rules ⟨root, text⟩).run.run 0).run roller).1.1 = .ok r ∧
      ∃ again e', tokenize ⟨{}, fun _ => none⟩ r.display = .ok again ∧
        Expression.ofLexemes .standard again r.display = .ok e' ∧ e'.root = root := by
  intro text lexemes root tree r rules roller
  have read : tokenize ⟨{}, fun _ => none⟩ text = .ok lexemes := by cbv
  have parsed : Expression.ofLexemes .standard lexemes text = .ok ⟨root, text⟩ := by cbv
  have arithmetic : root.IsArithmetic := by simp [root, Expr.IsArithmetic]
  have rolled : (((Expression.roll rules ⟨root, text⟩).run.run 0).run roller).1.1 = .ok r := by cbv
  exact ⟨read, parsed, arithmetic, rolled,
    Expression.ofLexemes_display read parsed arithmetic rolled ⟨{}, fun _ => none⟩⟩

end Tabletop
