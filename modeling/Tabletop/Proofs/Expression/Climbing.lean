import Tabletop.Expression.Parse

/-!
# The rules of precedence climbing

The readers `operand`, `climb` and `operations` call one another, carry proofs that what they leave
is shorter, and fail in a dozen ways.  A proof about what they have read needs none of that.  This
module says once what a successful reading consists of:

* `Reader` — which of the three readers is at work, with the strength it asks for and, for
  `operations`, the tree that has been read so far.
* `Climbs` — one rule for each way in which a reader comes to a tree.
* `climbs_iff_reads` — the rules are exactly the readers, so that whatever is proved by induction on
  `Climbs` is proved about parsing.
* `ofLexemes_eq_ok_iff` — a whole sequence of lexemes is parsed exactly if the rules read all of it.

Nothing here depends on which operators the table has or how strongly they bind.

One premise of `step` is easily overlooked: the least strength of the right operand has to be a
byte.  Where it is not, the rule does not apply, and there is no other rule for an operator that is
strong enough, so that the rules leave such a sequence without a tree, as the readers do.
-/

namespace Tabletop

namespace Expr

/-- One of the three readers at work.  The relation below is about all three at once, so that one
induction serves them. -/
inductive Reader where
  | operand
  | climb (least : UInt8)
  | operations (least : UInt8) (left : Expr)

/-- What a reader has read when it succeeds: a tree, and the lexemes it leaves.  The proofs about
lengths are hidden behind a quantifier, since no lemma about what was read needs to name them. -/
def Reader.Reads (table : PrecedenceTable) : Reader → List Lexeme → Expr → List Lexeme → Prop
  | operand, lexemes, e, rest =>
      ∃ shorter, Expr.operand table lexemes = .ok (e, ⟨rest, shorter⟩)
  | climb least, lexemes, e, rest =>
      ∃ shorter, Expr.climb table least lexemes = .ok (e, ⟨rest, shorter⟩)
  | operations least left, lexemes, e, rest =>
      ∃ le, Expr.operations table least left lexemes = .ok (e, ⟨rest, le⟩)

/-- No operator follows that binds at least as strongly as asked for, and no modifier either: a
modifier in this place is an error, not an end.  The operator that is too weak stays where it is,
for the reader that asked for this one's operand. -/
def StopsAt (table : PrecedenceTable) (least : UInt8) : List Lexeme → Prop
  | [] => True
  | lexeme :: _ =>
      operatorOf table lexeme = .ok none ∨
        ∃ op binding, operatorOf table lexeme = .ok (some (op, binding)) ∧
          binding.precedence < least

/-- **The rules of climbing.** `Climbs table reader lexemes e rest`: the reader takes the tree `e`
from the front of `lexemes` and leaves `rest`.  The tree in `operations least left` is what stands
to the left of the operators; the rule `step` makes it grow.  `parentheses` asks for any strength
inside, `minus` for the greatest of the table, and `step` for the one that the binding of its
operator says. -/
inductive Climbs (table : PrecedenceTable) : Reader → List Lexeme → Expr → List Lexeme → Prop where
  | parentheses {opening closing : Lexeme} {after rest : List Lexeme} {inner : Expr}
      (opens : isSign opening "(")
      (within : Climbs table (.climb 0) after inner (closing :: rest))
      (closes : isSign closing ")") :
      Climbs table .operand (opening :: after) (.grouping inner) rest
  | minus {sign : Lexeme} {after rest : List Lexeme} {inner : Expr} (minus : isSign sign "-")
      (within : Climbs table (.climb table.greatest) after inner rest) :
      Climbs table .operand (sign :: after) (.negate inner) rest
  | dice {lexeme : Lexeme} {after rest : List Lexeme} {e : Expr} (kind : lexeme.kind = .dice)
      (read : diceOf lexeme after = .ok (e, rest)) :
      Climbs table .operand (lexeme :: after) e rest
  | stunt {lexeme : Lexeme} {after : List Lexeme} (kind : lexeme.kind = .stunt) :
      Climbs table .operand (lexeme :: after) (.stunt lexeme.written) after
  | climb {least : UInt8} {lexemes after rest : List Lexeme} {left e : Expr}
      (first : Climbs table .operand lexemes left after)
      (others : Climbs table (.operations least left) after e rest) :
      Climbs table (.climb least) lexemes e rest
  | stop {least : UInt8} {rest : List Lexeme} {e : Expr} (stops : StopsAt table least rest) :
      Climbs table (.operations least e) rest e rest
  | step {least leastRight : UInt8} {lexeme : Lexeme} {after others rest : List Lexeme}
      {left right e : Expr} {op : BinaryOperator} {binding : Binding}
      (operator : operatorOf table lexeme = .ok (some (op, binding)))
      (strong : ¬ binding.precedence < least) (asks : binding.rightOperand = some leastRight)
      (operand : Climbs table (.climb leastRight) after right others)
      (more : Climbs table (.operations least (.binary left op right)) others e rest) :
      Climbs table (.operations least left) (lexeme :: after) e rest

theorem isSign_iff {lexeme : Lexeme} {sign : String} :
    isSign lexeme sign = true ↔ lexeme.kind = .math ∧ lexeme.data = sign := by
  simp [isSign]

variable {table : PrecedenceTable}

/-- An operator at which reading stops is too weak.  Where reading stops it is known which of the
two reasons it was, once the operator is known. -/
theorem StopsAt.precedence_lt {least : UInt8} {lexeme : Lexeme} {after : List Lexeme}
    {op : BinaryOperator} {binding : Binding} (stops : StopsAt table least (lexeme :: after))
    (operator : operatorOf table lexeme = .ok (some (op, binding))) :
    binding.precedence < least := by
  rcases stops with none | ⟨op', binding', operator', weak⟩
  · cases none.symm.trans operator
  · cases operator'.symm.trans operator
    exact weak

/-! ## The readers follow the rules -/

-- The proofs call one another as the readers do and end for the same reason: each call is on fewer
-- lexemes, but for the first operand of `climb`, which comes before `climb` in the second component.
mutual

/-- An operand is read by one of the first four rules.  Each exit of the reader is either an error,
which the equation excludes, or the conclusion of a rule. -/
theorem climbs_of_operand {lexemes : List Lexeme} {e : Expr} {rest : Rest lexemes}
    (read : operand table lexemes = .ok (e, rest)) : Climbs table .operand lexemes e rest := by
  unfold operand at read
  split at read
  · cases read
  · next opening after =>
    split at read
    · next math =>
      split at read
      · next opens =>
        split at read
        · cases read
        · cases read
        · next inner closing left shorter within =>
          split at read
          · next closes =>
            cases read
            exact .parentheses (isSign_iff.2 ⟨math, opens⟩) (climbs_of_climb within) closes
          · cases read
      · split at read
        · cases read
        · split at read
          · next sign =>
            split at read
            · cases read
            · next inner left shorter within =>
              cases read
              exact .minus (isSign_iff.2 ⟨math, sign⟩) (climbs_of_climb within)
          · cases read
    · next kind =>
      split at read
      · cases read
      · next dice =>
        cases read
        exact .dice kind dice
    · next kind =>
      cases read
      exact .stunt kind
    · cases read
    · cases read
  termination_by (lexemes.length, 0)
  decreasing_by all_goals (subst_vars; simp only [List.length_cons, Prod.lex_def]; omega)

/-- A climb is an operand with the operations behind it. -/
theorem climbs_of_climb {least : UInt8} {lexemes : List Lexeme} {e : Expr} {rest : Rest lexemes}
    (read : climb table least lexemes = .ok (e, rest)) :
    Climbs table (.climb least) lexemes e rest := by
  unfold climb at read
  split at read
  · cases read
  · next first =>
    split at read
    · cases read
    · next others =>
      cases read
      exact .climb (climbs_of_operand first) (climbs_of_operations others)
  termination_by (lexemes.length, 1)
  decreasing_by
    · exact .right _ Nat.zero_lt_one
    · exact .left _ _ ‹_›

/-- The operations end at once, or begin with an operator and its right operand.  The first premise
of `step` is what the loop looks up, and the others follow in the order of the program. -/
theorem climbs_of_operations {least : UInt8} {left : Expr} {lexemes : List Lexeme} {e : Expr}
    {rest : { rest : List Lexeme // rest.length ≤ lexemes.length }}
    (read : operations table least left lexemes = .ok (e, rest)) :
    Climbs table (.operations least left) lexemes e rest := by
  unfold operations at read
  split at read
  · cases read
    exact .stop trivial
  · split at read
    · cases read
    · next noOperator =>
      cases read
      exact .stop (.inl noOperator)
    · next op binding operator =>
      split at read
      · next weak =>
        cases read
        exact .stop (.inr ⟨op, binding, operator, weak⟩)
      · next strong =>
        split at read
        · cases read
        · next asks =>
          split at read
          · cases read
          · next right =>
            split at read
            · cases read
            · next more =>
              cases read
              exact .step operator strong asks (climbs_of_climb right) (climbs_of_operations more)
  termination_by (lexemes.length, 0)
  decreasing_by all_goals (subst_vars; simp only [List.length_cons, Prod.lex_def]; omega)

end

/-! ## The rules are read

The converse needs no recursion but that of the derivation. -/

/-- The readers are functions that run, so each rule is the evaluation of one of their branches.
The induction hands over what each reader leaves together with the proof that it is shorter, and the
sum of these is the proof that the whole reader has to return. -/
theorem reads_of_climbs {reader : Reader} {lexemes rest : List Lexeme} {e : Expr}
    (h : Climbs table reader lexemes e rest) : reader.Reads table lexemes e rest := by
  induction h with
  | parentheses opens _ closes ih =>
    obtain ⟨shorter, within⟩ := ih
    obtain ⟨math, sign⟩ := isSign_iff.1 opens
    refine ⟨by simp only [List.length_cons] at shorter ⊢; omega, ?_⟩
    unfold operand
    simp only [math, sign, within, closes, ↓reduceIte]
  | minus minus _ ih =>
    obtain ⟨shorter, within⟩ := ih
    obtain ⟨math, sign⟩ := isSign_iff.1 minus
    refine ⟨by simp only [List.length_cons]; omega, ?_⟩
    unfold operand
    simp [math, sign, within]
  | dice kind read =>
    refine ⟨Nat.lt_succ_of_le (length_of_diceOf read), ?_⟩
    unfold operand
    simp only [kind]
    split
    · next failed => cases read.symm.trans failed
    · next found =>
      cases read.symm.trans found
      rfl
  | stunt kind =>
    refine ⟨by simp, ?_⟩
    unfold operand
    simp only [kind]
  -- The two parts leave fewer and fewer lexemes, and this is what the readers return with them.
  | climb _ _ ihFirst ihOthers =>
    obtain ⟨shorter, first⟩ := ihFirst
    obtain ⟨le, others⟩ := ihOthers
    refine ⟨Nat.lt_of_le_of_lt le shorter, ?_⟩
    unfold Expr.climb
    simp only [first, others]
  | @stop _ rest _ stops =>
    refine ⟨Nat.le_refl _, ?_⟩
    unfold operations
    -- The loop ends in three places, one for each reason to stop.
    cases rest with
    | nil => rfl
    | cons =>
      rcases stops with noOperator | ⟨_, _, operator, weak⟩
      · simp only [noOperator]
      · simp only [operator, weak, ↓reduceIte]
  | step operator strong asks _ _ ihOperand ihMore =>
    obtain ⟨shorter, right⟩ := ihOperand
    obtain ⟨le, more⟩ := ihMore
    refine ⟨by simp only [List.length_cons]; omega, ?_⟩
    unfold operations
    simp only [operator, strong, asks, right, more, ↓reduceIte]

/-- **The rules are exactly the readers.** One case for each reader.  Neither direction is used
alone in what follows: what was parsed is taken apart by the rules, and what the rules allow has
been parsed. -/
theorem climbs_iff_reads {reader : Reader} {lexemes rest : List Lexeme} {e : Expr} :
    Climbs table reader lexemes e rest ↔ reader.Reads table lexemes e rest := by
  refine ⟨reads_of_climbs, fun read => ?_⟩
  cases reader with
  | operand => exact climbs_of_operand read.2
  | climb least => exact climbs_of_climb read.2
  | operations least left => exact climbs_of_operations read.2

/-- **A sequence of lexemes has a tree exactly if the rules read all of it.** A climb that leaves
something is an error of the parser, and no tree. -/
theorem ofLexemes_eq_ok_iff {lexemes : List Lexeme} {e : Expr} :
    ofLexemes table lexemes = .ok e ↔ Climbs table (.climb 0) lexemes e [] := by
  constructor
  · intro parsed
    unfold ofLexemes at parsed
    split at parsed
    · cases parsed
    · split at parsed
      · cases parsed
      · next read =>
        cases parsed
        exact climbs_of_climb read
      · split at parsed <;> cases parsed
  -- Something has been read, so there are lexemes, which is looked at first.
  · intro h
    obtain ⟨shorter, read⟩ := reads_of_climbs h
    have nonempty : lexemes.isEmpty = false := by
      cases lexemes with
      | nil => simp at shorter
      | cons => rfl
    simp [ofLexemes, nonempty, read]

end Expr

/-- An expression is a tree together with the text that it was read from. -/
theorem Expression.ofLexemes_eq_ok_iff {table : PrecedenceTable} {lexemes : List Lexeme}
    {written : String} {e : Expression} :
    Expression.ofLexemes table lexemes written = .ok e ↔
      Expr.ofLexemes table lexemes = .ok e.root ∧ e.written = written := by
  unfold Expression.ofLexemes
  cases Expr.ofLexemes table lexemes with
  | error fault => simp
  | ok root =>
    obtain ⟨root', written'⟩ := e
    simp [eq_comm]

end Tabletop
