import Tabletop.Decimal.Reading
import Tabletop.Expression
import Tabletop.Expression.ParseError
import Tabletop.Text.Basic

/-!
# Parsing

Lexemes are read by precedence climbing: an operand, then as many operators as bind strongly
enough, each with a right operand of the strength that its binding asks for. Every reader
returns what it has left, which is shorter than what it was given; that is why the reading ends.
-/

namespace Tabletop

/-- What is left after something has been read. -/
abbrev Rest (lexemes : List Lexeme) :=
  { rest : List Lexeme // rest.length < lexemes.length }

namespace Expr

/-- The number that a dice lexeme without faces stands for. -/
def literalOf (lexeme : Lexeme) : Except ParseFault Number :=
  match Decimal.int64? lexeme.data.toList with
  | some n => .ok (.int n)
  | none =>
    match Decimal.float? lexeme.data.toList with
    | some x => if x.isFinite then .ok (.float x) else .error (.on .invalidDice lexeme)
    | none => .error (.on .invalidDice lexeme)

/-- The modifier that a lexeme of a kind of modifier stands for. -/
def modifierOf (lexeme : Lexeme) (kind : ModifierKind) : Except ParseFault Modifier :=
  match Decimal.word32? lexeme.data.toList with
  | none => .error (.on .invalidModifier lexeme)
  | some n =>
    .ok <|
      match kind with
      | .explode => .explode n lexeme.conditionalList
      | .explodeCombine => .explodeCombine n lexeme.conditionalList
      | .reroll => .reroll n lexeme.conditionalList
      | .keepHigh => .keep .high n
      | .keepLow => .keep .low n
      | .dropHigh => .drop .high n
      | .dropLow => .drop .low n

/-- The modifiers at the front of a sequence, the texts they were read from, and what is left. -/
def modifiersOf : List Lexeme → Except ParseFault (List Modifier × List String × List Lexeme)
  | [] => .ok ([], [], [])
  | lexeme :: after =>
    match lexeme.kind with
    | .modifier kind => do
      let first ← modifierOf lexeme kind
      let (others, texts, rest) ← modifiersOf after
      return (first :: others, lexeme.written :: texts, rest)
    | _ => .ok ([], [], lexeme :: after)

/-- The count and the faces of `NdM`; nothing if there is no letter `d`. -/
def countAndFaces? (data : String) : Option (Option UInt32 × Option Faces) :=
  (Text.splitFirst? (· == 'd') data.toList).map fun (count, faces) =>
    (Decimal.word32? count, (Decimal.word32? faces).bind Faces.ofWord?)

/-- The number or the group of dice that a dice lexeme begins, with the modifiers that follow it,
and what is left. -/
def diceOf (lexeme : Lexeme) (after : List Lexeme) : Except ParseFault (Expr × List Lexeme) :=
  match countAndFaces? lexeme.data with
  | none => do
    let value ← literalOf lexeme
    return (literal value, after)
  | some (some count, some faces) => do
    let (modifiers, texts, rest) ← modifiersOf after
    return (dice ⟨count, faces, lexeme.conditionalList, modifiers,
      String.join (lexeme.written :: texts)⟩, rest)
  | some _ => .error (.on .invalidDice lexeme)

theorem length_of_modifiersOf {lexemes rest : List Lexeme} {modifiers : List Modifier}
    {texts : List String} (h : modifiersOf lexemes = .ok (modifiers, texts, rest)) :
    rest.length ≤ lexemes.length := by
  induction lexemes generalizing modifiers texts rest with
  | nil => simp_all [modifiersOf]
  | cons lexeme after ih =>
    rw [modifiersOf] at h
    split at h
    · next kind _ =>
      cases first : modifierOf lexeme kind with
      | error e => simp [first, bind, Except.bind] at h
      | ok modifier =>
        cases others : modifiersOf after with
        | error e => simp [first, others, bind, Except.bind] at h
        | ok read =>
          obtain ⟨_, _, left⟩ := read
          simp [first, others, bind, Except.bind, pure, Except.pure] at h
          have := ih others
          rw [h.2.2] at this
          exact Nat.le_succ_of_le this
    · simp only [Except.ok.injEq, Prod.mk.injEq] at h
      exact h.2.2 ▸ Nat.le_refl _

theorem length_of_diceOf {lexeme : Lexeme} {after rest : List Lexeme} {e : Expr}
    (h : diceOf lexeme after = .ok (e, rest)) : rest.length ≤ after.length := by
  unfold diceOf at h
  split at h
  · cases read : literalOf lexeme with
    | error e => simp [read, bind, Except.bind] at h
    | ok value =>
      simp [read, bind, Except.bind, pure, Except.pure] at h
      exact h.2 ▸ Nat.le_refl _
  · cases read : modifiersOf after with
    | error e => simp [read, bind, Except.bind] at h
    | ok modifiers =>
      obtain ⟨_, _, left⟩ := modifiers
      simp [read, bind, Except.bind, pure, Except.pure] at h
      rw [← h.2]
      exact length_of_modifiersOf read
  · simp at h

/-- The operator that a lexeme stands for and its binding; none if the lexeme is no operator. A
modifier in this place does not follow a group of dice. -/
def operatorOf (table : PrecedenceTable) (lexeme : Lexeme) :
    Except ParseFault (Option (BinaryOperator × Binding)) :=
  match lexeme.kind with
  | .modifier kind => .error (.on (.modifierWithoutDice kind) lexeme)
  | .math =>
    match BinaryOperator.ofString? lexeme.data with
    | none => .ok none
    | some op =>
      match table.binding op with
      | some binding => .ok (some (op, binding))
      | none => .error (.on (.unknownOperator lexeme.data) lexeme)
  | _ => .ok none

/-- Whether a lexeme is the given sign of arithmetic. -/
def isSign (lexeme : Lexeme) (sign : String) : Bool :=
  lexeme.kind = .math && lexeme.data = sign

mutual

/-- An operand: a number, dice, a stunt, an expression in parentheses, or the opposite of an
expression of the most strongly binding operators. -/
def operand (table : PrecedenceTable) (lexemes : List Lexeme) :
    Except ParseFault (Expr × Rest lexemes) :=
  match lexemes with
  | [] => .error (.atEnd .unexpectedEnd)
  | lexeme :: after =>
    match lexeme.kind with
    | .math =>
      if lexeme.data = "(" then
        match climb table 0 after with
        | .error fault => .error fault
        | .ok (_, ⟨[], _⟩) => .error (.on .unbalancedParenthesis lexeme)
        | .ok (inner, ⟨close :: rest, shorter⟩) =>
          if isSign close ")" then
            .ok (.grouping inner, ⟨rest, by simp only [List.length_cons] at *; omega⟩)
          else .error (.on .unbalancedParenthesis lexeme)
      else if lexeme.data = ")" then .error (.on .unbalancedParenthesis lexeme)
      else if lexeme.data = "-" then
        match climb table table.greatest after with
        | .error fault => .error fault
        | .ok (inner, ⟨rest, shorter⟩) =>
          .ok (.negate inner, ⟨rest, by simp only [List.length_cons] at *; omega⟩)
      else .error (.on (.unexpectedLexeme .math) lexeme)
    | .dice =>
      match read : diceOf lexeme after with
      | .error fault => .error fault
      | .ok (e, rest) => .ok (e, ⟨rest, Nat.lt_succ_of_le (length_of_diceOf read)⟩)
    | .stunt => .ok (.stunt lexeme.written, ⟨after, by simp⟩)
    | .modifier kind => .error (.on (.modifierWithoutDice kind) lexeme)
    | .reference kind => .error (.on (.unexpectedReference kind) lexeme)
  termination_by (lexemes.length, 0)

/-- An operand and the operators after it that bind at least as strongly as asked for. -/
def climb (table : PrecedenceTable) (least : UInt8) (lexemes : List Lexeme) :
    Except ParseFault (Expr × Rest lexemes) :=
  match operand table lexemes with
  | .error fault => .error fault
  | .ok (left, ⟨rest, shorter⟩) =>
    match operations table least left rest with
    | .error fault => .error fault
    | .ok (e, ⟨last, le⟩) => .ok (e, ⟨last, Nat.lt_of_le_of_lt le shorter⟩)
  termination_by (lexemes.length, 1)

/-- The operators at the front of a sequence that bind at least as strongly as asked for, applied
one after the other to the operand on their left. -/
def operations (table : PrecedenceTable) (least : UInt8) (left : Expr) (lexemes : List Lexeme) :
    Except ParseFault (Expr × { rest : List Lexeme // rest.length ≤ lexemes.length }) :=
  match lexemes with
  | [] => .ok (left, ⟨[], Nat.le_refl _⟩)
  | lexeme :: after =>
    match operatorOf table lexeme with
    | .error fault => .error fault
    | .ok none => .ok (left, ⟨lexeme :: after, Nat.le_refl _⟩)
    | .ok (some (op, binding)) =>
      if binding.precedence < least then .ok (left, ⟨lexeme :: after, Nat.le_refl _⟩)
      else
        match binding.rightOperand with
        | none => .error (.on .overflow lexeme)
        | some leastRight =>
          match climb table leastRight after with
          | .error fault => .error fault
          | .ok (right, ⟨rest, shorter⟩) =>
            match operations table least (.binary left op right) rest with
            | .error fault => .error fault
            | .ok (e, ⟨last, le⟩) =>
              .ok (e, ⟨last, by simp only [List.length_cons]; omega⟩)
  termination_by (lexemes.length, 0)

end

/-- The tree of a whole sequence of lexemes. -/
def ofLexemes (table : PrecedenceTable) (lexemes : List Lexeme) : Except ParseFault Expr :=
  if lexemes.isEmpty then .error (.atEnd .empty)
  else
    match climb table 0 lexemes with
    | .error fault => .error fault
    | .ok (e, ⟨[], _⟩) => .ok e
    | .ok (_, ⟨next :: _, _⟩) =>
      if isSign next ")" then .error (.on .unbalancedParenthesis next)
      else .error (.on (.unexpectedLexeme next.kind) next)

end Expr

namespace Expression

/-- The expression of a sequence of lexemes that was read from the given text. -/
def ofLexemes (table : PrecedenceTable) (lexemes : List Lexeme) (written : String) :
    Except ParseError Expression :=
  match Expr.ofLexemes table lexemes with
  | .ok root => .ok ⟨root, written⟩
  | .error fault => .error (ParseError.ofFault lexemes written fault)

/-- The expression of a sequence of lexemes, whose text is taken to be that of the lexemes. -/
def parse (table : PrecedenceTable) (lexemes : List Lexeme) : Except ParseError Expression :=
  ofLexemes table lexemes (String.join (lexemes.map (·.written)))

end Expression

end Tabletop
