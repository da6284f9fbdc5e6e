import Mathlib
import Tabletop.Proofs.Expression.Climbing
import Tabletop.Proofs.Expression.Terminal
import Tabletop.Proofs.Rolling.Draws
import Tabletop.Reference.Roll
import Tabletop.Rolling.Sequence

/-!
# Dice and references

There are two ways to roll dice: as a dice notation, and as a notation of any kind that turns out to
be dice.  They decide differently.  The second looks through all lexemes for a reference before it
parses, and the first parses at once, so that a reference matters only where the parser meets it.
The two agree because the parser cannot succeed without reading every lexeme, and none of its rules
reads a reference.

* `Expr.exists_read_of_climbs` — what the rules of climbing read, for any table of operators;
* `classify_eq_dice_iff` — what the search for a reference finds;
* `Engine.roll_eq_map_rollDice`, `Engine.exists_rollDice_eq_error` — both ways, without and with a
  reference;
* `Engine.roll_eq_dice_iff` — they give the same dice.

The induction is load-bearing in one respect: it is on what readers read, and not on the tree they
give.  A tree does not show parentheses that were read and thrown away, or that a lexeme was passed
over, while the statement is about every lexeme.
-/

namespace Tabletop

namespace Lexeme

/-- The lexeme is a reference to a document. -/
def IsReference (l : Lexeme) : Prop :=
  ∃ kind, l.kind = .reference kind

theorem not_isReference {l : Lexeme} {kind : LexemeKind} (is : l.kind = kind)
    (other : ∀ document, kind ≠ .reference document) : ¬ l.IsReference := by
  rintro ⟨document, eq⟩
  exact other document (is.symm.trans eq)

end Lexeme

/-! ## What the parser reads

The parser is the rules of climbing, so this is a statement about derivations. -/

namespace Expr

variable {table : PrecedenceTable}

theorem not_isReference_of_isSign {l : Lexeme} {sign : String} (is : isSign l sign) :
    ¬ l.IsReference :=
  Lexeme.not_isReference (isSign_iff.1 is).1 nofun

/-- The modifiers behind a group of dice are no references. -/
theorem not_isReference_of_isModifier {ls : List Lexeme} {ms : List Modifier}
    (modifiers : List.Forall₂ Lexeme.IsModifier ls ms) : ∀ l ∈ ls, ¬ l.IsReference := by
  have each : List.Forall₂ (fun l m => ¬ l.IsReference ∧ Lexeme.IsModifier l m) ls ms := by
    refine modifiers.imp fun l m is => ⟨?_, is⟩
    obtain ⟨kind, n, modifier, -⟩ := is
    exact Lexeme.not_isReference modifier nofun
  exact ((List.forall₂_and_left ls ms).1 each).1

/-- **No rule reads a reference.** What a reader has read stands before what it leaves, and there is
no reference in it.  The cases are the rules; each reads its own lexemes, and its parts read theirs.
-/
theorem exists_read_of_climbs {reader : Reader} {lexemes rest : List Lexeme} {e : Expr}
    (h : Climbs table reader lexemes e rest) :
    ∃ read, lexemes = read ++ rest ∧ ∀ l ∈ read, ¬ l.IsReference := by
  induction h with
  | @parentheses opening closing after rest inner opens _ closes ih =>
    obtain ⟨read, rfl, none⟩ := ih
    refine ⟨opening :: (read ++ [closing]), by simp, ?_⟩
    refine List.forall_mem_cons.2 ⟨not_isReference_of_isSign opens, ?_⟩
    refine List.forall_mem_append.2 ⟨none, ?_⟩
    exact List.forall_mem_singleton.2 (not_isReference_of_isSign closes)
  | @minus l after rest inner minus _ ih =>
    obtain ⟨read, rfl, none⟩ := ih
    exact ⟨l :: read, rfl, List.forall_mem_cons.2 ⟨not_isReference_of_isSign minus, none⟩⟩
  -- A number is one lexeme, and a group takes its modifiers with it.
  | @dice lexeme after rest e kind read =>
    have first : ¬ lexeme.IsReference := Lexeme.not_isReference kind nofun
    rcases (diceOf_eq_ok_iff kind).1 read with
      ⟨x, -, -, rfl⟩ | ⟨count, faces, ls, ms, -, rfl, modifiers, -, -⟩
    · exact ⟨[lexeme], rfl, List.forall_mem_singleton.2 first⟩
    · refine ⟨lexeme :: ls, rfl, List.forall_mem_cons.2 ⟨first, ?_⟩⟩
      exact not_isReference_of_isModifier modifiers
  | @stunt lexeme after kind =>
    exact ⟨[lexeme], rfl, List.forall_mem_singleton.2 (Lexeme.not_isReference kind nofun)⟩
  | climb _ _ ihFirst ihOthers =>
    obtain ⟨first, rfl, noneFirst⟩ := ihFirst
    obtain ⟨others, rfl, noneOthers⟩ := ihOthers
    refine ⟨first ++ others, (List.append_assoc _ _ _).symm, ?_⟩
    exact List.forall_mem_append.2 ⟨noneFirst, noneOthers⟩
  | stop _ => exact ⟨[], rfl, List.forall_mem_nil _⟩
  -- The operator, then the operand, then whatever follows.
  | @step _ _ lexeme _ _ _ _ _ _ _ _ operator _ _ _ _ ihOperand ihMore =>
    obtain ⟨first, rfl, noneFirst⟩ := ihOperand
    obtain ⟨more, rfl, noneMore⟩ := ihMore
    have sign : ¬ lexeme.IsReference :=
      Lexeme.not_isReference (operatorOf_eq_ok_some_iff.1 operator).1.1 nofun
    refine ⟨lexeme :: (first ++ more), by simp, ?_⟩
    exact List.forall_mem_cons.2 ⟨sign, List.forall_mem_append.2 ⟨noneFirst, noneMore⟩⟩

/-- A sequence of lexemes that has a tree holds no reference, whatever the operators are. -/
theorem not_isReference_of_ofLexemes {lexemes : List Lexeme} {e : Expr}
    (parsed : ofLexemes table lexemes = .ok e) : ∀ l ∈ lexemes, ¬ l.IsReference := by
  obtain ⟨read, eq, none⟩ := exists_read_of_climbs (ofLexemes_eq_ok_iff.1 parsed)
  rw [List.append_nil] at eq
  rw [eq]
  exact none

end Expr

/-! ## What the search finds

The search goes through the kinds of references, and for each through all lexemes. -/

/-- Every kind of reference is looked for. -/
theorem ReferenceKind.mem_priority (kind : ReferenceKind) : kind ∈ priority := by
  cases kind <;> decide

/-- A sequence of lexemes is dice exactly if there is no reference anywhere in it. -/
theorem classify_eq_dice_iff {lexemes : List Lexeme} :
    classify lexemes = .dice ↔ ∀ l ∈ lexemes, ¬ l.IsReference := by
  have notFound :
      (ReferenceKind.priority.find? fun kind => lexemes.any (·.kind = .reference kind)) = none ↔
        ∀ l ∈ lexemes, ¬ l.IsReference := by
    rw [List.find?_eq_none]
    constructor
    · rintro none l mem ⟨kind, is⟩
      refine none kind kind.mem_priority (List.any_eq_true.2 ⟨l, mem, ?_⟩)
      exact decide_eq_true is
    · intro none kind _ found
      obtain ⟨l, mem, is⟩ := List.any_eq_true.1 found
      exact none l mem ⟨kind, of_decide_eq_true is⟩
  rw [← notFound]
  unfold classify
  split
  · next kind found => simp [found]
  · next missing => simp [missing]

/-! ## Both ways of rolling

The two functions differ in what they do after the text has been taken apart, so the cases are
whether it can be, and whether there is a reference. -/

namespace Engine

variable {engine : Engine} {store : ContentStore} {text : String} {lexemes : List Lexeme}

/-- Where the text cannot be taken apart, both ways end with the same error. -/
theorem roll_eq_map_rollDice_of_lex {e : LexError}
    (read : engine.lex (engine.prepare text) = .error e) :
    engine.roll store text = (fun r => r.map .dice) <$> engine.rollDice text := by
  unfold roll rollDice parse
  dsimp only
  rw [read]
  rfl

/-- **Without a reference** a notation is rolled as the dice notation that it is. -/
theorem roll_eq_map_rollDice (read : engine.lex (engine.prepare text) = .ok lexemes)
    (none : ∀ l ∈ lexemes, ¬ l.IsReference) :
    engine.roll store text = (fun r => r.map .dice) <$> engine.rollDice text := by
  have dice : classify lexemes = .dice := classify_eq_dice_iff.2 none
  have parsed : engine.parse text = engine.parseLexemes lexemes (engine.prepare text) := by
    unfold parse
    dsimp only
    rw [read]
    rfl
  unfold roll rollDice
  dsimp only
  rw [read, parsed]
  dsimp only
  rw [dice]
  dsimp only
  cases engine.parseLexemes lexemes (engine.prepare text) with
  | error e => rfl
  | ok e => rfl

/-- **With a reference** there is no dice notation, and nothing is rolled as one. -/
theorem exists_rollDice_eq_error (read : engine.lex (engine.prepare text) = .ok lexemes)
    {l : Lexeme} (mem : l ∈ lexemes) (reference : l.IsReference) :
    ∃ e, engine.rollDice text = pure (.error e) := by
  cases parsed : engine.parse text with
  | error e =>
    refine ⟨e, ?_⟩
    unfold rollDice
    rw [parsed]
  -- A tree would have been read from every lexeme, the reference included.
  | ok e =>
    obtain ⟨found, lexed, parsed⟩ := Except.bind_eq_ok_iff.1 parsed
    obtain rfl : lexemes = found := by
      rw [read] at lexed
      exact Except.ok.inj lexed
    have tree := Expression.ofLexemes_eq_ok_iff.1 (Except.mapError_eq_ok_iff.1 parsed)
    exact absurd reference (Expr.not_isReference_of_ofLexemes tree.1 l mem)

variable {ρ : Type} [Roller ρ]

/-- With a reference, what is rolled is the reference, or nothing. -/
theorem roll_ne_dice (read : engine.lex (engine.prepare text) = .ok lexemes)
    {l : Lexeme} (mem : l ∈ lexemes) (reference : l.IsReference) (roller : ρ) (r : RollResult) :
    ((engine.roll store text).run roller).1 ≠ .ok (.dice r) := by
  have other : classify lexemes ≠ .dice := fun dice =>
    classify_eq_dice_iff.1 dice l mem reference
  unfold roll
  dsimp only
  rw [read]
  dsimp only
  split
  · next dice => exact absurd dice other
  · split
    · nofun
    · split
      · nofun
      · rw [Rolling.run_bind]
        intro rolled
        obtain ⟨a, -, eq⟩ := Except.map_eq_ok_iff.1 rolled
        cases eq

/-- A notation that is rolled as dice gives the same dice both ways, and leaves the roller in the
same state. -/
theorem run_roll_of_eq_map
    (same : engine.roll store text = (fun r => r.map .dice) <$> engine.rollDice text)
    (roller : ρ) :
    (engine.roll store text).run roller =
      (((engine.rollDice text).run roller).1.map .dice, ((engine.rollDice text).run roller).2) := by
  rw [same, map_eq_pure_bind, Rolling.run_bind]
  rfl

/-- **Dice are the same both ways.**  Rolling a notation of any kind gives dice exactly if rolling
it as a dice notation gives these dice, and then the roller is left in the same state.  If there is
a reference among the lexemes of the notation, in any position, then neither way gives dice. -/
theorem roll_eq_dice_iff (engine : Engine) (store : ContentStore) (text : String) (roller : ρ) :
    let any := (engine.roll store text).run roller
    let dice := (engine.rollDice text).run roller
    (∀ r, any.1 = .ok (.dice r) ↔ dice.1 = .ok r) ∧
    (∀ r, dice.1 = .ok r → any.2 = dice.2) ∧
    (∀ lexemes, engine.lex (engine.prepare text) = .ok lexemes →
      ∀ l ∈ lexemes, l.IsReference → ∀ r, dice.1 ≠ .ok r ∧ any.1 ≠ .ok (.dice r)) := by
  intro any dice
  -- With a reference neither way gives dice.
  have refused {lexemes : List Lexeme} (read : engine.lex (engine.prepare text) = .ok lexemes)
      {l : Lexeme} (mem : l ∈ lexemes) (reference : l.IsReference) (r : RollResult) :
      dice.1 ≠ .ok r ∧ any.1 ≠ .ok (.dice r) := by
    obtain ⟨e, failed⟩ := exists_rollDice_eq_error read mem reference
    refine ⟨?_, roll_ne_dice read mem reference roller r⟩
    dsimp only [dice]
    rw [failed]
    nofun
  -- Where one way is the other one renamed, the results and the rollers agree.
  have agree (same : engine.roll store text = (fun r => r.map .dice) <$> engine.rollDice text) :
      (∀ r, any.1 = .ok (.dice r) ↔ dice.1 = .ok r) ∧ (∀ r, dice.1 = .ok r → any.2 = dice.2) := by
    have both : any = (dice.1.map .dice, dice.2) := run_roll_of_eq_map same roller
    rw [both]
    refine ⟨fun r => ?_, fun _ _ => rfl⟩
    rw [Except.map_eq_ok_iff]
    simp only [Outcome.dice.injEq, exists_eq_right]
  suffices both : (∀ r, any.1 = .ok (.dice r) ↔ dice.1 = .ok r) ∧
      ∀ r, dice.1 = .ok r → any.2 = dice.2 from
    ⟨both.1, both.2, fun _ read _ mem reference r => refused read mem reference r⟩
  cases read : engine.lex (engine.prepare text) with
  | error e => exact agree (roll_eq_map_rollDice_of_lex read)
  | ok lexemes =>
    by_cases references : ∃ l ∈ lexemes, l.IsReference
    · obtain ⟨l, mem, reference⟩ := references
      have none := refused read mem reference
      exact ⟨fun r => iff_of_false (none r).2 (none r).1, fun r rolled => absurd rolled (none r).1⟩
    · refine agree (roll_eq_map_rollDice read fun l mem reference => ?_)
      exact references ⟨l, mem, reference⟩

/-- Two dice are the same both ways.  Dice before a reference to a note are not rolled. -/
theorem roll_eq_dice_iff_two :
    let store : ContentStore := ⟨fun _ _ => none, fun _ => some [⟨"list", "Ann"⟩], fun _ => none⟩
    let roller := SequenceRoller.ofList [3, 4]
    let six : Faces := ⟨6, by decide⟩
    let r : RollResult :=
      ⟨"2d6", .int 7, "2d6 (3, 4)",
        .dice ⟨"2d6", 2, six, [], [{ faces := six, face := 3 }, { faces := six, face := 4 }]⟩⟩
    let any := (({} : Engine).roll store "2d6").run roller
    let dice := (({} : Engine).rollDice "2d6").run roller
    (dice.1 = .ok r ∧ any.1 = .ok (.dice r) ∧ any.2 = dice.2) ∧
      ∀ r, ((({} : Engine).rollDice "1d6+[[Ann]]").run roller).1 ≠ .ok r ∧
        ((({} : Engine).roll store "1d6+[[Ann]]").run roller).1 ≠ .ok (.dice r) := by
  intro store roller six r any dice
  have rolled : dice.1 = .ok r := by
    dsimp only [dice]
    cbv
  have read : ({} : Engine).lex (({} : Engine).prepare "1d6+[[Ann]]") =
      .ok [⟨.dice, "1d6", "1d6", some [], ⟨0, 3⟩⟩, ⟨.math, "+", "+", none, ⟨3, 4⟩⟩,
        ⟨.reference .sections, "[[Ann]]", "[[Ann]]", none, ⟨4, 11⟩⟩] := by cbv
  obtain ⟨same, state, -⟩ := roll_eq_dice_iff {} store "2d6" roller
  obtain ⟨-, -, never⟩ := roll_eq_dice_iff {} store "1d6+[[Ann]]" roller
  have last := never _ read _ (.tail _ (.tail _ (.head _))) ⟨.sections, rfl⟩
  exact ⟨⟨rolled, (same r).2 rolled, state r rolled⟩, last⟩

end Engine

end Tabletop
