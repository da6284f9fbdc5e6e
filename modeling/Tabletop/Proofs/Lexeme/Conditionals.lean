import Tabletop.Engine
import Tabletop.Proofs.Dice.Rolled
import Tabletop.Proofs.Expression.Grouping
import Tabletop.Proofs.Lexeme.Taken
import Tabletop.Rolling.Sequence

/-!
# The conditionals of a lexeme

A lexeme that takes conditionals is written with a sequence of pairs behind what it is without them
(`Lexeme.WrittenWith`), and its text leaves no choice of which (`Lexeme.WrittenWith.unique`).  Its
conditionals are those of the pairs (`tokenize_conditionals`).

Not every pair has one.  The lexer delimits a suffix by the decimal digits of all scripts and reads
it by those of ASCII and in 64 bits, so that what delimits accepts more than what reads.  A pair
that cannot be read leaves no trace in the lexeme but its text, and a group whose pairs all are of
this sort adds its dice up as if it had none (`tokenize_conditionals_lost`).
-/

namespace Tabletop

open Suffix (Pair textAll)

/-- The kinds of lexemes that take conditionals. -/
def LexemeKind.TakesConditionals (kind : LexemeKind) : Prop :=
  kind ∈ [.dice, .modifier .explode, .modifier .explodeCombine, .modifier .reroll]

/-- **The suffix of a lexeme.**  Dice and modifiers that repeat are written with pairs behind them;
numbers and names are written without any sign of a comparison. -/
inductive Lexeme.WrittenWith (settings : Settings) (l : Lexeme) : List Pair → Prop
  | suffixed {stem : List Char} {pairs : List Pair}
      (isStem : Rule.Stem settings l.kind stem l.data.toList)
      (text : l.written.toList = stem ++ textAll pairs) : WrittenWith settings l pairs
  | bare (kind : l.kind = .dice) (noSign : ∀ c ∈ l.written.toList, c ∉ ['=', '!', '>', '<']) :
      WrittenWith settings l []

namespace Rule

open Text (isDigit)

variable {context : LexContext} {settings : Settings} {w rest data : List Char} {kind : LexemeKind}
  {conditionals : Option (List Conditional)}

/-- **The conditionals of a lexeme are those of its pairs.** -/
theorem Reads.exists_pairs (h : Reads context w rest kind data conditionals)
    (takes : kind.TakesConditionals) :
    ∃ pairs : List Pair, conditionals = some (pairs.filterMap Pair.conditional?) ∧
      ((∃ stem, Stem context.settings kind stem data ∧ w = stem ++ textAll pairs) ∨
        kind = .dice ∧ pairs = [] ∧ ∀ c ∈ w, c ∉ ['=', '!', '>', '<']) := by
  cases h with
  | suffixed isStem _ _ => exact ⟨_, rfl, .inl ⟨_, isStem, rfl⟩⟩
  | number _ areDigits =>
    exact ⟨[], rfl, .inr ⟨rfl, rfl, fun c mem => Suffix.not_mem_signs (.inr (areDigits c mem))⟩⟩
  | field letter _ word _ _ =>
    refine ⟨[], rfl, .inr ⟨rfl, rfl, List.forall_mem_cons.2 ⟨?_, fun c mem => ?_⟩⟩⟩
    · exact not_mem_signs_of_isNameChar (isNameChar_of_isAlpha letter)
    · exact not_mem_signs_of_isNameChar (word c mem)
  | sign | stunt | drop => simp [LexemeKind.TakesConditionals] at takes
  | counted isMark _ =>
    rcases mem_countedMarks.1 isMark with ⟨rfl, -⟩ | ⟨rfl, -⟩ | ⟨rfl, -⟩ | ⟨rfl, -⟩ | ⟨rfl, -⟩ <;>
      simp [LexemeKind.TakesConditionals] at takes

/-! ## One suffix only

The pairs are found from the text and the kind alone.  What makes this true is that the signs of
comparisons stand nowhere else in a lexeme, but for its mark. -/

/-- Faces are written without signs of comparisons. -/
theorem FacesText.not_mem_signs {f : List Char} {m : Option (List Char)} (read : FacesText f m) :
    ∀ c ∈ f, c ∉ ['=', '!', '>', '<'] := by
  cases read with
  | missing => exact List.forall_mem_nil _
  | percent => exact List.forall_mem_singleton.2 (by decide)
  | digits _ areDigits => exact fun c mem => Suffix.not_mem_signs (.inr (areDigits c mem))

theorem TimesText.not_mem_signs {t : List Char} (read : TimesText settings t data) :
    ∀ c ∈ t, c ∉ ['=', '!', '>', '<'] := by
  cases read with
  | cap => exact List.forall_mem_singleton.2 (by decide)
  | digits areDigits => exact fun c mem => Suffix.not_mem_signs (.inr (areDigits c mem))

end Rule

/-- The mark of a modifier that repeats, and nothing for dice. -/
def LexemeKind.mark : LexemeKind → List Char
  | .modifier .explode => ['!']
  | .modifier .explodeCombine => ['!', '!']
  | .modifier .reroll => ['r']
  | .dice | .math | .stunt | .modifier _ | .reference _ => []

/-- The kind of a lexeme says which signs belong to its mark.  All others belong to its pairs. -/
theorem Rule.Stem.exists_mark {settings : Settings} {stem data : List Char} {kind : LexemeKind}
    (h : Rule.Stem settings kind stem data) :
    ∃ body, stem = kind.mark ++ body ∧ ∀ c ∈ body, c ∉ ['=', '!', '>', '<'] := by
  cases h with
  | @group count faces d m areDigits letter read either =>
    refine ⟨count ++ d :: faces, rfl, List.forall_mem_append.2
      ⟨fun c mem => Suffix.not_mem_signs (.inr (areDigits c mem)), List.forall_mem_cons.2
        ⟨?_, read.not_mem_signs⟩⟩⟩
    rcases letter with rfl | rfl <;> decide
  | @repeated kind mark t data isMark read =>
    refine ⟨t, ?_, read.not_mem_signs⟩
    rcases Rule.mem_repeatedMarks.1 isMark with ⟨rfl, rfl⟩ | ⟨rfl, rfl⟩ | ⟨rfl, rfl⟩ <;> rfl

namespace Lexeme

variable {settings : Settings} {l : Lexeme} {pairs others : List Pair}

/-- A lexeme is its mark, a body without signs of comparisons, and its pairs.  The sign of an
explosion is itself the sign of a comparison, which is why the mark is put apart. -/
theorem WrittenWith.exists_body (h : l.WrittenWith settings pairs) :
    ∃ body, l.written.toList = l.kind.mark ++ (body ++ textAll pairs) ∧
      ∀ c ∈ body, c ∉ ['=', '!', '>', '<'] := by
  cases h with
  | suffixed isStem text =>
    obtain ⟨body, rfl, noSign⟩ := isStem.exists_mark
    exact ⟨body, by rw [text, List.append_assoc], noSign⟩
  | bare kind noSign => exact ⟨l.written.toList, by simp [kind, LexemeKind.mark, textAll], noSign⟩

/-- **A lexeme has one suffix only.**  It begins with the first sign of a comparison behind the
mark, and where a pair ends is seen from the pair. -/
theorem WrittenWith.unique (h : l.WrittenWith settings pairs) (h' : l.WrittenWith settings others) :
    pairs = others := by
  obtain ⟨body, whole, noSign⟩ := h.exists_body
  obtain ⟨body', whole', noSign'⟩ := h'.exists_body
  have suffix (body : List Char) (pairs : List Pair)
      (noSign : ∀ c ∈ body, c ∉ ['=', '!', '>', '<']) :
      (body ++ textAll pairs).dropWhile (fun c => decide (c ∉ ['=', '!', '>', '<'])) =
        textAll pairs := by
    refine Text.dropWhile_append_of_stops (fun c mem => decide_eq_true (noSign c mem)) ?_
    intro c mem
    rw [← List.append_nil (textAll pairs)] at mem
    rcases Suffix.head_textAll_append pairs c mem with sign | mem
    · exact decide_eq_false (not_not_intro sign)
    · cases mem
  -- The mark is the same, since the kind is; behind it only the pairs have signs of comparisons.
  have same := List.append_cancel_left (whole.symm.trans whole')
  have := congrArg (List.dropWhile fun c => decide (c ∉ ['=', '!', '>', '<'])) same
  rw [suffix body pairs noSign, suffix body' others noSign'] at this
  exact Suffix.textAll_injective this

end Lexeme

/-- Of pairs that are plain all conditionals are kept. -/
theorem Suffix.Pair.forall₂_conditionals {pairs : List Pair} (plain : ∀ p ∈ pairs, p.IsPlain) :
    List.Forall₂ (fun p c => c.comparison = Pair.comparison p ∧ c.comparer.toInt = p.integer) pairs
      (pairs.filterMap Pair.conditional?) := by
  induction pairs with
  | nil => exact .nil
  | cons p pairs ih =>
    obtain ⟨first, others⟩ := List.forall_mem_cons.1 plain
    obtain ⟨c, isConditional, same⟩ := first.exists_conditional
    rw [List.filterMap_cons_some isConditional]
    exact .cons same (ih others)

/-! ## Groups that count

A group counts successes if it has any conditional.  From pairs it has one if one of them can be
read. -/

/-- A group that has conditionals counts, whatever it is rolled to. -/
theorem RollGroup.total_of_conditionals {g : RollGroup} {pairs : List Pair}
    (eq : g.conditionals = pairs.filterMap Pair.conditional?) :
    g.total = if pairs.any (·.conditional?.isSome)
      then .int (Int64.ofNat (g.live.countP (·.matched)))
      else Number.sum (g.live.map Die.total) := by
  have isEmpty :
      (pairs.filterMap Pair.conditional?).isEmpty = !pairs.any (·.conditional?.isSome) := by
    clear eq
    induction pairs with
    | nil => rfl
    | cons p pairs ih =>
      rw [List.filterMap_cons, List.any_cons]
      cases p.conditional? with
      | none => exact ih
      | some c => rfl
  rw [total, countsSuccesses, eq, isEmpty, Bool.not_not]

/-- **The conditionals of a lexeme are those that its pairs have.** Every lexeme of a kind that
takes conditionals is written with a suffix of pairs, and keeps the conditional of each pair that
has one, in their order.  If all are integers of 64 bits in the digits of ASCII, none is lost, and
each compares as it is written.  A group that begins with the lexeme counts successes, however it is
rolled, exactly if one of the pairs has a conditional.  The lexeme was read at its place with the
pairs behind it (`Rule.Reads.exists_pairs`), its group is parsed from the lexeme alone, and rolling
keeps the conditionals of a group (`RollGroup.ensures_roll_fits`). -/
theorem tokenize_conditionals {context : LexContext} {text : String} {lexemes : List Lexeme}
    (read : tokenize context text = .ok lexemes) {l : Lexeme} (mem : l ∈ lexemes)
    (takes : l.kind.TakesConditionals) :
    ∃ pairs, l.WrittenWith context.settings pairs ∧
      l.conditionals = some (pairs.filterMap Pair.conditional?) ∧
      ((∀ p ∈ pairs, p.IsPlain) → List.Forall₂
        (fun p c => c.comparison = Pair.comparison p ∧ c.comparer.toInt = p.integer)
        pairs l.conditionalList) ∧
      ∀ group ls, (Expr.dice group).Spells (l :: ls) → ∀ may rules,
        Evaluation.Ensures may (RollGroup.roll rules group) fun g =>
          g.total = if pairs.any (·.conditional?.isSome)
            then .int (Int64.ofNat (g.live.countP (·.matched)))
            else Number.sum (g.live.map Die.total) := by
  obtain ⟨rest, taken⟩ := exists_takenBefore_of_tokenize read mem
  have plain : ∀ document, l.kind ≠ .reference document := by
    intro document is
    simp [LexemeKind.TakesConditionals, is] at takes
  obtain ⟨pairs, conditionals, text⟩ := (taken.reads plain).exists_pairs takes
  refine ⟨pairs, ?_, conditionals, fun plain => ?_, ?_⟩
  · rcases text with ⟨stem, isStem, text⟩ | ⟨kind, rfl, noSign⟩
    · exact .suffixed isStem text
    · exact .bare kind noSign
  · rw [Lexeme.conditionalList, conditionals, Option.getD_some]
    exact Pair.forall₂_conditionals plain
  · intro group ls spells may rules
    have same : group.conditionals = pairs.filterMap Pair.conditional? := by
      cases spells
      rw [Lexeme.conditionalList, conditionals, Option.getD_some]
    refine (RollGroup.ensures_roll_fits group).mono fun g fits => ?_
    exact RollGroup.total_of_conditionals (fits.conditionals.trans same)

/-- A suffix of each sort: both comparisons are kept, though one is written the other way round. -/
theorem tokenize_conditionals_two :
    let l : Lexeme := ⟨.dice, "3d6", "3d6=>5!=-1", some [⟨.ge, 5⟩, ⟨.ne, -1⟩], ⟨0, 10⟩⟩
    tokenize ⟨{}, fun _ => none⟩ "3d6=>5!=-1" = .ok [l] ∧ l.kind.TakesConditionals ∧
      ∃ pairs, l.WrittenWith {} pairs ∧
        l.conditionals = some (pairs.filterMap Pair.conditional?) ∧
        ∀ group ls, (Expr.dice group).Spells (l :: ls) → ∀ may rules,
          Evaluation.Ensures may (RollGroup.roll rules group) fun g =>
            g.total = if pairs.any (·.conditional?.isSome)
              then .int (Int64.ofNat (g.live.countP (·.matched)))
              else Number.sum (g.live.map Die.total) := by
  intro l
  have read : tokenize ⟨{}, fun _ => none⟩ "3d6=>5!=-1" = .ok [l] := by cbv
  have takes : l.kind.TakesConditionals := .head _
  obtain ⟨pairs, written, conditionals, -, total⟩ :=
    tokenize_conditionals read (List.mem_singleton.2 rfl) takes
  exact ⟨read, takes, pairs, written, conditionals, total⟩

/-- **A conditional is lost:** its digit is one of another script.  The lexeme is written with a
pair and has no conditional, and the group adds its die up instead of counting it. -/
theorem tokenize_conditionals_lost :
    let l : Lexeme := ⟨.dice, "1d6", "1d6>=٣", some [], ⟨0, 7⟩⟩
    let p : Pair := ⟨.ge, ['>', '='], .head _, false, ['٣'], List.cons_ne_nil _ _,
      List.forall_mem_singleton.2 (by cbv)⟩
    tokenize ⟨{}, fun _ => none⟩ "1d6>=٣" = .ok [l] ∧ l.WrittenWith {} [p] ∧
      l.conditionalList.length ≠ [p].length ∧
      (((({} : Engine).rollDice "1d6>=٣").run (SequenceRoller.ofList [5])).1.map (·.total)) =
        .ok (.int 5) := by
  intro l p
  have read : tokenize ⟨{}, fun _ => none⟩ "1d6>=٣" = .ok [l] := by cbv
  have digit (c : Char) (ascii : c.isDigit = true) : ∀ d ∈ [c], Text.isDigit d = true :=
    List.forall_mem_singleton.2 (Text.isDigit_of_isDigit ascii)
  have faces : Rule.FacesText ['6'] (some ['6']) := .digits (by decide) (digit '6' rfl)
  have data : Rule.groupData {} ['1'] (some ['6']) = l.data.toList := by decide
  have stem : Rule.Stem {} .dice ['1', 'd', '6'] l.data.toList :=
    data ▸ .group (digit '1' rfl) (.inl rfl) faces (.inl (by decide))
  refine ⟨read, .suffixed stem (by decide), by decide, ?_⟩
  cbv

end Tabletop
