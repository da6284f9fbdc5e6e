import Tabletop.Proofs.Engine.EarlyFailure
import Tabletop.Proofs.Lexeme.Captures

/-!
# Malformed references

The lexer reads a reference in the text around it, and a roll reads it again from its lexeme alone.
The second reading finds what the first has captured, and so it cannot fail where the first
succeeded, but for one thing: the lexer takes any run of decimal digits for a count, and a roll
needs a number.

* `Reference.ofCaptures` — the reference to what was captured, with the one way in which it fails;
* `Reference.ofLexeme_of_capturedIn` — a lexeme is read as this reference;
* `Engine.run_roll_eq_malformed_iff` — no other step of a roll finds a reference malformed;
* `Engine.captured_reference` — both together.

### Where else the error could come from

A roll has the same error for a lexeme that is missing or of another kind, which does not happen,
since the lexeme is looked for after its kind has been found.  The notation at the head of a lookup
table may hold a reference of its own, but as a dice notation it is parsed, and a reference in it
is an error of the parser.
-/

namespace Tabletop

namespace Reference

/-- The number that a captured count stands for, which is one where there is no count.  There is
none if it does not fit its word, or has digits that are not of ASCII. -/
def number? : Option (List Char) → Option UInt64
  | none => some 1
  | some digits => Decimal.word64? digits

/-- The reference to what was captured.  Only its count can be refused. -/
def ofCaptures (written : String) (count : Option (List Char)) (target : Target) :
    Except ReferenceError Reference :=
  match number? count with
  | some n => .ok ⟨written, n, target⟩
  | none => .error (.malformed written)

variable {settings : Settings} {l : Lexeme} {kind : ReferenceKind} {count : Option (List Char)}
  {target : Target}

/-- **The end of a reader.** Each of the five readers of references ends with these two steps: it
makes a number of the count and returns what it has captured.  Behind them nothing of the text is
left, and what they come to depends on the count alone. -/
theorem countOf_nil (text : String) (count : Option (List Char)) (target : Target) :
    (do
      let n ← countOf count text.toList []
      return (⟨text, n, target⟩ : Reference)) = ofCaptures text count target := by
  unfold countOf ofCaptures number?
  cases count with
  | none => rfl
  | some digits =>
    dsimp only
    cases Decimal.word64? digits with
    | none => simp [bind, Except.bind]
    | some n => rfl

/-- **The cut-out text is read as it was captured.** The cases are the rules.  What a rule has
captured in the whole text is found again when the text ends behind the lexeme, because the patterns
do not look any further. -/
theorem ofLexeme_of_captures {after : List Char} (is : l.kind = .reference kind)
    (captured : Rule.Captures settings (l.data.toList ++ after) after kind count target) :
    ofLexeme l = ofCaptures l.data count target := by
  unfold ofLexeme
  rw [is]
  cases captured with
  | table read named =>
    simp only [ofTable, Written.stable_bracketed?.of_append read, named, countOf_nil]
  | sections read whole other =>
    simp only [ofSections, Written.stable_bracketed?.of_append read, countOf_nil]
  | line read whole asked =>
    simp only [ofLines, Written.stable_bracketed?.of_append read, countOf_nil]
  | tag read other =>
    simp only [ofTag, Written.stable_tagged?.of_append read, countOf_nil]
  | link read asked =>
    simp only [ofLink, Written.stable_tagged?.of_append read, countOf_nil]

theorem kind_of_captures {cs after : List Char}
    (captured : Rule.Captures settings cs after kind count target) (written : String) (n : UInt64) :
    Reference.kind ⟨written, n, target⟩ = kind := by
  cases captured <;> rfl

theorem ofLexeme_of_capturedIn {text : String} (is : l.kind = .reference kind)
    (captured : l.CapturedIn settings text kind count target) :
    ofLexeme l = ofCaptures l.data count target := by
  obtain ⟨before, after, -, -, -, captures⟩ := captured
  rw [String.toList_append] at captures
  exact ofLexeme_of_captures is captures

/-- A count without a number is the only way to fail. -/
theorem ofCaptures_eq_error_iff {written : String} {e : ReferenceError} :
    ofCaptures written count target = .error e ↔ number? count = none ∧ .malformed written = e := by
  unfold ofCaptures
  cases number? count with
  | none => simp
  | some n => simp

/-- A lexeme that is read as a reference is read as one of its kind. -/
theorem kind_of_ofCaptures {text written : String} {r : Reference}
    (captured : l.CapturedIn settings text kind count target)
    (read : ofCaptures written count target = .ok r) : r.kind = kind := by
  obtain ⟨before, after, -, -, -, captures⟩ := captured
  unfold ofCaptures at read
  split at read
  · next n _ =>
    obtain rfl := Except.ok.inj read
    exact kind_of_captures captures written n
  · cases read

end Reference

/-! ## Malformed references

A roll looks for the first lexeme of the kind that the search has found, and reads it.  Every other
step that can fail has an error of its own. -/

/-! ### References in notations

A notation with a reference is rolled by the reference alone, and by the first one of its kind. -/

/-- What has been classified as a reference has a lexeme of this kind. -/
theorem exists_find?_of_classify {lexemes : List Lexeme} {kind : ReferenceKind}
    (decided : classify lexemes = .reference kind) :
    ∃ l, lexemes.find? (·.kind = .reference kind) = some l := by
  unfold classify at decided
  split at decided
  · next kind' found =>
    obtain rfl := RollerKind.reference.inj decided
    have any := List.find?_some found
    obtain ⟨l, mem, is⟩ := List.any_eq_true.1 any
    exact Option.isSome_iff_exists.1 (List.find?_isSome.2 ⟨l, mem, is⟩)
  · cases decided

theorem kind_of_find? {lexemes : List Lexeme} {l : Lexeme} {kind : ReferenceKind}
    (found : lexemes.find? (·.kind = .reference kind) = some l) : l.kind = .reference kind := by
  have is := List.find?_some found
  exact of_decide_eq_true is

namespace Engine

variable {engine : Engine} {store : ContentStore} {ρ : Type} [Roller ρ]

/-- The reference that a notation is rolled as has captured a count that stands for no number. -/
def RefusesCount (engine : Engine) (text : String) (t : String) : Prop :=
  ∃ lexemes kind l count target, engine.lex (engine.prepare text) = .ok lexemes ∧
    classify lexemes = .reference kind ∧ lexemes.find? (·.kind = .reference kind) = some l ∧
    l.CapturedIn engine.settings (engine.prepare text) kind count target ∧
    Reference.number? count = none ∧ l.data = t

/-- A count that is refused makes the roll fail at once. -/
theorem roll_of_refusesCount {text t : String} (refused : engine.RefusesCount text t) :
    engine.roll store text = .done (.error (.reference (.malformed t))) := by
  obtain ⟨lexemes, kind, l, count, target, read, decided, first, captured, none, rfl⟩ := refused
  have malformed := Reference.ofLexeme_of_capturedIn (kind_of_find? first) captured
  rw [Reference.ofCaptures_eq_error_iff.2 ⟨none, rfl⟩] at malformed
  simp only [roll, read, decided, first, malformed]
  rfl

theorem parseLexemes_ne_reference {lexemes : List Lexeme} {written : String} {e : ReferenceError} :
    engine.parseLexemes lexemes written ≠ .error (.reference e) := by
  unfold parseLexemes
  cases Expression.ofLexemes engine.precedence lexemes written <;> simp [Except.mapError]

/-- **A reference is malformed exactly if its count is refused.** -/
theorem run_roll_eq_malformed_iff {text t : String} {roller : ρ} :
    ((engine.roll store text).run roller).1 = .error (.reference (.malformed t)) ↔
      engine.RefusesCount text t := by
  constructor
  · intro fails
    unfold roll at fails
    dsimp only at fails
    split at fails
    · cases fails
    · next lexemes read =>
      split at fails
      -- Dice: neither the parser nor the evaluation has the error.
      · next decided =>
        split at fails
        · next e parsed =>
          obtain rfl := Except.error.inj fails
          exact (parseLexemes_ne_reference parsed).elim
        · next e parsed =>
          have never : FailsAtOnce (fun _ => False) (engine.eval e) := .inr (failsLate_eval e)
          exact ((never.map Outcome.dice).allowed fails rfl).elim
      -- A reference: its lexeme is read, and if this succeeds, drawing does not have the error.
      · next kind decided =>
        obtain ⟨l, first⟩ := exists_find?_of_classify decided
        obtain ⟨count, target, captured⟩ :=
          capturedIn_of_tokenize read (List.mem_of_find?_eq_some first) (kind_of_find? first)
        rw [first] at fails
        dsimp only at fails
        split at fails
        · next e malformed =>
          rw [Reference.ofLexeme_of_capturedIn (kind_of_find? first) captured] at malformed
          obtain ⟨none, rfl⟩ := Reference.ofCaptures_eq_error_iff.1 malformed
          cases fails
          exact ⟨lexemes, kind, l, count, target, read, decided, first, captured, none, rfl⟩
        · next r _ =>
          have never : Reference.FailsDrawing (r.roll engine store) := Reference.failsAtOnce_roll r
          cases (never.map Outcome.reference).allowed fails rfl
  · intro refused
    rw [roll_of_refusesCount refused]
    rfl

/-- **References are read as they were captured.**  For every reference that the lexer returns, a
rule has captured a count and what is named at its place in the text.  The reference is of the kind
of its lexeme, and asks for what was captured, unless the count stands for no number.  This is the
only case in which rolling a notation finds a reference malformed. -/
theorem captured_reference (engine : Engine) (store : ContentStore) (ρ : Type) [Roller ρ] :
    (∀ context text lexemes, tokenize context text = .ok lexemes →
      ∀ l ∈ lexemes, ∀ kind, l.kind = .reference kind →
        ∃ count target, l.CapturedIn context.settings text kind count target ∧
          Reference.ofLexeme l = Reference.ofCaptures l.data count target ∧
          ∀ r, Reference.ofLexeme l = .ok r → r.kind = kind) ∧
    (∀ (text t : String) (roller : ρ),
      ((engine.roll store text).run roller).1 = .error (.reference (.malformed t)) ↔
        engine.RefusesCount text t) := by
  refine ⟨fun context text lexemes tokenized l mem kind is => ?_, fun _ _ _ =>
    run_roll_eq_malformed_iff⟩
  obtain ⟨count, target, captured⟩ := capturedIn_of_tokenize tokenized mem is
  have read := Reference.ofLexeme_of_capturedIn is captured
  exact ⟨count, target, captured, read, fun r ok =>
    Reference.kind_of_ofCaptures captured (read.symm.trans ok)⟩

/-- Two rows of a table are read as they were captured before a brace, and `2 ^ 64` notes with a
tag are refused. -/
theorem captured_reference_table :
    let text := "2d[[Inn#^menu]]| Dish {at night}"
    let l : Lexeme :=
      ⟨.reference .table, "2d[[Inn#^menu]]| Dish ", "2d[[Inn#^menu]]| Dish ", none, ⟨0, 22⟩⟩
    let many := "18446744073709551616d#npc"
    let engine : Engine := {}
    let store : ContentStore := ⟨fun _ _ => none, fun _ => none, fun _ => none⟩
    tokenize ⟨{}, fun _ => none⟩ text = .ok [l] ∧
      Reference.ofLexeme l = .ok ⟨l.data, 2, .table "Inn" "menu" (some "Dish")⟩ ∧
      (∃ count target, l.CapturedIn {} text .table count target ∧
        Reference.ofLexeme l = Reference.ofCaptures l.data count target) ∧
      ((engine.roll store many).run (SequenceRoller.ofList [])).1 =
        .error (.reference (.malformed many)) ∧
      engine.RefusesCount many many := by
  intro text l many engine store
  have tokenized : tokenize ⟨{}, fun _ => none⟩ text = .ok [l] := by cbv
  have value : Reference.ofLexeme l = .ok ⟨l.data, 2, .table "Inn" "menu" (some "Dish")⟩ := by cbv
  have fails : ((engine.roll store many).run (SequenceRoller.ofList [])).1 =
      .error (.reference (.malformed many)) := by cbv
  obtain ⟨read, refuse⟩ := captured_reference engine store SequenceRoller
  obtain ⟨count, target, captured, eq, -⟩ := read _ text [l] tokenized l (.head _) .table rfl
  exact ⟨tokenized, value, ⟨count, target, captured, eq⟩, fails, (refuse many many _).1 fails⟩

end Engine

end Tabletop
