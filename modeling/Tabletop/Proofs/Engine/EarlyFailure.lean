import Tabletop.Proofs.Except
import Tabletop.Proofs.Reference.Places
import Tabletop.Proofs.Rolling.Draws
import Tabletop.Reference.Roll
import Tabletop.Rolling.Sequence

/-!
# Failures before anything is rolled

A notation that cannot be read, and a reference to something that is not there, fail at once.
Nothing has been drawn by then, so the roller answers the next notation as if the failed one had
not been there.

* `RollError.isEarly` — the errors of this kind;
* `FailsAtOnce` — a roll that fails in such a way does nothing else, and which such failures it has;
* `Engine.failsAtOnce_roll` — notations of every kind do;
* `Engine.roll_failsEarly` — what this means for one notation, and for several with one roller.

### The errors that come late

Two kinds of errors depend on what is rolled: those of an evaluation, and a row that is missing for
a rolled value.  An empty result is not one of them, although it is looked for after drawing.
Drawing gives something whenever there is something to draw from, so an empty result has drawn
nothing.  And a lookup table parses its notation again for every entry, which cannot fail there,
since the notation has been parsed before the first of them.
-/

namespace Tabletop

/-- The error lies in the notation or in the documents, and not in what was rolled.  An error of an
evaluation counts as late, although the limit on entries is one and is looked at before anything is
drawn. -/
def RollError.isEarly : RollError → Bool
  | lex _ | parse _ => true
  | evaluation _ => false
  | reference (.noRow ..) => false
  | reference (.malformed _) | reference (.notFound _) | reference (.empty _)
  | reference (.unknownColumn ..) => true

/-- The result is such an error. -/
def failsEarly {α : Type} : Except RollError α → Bool
  | .ok _ => false
  | .error e => e.isEarly

/-- Whether a failure is early does not depend on what is made of values. -/
theorem failsEarly_map {α β : Type} (f : α → β) (r : Except RollError α) :
    failsEarly (r.map f) = failsEarly r := by
  cases r <;> rfl

variable {α β ρ : Type} [Roller ρ]

/-- A roll never comes to an early failure, whatever the answers.  It may fail, but only for what
was rolled. -/
def FailsLate (x : Rolling (Except RollError α)) : Prop :=
  x.Always .any fun r => failsEarly r = false

theorem FailsLate.bind {x : Rolling β} {f : β → Rolling (Except RollError α)}
    (late : ∀ b, FailsLate (f b)) : FailsLate (x >>= f) :=
  Rolling.always_bind_iff.2 (Rolling.always_of_forall late)

/-- A roll does nothing but come to a result, whose error may be of certain kinds, or else it never
comes to an early failure.  The second case leaves open what is drawn, and is the one for rolls that
succeed. -/
def FailsAtOnce (may : RollError → Prop) (x : Rolling (Except RollError α)) : Prop :=
  (∃ r, (∀ e, r = .error e → may e) ∧ x = .done r) ∨ FailsLate x

namespace FailsAtOnce

variable {x : Rolling (Except RollError α)} {may : RollError → Prop}

theorem error {e : RollError} (allowed : may e) :
    FailsAtOnce (α := α) may (.done (.error e)) :=
  .inl ⟨_, fun _ same => Except.error.inj same ▸ allowed, rfl⟩

theorem mono (h : FailsAtOnce may x) {weaker : RollError → Prop} (implied : ∀ e, may e → weaker e) :
    FailsAtOnce weaker x :=
  h.imp (fun ⟨r, allowed, eq⟩ => ⟨r, fun e fails => implied e (allowed e fails), eq⟩) id

/-- What is computed from the value of a roll fails as the roll does.  The value is all that
changes, and an error is no value. -/
theorem map (h : FailsAtOnce may x) (f : α → β) :
    FailsAtOnce may (x >>= fun r => .done (r.map f)) := by
  rcases h with ⟨r, allowed, rfl⟩ | late
  · refine .inl ⟨_, fun e fails => ?_, rfl⟩
    cases r with
    | error e' => exact allowed e (by rw [Except.error.inj fails])
    | ok a => cases fails
  · refine .inr (Rolling.always_bind_iff.2 (late.mono fun r value => ?_))
    rw [Rolling.always_done, failsEarly_map]
    exact value

/-- A roll that ends with an early failure is nothing but this failure.  The roll is a single result
then, with no draw in it, and this is the whole of what the theorem at the end says of one notation.
-/
theorem eq_done (h : FailsAtOnce may x) {roller : ρ} (fails : failsEarly (x.run roller).1) :
    x = .done (x.run roller).1 := by
  rcases h with ⟨r, -, rfl⟩ | late
  · rfl
  · rw [late.run (Answers.admit_any ρ) roller] at fails
    cases fails

/-- An early failure that a roll comes to is of the kinds that it may be of. -/
theorem allowed (h : FailsAtOnce may x) {roller : ρ} {e : RollError}
    (fails : (x.run roller).1 = .error e) (early : e.isEarly) : may e := by
  rcases h with ⟨r, allowed, rfl⟩ | late
  · exact allowed e fails
  · have := late.run (Answers.admit_any ρ) roller
    rw [fails, failsEarly, early] at this
    cases this

end FailsAtOnce

namespace Engine

/-! ## Dice

Once there is an expression, all that can go wrong is its evaluation. -/

variable {engine : Engine}

/-- An expression fails only while it is evaluated. -/
theorem failsLate_eval (e : Expression) : FailsLate (engine.eval e) := by
  unfold eval
  refine .bind ?_
  rintro ⟨result | result, _⟩
  · rfl
  · rfl

/-- Once the notation of a lookup table has been parsed, rolling it fails only while it is
evaluated.  What is rolled for each entry has been parsed once before, and parsing does not depend
on the roller. -/
theorem failsLate_rollDice {formula : String} {e : Expression}
    (parsed : engine.parse formula = .ok e) : FailsLate (engine.rollDice formula) := by
  unfold rollDice
  rw [parsed]
  exact failsLate_eval e

end Engine

/-! ## References

A reference is read by now, so the errors are those of what it refers to. -/

/-- The error is that a reference cannot be read. -/
def RollError.isMalformed : RollError → Bool
  | reference (.malformed _) => true
  | _ => false

/-- A notation that cannot be parsed is no reference that cannot be read. -/
theorem RollError.isMalformed_of_parse {engine : Engine} {text : String} {e : RollError}
    (failed : engine.parse text = .error e) : e.isMalformed = false := by
  rcases Except.bind_eq_error_iff.1 failed with lexed | ⟨lexemes, -, failed⟩
  · obtain ⟨e, -, rfl⟩ := Except.mapError_eq_error_iff.1 lexed
    rfl
  · obtain ⟨e, -, rfl⟩ := Except.mapError_eq_error_iff.1 failed
    rfl

namespace Reference

variable {engine : Engine} {store : ContentStore}

/-- A reference fails at once, if at all, and not because it cannot be read.  The second condition
is for those who ask how a reference failed, and not only when. -/
abbrev FailsDrawing (x : Rolling (Except RollError α)) : Prop :=
  FailsAtOnce (fun e => e.isMalformed = false) x

/-- The limit on entries is looked at first.  An error of the limit is not an early one, but nothing
has been drawn when it comes up. -/
theorem FailsDrawing.guarded {count : Nat} {x : Rolling (Except RollError α)} (h : FailsDrawing x) :
    FailsDrawing (if !engine.allowsDraws count then return .error (.evaluation .tooManyRolls)
      else x) := by
  split
  · exact .error rfl
  · exact h

/-- The entries of a lookup table are evaluations, and a row may be missing for one of them.  The
induction is on the entries that are still to be rolled. -/
theorem failsLate_lookUp {formula : String} {e : Expression}
    (parsed : engine.parse formula = .ok e) (table : Table) (name : String) (column : Option Nat)
    (count : Nat) (found : List String) :
    FailsLate (lookUp engine formula table name column count found) := by
  induction count generalizing found with
  | zero => rfl
  | succ count ih =>
    unfold lookUp
    refine Rolling.always_bind_iff.2 ((Engine.failsLate_rollDice parsed).mono fun r late => ?_)
    cases r with
    | error e => exact late
    | ok result =>
      dsimp only
      split
      · rfl
      · exact ih _

/-- The notation at the head of a lookup table is parsed before anything is rolled.  If that fails
the whole fails at once, and if not it never fails for this reason. -/
theorem failsAtOnce_tableEntries (name : String) (table : Table) (column : Option Nat)
    (count : Nat) : FailsDrawing (tableEntries engine name table column count) := by
  unfold tableEntries
  split
  · next formula _ =>
    split
    · next e failed => exact .error (RollError.isMalformed_of_parse failed)
    · next parsed => exact .inr (failsLate_lookUp parsed table name column count [])
  · exact .inr (.bind fun rows => rfl)

/-- One entry of each note: none of the notes has any, and nothing is drawn, or something is.  The
empty result is found at the end, and this is why it can be told at the beginning. -/
theorem oneOfEach_eq_done_or (exhaustion : Exhaustion) (drawn : List String)
    (pools : List (List Section)) :
    oneOfEach exhaustion drawn pools = .done drawn.reverse ∨
      (oneOfEach exhaustion drawn pools).Always .any (· ≠ []) := by
  -- Once something has been drawn there is something, whatever the other notes have.
  have kept (pools : List (List Section)) {drawn : List String} (some : drawn ≠ []) :
      (oneOfEach exhaustion drawn pools).Always .any (· ≠ []) := by
    induction pools generalizing drawn with
    | nil => exact fun none => some (List.reverse_eq_nil_iff.1 none)
    | cons sections others ih =>
      unfold oneOfEach
      refine Rolling.always_bind_iff.2 (Rolling.always_of_forall fun entries => ih fun none => ?_)
      exact some (List.append_eq_nil_iff.1 none).2
  induction pools with
  | nil => exact .inl rfl
  | cons sections others ih =>
    unfold oneOfEach
    by_cases empty : sections = []
    · rw [Draw.entries_eq_done (.inl empty)]
      exact ih
    · refine .inr (Rolling.always_bind_iff.2 ?_)
      refine (Draw.always_entries empty Nat.one_ne_zero exhaustion).mono fun entries some => ?_
      refine kept others fun none => some ?_
      exact List.map_eq_nil_iff.1 (List.reverse_eq_nil_iff.1 (List.append_eq_nil_iff.1 none).1)

/-- An empty result that is looked for after drawing is not found if drawing gives something, so the
roll does not come to the failure for it. -/
theorem failsLate_of_ne_nil {x : Rolling (List α)} (some : x.Always .any (· ≠ []))
    (fail : Rolling (Except RollError β)) (f : List α → β) :
    FailsLate (x >>= fun drawn => if drawn.isEmpty then fail else return .ok (f drawn)) := by
  refine Rolling.always_bind_iff.2 (some.mono fun drawn some => ?_)
  rw [if_neg (by rwa [List.isEmpty_iff])]
  rfl

/-- **References fail at once.** All that can be missing is looked for first, except for an empty
result, which has drawn nothing.  The cases are the targets, and in each the checks come in the
order of the code.  A check that comes after a draw would be the only thing to break the claim, and
there is one: for tags the result is looked at after drawing. -/
theorem failsAtOnce_entries (r : Reference) : FailsDrawing (r.entries engine store) := by
  cases target : r.target with
  | table note block columnName =>
    unfold entries
    rw [target]
    refine FailsDrawing.guarded ?_
    split
    · exact .error rfl
    · split
      · exact .error rfl
      · split
        · exact failsAtOnce_tableEntries _ _ _ _
        · split
          · exact .error rfl
          · exact failsAtOnce_tableEntries _ _ _ _
  | sections note kinds =>
    unfold entries
    rw [target]
    refine FailsDrawing.guarded ?_
    split
    · exact .error rfl
    · dsimp only
      split
      · exact .error rfl
      · exact .inr (.bind fun drawn => rfl)
  | lines note =>
    unfold entries
    rw [target]
    refine FailsDrawing.guarded ?_
    split
    · exact .error rfl
    · split
      · exact .error rfl
      · exact .inr (.bind fun drawn => rfl)
  | tag tag kinds =>
    unfold entries
    rw [target]
    dsimp only
    split
    · exact .error rfl
    · next notes _ =>
      split
      · exact .error rfl
      · split
        · refine FailsDrawing.guarded ?_
          -- None of the notes has an entry, or something has been drawn.
          rcases oneOfEach_eq_done_or engine.settings.tableExhaustion [] (notes.map fun note =>
            Section.ofKinds kinds ((store.sections? note).getD [])) with none | some
          · rw [none]
            exact .error rfl
          · exact .inr (failsLate_of_ne_nil some _ _)
        · refine FailsDrawing.guarded ?_
          generalize notes.flatMap _ = pool
          by_cases none : pool = [] ∨ r.count.toNat = 0
          · rw [Draw.entries_eq_done none]
            exact .error rfl
          · rw [not_or] at none
            exact .inr (failsLate_of_ne_nil (Draw.always_entries none.1 none.2 _) _ _)
  | links tag =>
    unfold entries
    rw [target]
    refine FailsDrawing.guarded ?_
    split
    · exact .error rfl
    · split
      · exact .error rfl
      · exact .inr (.bind fun drawn => rfl)

/-- The display is made of the entries and cannot fail. -/
theorem failsAtOnce_roll (r : Reference) : FailsDrawing (r.roll engine store) := by
  have same : r.roll engine store = r.entries engine store >>= fun found =>
      .done (found.map fun entries =>
        { kind := r.kind, written := r.written, entries
          display := r.separator.intercalate entries }) := by
    unfold roll
    congr 1
    funext found
    cases found <;> rfl
  rw [same]
  exact (failsAtOnce_entries r).map _

end Reference

/-! ## Notations

From single notations to several with one roller. -/

namespace Engine

variable {engine : Engine} {store : ContentStore}

/-- **Notations of every kind fail at once**, if the failure is not one of what is rolled. -/
theorem failsAtOnce_roll (text : String) :
    FailsAtOnce (fun _ => True) (engine.roll store text) := by
  unfold roll
  dsimp only
  split
  · exact .error trivial
  · split
    · split
      · exact .error trivial
      · exact FailsAtOnce.map (.inr (failsLate_eval _)) _
    · split
      · exact .error trivial
      · split
        · exact .error trivial
        · exact ((Reference.failsAtOnce_roll _).mono fun _ _ => trivial).map _

/-- The outcomes so far stay in front of the others, and they do not influence them.  The list of
outcomes is carried along in reverse, as the program does. -/
theorem run_rollEach (outcomes : List (Except RollError Outcome)) (texts : List String)
    (roller : ρ) :
    (engine.rollEach store outcomes texts).run roller =
      (outcomes.reverse ++ ((engine.rollAll store texts).run roller).1,
        ((engine.rollAll store texts).run roller).2) := by
  unfold rollAll
  induction texts generalizing outcomes roller with
  | nil => simp [rollEach, Rolling.run]
  | cons text texts ih =>
    unfold rollEach
    rw [Rolling.run_bind, Rolling.run_bind, ih, ih [_]]
    simp

/-- The first of several notations is rolled, and then the others with the roller that it leaves. -/
theorem run_rollAll_cons (text : String) (texts : List String) (roller : ρ) :
    (engine.rollAll store (text :: texts)).run roller =
      let first := (engine.roll store text).run roller
      let others := (engine.rollAll store texts).run first.2
      (first.1 :: others.1, others.2) := by
  show (engine.rollEach store [] (text :: texts)).run roller = _
  unfold rollEach
  rw [Rolling.run_bind, run_rollEach]
  rfl

theorem length_run_rollAll (texts : List String) (roller : ρ) :
    ((engine.rollAll store texts).run roller).1.length = texts.length := by
  induction texts generalizing roller with
  | nil => rfl
  | cons text texts ih =>
    rw [run_rollAll_cons]
    exact congrArg (· + 1) (ih _)

/-- Several notations with one roller, and those of them that do not fail early with the same
roller.  The induction is on the notations, for every roller.  A notation that fails early leaves
the roller as it was, so the induction goes on with the same roller on both sides. -/
theorem run_rollAll_filter (texts : List String) (roller : ρ) :
    let rolled := (engine.rollAll store texts).run roller
    let kept := (texts.zip rolled.1).filter fun p => !failsEarly p.2
    (engine.rollAll store (kept.map Prod.fst)).run roller = (kept.map Prod.snd, rolled.2) := by
  induction texts generalizing roller with
  | nil => rfl
  | cons text texts ih =>
    have others := ih ((engine.roll store text).run roller).2
    rw [run_rollAll_cons]
    dsimp only at others ⊢
    rw [List.zip_cons_cons]
    by_cases early : failsEarly ((engine.roll store text).run roller).1
    · -- The roller is as it was before, so what comes after is rolled as if this were not there.
      have same : ((engine.roll store text).run roller).2 = roller := by
        rw [(failsAtOnce_roll text).eq_done early]
        rfl
      rw [List.filter_cons_of_neg (by simp [early])]
      rw [same] at others ⊢
      exact others
    · rw [List.filter_cons_of_pos (by simp [early]), List.map_cons, List.map_cons, run_rollAll_cons]
      dsimp only
      rw [others]

/-- **Early failures draw nothing.**  If a notation fails because it cannot be read, or because
what it refers to is not there, then nothing has been drawn and the roller is as it was.  So if
several notations are rolled with one roller, and those that fail in this way are left out, all
others have the same outcomes, and the roller is left in the same state. -/
theorem roll_failsEarly (engine : Engine) (store : ContentStore) (ρ : Type) [Roller ρ] :
    (∀ (text : String) (roller : ρ) (e : RollError),
      ((engine.roll store text).run roller).1 = .error e → e.isEarly →
        (engine.roll store text).draws roller = 0 ∧
          ((engine.roll store text).run roller).2 = roller) ∧
    (∀ (texts : List String) (roller : ρ),
      let rolled := (engine.rollAll store texts).run roller
      let kept := (texts.zip rolled.1).filter fun p => !failsEarly p.2
      rolled.1.length = texts.length ∧
        (engine.rollAll store (kept.map Prod.fst)).run roller = (kept.map Prod.snd, rolled.2)) := by
  refine ⟨fun text roller e fails early => ?_, fun texts roller => ?_⟩
  · have early : failsEarly ((engine.roll store text).run roller).1 := by rwa [fails]
    rw [(failsAtOnce_roll text).eq_done early]
    exact ⟨rfl, rfl⟩
  · exact ⟨length_run_rollAll texts roller, run_rollAll_filter texts roller⟩

/-- A note that is not there, an operand that is missing and a sign that no rule takes are left out,
and both names are drawn as before. -/
theorem roll_failsEarly_names :
    let store : ContentStore :=
      ⟨fun _ _ => none,
        fun note => if note = "Names" then some [⟨"p", "Ann"⟩, ⟨"p", "Bob"⟩] else none,
        fun _ => none⟩
    let engine : Engine := {}
    let roller := SequenceRoller.ofList [1, 0]
    let name (text : String) : Except RollError Outcome :=
      .ok (.reference ⟨.sections, "[[Names]]", [text], text⟩)
    ((engine.roll store "[[Ann]]").run roller).1 = .error (.reference (.notFound "[[Ann]]")) ∧
      (engine.roll store "[[Ann]]").draws roller = 0 ∧
      ((engine.rollAll store ["[[Names]]", "[[Ann]]", "1+", "$", "[[Names]]"]).run roller).1.map
        failsEarly = [false, true, true, true, false] ∧
      ((engine.rollAll store ["[[Names]]", "[[Names]]"]).run roller).1 =
        [name "Bob", name "Ann"] := by
  intro store engine roller name
  let texts := ["[[Names]]", "[[Ann]]", "1+", "$", "[[Names]]"]
  have missing : ((engine.roll store "[[Ann]]").run roller).1 =
      .error (.reference (.notFound "[[Ann]]")) := by cbv
  have rolled : ((engine.rollAll store texts).run roller).1 =
      [name "Bob", .error (.reference (.notFound "[[Ann]]")),
        .error (.parse ⟨.unexpectedEnd, ⟨2, 2⟩, "", "1+"⟩), .error (.lex ⟨0, "$"⟩),
        name "Ann"] := by cbv
  obtain ⟨early, batch⟩ := roll_failsEarly engine store SequenceRoller
  obtain ⟨drawn, -⟩ := early "[[Ann]]" roller _ missing rfl
  obtain ⟨-, others⟩ := batch texts roller
  refine ⟨missing, drawn, ?_, ?_⟩
  · exact congrArg (List.map failsEarly) rolled
  · rw [rolled] at others
    exact congrArg Prod.fst others

end Engine

end Tabletop
