import Mathlib
import Tabletop.Proofs.Rolling.InRange
import Tabletop.Proofs.Rolling.Sequence
import Tabletop.Reference.Roll

/-!
# Replaying rolls

What a roller decides is written down as its answers to the questions that leave a choice.  A
sequence roller that is given this record answers the same roll in the same way: as long as the
answers agree, the questions agree too, and at each question that leaves a choice the record holds
the answer of the first run.

* `Rolling.record` — the answers with a choice, in the order in which they were given;
* `SequenceRoller.uniform_resume` — one answer, as it was given the first time;
* `Rolling.run_replay` — a whole roll, from any point of the record on;
* `Engine.roll_replay` — notations of every kind.

The record has to come from a roller that keeps to its range.  A sequence roller moves a value that
lies outside, so it could not hand such an answer out again.
-/

namespace Tabletop

namespace Answers

/-- The roller of the examples keeps to its ranges, and gives the lower end where there is no
choice. -/
theorem faithful_admit_clampedRoller : faithful.Admit ClampedRoller := by
  intro lo hi roller
  refine ⟨fun order => ?_, fun order => ?_⟩
  · exact ClampedRoller.inRange_admit lo hi roller (Int64.le_of_lt order)
  · obtain ⟨_ | ⟨value, answers⟩⟩ := roller
    · rfl
    · exact if_pos (Or.inl order)

end Answers

namespace Rolling

variable {α ρ : Type} [Roller ρ]

/-- The run of a question, with the answer and the roller after it by their own names. -/
theorem run_draw (lo hi : Int64) (next : Int64 → Rolling α) (roller : ρ) :
    (draw lo hi next).run roller =
      (next (Roller.uniform lo hi roller).1).run (Roller.uniform lo hi roller).2 := rfl

/-! ## Records

What a roll has been answered is recorded question by question.  Only answers that a list can give
back are recorded: a sequence roller hands out nothing where a question leaves no choice. -/

/-- The answers of a roller to the questions that leave it a choice. -/
def record : Rolling α → ρ → List Int64
  | done _, _ => []
  | draw lo hi next, roller =>
    let (v, roller) := Roller.uniform lo hi roller
    if lo < hi then v :: (next v).record roller else (next v).record roller

/-- The record of a question: its answer, if it left a choice, and then the record of the rest. -/
theorem record_draw (lo hi : Int64) (next : Int64 → Rolling α) (roller : ρ) :
    (draw lo hi next).record roller =
      let answer := Roller.uniform lo hi roller
      if lo < hi then answer.1 :: (next answer.1).record answer.2
      else (next answer.1).record answer.2 := rfl

end Rolling

namespace SequenceRoller

/-! ## Going on in a list

A roller of a list that has handed out its first values goes on with the others.  The values are
kept in two parts, those before and those after this place, so that the induction moves one of them
over at each question. -/

/-- The roller that hands out the values of a record, those in `before` already handed out. -/
def resume (before after : List Int64) : SequenceRoller where
  values := (before ++ after).toArray
  drawn := before.length

/-- The next value of the record is handed out as it is, if it lies in a range that leaves a
choice. -/
theorem uniform_resume_cons {lo hi v : Int64} (choice : lo < hi) (within : lo ≤ v ∧ v ≤ hi)
    (before after : List Int64) :
    uniform? lo hi (resume before (v :: after)) = some (v, resume (before ++ [v]) after) := by
  have short : before.length < (before ++ v :: after).length := by simp
  have next : (resume before (v :: after)).values[
      (resume before (v :: after)).drawn % (resume before (v :: after)).values.size]? = some v := by
    unfold resume
    rw [List.size_toArray, Nat.mod_eq_of_lt short, List.getElem?_toArray,
      List.getElem?_append_right (Nat.le_refl _), Nat.sub_self]
    rfl
  have kept : wrap? lo hi v = some v := if_pos within
  rw [uniform?_of_next choice next, kept, Option.map_some]
  unfold resume
  rw [List.append_assoc, List.length_append]
  rfl

/-- **One question.**  An answer that keeps to the range is given again: from the record if the
range leaves a choice, and without it otherwise. -/
theorem uniform_resume {lo hi v : Int64} (keeps : Answers.faithful lo hi v)
    (before after : List Int64) :
    uniform? lo hi (resume before (if lo < hi then v :: after else after)) =
      some (v, if lo < hi then resume (before ++ [v]) after else resume before after) := by
  obtain ⟨within, alone⟩ := keeps
  by_cases choice : lo < hi
  · rw [if_pos choice, if_pos choice]
    exact uniform_resume_cons choice (within choice) before after
  · have order : hi ≤ lo := Int64.not_lt.1 choice
    rw [if_neg choice, if_neg choice, uniform?_of_le order, alone order]

end SequenceRoller

namespace Rolling

variable {α ρ : Type} [Roller ρ]

/-- **A whole roll.**  With the rest of a record before it, a sequence roller can answer every
question, comes to the same value, and has then handed out all of the record. -/
theorem run?_replay (faithful : Answers.faithful.Admit ρ) (x : Rolling α) (roller : ρ)
    (before : List Int64) :
    x.run? (SequenceRoller.resume before (x.record roller)) =
      some ((x.run roller).1, SequenceRoller.resume (before ++ x.record roller) []) := by
  induction x generalizing roller before with
  | done a =>
    show some (a, SequenceRoller.resume before []) = some (a, SequenceRoller.resume (before ++ []) [])
    rw [List.append_nil]
  | draw lo hi next ih =>
    rcases answer : Roller.uniform lo hi roller with ⟨v, after⟩
    have keeps : Answers.faithful lo hi v := by
      have admitted := faithful lo hi roller
      rwa [answer] at admitted
    have again := SequenceRoller.uniform_resume keeps before ((next v).record after)
    have recorded : (draw lo hi next).record roller =
        if lo < hi then v :: (next v).record after else (next v).record after := by
      rw [record_draw, answer]
    have first : (draw lo hi next).run roller = (next v).run after := by
      rw [run_draw, answer]
    rw [recorded, first]
    show Option.bind (SequenceRoller.uniform? lo hi _) _ = _
    rw [again, Option.bind_some]
    dsimp only
    -- What is left of the record is that of the rest of the roll, with one answer more handed out
    -- if there was a choice.
    split
    · rw [ih v after (before ++ [v]), List.append_assoc]
      rfl
    · exact ih v after before

end Rolling

namespace Engine

/-- **Rolls can be replayed.**  Let a notation be rolled by a roller that keeps to its ranges, and
let its answers to the questions that leave a choice be recorded.  A sequence roller with the
recorded answers can answer every question, comes to the same outcome, or to the same error, and has
then handed out each of them once. -/
theorem roll_replay (engine : Engine) (store : ContentStore) (text : String) {ρ : Type} [Roller ρ]
    (faithful : Answers.faithful.Admit ρ) (roller : ρ) :
    let rolled := engine.roll store text
    let replayed := rolled.run (SequenceRoller.ofList (rolled.record roller))
    replayed.1 = (rolled.run roller).1 ∧ replayed.2.drawn = (rolled.record roller).length ∧
      rolled.run? (SequenceRoller.ofList (rolled.record roller)) = some replayed := by
  intro rolled replayed
  have again := Rolling.run?_replay faithful rolled roller []
  have whole : rolled.run? (SequenceRoller.ofList (rolled.record roller)) =
      if replayed.2.stopped then none else some replayed := Rolling.run?_eq rolled rfl
  -- The run has come to a value, so the roller has not been stopped.
  obtain ⟨-, same⟩ := Option.ite_none_left_eq_some.1 (whole.symm.trans again)
  rw [Option.some.inj same]
  exact ⟨rfl, rfl, again⟩

/-- Both entries of a table with two are drawn with two questions, of which the second leaves no
choice.  The record holds the answer to the first, and gives the same entries.  An explosion beyond
the limit on dice is the same error again. -/
theorem roll_replay_weather :
    let engine : Engine := { settings := { maxRolls := some 1 } }
    let table : Table := ⟨["Weather"], [["Rain"], ["Snow"]]⟩
    let store : ContentStore := ⟨fun _ _ => some table, fun _ => none, fun _ => none⟩
    let found : Outcome := .reference ⟨.table, "2d[[Sky#^today]]", ["Snow", "Rain"], "Snow\nRain"⟩
    let draw := ({} : Engine).roll store "2d[[Sky#^today]]"
    let explode := engine.roll store "1d4!"
    Answers.faithful.Admit ClampedRoller ∧
      draw.record (⟨[1, 7]⟩ : ClampedRoller) = [1] ∧
      (draw.run (SequenceRoller.ofList [1])).1 = .ok found ∧
      (draw.run (SequenceRoller.ofList [1])).2.drawn = 1 ∧
      explode.record (⟨[4, 4]⟩ : ClampedRoller) = [4] ∧
      (explode.run (SequenceRoller.ofList [4])).1 = .error (.evaluation .tooManyRolls) := by
  intro engine table store found draw explode
  have faithful := Answers.faithful_admit_clampedRoller
  have drew : (draw.record (⟨[1, 7]⟩ : ClampedRoller), (draw.run (⟨[1, 7]⟩ : ClampedRoller)).1) =
      ([1], .ok found) := by
    dsimp only [draw]
    cbv
  have exploded : (explode.record (⟨[4, 4]⟩ : ClampedRoller),
      (explode.run (⟨[4, 4]⟩ : ClampedRoller)).1) = ([4], .error (.evaluation .tooManyRolls)) := by
    dsimp only [explode]
    cbv
  obtain ⟨recorded, outcome⟩ := Prod.mk.inj drew
  obtain ⟨recordedOne, failure⟩ := Prod.mk.inj exploded
  obtain ⟨same, drawn, -⟩ := roll_replay {} store "2d[[Sky#^today]]" faithful ⟨[1, 7]⟩
  obtain ⟨fails, -, -⟩ := roll_replay engine store "1d4!" faithful ⟨[4, 4]⟩
  rw [recorded] at same drawn
  rw [recordedOne] at fails
  exact ⟨faithful, recorded, same.trans outcome, drawn, recordedOne, fails.trans failure⟩

end Engine

end Tabletop
