import Mathlib
import Tabletop.Proofs.Dice.Prepaid
import Tabletop.Proofs.Rolling.Limit
import Tabletop.Rolling.Sequence

/-!
# Expressions under a limit

An expression that is rolled under a limit is the expression rolled without one, cut off where the
limit is not enough, since all its dice are counted before they are rolled.

* `Expression.cut_roll` — an expression with and without a limit;
* `Expression.roll_withMaxRolls` — a limit that is enough changes nothing, and one that is not leads
  to a refusal after no more dice than it allows.

All of the work is in the two modules this one puts together.  That dice are counted before they are
rolled (`Expression.prepaid_roll`) is a property of every part of an expression, and that a limit
cuts off a computation with this property (`Counted.Prepaid.cut`) is a property of the limit alone.
-/

namespace Tabletop

variable {limit : UInt64}

namespace Expression

/-- **An expression with and without a limit.** The two computations ask the same questions up to
the place where the limit is passed. -/
theorem cut_roll (context : RollContext) (e : Expression) :
    Evaluation.Cut limit.toNat (e.roll (context.withMaxRolls none))
      (e.roll (context.withMaxRolls (some limit))) :=
  (prepaid_roll context e).cut limit

/-- **The limit on the number of dice.**  Let an expression be rolled without a limit, and count the
dice that the roller is asked for.  Under a limit that is not below this number, the same roller
leads to the same result, which is a value or an operation without a finite result, and the roller
is the same afterwards.  Under a lower limit there are too many dice, and the roller has been asked
for no more of them than the limit allows. -/
theorem roll_withMaxRolls (e : Expression) (context : RollContext) (limit : UInt64) {ρ : Type}
    [Roller ρ] (roller : ρ) :
    let free := (e.roll (context.withMaxRolls none)).run.run 0
    let limited := (e.roll (context.withMaxRolls (some limit))).run.run 0
    (free.draws roller ≤ limit.toNat →
      limited.run roller = free.run roller ∧
        ∀ error, (free.run roller).1.1 = .error error →
          ∃ left op right, error = .nonFinite left op right) ∧
    (limit.toNat < free.draws roller →
      (limited.run roller).1.1 = .error .tooManyRolls ∧ limited.draws roller ≤ limit.toNat) := by
  intro free limited
  -- The count begins at zero, so the distance to the limit is the limit itself.
  have cut : Rolling.Cut limit.toNat Evaluation.Complete Evaluation.Refused 0 free limited :=
    cut_roll context e 0 (Nat.zero_le _)
  refine ⟨fun within => ?_, fun beyond => ⟨?_, ?_⟩⟩
  · exact cut.run_eq roller (by rwa [Nat.zero_add])
  · exact cut.refused_run roller (by rwa [Nat.zero_add])
  · rw [← Nat.zero_add (limited.draws roller)]
    exact cut.draws_le roller

/-- A die that explodes needs two dice, the second of which is refused under a limit of one. -/
theorem roll_withMaxRolls_explosion :
    let e : Expression := ⟨.dice ⟨1, ⟨6, by decide⟩, [], [.explode 1 []], "1d6!"⟩, "1d6!"⟩
    let context : RollContext := .ofSettings {}
    let roller := SequenceRoller.ofList [6, 3]
    let rolled (limit : Option UInt64) := (e.roll (context.withMaxRolls limit)).run.run 0
    (rolled none).draws roller = 2 ∧
      (rolled (some 2)).run roller = (rolled none).run roller ∧
      ((rolled (some 1)).run roller).1.1 = .error .tooManyRolls ∧
      (rolled (some 1)).draws roller ≤ 1 := by
  intro e context roller rolled
  have two : (rolled none).draws roller = 2 := by cbv
  have enough : (rolled none).draws roller ≤ (2 : UInt64).toNat := Nat.le_of_eq two
  have beyond : (1 : UInt64).toNat < (rolled none).draws roller := two.symm ▸ Nat.lt_succ_self 1
  obtain ⟨same, _⟩ := (roll_withMaxRolls e context 2 roller).1 enough
  obtain ⟨refused, few⟩ := (roll_withMaxRolls e context 1 roller).2 beyond
  refine ⟨two, same, ?_, few⟩
  -- Without this step the two sides are evaluated to see that they agree.
  dsimp only [rolled]
  exact refused

end Expression

end Tabletop
