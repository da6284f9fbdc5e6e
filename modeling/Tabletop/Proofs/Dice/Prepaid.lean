import Tabletop.Dice.RollResult
import Tabletop.Proofs.Rolling.Prepaid

/-!
# The dice of an expression are counted before they are rolled

The limit on the number of dice is looked at before every batch of dice, every die that is rolled
again or added by an explosion, and every die of a stunt.  This module goes through these places
from the inside to the outside, once for all results about limits and counts.

* `Modifier.prepaid_apply` — a modifier; a refusal ends it at the die at hand;
* `RollGroup.prepaid_roll`, `Expr.prepaid_roll`, `Expression.prepaid_roll` — groups, trees and
  expressions.

The statements are about families of computations, one for each limit.  A family is prepaid if its
members differ only in where they are refused, and if no die is asked for that has not been counted;
the rules for batches and for one computation after the other are in the module on prepaid rolls.
What is proved here is that every function in question is put together by these rules, and the
inductions follow the functions.
-/

namespace Tabletop

variable {α β : Type}

/-! ## Modifiers

A modifier does not fail when it is refused a die: it returns what it has done so far with the
refusal.  So the notion for a change of dice is one of its own. -/

/-- The dice of a change are counted before they are rolled, and the change is stopped by a refusal
only. -/
def Stopped.Prepaid (x : Option UInt64 → Counted (Stopped α)) : Prop :=
  Counted.Prepaid (fun s => s.2 = none) (fun s => s.2 = some .tooManyRolls) x

theorem Stopped.prepaid_pure (a : α) : Stopped.Prepaid fun _ => pure (a, none) :=
  .value rfl

/-- What is made of the dice when they are rolled plays no part. -/
theorem Stopped.Prepaid.map {x : Option UInt64 → Counted (Stopped α)} (h : Stopped.Prepaid x)
    (f : α → β) :
    Stopped.Prepaid fun limit => (do let (a, refusal) ← x limit; pure (f a, refusal)) := by
  refine Counted.Prepaid.bind h ?_ ?_
  · rintro ⟨a, refusal⟩ rfl
    exact Stopped.prepaid_pure (f a)
  · rintro ⟨a, refusal⟩ rfl
    exact ⟨_, rfl, fun _ => rfl⟩

namespace Modifier

variable (context : RollContext) (faces : Faces) (times : UInt32) (conditionals : List Conditional)

/-- The loop counts each die before it rolls it.  The induction is on the number of rolls that are
left. -/
theorem prepaid_rollWhile (again : Int64 → Bool) (times : Nat) (last : Int64)
    (rolled : List UInt32) :
    Stopped.Prepaid fun limit =>
      rollWhile (context.withMaxRolls limit) faces again times last rolled := by
  induction times generalizing last rolled with
  | zero => exact Stopped.prepaid_pure _
  | succ times ih =>
    unfold rollWhile
    cases again last with
    | false => exact Stopped.prepaid_pure _
    | true =>
      have one : Counted.Prepaid (fun r => ∃ face, r = .ok face) Evaluation.Refused fun limit =>
          ((context.withMaxRolls limit).rollOne faces).run :=
        context.prepaid_rollOne faces (fun face => ⟨face, rfl⟩) rfl
      refine one.bind ?_ ?_
      · rintro _ ⟨face, rfl⟩
        exact ih _ _
      · rintro _ rfl
        exact ⟨_, rfl, fun _ => rfl⟩

theorem prepaid_rerollDie (d : Die) :
    Stopped.Prepaid fun limit =>
      rerollDie (context.withMaxRolls limit) faces times conditionals d := by
  unfold rerollDie
  split
  · exact Stopped.prepaid_pure _
  · exact (prepaid_rollWhile context faces (holds context.policy conditionals (· ≤ 1))
      (context.capped times) d.value []).map fun shown => (d.rollAgain shown, [])

theorem prepaid_explodeDie (d : Die) :
    Stopped.Prepaid fun limit =>
      explodeDie (context.withMaxRolls limit) faces times conditionals d := by
  unfold explodeDie
  split
  · exact Stopped.prepaid_pure _
  · exact (prepaid_rollWhile context faces (holds context.policy conditionals (· == faces.highest))
      (context.capped times) d.value []).map fun shown =>
      ({ d with triggered := !shown.isEmpty }, Die.chain faces shown)

theorem prepaid_combineDie (d : Die) :
    Stopped.Prepaid fun limit =>
      combineDie (context.withMaxRolls limit) faces times conditionals d := by
  unfold combineDie
  split
  · exact Stopped.prepaid_pure _
  · exact (prepaid_rollWhile context faces (holds context.policy conditionals (· == faces.highest))
      (context.capped times) (Int64.ofNat d.lastComponent.toNat) []).map fun added =>
        (d.gain added, [])

/-- A refusal ends the changes at the die at hand, so nothing is asked for after it. -/
theorem prepaid_changeEach {change : Option UInt64 → DieChange}
    (each : ∀ d, Stopped.Prepaid fun limit => change limit d) (changed added dice : List Die) :
    Stopped.Prepaid fun limit => changeEach (change limit) changed added dice := by
  induction dice generalizing changed added with
  | nil => exact Stopped.prepaid_pure _
  | cons d dice ih =>
    refine Counted.Prepaid.bind (each d) ?_ ?_
    · rintro ⟨⟨d', more⟩, refusal⟩ rfl
      exact ih _ _
    · rintro ⟨⟨d', more⟩, refusal⟩ rfl
      exact ⟨_, rfl, fun _ => rfl⟩

/-- **A modifier counts its dice before it rolls them.** Keeping and dropping roll none. -/
theorem prepaid_apply (m : Modifier) (g : RollGroup) :
    Stopped.Prepaid fun limit => m.apply (context.withMaxRolls limit) g := by
  have repeated {change : Option UInt64 → DieChange}
      (each : ∀ d, Stopped.Prepaid fun limit => change limit d) :
      Stopped.Prepaid fun limit => apply.changed g (changeEach (change limit) [] [] g.dice) :=
    (prepaid_changeEach each [] [] g.dice).map fun dice => ({ g with dice } : RollGroup)
  cases m with
  | reroll times conditionals => exact repeated (prepaid_rerollDie context g.faces times conditionals)
  | explode times conditionals =>
    exact repeated (prepaid_explodeDie context g.faces times conditionals)
  | explodeCombine times conditionals =>
    exact repeated (prepaid_combineDie context g.faces times conditionals)
  | keep => exact Stopped.prepaid_pure _
  | drop => exact Stopped.prepaid_pure _

end Modifier

/-! ## Groups and expressions

From here on a refusal is an error, and it ends everything. -/

namespace RollGroup

variable (context : RollContext)

/-- The modifiers of a group, one after the other; a refusal in one of them is an error of the
group. -/
theorem prepaid_applyAll (modifiers : List Modifier) (g : RollGroup) :
    Evaluation.Prepaid fun limit => applyAll (context.withMaxRolls limit) modifiers g := by
  induction modifiers generalizing g with
  | nil => exact Evaluation.prepaid_pure g
  | cons m modifiers ih =>
    unfold applyAll
    refine Evaluation.Prepaid.lift_bind (m.prepaid_apply context g) ?_ ?_
    · rintro ⟨g', refusal⟩ rfl
      exact ih g'
    · rintro ⟨g', refusal⟩ rfl _
      rfl

/-- A group counts its dice as one batch, and then those of its modifiers. -/
theorem prepaid_roll (group : DiceGroup) :
    Evaluation.Prepaid fun limit => roll (context.withMaxRolls limit) group := by
  refine (context.prepaid_rollMany group.faces group.count.toNat).bind fun shown => ?_
  exact (prepaid_applyAll context group.modifiers _).bind fun g =>
    Evaluation.prepaid_pure (g.markMatches context.policy)

end RollGroup

/-- An expression rolls its left side before its right side. -/
theorem Expr.prepaid_roll (context : RollContext) (e : Expr) :
    Evaluation.Prepaid fun limit => e.roll (context.withMaxRolls limit) := by
  induction e with
  | literal x => exact Evaluation.prepaid_pure _
  | dice group => exact (RollGroup.prepaid_roll context group).bind fun g => Evaluation.prepaid_pure _
  -- The three dice of a stunt are three batches.
  | stunt written =>
    have one : Evaluation.Prepaid fun limit =>
        (context.withMaxRolls limit).rollOne context.stuntFaces :=
      context.prepaid_rollOne context.stuntFaces Evaluation.complete_ok rfl
    exact one.bind fun first => one.bind fun second => one.bind fun third =>
      Evaluation.prepaid_pure _
  | grouping e ih => exact ih.bind fun t => Evaluation.prepaid_pure _
  | negate e ih => exact ih.bind fun t => Evaluation.prepaid_pure _
  | binary a op b ihLeft ihRight =>
    exact ihLeft.bind fun s => ihRight.bind fun t => Evaluation.prepaid_pure _

/-- The total of a tree is computed from dice that are there, so nothing is refused.  It may have no
finite value, and this is a different failure. -/
theorem RollTree.complete_total (t : RollTree) : Evaluation.Complete t.total := by
  induction t with
  | literal | dice | stunt => exact Evaluation.complete_ok _
  | grouping t ih => exact ih
  | negate t ih => exact ih.bind fun a => Evaluation.complete_ok _
  | binary s op t ihLeft ihRight =>
    refine ihLeft.bind fun a => ihRight.bind fun b => ?_
    show Evaluation.Complete (if (a.apply op b).isFinite then .ok (a.apply op b)
      else .error (.nonFinite a op b))
    split
    · exact Evaluation.complete_ok _
    · rintro _ ⟨⟩
      exact ⟨a, op, b, rfl⟩

/-- **An expression counts its dice before it rolls them**, and the total is computed when all of
them are there. -/
theorem Expression.prepaid_roll (context : RollContext) (e : Expression) :
    Evaluation.Prepaid fun limit => e.roll (context.withMaxRolls limit) := by
  refine (Expr.prepaid_roll context e.root).bind fun tree => ?_
  exact Evaluation.prepaid_of_complete
    (tree.complete_total.bind fun total => Evaluation.complete_ok _)

end Tabletop
