import Mathlib
import Tabletop.Proofs.Dice.Rolled
import Tabletop.Rolling.Sequence

/-!
# What modifiers leave as it is

A modifier may roll dice again, add values or dice, and drop dice, and it may be stopped by the
limit at any die, in the middle of a chain of rolls.  Whatever it has done until then, the group
still tells what it told before: a die that was dropped is as it was, no flag is taken back, no face
that was shown is forgotten, and every die is at its place.  `Die.Keeps` says this of a die before
and after; a step of a modifier keeps a die, and so do any number of steps.

* `Die.Step.keeps` — one step of one die;
* `Modifier.ensures_apply_keeps` — the dice of a group under one modifier;
* `Modifier.apply_keeps` — everything that a modifier leaves of a group, also where it is refused a
  die.

That a modifier may stop in the middle makes no case of its own.  `Modifier.Changes` holds of what
it leaves in any event, and a die that was not reached has taken the step that changes nothing.
-/

namespace Tabletop

open List (Forall₂)

variable {may : Answers} {faces : Faces}

namespace Die

/-- The flags of a die. -/
def flags : List (Die → Bool) :=
  [dropped, rerolled, exploded, triggered, matched]

/-- What is left of a die when it has changed.  The value of a die is not among them: rolling again
and adding are there to change it. -/
structure Keeps (d d' : Die) : Prop where
  faces_eq : d'.faces = d.faces
  /-- The faces shown before are still known, and further ones come after them. -/
  rolls : d.rolls <+: d'.rolls
  /-- A dropped die does not change at all. -/
  dropped : d.dropped = true → d' = d
  /-- No flag is taken back. -/
  flags : ∀ flag ∈ Die.flags, flag d = true → flag d' = true

theorem Keeps.refl (d : Die) : d.Keeps d :=
  ⟨rfl, List.prefix_refl _, fun _ => rfl, fun _ _ => id⟩

theorem flags_of {d d' : Die} (dropped : d.dropped = true → d'.dropped = true)
    (rerolled : d.rerolled = true → d'.rerolled = true)
    (exploded : d.exploded = true → d'.exploded = true)
    (triggered : d.triggered = true → d'.triggered = true)
    (matched : d.matched = true → d'.matched = true) :
    ∀ flag ∈ flags, flag d = true → flag d' = true := by
  simp only [flags, List.forall_mem_cons]
  exact ⟨dropped, rerolled, exploded, triggered, matched, List.forall_mem_nil _⟩

/-- **A step keeps a die.** -/
theorem Step.keeps {d d' : Die} (h : Step may faces d d') : d.Keeps d' := by
  -- Every step but none at all is taken by a live die.
  have frozen {p : Prop} (live : d.dropped = false) (isDropped : d.dropped = true) : p := by
    rw [live] at isDropped
    cases isDropped
  cases h with
  | same => exact .refl d
  -- Dropping sets a flag and touches nothing else; the case of a die dropped before does not arise.
  | drop live =>
    exact ⟨rfl, List.prefix_refl _, frozen live, flags_of (fun _ => rfl) id id id id⟩
  -- The new faces are shown after the old ones, unless there are none at all.
  | @again shown live =>
    have rolls : d.rolls <+: (d.rollAgain shown).rolls := by
      rw [rolls_rollAgain]
      exact List.prefix_append _ _
    unfold rollAgain at rolls ⊢
    split
    · exact .refl d
    · next last isLast =>
      rw [isLast] at rolls
      exact ⟨rfl, rolls, frozen live, flags_of id (fun _ => rfl) id id id⟩
  | @gain added live =>
    unfold Die.gain
    split
    · exact .refl d
    · exact ⟨rfl, List.prefix_refl _, frozen live, flags_of id id id (fun _ => rfl) id⟩
  -- The flag is written over, but only on a die on which it was not set.
  | trigger live quiet =>
    refine ⟨rfl, List.prefix_refl _, frozen live, flags_of id id id (fun set => ?_) id⟩
    rw [quiet] at set
    cases set

end Die

/-! ## Groups

A group is looked at by places, and not as a set of dice: a modifier may add dice that are equal to
those that were there. -/

/-- Every die is at its place and keeps what there was of it. -/
def KeepDice (before after : List Die) : Prop :=
  ∀ (i : Nat) (d : Die), before[i]? = some d → ∃ d', after[i]? = some d' ∧ d.Keeps d'

namespace Modifier

variable {context : RollContext}

/-- Added dice come after all others, so they move none. -/
theorem Changes.keepDice {before after : List Die} (h : Changes may faces before after) :
    KeepDice before after := by
  obtain ⟨kept, added, rfl, steps, -⟩ := h
  intro i d at_i
  obtain ⟨inside, eq⟩ := List.getElem?_eq_some_iff.1 at_i
  have inside' : i < kept.length := steps.length_eq ▸ inside
  have step := steps.get inside inside'
  refine ⟨kept[i], ?_, ?_⟩
  · rw [List.getElem?_append_left inside', List.getElem?_eq_getElem inside']
  · rw [← eq]
    exact step.keeps

/-- **The dice under a modifier**, wherever it stops. -/
theorem ensures_apply_keeps (m : Modifier) (g : RollGroup) :
    Counted.Ensures may (m.apply context g) fun r =>
      (∃ dice, r.1 = { g with dice }) ∧ KeepDice g.dice r.1.dice := by
  refine (ensures_apply m g).mono ?_
  rintro ⟨_, refusal⟩ ⟨dice, rfl, changes⟩
  exact ⟨⟨dice, rfl⟩, changes.keepDice⟩

/-- Whether a modifier adds dice. -/
def addsDice : Modifier → Bool
  | explode .. => true
  | _ => false

/-- A change that makes a die of a die, and nothing else. -/
theorem ensures_added_eq_nil {idle : Bool} {d : Die} {x : Counted (Stopped (List UInt32))}
    {become : List UInt32 → Die} :
    Counted.Ensures may
      (if idle then leave d else do let (shown, refusal) ← x; pure ((become shown, []), refusal))
      fun r => r.1.2 = [] := by
  split
  · exact Counted.ensures_pure rfl
  · exact (Counted.ensures_of_forall fun _ => trivial).bind fun _ _ => Counted.ensures_pure rfl

/-- Where no die has others added for it, the number of dice stays. -/
theorem length_of_added_eq_nil {dice : List Die} {changes : List (Die × List Die)}
    (none : Forall₂ (fun _ r => r.2 = []) dice changes) :
    (changes.map (·.1) ++ changes.flatMap (·.2)).length = dice.length := by
  induction none with
  | nil => rfl
  | @cons d r dice changes one _ ih =>
    rw [List.length_append] at ih ⊢
    rw [List.map_cons, List.flatMap_cons, one, List.nil_append, List.length_cons, List.length_cons,
      Nat.add_right_comm, ih]

/-- Only an explosion adds dice. -/
theorem ensures_length_apply {m : Modifier} (h : m.addsDice = false) (g : RollGroup) :
    Counted.Ensures may (m.apply context g) fun r => r.1.dice.length = g.dice.length := by
  have repeated {change : DieChange}
      (each : ∀ d, Counted.Ensures may (change d) fun r => r.1.2 = []) :
      Counted.Ensures may (apply.changed g (changeEach change [] [] g.dice)) fun r =>
        r.1.dice.length = g.dice.length := by
    refine (ensures_changeEach (R := fun _ r => r.2 = []) each (fun _ => rfl) [] [] g.dice).bind ?_
    rintro ⟨_, refusal⟩ ⟨changes, rfl, none⟩
    exact Counted.ensures_pure (length_of_added_eq_nil none)
  cases m with
  | reroll | explodeCombine => exact repeated fun d => ensures_added_eq_nil
  -- The one modifier that adds dice is excluded by its name.
  | explode => cases h
  | keep | drop => exact Counted.ensures_pure (forall₂_dropAt _ _).length_eq.symm

/-- **What modifiers leave as it is.**  Let any modifier be applied to any group, by whatever rules
and with whatever roller, and let it come to its end or be refused a die on the way.  The group
afterwards has the text, the number of dice asked for, the faces and the conditionals that it had.
Each of its dice is still at its place: a dropped die is exactly as it was, no flag of a die is
taken back, and the faces that it has shown since come after those it had shown.  Dice are added by
no modifier but an explosion. -/
theorem apply_keeps (m : Modifier) (context : RollContext) (g : RollGroup) (counted : Nat)
    {ρ : Type} [Roller ρ] (roller : ρ) :
    let after := (((m.apply context g).run counted).run roller).1.1.1
    (after.written = g.written ∧ after.count = g.count ∧ after.faces = g.faces ∧
      after.conditionals = g.conditionals) ∧
    (∀ (i : Nat) (d : Die), g.dice[i]? = some d → ∃ d', after.dice[i]? = some d' ∧ d.Keeps d') ∧
    (m.addsDice = false → after.dice.length = g.dice.length) := by
  intro after
  have admissible := Answers.admit_any ρ
  obtain ⟨⟨dice, eq⟩, kept⟩ := (m.ensures_apply_keeps g counted).run admissible roller
  have others : after = { g with dice } := eq
  refine ⟨?_, kept, fun none => (ensures_length_apply none g counted).run admissible roller⟩
  rw [others]
  exact ⟨rfl, rfl, rfl, rfl⟩

/-- The second of three dice is rolled again twice, and at the third it is refused a die; the first
was dropped before. -/
theorem apply_keeps_refused :
    let six : Faces := ⟨6, by decide⟩
    let context : RollContext := .ofSettings { maxRolls := some 2 }
    let out : Die := { faces := six, face := 1, dropped := true, matched := true }
    let one : Die := { faces := six, face := 1, triggered := true }
    let again : Die := { one with earlier := [1, 1], face := 5, rerolled := true }
    let g : RollGroup := ⟨"3d6r9", 3, six, [], [out, one, one]⟩
    let m : Modifier := .reroll 9 []
    let roller := SequenceRoller.ofList [1, 5]
    let stopped := (((m.apply context g).run 0).run roller).1.1
    stopped = ({ g with dice := [out, again, one] }, some .tooManyRolls) ∧
      (∀ (i : Nat) (d : Die), g.dice[i]? = some d →
        ∃ d', stopped.1.dice[i]? = some d' ∧ d.Keeps d') ∧
      m.addsDice = false ∧ stopped.1.dice.length = g.dice.length := by
  intro six context out one again g m roller stopped
  have refused : stopped = ({ g with dice := [out, again, one] }, some .tooManyRolls) := by cbv
  have addsNone : m.addsDice = false := rfl
  obtain ⟨-, kept, length⟩ := apply_keeps m context g 0 roller
  refine ⟨refused, ?_⟩
  -- Without this step the two sides are evaluated to see that they agree.
  dsimp only [stopped]
  exact ⟨kept, addsNone, length addsNone⟩

end Modifier

end Tabletop
