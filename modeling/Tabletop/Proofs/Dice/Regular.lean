import Mathlib
import Tabletop.Proofs.Dice.Rolled
import Tabletop.Proofs.Rolling.InRange

/-!
# Dice of rolled groups

Modifiers append, overwrite, combine and drop the dice of a group in any order, and yet each die
tells its own history correctly.  A die is regular if it has the faces of its group, shows only
faces that it can have, and is flagged as rolled again exactly if it has shown more than one face.
Fresh dice are regular and every step keeps them so.  Whether a die was added by an explosion is
settled when it is made and never changes, so that the dice asked for and those added can be told
apart at any time.

* `Die.Step.regular` — a step of a modifier keeps a die regular;
* `RollGroup.ensures_roll_regular` — the dice of a rolled group are regular, and those asked for
  come before those added;
* `RollGroup.roll_inRange` — the same for a roller that answers in the range, in terms of the faces
  themselves.

Of the three conditions the last is the one that a step could break.  Rolling again changes the
history and the flag in one place, by the same condition on what was rolled, and no other step
touches either of them.
-/

namespace Tabletop

variable {may : Answers} {faces : Faces} {shows : UInt32 → Prop}

namespace Die

/-- A die of a group with the given faces whose values can be shown and whose history agrees with
its flag. -/
structure Regular (shows : UInt32 → Prop) (faces : Faces) (d : Die) : Prop where
  faces_eq : d.faces = faces
  values : ∀ v ∈ d.values, shows v
  rerolled : d.rerolled = true ↔ 1 < d.rolls.length

/-- Marking a die does not touch its history. -/
theorem Regular.mark {d : Die} (h : d.Regular shows faces) (matched : Bool) :
    ({ d with matched } : Die).Regular shows faces :=
  ⟨h.faces_eq, h.values, h.rerolled⟩

theorem IsAsked.regular {d : Die} (h : d.IsAsked may faces) :
    d.Regular (may.Shows faces) faces := by
  obtain ⟨face, shown, rfl⟩ := h
  exact ⟨rfl, List.forall_mem_singleton.2 shown, ⟨nofun, nofun⟩⟩

theorem IsAdded.regular {d : Die} (h : d.IsAdded may faces) :
    d.Regular (may.Shows faces) faces := by
  obtain ⟨face, triggered, shown, rfl⟩ := h
  exact ⟨rfl, List.forall_mem_singleton.2 shown, ⟨nofun, nofun⟩⟩

/-! ## Steps

One lemma for each field of the invariant, each by the constructors of a step. -/

/-- The flag is set with the first face that is rolled again, and stays set. -/
theorem rerolled_rollAgain (d : Die) (shown : List UInt32) :
    (d.rollAgain shown).rerolled = true ↔ d.rerolled = true ∨ shown ≠ [] := by
  unfold rollAgain
  split
  · next none => simp only [List.getLast?_eq_none_iff.1 none, ne_eq, not_true_eq_false, or_false]
  · next last isLast =>
    have some : shown ≠ [] := fun none => by rw [none] at isLast; cases isLast
    simp only [some, ne_eq, not_false_eq_true, or_true]

theorem Step.faces_eq {d d' : Die} (h : Step may faces d d') : d'.faces = d.faces := by
  cases h with
  | same | drop | trigger => rfl
  | again => unfold rollAgain; split <;> rfl
  | gain => unfold Die.gain; split <;> rfl

/-- No step adds a die or makes an added die one that was asked for. -/
theorem Step.exploded_eq {d d' : Die} (h : Step may faces d d') : d'.exploded = d.exploded := by
  cases h with
  | same | drop | trigger => rfl
  | again => unfold rollAgain; split <;> rfl
  | gain => unfold Die.gain; split <;> rfl

theorem Step.rerolled_iff {d d' : Die} (h : Step may faces d d')
    (before : d.rerolled = true ↔ 1 < d.rolls.length) :
    d'.rerolled = true ↔ 1 < d'.rolls.length := by
  cases h with
  | same | drop | trigger => exact before
  | @again shown =>
    -- A die has always shown a face, so a single further one makes it two.
    have once : 0 < d.rolls.length := List.length_pos_iff.2 d.rolls_ne_nil
    rw [rerolled_rollAgain, rolls_rollAgain, List.length_append, before, ← List.length_pos_iff]
    omega
  -- Values that are added are not rolls of the die.
  | gain =>
    rw [rolls_gain]
    unfold Die.gain
    split <;> exact before

/-- **A step keeps a die regular.** -/
theorem Step.regular {d d' : Die} (h : Step may faces d d')
    (before : d.Regular (may.Shows faces) faces) : d'.Regular (may.Shows faces) faces where
  faces_eq := h.faces_eq.trans before.faces_eq
  values := h.forall_mem_values before.values
  rerolled := h.rerolled_iff before.rerolled

end Die

/-! ## Groups

The invariant of single dice becomes one of groups by `Gathered.forall_mem`. -/

/-- The dice asked for come first, and the others are those added by explosions.  The flag is set
when a die is made, and every step keeps it as it is. -/
theorem Gathered.exploded {count : Nat} {dice : List Die} (h : Gathered may faces count dice) :
    ∃ asked added, dice = asked ++ added ∧ asked.length = count ∧
      (∀ d ∈ asked, d.exploded = false) ∧ ∀ d ∈ added, d.exploded = true := by
  obtain ⟨asked, added, eq, length, comeAsked, comeAdded⟩ := h
  refine ⟨asked, added, eq, length, fun d mem => ?_, fun d mem => ?_⟩
  · refine (comeAsked d mem).invariant (P := (·.exploded = false)) ?_ ?_
    · rintro _ ⟨face, -, rfl⟩
      rfl
    · exact fun step quiet => step.exploded_eq.trans quiet
  · refine (comeAdded d mem).invariant (P := (·.exploded = true)) ?_ ?_
    · rintro _ ⟨face, triggered, -, rfl⟩
      rfl
    · exact fun step loud => step.exploded_eq.trans loud

namespace RollGroup

/-- **What the dice of a rolled group are like**, under any admissible answers and whatever the
limits are. -/
theorem ensures_roll_regular {context : RollContext} (group : DiceGroup) :
    Evaluation.Ensures may (roll context group) fun g =>
      g.faces = group.faces ∧ (∀ d ∈ g.dice, d.Regular (may.Shows group.faces) group.faces) ∧
      ∃ asked added, g.dice = asked ++ added ∧ asked.length = group.count.toNat ∧
        (∀ d ∈ asked, d.exploded = false) ∧ ∀ d ∈ added, d.exploded = true := by
  refine (ensures_roll group).mono ?_
  rintro _ ⟨dice, gathered, rfl⟩
  -- Marking is the last thing that happens to the dice, and it touches neither history nor flags.
  obtain ⟨mark, eq⟩ := exists_markMatches_eq
    { written := group.written, count := group.count, faces := group.faces,
      conditionals := group.conditionals, dice } context.policy
  have regular : ∀ d ∈ dice, d.Regular (may.Shows group.faces) group.faces :=
    gathered.forall_mem (fun _ => Die.IsAsked.regular) (fun _ => Die.IsAdded.regular)
      Die.Step.regular
  obtain ⟨asked, added, rfl, length, notExploded, exploded⟩ := gathered.exploded
  rw [eq]
  refine ⟨rfl, ?_, _, _, List.map_append, (List.length_map _).trans length, ?_, ?_⟩
  · rw [List.forall_mem_map]
    exact fun d mem => (regular d mem).mark (mark d)
  · rw [List.forall_mem_map]
    exact notExploded
  · rw [List.forall_mem_map]
    exact exploded

/-- **Rolled groups.**  However a roller answers in the range, and whatever the modifiers and the
limits are: in a group that is rolled every die has the faces of the group, its rolls and added
values are faces it can show, at least one of them rolled, and it is flagged as rolled again exactly
if it was rolled more than once.  As many dice as were asked for come first, and every die behind
them, and no other, is flagged as added by an explosion. -/
theorem roll_inRange {ρ : Type} [Roller ρ] (inRange : Answers.inRange.Admit ρ)
    (context : RollContext) (group : DiceGroup) (counted : Nat) (roller : ρ) {g : RollGroup}
    (rolled : (((roll context group).run.run counted).run roller).1.1 = .ok g) :
    g.faces = group.faces ∧
    (∀ d ∈ g.dice, d.faces = group.faces ∧ d.rolls ≠ [] ∧
      (∀ v ∈ d.rolls ++ d.bonus, 1 ≤ v ∧ v ≤ group.faces.count) ∧
      (d.rerolled = true ↔ 1 < d.rolls.length)) ∧
    (∀ i d, g.dice[i]? = some d → (d.exploded = true ↔ group.count.toNat ≤ i)) ∧
    g.dice.length = group.count.toNat + g.dice.countP (·.exploded) := by
  obtain ⟨faces, regular, asked, added, eq, length, notExploded, exploded⟩ :=
    (ensures_roll_regular group counted).run inRange roller g rolled
  refine ⟨faces, fun d mem => ?_, fun i d at_i => ?_, ?_⟩
  · obtain ⟨facesOf, values, rerolled⟩ := regular d mem
    exact ⟨facesOf, d.rolls_ne_nil, fun v value => (values v value).between, rerolled⟩
  · rw [eq, List.getElem?_append, length] at at_i
    split at at_i
    -- Before the number asked for: a die that was asked for.
    · next early =>
      rw [notExploded d (List.mem_of_getElem? at_i)]
      exact ⟨nofun, fun late => absurd early (Nat.not_lt.2 late)⟩
    -- Behind it: a die that was added.
    · next late =>
      rw [exploded d (List.mem_of_getElem? at_i)]
      exact ⟨fun _ => Nat.not_lt.1 late, fun _ => rfl⟩
  · have none : asked.countP (·.exploded) = 0 :=
      List.countP_eq_zero.2 fun d mem => by rw [notExploded d mem]; decide
    have all : added.countP (·.exploded) = added.length := List.countP_eq_length.2 exploded
    rw [eq, List.length_append, List.countP_append, none, all, length, Nat.zero_add]

/-- Two dice, of which the first is rolled again, both explode, both gain a value, and the two added
by the explosions are dropped. -/
theorem roll_inRange_two_dice :
    let six : Faces := ⟨6, by decide⟩
    let group : DiceGroup :=
      ⟨2, six, [⟨.ge, 11⟩], [.reroll 1 [], .explode 1 [], .explodeCombine 1 [], .keep .high 2],
        "2d6>=11r!!!kh2"⟩
    let roller : ClampedRoller := ⟨[1, 6, 6, 2, 3, 4, 5]⟩
    let dice : List Die :=
      [{ faces := six, earlier := [1], face := 6, bonus := [4], rerolled := true, triggered := true },
        { faces := six, face := 6, bonus := [5], triggered := true, matched := true },
        { faces := six, face := 2, dropped := true, exploded := true },
        { faces := six, face := 3, dropped := true, exploded := true }]
    Answers.inRange.Admit ClampedRoller ∧
      (((roll (.ofSettings {}) group).run.run 0).run roller).1.1 =
        .ok ⟨"2d6>=11r!!!kh2", 2, six, [⟨.ge, 11⟩], dice⟩ ∧
      (∀ d ∈ dice, d.faces = six ∧ d.rolls ≠ [] ∧ (∀ v ∈ d.rolls ++ d.bonus, 1 ≤ v ∧ v ≤ 6) ∧
        (d.rerolled = true ↔ 1 < d.rolls.length)) ∧
      (∀ i d, dice[i]? = some d → (d.exploded = true ↔ 2 ≤ i)) ∧
      dice.length = 2 + dice.countP (·.exploded) := by
  intro six group roller dice
  have rolled : (((roll (.ofSettings {}) group).run.run 0).run roller).1.1 =
      .ok ⟨"2d6>=11r!!!kh2", 2, six, [⟨.ge, 11⟩], dice⟩ := by cbv
  exact ⟨ClampedRoller.inRange_admit, rolled,
    (roll_inRange ClampedRoller.inRange_admit _ _ _ _ rolled).2⟩

end RollGroup

end Tabletop
