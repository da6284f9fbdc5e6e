import Mathlib
import Tabletop.Dice.Breakdown
import Tabletop.Proofs.Decimal.Integer
import Tabletop.Proofs.Dice.Step
import Tabletop.Rolling.Sequence

/-!
# Dice that are shown to have exploded

A die is shown with a mark behind it if it is flagged as having made an explosion happen and nothing
is added to it.  Every explosion that adds a die flags one die for it, so there are as many dice
added as flags set by explosions.  But a die to which an explosion added a value is flagged too, and
when it is rolled again the value goes and the flag stays: then it has the mark of a die that added
another one, and there is none.

Dice are counted here against each other.  A change of dice is `Balanced` for a property of dice if
it gives the property to at most as many dice as it adds by explosions, and `Modifier.Spares` lists,
for each modifier, what keeps it from giving the property in any other way.

* `Die.showsMark_eq` — when a die is shown with a mark;
* `RollGroup.balanced_applyAll` — modifiers that spare a property are balanced for it;
* `RollGroup.countP_showsMark_le` — how many dice of a rolled group can have the mark;
* `RollGroup.countP_showsMark_gt` — a group in which more dice have it than were added.

How the proof goes.  The inequality that is wanted is not an invariant, since it may fail in
between; the balance is one, because it compares before with after.  Balances add up, over the dice
of a group and over its modifiers, and the inequality follows from the balance of all modifiers
together, since fresh dice have no flags.  When a modifier may roll dice again after values were
added, the list of modifiers is cut at the first that adds values, and each half is balanced for a
property of its own.
-/

namespace Tabletop

open List (Forall₂)

namespace Die

/-- Whether a die is shown with a mark behind it. -/
def showsMark (d : Die) : Bool :=
  d.history.toList.getLast? == some '!'

/-- The text that is joined last stands at the end. -/
theorem exists_intercalate_concat (separator last : String) (texts : List String) :
    ∃ front, separator.intercalate (texts ++ [last]) = front ++ last := by
  induction texts with
  | nil => exact ⟨"", by simp⟩
  | cons text texts ih =>
    obtain ⟨front, eq⟩ := ih
    obtain ⟨next, others, cons⟩ := List.exists_cons_of_ne_nil (l := texts ++ [last]) (by simp)
    refine ⟨text ++ separator ++ front, ?_⟩
    rw [List.cons_append, cons, String.intercalate_cons_cons, ← cons, eq]
    simp only [String.append_assoc]

/-- A text that ends with a number does not end with the mark. -/
theorem getLast?_append_number_ne (front : String) (n : Nat) :
    (front ++ toString n).toList.getLast? ≠ some '!' := by
  have digits : (toString n).toList = Nat.toDigits 10 n := Nat.toList_repr
  rw [String.toList_append, digits, List.getLast?_append_of_ne_nil _ Nat.toDigits_ne_nil]
  intro mark
  exact nomatch Decimal.isDigit_toDigits '!' (List.mem_of_getLast? mark)

/-- The history of a die ends with the face it shows, with the last value that was added to it, or
with the mark, which only stands where nothing was added. -/
theorem showsMark_eq (d : Die) : d.showsMark = (d.triggered && d.bonus.isEmpty) := by
  unfold showsMark history
  split
  · next marked => rw [marked]; simp
  · next unmarked =>
    rw [Bool.eq_false_iff.2 unmarked, String.append_empty, beq_eq_false_iff_ne]
    rcases List.eq_nil_or_concat d.bonus with none | ⟨values, value, eq⟩
    · obtain ⟨front, faces⟩ := exists_intercalate_concat " -> " (toString d.face.toNat)
        (d.earlier.map fun face => toString face.toNat)
      rw [none, rolls, List.map_append, List.map_singleton, faces, List.map_nil, String.join_nil,
        String.append_empty]
      exact getLast?_append_number_ne front d.face.toNat
    · have joined : String.join (d.bonus.map fun value => "!+" ++ toString value.toNat) =
          String.join (values.map fun value => "!+" ++ toString value.toNat) ++ "!+" ++
            toString value.toNat := by
        rw [eq, List.concat_eq_append]
        simp [String.join_append, String.append_assoc]
      rw [joined, ← String.append_assoc]
      exact getLast?_append_number_ne _ value.toNat

end Die

/-! ## Counting dice against each other

Differences of numbers of dice are written as sums on both sides, so that nothing is cut off at
zero. -/

/-- A change of dice gives a property to at most as many dice as it adds by explosions. -/
def Balanced (p : Die → Bool) (before after : List Die) : Prop :=
  after.countP p + before.countP (·.exploded) ≤ before.countP p + after.countP (·.exploded)

variable {p : Die → Bool} {before after : List Die}

theorem Balanced.refl (dice : List Die) : Balanced p dice dice :=
  Nat.le_refl _

theorem Balanced.trans {between : List Die} (first : Balanced p before between)
    (second : Balanced p between after) : Balanced p before after := by
  unfold Balanced at *
  omega

/-- A property that no die had to begin with. -/
theorem Balanced.countP_le (balanced : Balanced p before after) (none : before.countP p = 0) :
    after.countP p ≤ after.countP (·.exploded) := by
  unfold Balanced at balanced
  omega

/-- A single die that is changed without an explosion. -/
theorem balanced_singleton {d d' : Die} (spared : p d' = true → p d = true)
    (exploded : d'.exploded = d.exploded) : Balanced p [d] [d'] := by
  unfold Balanced
  simp only [List.countP_singleton, exploded]
  cases new : p d' with
  | true => simp [spared new]
  | false => simp

/-- Changes of single dice are balanced together if each of them is.  The induction is on the dice;
each contributes its own inequality. -/
theorem balanced_of_forall₂ {changes : List (Die × List Die)}
    (each : Forall₂ (fun d r => Balanced p [d] (r.1 :: r.2)) before changes) :
    Balanced p before (changes.map (·.1) ++ changes.flatMap (·.2)) := by
  induction each with
  | nil => exact .refl []
  | cons one _ ih =>
    unfold Balanced at *
    simp only [List.map_cons, List.flatMap_cons, List.countP_cons, List.countP_append,
      List.countP_nil, Nat.zero_add] at *
    omega

/-- Changes of single dice to which nothing is added.  They are changes with an empty list behind
them. -/
theorem balanced_of_each (each : Forall₂ (fun d d' => Balanced p [d] [d']) before after) :
    Balanced p before after := by
  have changes : Forall₂ (fun d r => Balanced p [d] (r.1 :: r.2)) before (after.map (·, [])) :=
    List.forall₂_map_right_iff.2 each
  have balanced := balanced_of_forall₂ changes
  have none : (after.map fun d => (d, ([] : List Die))).flatMap (·.2) = [] := by
    simp [List.flatMap_eq_nil_iff]
  rw [none, List.append_nil, List.map_map] at balanced
  simpa [Function.comp_def] using balanced

/-! ## Modifiers

Three properties of dice come up: to be flagged, to have the mark, and to have it without having
been rolled again.  Which of them a modifier spares is seen from the modifier. -/

namespace Die

theorem countP_exploded_chain {faces : Faces} (shown : List UInt32) :
    (chain faces shown).countP (·.exploded) = shown.length := by
  induction shown using chain.induct with
  | case1 | case2 => rfl
  | case3 face next shown ih => rw [chain, List.countP_cons, ih]; rfl

/-- All dice of a chain of explosions but the last made the next one happen. -/
theorem countP_triggered_chain {faces : Faces} (shown : List UInt32) :
    (chain faces shown).countP (·.triggered) = shown.length - 1 := by
  induction shown using chain.induct with
  | case1 | case2 => rfl
  | case3 face next shown ih => rw [chain, List.countP_cons, ih]; rfl

end Die

/-- A die that explodes is flagged itself, and so is every die that is added for it but the last. -/
theorem balanced_chain (spared : ∀ d, p d = true → d.triggered = true) {faces : Faces} {d : Die}
    (quiet : d.triggered = false) (shown : List UInt32) :
    Balanced p [d] ({ d with triggered := !shown.isEmpty } :: Die.chain faces shown) := by
  cases shown with
  -- Nothing was rolled, and the flag is written as it was.
  | nil =>
    have unchanged : { d with triggered := false } = d := by rw [← quiet]
    show Balanced p [d] [{ d with triggered := false }]
    rw [unchanged]
    exact .refl [d]
  -- The die and all of the chain but its last die are flagged: as many as were added.
  | cons face shown =>
    let flagged : Die := { d with triggered := true }
    have chain : (Die.chain faces (face :: shown)).countP p ≤ shown.length := by
      have few := List.countP_mono_left (l := Die.chain faces (face :: shown)) fun d _ => spared d
      rwa [Die.countP_triggered_chain] at few
    have single : [flagged].countP p ≤ 1 := List.countP_le_length
    have same : [flagged].countP (·.exploded) = [d].countP (·.exploded) := rfl
    show Balanced p [d] ([flagged] ++ Die.chain faces (face :: shown))
    unfold Balanced
    rw [List.countP_append, List.countP_append, Die.countP_exploded_chain, same, List.length_cons]
    omega

namespace Modifier

/-! ### What spares a property

A modifier that changes dice must not give the property to one that has not got it.  Explosions
may, since with each die that they trigger a new one comes. -/

/-- What keeps a modifier from giving a property to a die, other than by an explosion that adds
one. -/
def Spares (p : Die → Bool) : Modifier → Prop
  | reroll .. => ∀ d shown, p (d.rollAgain shown) = true → p d = true
  | explode .. => ∀ d, p d = true → d.triggered = true
  | explodeCombine .. => ∀ d added, p (d.gain added) = true → p d = true
  | keep .. | drop .. => ∀ d, p { d with dropped := true } = true → p d = true

variable {context : RollContext} {times : UInt32} {conditionals : List Conditional} {faces : Faces}

/-- What a die becomes may depend on the values that are rolled for it, but whether that is balanced
may not. -/
theorem balanced_rollWhile {x : Counted (Stopped (List UInt32))} {d : Die}
    (become : List UInt32 → Die × List Die)
    (each : ∀ shown, Balanced p [d] ((become shown).1 :: (become shown).2)) :
    Counted.Ensures .any (do let (shown, refusal) ← x; pure (become shown, refusal)) fun r =>
      Balanced p [d] (r.1.1 :: r.1.2) :=
  (Counted.ensures_of_forall fun _ => trivial).bind fun r _ => Counted.ensures_pure (each r.1)

theorem balanced_rerollDie (spares : (reroll times conditionals).Spares p) (d : Die) :
    Counted.Ensures .any (rerollDie context faces times conditionals d) fun r =>
      Balanced p [d] (r.1.1 :: r.1.2) := by
  unfold rerollDie
  split
  · exact Counted.ensures_pure (.refl [d])
  · refine balanced_rollWhile (fun shown => (d.rollAgain shown, [])) fun shown =>
      balanced_singleton (spares d shown) ?_
    unfold Die.rollAgain
    split <;> rfl

theorem balanced_combineDie (spares : (explodeCombine times conditionals).Spares p) (d : Die) :
    Counted.Ensures .any (combineDie context faces times conditionals d) fun r =>
      Balanced p [d] (r.1.1 :: r.1.2) := by
  unfold combineDie
  split
  · exact Counted.ensures_pure (.refl [d])
  · refine balanced_rollWhile (fun added => (d.gain added, [])) fun added =>
      balanced_singleton (spares d added) ?_
    unfold Die.gain
    split <;> rfl

theorem balanced_explodeDie (spares : (explode times conditionals).Spares p) (d : Die) :
    Counted.Ensures .any (explodeDie context faces times conditionals d) fun r =>
      Balanced p [d] (r.1.1 :: r.1.2) := by
  unfold explodeDie
  split
  · exact Counted.ensures_pure (.refl [d])
  · next idle =>
    obtain ⟨-, quiet⟩ : d.dropped = false ∧ d.triggered = false := by simpa using idle
    exact balanced_rollWhile
      (fun shown => ({ d with triggered := !shown.isEmpty }, Die.chain faces shown))
      (balanced_chain spares quiet)

theorem balanced_dropAt (spared : ∀ d, p { d with dropped := true } = true → p d = true)
    (places : List Nat) (dice : List Die) : Balanced p dice (dropAt places dice) := by
  refine balanced_of_each ((forall₂_dropAt places dice).imp ?_)
  rintro d d' (rfl | rfl)
  · exact .refl [d']
  · exact balanced_singleton (spared d) rfl

/-- **A modifier that spares a property is balanced for it.** -/
theorem balanced_apply {m : Modifier} (spares : m.Spares p) (g : RollGroup) :
    Counted.Ensures .any (m.apply context g) fun r => Balanced p g.dice r.1.dice := by
  have repeated {change : DieChange} (each : ∀ d, Counted.Ensures .any (change d) fun r =>
        Balanced p [d] (r.1.1 :: r.1.2)) :
      Counted.Ensures .any (apply.changed g (changeEach change [] [] g.dice)) fun r =>
        Balanced p g.dice r.1.dice := by
    refine (ensures_changeEach (R := fun d r => Balanced p [d] (r.1 :: r.2)) each
      (fun d => .refl [d]) [] [] g.dice).bind ?_
    rintro ⟨_, refusal⟩ ⟨changes, rfl, related⟩
    exact Counted.ensures_pure (balanced_of_forall₂ related)
  cases m with
  | reroll => exact repeated (balanced_rerollDie spares)
  | explode => exact repeated (balanced_explodeDie spares)
  | explodeCombine => exact repeated (balanced_combineDie spares)
  | keep | drop => exact Counted.ensures_pure (balanced_dropAt spares _ _)

/-! ### The two properties of interest

Being triggered and showing a mark are spared by different modifiers, and these two lists say by
which. -/

/-- Whether a modifier adds values to dice that are there. -/
def addsValues : Modifier → Bool
  | explodeCombine .. => true
  | _ => false

/-- Whether a modifier rolls dice again. -/
def rollsAgain : Modifier → Bool
  | reroll .. => true
  | _ => false

/-- Without values added, only an explosion flags a die. -/
theorem spares_triggered {m : Modifier} (h : m.addsValues = false) :
    m.Spares (·.triggered) := by
  cases m with
  | reroll =>
    intro d shown
    unfold Die.rollAgain
    split <;> exact id
  | explode | keep | drop => exact fun d => id
  | explodeCombine => cases h

/-- A die to which values are added does not have the mark; only rolling it again can bring it
out. -/
theorem spares_mark {m : Modifier} (h : m.rollsAgain = false) :
    m.Spares fun d => d.triggered && d.bonus.isEmpty := by
  cases m with
  -- The modifier that could bring the mark out is excluded.
  | reroll => cases h
  | explode => exact fun d marked => (Bool.and_eq_true_iff.1 marked).1
  | explodeCombine =>
    intro d added
    unfold Die.gain
    split
    · exact id
    · next some =>
      intro marked
      simp_all
  | keep | drop => exact fun d => id

/-- Among the dice that were never rolled again, no modifier brings out the mark other than by an
explosion. -/
theorem spares_mark_of_single (m : Modifier) :
    m.Spares fun d => d.triggered && d.bonus.isEmpty && !d.rerolled := by
  cases m with
  | reroll =>
    intro d shown
    unfold Die.rollAgain
    split
    · exact id
    · simp
  | explode => exact fun d marked => (Bool.and_eq_true_iff.1 (Bool.and_eq_true_iff.1 marked).1).1
  | explodeCombine =>
    intro d added
    unfold Die.gain
    split
    · exact id
    · simp_all
  | keep | drop => exact fun d => id

end Modifier

/-! ## Rolled groups

What remains is to start with fresh dice, and to see that marking matches changes none of the
properties. -/

namespace RollGroup

variable {context : RollContext}

/-- Modifiers that spare a property are balanced for it together. -/
theorem balanced_applyAll {modifiers : List Modifier} (spares : ∀ m ∈ modifiers, m.Spares p)
    (g : RollGroup) :
    Evaluation.Ensures .any (applyAll context modifiers g) fun r => Balanced p g.dice r.dice := by
  induction modifiers generalizing g with
  | nil => exact Evaluation.ensures_pure (.refl g.dice)
  | cons m modifiers ih =>
    obtain ⟨first, others⟩ := List.forall_mem_cons.1 spares
    refine (Evaluation.ensures_of_counted (Modifier.balanced_apply first g)).bind ?_
    rintro ⟨g', refusal⟩ balanced
    cases refusal with
    | some e => exact Evaluation.ensures_throw
    | none => exact (ih others g').mono fun r => balanced.trans

theorem applyAll_append (ms ns : List Modifier) (g : RollGroup) :
    applyAll context (ms ++ ns) g = applyAll context ms g >>= applyAll context ns := by
  induction ms generalizing g with
  | nil => exact (pure_bind g (applyAll context ns)).symm
  | cons m ms ih =>
    rw [List.cons_append, applyAll, applyAll, bind_assoc]
    refine congrArg _ (funext fun r => ?_)
    obtain ⟨g', refusal⟩ := r
    cases refusal with
    | some e => rfl
    | none => exact ih g'

/-! ### Two parts of a list of modifiers

The list is cut where values are added for the first time.  Up to there one of the two properties is
spared, and from there on the other. -/

/-- Modifiers of which none rolls dice again after another has added values to some: those before
the first that adds values, and those from it on.  The induction stops at the first modifier that
adds values, and then the order says all about the rest. -/
theorem exists_split {modifiers : List Modifier}
    (order : modifiers.Pairwise fun m next => m.addsValues = true → next.rollsAgain = false) :
    ∃ early late, modifiers = early ++ late ∧ (∀ m ∈ early, m.addsValues = false) ∧
      ∀ m ∈ late, m.rollsAgain = false := by
  induction modifiers with
  | nil => exact ⟨[], [], rfl, List.forall_mem_nil _, List.forall_mem_nil _⟩
  | cons m modifiers ih =>
    obtain ⟨after, order⟩ := List.pairwise_cons.1 order
    cases adds : m.addsValues with
    | true =>
      refine ⟨[], m :: modifiers, rfl, List.forall_mem_nil _, ?_⟩
      refine List.forall_mem_cons.2 ⟨?_, fun next mem => after next mem adds⟩
      cases m with
      | explodeCombine => rfl
      | reroll | explode | keep | drop => cases adds
    | false =>
      obtain ⟨early, late, rfl, none, single⟩ := ih order
      exact ⟨m :: early, late, rfl, List.forall_mem_cons.2 ⟨adds, none⟩, single⟩

/-- A property that is not about matches, and that holds after the modifiers of at most as many dice
as were added by explosions, still does so when the group is rolled. -/
theorem ensures_roll_of_applyAll {group : DiceGroup}
    (unmarked : ∀ d matched, p { d with matched } = p d)
    (few : ∀ g : RollGroup, g.dice.countP (·.triggered) = 0 →
      Evaluation.Ensures .any (applyAll context group.modifiers g) fun r =>
        r.dice.countP p ≤ r.dice.countP (·.exploded)) :
    Evaluation.Ensures .any (roll context group) fun g =>
      g.dice.countP p ≤ g.dice.countP (·.exploded) := by
  refine (Evaluation.ensures_of_forall fun _ => trivial).bind fun shown _ => ?_
  refine (few _ ?_).bind fun g few => Evaluation.ensures_pure ?_
  · rw [List.countP_eq_zero, List.forall_mem_map]
    exact fun face _ => Bool.false_ne_true
  · obtain ⟨mark, eq⟩ := exists_markMatches_eq g context.policy
    rw [eq, List.countP_map, List.countP_map]
    have same : p ∘ (fun d => { d with matched := mark d }) = p := funext fun d => unmarked d _
    rwa [same]

/-- The dice of a group that were rolled once and have the mark. -/
theorem ensures_single_marks {group : DiceGroup} :
    Evaluation.Ensures .any (roll context group) fun g =>
      g.dice.countP (fun d => d.triggered && d.bonus.isEmpty && !d.rerolled) ≤
        g.dice.countP (·.exploded) := by
  refine ensures_roll_of_applyAll (fun _ _ => rfl) fun g quiet => ?_
  refine (balanced_applyAll (fun m _ => m.spares_mark_of_single) g).mono fun r balanced => ?_
  refine balanced.countP_le (Nat.le_zero.1 (quiet ▸ List.countP_mono_left fun d _ marked => ?_))
  exact (Bool.and_eq_true_iff.1 (Bool.and_eq_true_iff.1 marked).1).1

/-- All dice of a group that have the mark, if none is rolled again behind a modifier that adds
values: no more dice are flagged than were added when the first such modifier comes, and from then
on the mark does not come out by itself. -/
theorem ensures_marks {group : DiceGroup}
    (order : group.modifiers.Pairwise fun m next => m.addsValues = true → next.rollsAgain = false) :
    Evaluation.Ensures .any (roll context group) fun g =>
      g.dice.countP (fun d => d.triggered && d.bonus.isEmpty) ≤ g.dice.countP (·.exploded) := by
  refine ensures_roll_of_applyAll (fun _ _ => rfl) fun g quiet => ?_
  obtain ⟨early, late, eq, none, single⟩ := exists_split order
  rw [eq, applyAll_append]
  refine (balanced_applyAll (fun m mem => Modifier.spares_triggered (none m mem)) g).bind
    fun between first => ?_
  refine (balanced_applyAll (fun m mem => Modifier.spares_mark (single m mem)) between).mono
    fun r second => ?_
  -- Early modifiers spare the flag, and who has the mark has the flag; late ones spare the mark.
  have flagged := first.countP_le quiet
  have marked : between.dice.countP (fun d => d.triggered && d.bonus.isEmpty) ≤
      between.dice.countP (·.triggered) :=
    List.countP_mono_left fun d _ marked => (Bool.and_eq_true_iff.1 marked).1
  unfold Balanced at second
  omega

/-- **How many dice can be shown to have exploded.**  Whatever is rolled, a die is shown with a mark
exactly if it is flagged as having made an explosion happen and nothing is added to it.  Among the
dice that were rolled once, at most as many have the mark as dice were added by explosions.  If no
modifier rolls dice again behind one that adds values to them, this holds of all dice of the
group. -/
theorem countP_showsMark_le (context : RollContext) (group : DiceGroup) (counted : Nat) {ρ : Type}
    [Roller ρ] (roller : ρ) {g : RollGroup}
    (rolled : (((roll context group).run.run counted).run roller).1.1 = .ok g) :
    (∀ d ∈ g.dice, d.showsMark = (d.triggered && d.bonus.isEmpty)) ∧
    g.dice.countP (fun d => d.triggered && d.bonus.isEmpty && !d.rerolled) ≤
      g.dice.countP (·.exploded) ∧
    ((group.modifiers.Pairwise fun m next => m.addsValues = true → next.rollsAgain = false) →
      g.dice.countP (fun d => d.triggered && d.bonus.isEmpty) ≤ g.dice.countP (·.exploded)) := by
  refine ⟨fun d _ => d.showsMark_eq, ?_, fun order => ?_⟩
  · exact (ensures_single_marks counted).run (Answers.admit_any ρ) roller g rolled
  · exact (ensures_marks order counted).run (Answers.admit_any ρ) roller g rolled

/-- Two dice, of which the first is rolled again and explodes with a die that is added, while a
value is added to the second. -/
theorem countP_showsMark_le_two_dice :
    let six : Faces := ⟨6, by decide⟩
    let group : DiceGroup :=
      ⟨2, six, [], [.reroll 1 [], .explode 1 [⟨.eq, 5⟩], .explodeCombine 1 []], "2d6r!=5!!"⟩
    let roller := SequenceRoller.ofList [1, 6, 5, 2, 4]
    let dice : List Die :=
      [{ faces := six, earlier := [1], face := 5, rerolled := true, triggered := true },
        { faces := six, face := 6, bonus := [4], triggered := true },
        { faces := six, face := 2, exploded := true }]
    (((roll (.ofSettings {}) group).run.run 0).run roller).1.1 = .ok ⟨"2d6r!=5!!", 2, six, [], dice⟩ ∧
      (∀ d ∈ dice, d.showsMark = (d.triggered && d.bonus.isEmpty)) ∧
      dice.countP (fun d => d.triggered && d.bonus.isEmpty && !d.rerolled) ≤
        dice.countP (·.exploded) ∧
      dice.countP (fun d => d.triggered && d.bonus.isEmpty) ≤ dice.countP (·.exploded) := by
  intro six group roller dice
  have rolled : (((roll (.ofSettings {}) group).run.run 0).run roller).1.1 =
      .ok ⟨"2d6r!=5!!", 2, six, [], dice⟩ := by cbv
  obtain ⟨marks, single, all⟩ := countP_showsMark_le _ _ _ roller rolled
  exact ⟨rolled, marks, single, all (by decide)⟩

/-- A six to which an explosion adds a three is rolled again: the three goes, and the four that is
shown instead has a mark, though no die was added. -/
theorem countP_showsMark_gt :
    let six : Faces := ⟨6, by decide⟩
    let group : DiceGroup :=
      ⟨1, six, [], [.explodeCombine 1 [], .reroll 1 [⟨.ge, 1⟩]], "1d6!!r>=1"⟩
    let roller := SequenceRoller.ofList [6, 3, 4]
    let d : Die := { faces := six, earlier := [6], face := 4, rerolled := true, triggered := true }
    (((roll (.ofSettings {}) group).run.run 0).run roller).1.1 = .ok ⟨"1d6!!r>=1", 1, six, [], [d]⟩ ∧
      d.history = "6 -> 4!" ∧
      [d].countP (·.exploded) < [d].countP (fun d => d.triggered && d.bonus.isEmpty) := by
  intro six group roller d
  exact ⟨by cbv, by cbv, by decide⟩

end RollGroup

end Tabletop
