import Tabletop.Dice.RollResult
import Tabletop.Proofs.Dice.Step
import Tabletop.Proofs.Except

/-!
# Rolled trees and their expressions

Rolling an expression replaces each group by its dice and leaves everything else in place.
`Expr.Rolled` compares an expression with a rolled tree in this way, node by node; what the dice may
show is a parameter.

* `Expr.ensures_roll` — a tree that is rolled from an expression compares with it;
* `Expr.Rolled.groups` — the groups of the tree are those of the expression, in the same order;
* `Expr.rolled_iff` — an expression and a tree compare if they do apart from their groups, and the
  groups do one by one.

The comparison is inductive on both sides at once.  This is what makes results that are read back
from a store tractable: their trees are not rolled from anything, and whether they could have been
is a question about two trees, which `Expr.rolled_iff` takes apart into their outlines and their
groups.
-/

namespace Tabletop

open List (Forall₂)

variable {may : Answers} {shows : Faces → UInt32 → Prop}

/-- A face that a die with the given faces has. -/
def Faces.Has (faces : Faces) (face : UInt32) : Prop :=
  1 ≤ face ∧ face ≤ faces.count

namespace Die

/-- Every value of a die, from rolls and from explosions. -/
def values (d : Die) : List UInt32 :=
  d.rolls ++ d.bonus

/-- Rolling again adds to the faces that the die has shown. -/
theorem rolls_rollAgain (d : Die) (shown : List UInt32) :
    (d.rollAgain shown).rolls = d.rolls ++ shown := by
  unfold rollAgain
  split
  · next none =>
    rw [List.getLast?_eq_none_iff.1 none, List.append_nil]
  · next last isLast =>
    obtain ⟨front, rfl⟩ := List.getLast?_eq_some_iff.1 isLast
    simp only [rolls, List.dropLast_concat, List.append_assoc, List.cons_append, List.nil_append]

/-- Rolling again takes away what was added, or leaves it. -/
theorem bonus_rollAgain_subset (d : Die) (shown : List UInt32) :
    (d.rollAgain shown).bonus ⊆ d.bonus := by
  unfold rollAgain
  split
  · exact List.Subset.refl _
  · exact List.nil_subset _

theorem rolls_gain (d : Die) (added : List UInt32) : (d.gain added).rolls = d.rolls := by
  unfold gain
  split <;> rfl

theorem bonus_gain (d : Die) (added : List UInt32) : (d.gain added).bonus = d.bonus ++ added := by
  unfold gain
  split
  · next empty => rw [List.isEmpty_iff.1 empty, List.append_nil]
  · rfl

/-- The values of a die after a step are values it had before and values that were rolled.  The
cases are the steps; only two of them bring new values. -/
theorem Step.forall_mem_values {faces : Faces} {d d' : Die} (h : Step may faces d d')
    (before : ∀ v ∈ d.values, may.Shows faces v) : ∀ v ∈ d'.values, may.Shows faces v := by
  unfold values at before ⊢
  rw [List.forall_mem_append] at before ⊢
  cases h with
  | same | drop | trigger => exact before
  | again _ rolled =>
    rw [rolls_rollAgain, List.forall_mem_append]
    exact ⟨⟨before.1, rolled⟩, fun v mem => before.2 v (bonus_rollAgain_subset d _ mem)⟩
  | gain _ rolled =>
    rw [rolls_gain, bonus_gain, List.forall_mem_append]
    exact ⟨before.1, before.2, rolled⟩

end Die

/-! ### Groups that were rolled for groups

What is kept of the notation in a rolled group, and what its dice show. -/

/-- Dice that could be rolled for a group of an expression, apart from the text of the group. -/
structure DiceGroup.Agrees (shows : Faces → UInt32 → Prop) (group : DiceGroup) (g : RollGroup) :
    Prop where
  count : g.count = group.count
  faces : g.faces = group.faces
  conditionals : g.conditionals = group.conditionals
  values : ∀ d ∈ g.dice, ∀ v ∈ d.values, shows group.faces v

/-- Dice that could be rolled for a group of an expression. -/
structure DiceGroup.Fits (shows : Faces → UInt32 → Prop) (group : DiceGroup) (g : RollGroup) : Prop
    extends group.Agrees shows g where
  written : g.written = group.written

/-- A rolled group fits the group it was rolled for. -/
theorem RollGroup.ensures_roll_fits {context : RollContext} (group : DiceGroup) :
    Evaluation.Ensures may (RollGroup.roll context group) (group.Fits may.Shows) := by
  refine (RollGroup.ensures_roll group).mono ?_
  rintro _ ⟨dice, gathered, rfl⟩
  obtain ⟨mark, eq⟩ := RollGroup.exists_markMatches_eq
    { written := group.written, count := group.count, faces := group.faces,
      conditionals := group.conditionals, dice } context.policy
  rw [eq]
  refine ⟨⟨rfl, rfl, rfl, ?_⟩, rfl⟩
  -- Marking does not touch the values, so they are those of the gathered dice.
  have shown : ∀ d ∈ dice, ∀ v ∈ d.values, may.Shows group.faces v := by
    refine gathered.forall_mem ?_ ?_ Die.Step.forall_mem_values
    · rintro _ ⟨face, shown, rfl⟩
      exact List.forall_mem_singleton.2 shown
    · rintro _ ⟨face, triggered, shown, rfl⟩
      exact List.forall_mem_singleton.2 shown
  rw [List.forall_mem_map]
  exact shown

namespace Expr

/-- A rolled tree compares with an expression: the same numbers, operators and parentheses in the
same places, and for each group of dice one that fits. -/
inductive Rolled (shows : Faces → UInt32 → Prop) : Expr → RollTree → Prop
  | literal {x : Number} : Rolled shows (.literal x) (.literal x)
  | dice {group : DiceGroup} {g : RollGroup} (fits : group.Fits shows g) :
      Rolled shows (.dice group) (.dice g)
  | stunt {written : String} {regular : UInt32 × UInt32} {stunt : UInt32} :
      Rolled shows (.stunt written) (.stunt ⟨written, regular, stunt⟩)
  | grouping {e : Expr} {t : RollTree} (inner : Rolled shows e t) :
      Rolled shows (.grouping e) (.grouping t)
  | negate {e : Expr} {t : RollTree} (inner : Rolled shows e t) :
      Rolled shows (.negate e) (.negate t)
  | binary {a b : Expr} {s t : RollTree} {op : BinaryOperator} (left : Rolled shows a s)
      (right : Rolled shows b t) : Rolled shows (.binary a op b) (.binary s op t)

/-- **Rolling keeps the expression.**  A tree rolled from an expression compares with it, and its
dice show what the answers allow. -/
theorem ensures_roll {context : RollContext} (e : Expr) :
    Evaluation.Ensures may (e.roll context) (e.Rolled may.Shows) := by
  induction e with
  | literal x => exact Evaluation.ensures_pure .literal
  | dice group =>
    refine (RollGroup.ensures_roll_fits group).bind fun g fits => ?_
    exact Evaluation.ensures_pure (.dice fits)
  -- The three dice of a stunt may show anything; a stunt is compared by its text.
  | stunt written =>
    have one : Evaluation.Ensures may (context.rollOne context.stuntFaces) _ :=
      context.ensures_rollOne context.stuntFaces
    refine one.bind fun _ _ => one.bind fun _ _ => one.bind fun _ _ => ?_
    exact Evaluation.ensures_pure .stunt
  | grouping e ih => exact ih.bind fun t inner => Evaluation.ensures_pure (.grouping inner)
  | negate e ih => exact ih.bind fun t inner => Evaluation.ensures_pure (.negate inner)
  | binary a op b ihLeft ihRight =>
    refine ihLeft.bind fun s left => ihRight.bind fun t right => ?_
    exact Evaluation.ensures_pure (.binary left right)

theorem Rolled.mono {weaker : Faces → UInt32 → Prop}
    (implied : ∀ faces v, shows faces v → weaker faces v) {e : Expr} {t : RollTree}
    (h : e.Rolled shows t) : e.Rolled weaker t := by
  induction h with
  | literal => exact .literal
  | dice fits =>
    exact .dice { fits with values := fun d mem v value => implied _ v (fits.values d mem v value) }
  | stunt => exact .stunt
  | grouping _ ih => exact .grouping ih
  | negate _ ih => exact .negate ih
  | binary _ _ ihLeft ihRight => exact .binary ihLeft ihRight

/-! ## Groups

The groups of both sides, from left to right. -/

/-- The groups of a rolled tree are those of the expression, in the same order. -/
theorem Rolled.groups {e : Expr} {t : RollTree} (h : e.Rolled shows t) :
    Forall₂ (DiceGroup.Fits shows) e.groups t.groups := by
  induction h with
  | literal => exact .nil
  | dice fits => exact .cons fits .nil
  | stunt => exact .nil
  | grouping _ ih => exact ih
  | negate _ ih => exact ih
  | binary _ _ ihLeft ihRight => exact List.rel_append ihLeft ihRight

/-- The texts of the groups, which are what results are recognised by. -/
theorem Rolled.groups_written {e : Expr} {t : RollTree} (h : e.Rolled shows t) :
    e.groups.map (·.written) = t.groups.map (·.written) := by
  have same : Forall₂ (· = ·) (e.groups.map (·.written)) (t.groups.map (·.written)) :=
    List.forall₂_map_left_iff.2 <| List.forall₂_map_right_iff.2 <|
      h.groups.imp fun _ _ fits => fits.written.symm
  rwa [List.forall₂_eq_eq_eq] at same

/-- An expression and a tree that compare apart from their groups of dice. -/
inductive SameOutline : Expr → RollTree → Prop
  | literal {x : Number} : SameOutline (.literal x) (.literal x)
  | dice {group : DiceGroup} {g : RollGroup} : SameOutline (.dice group) (.dice g)
  | stunt {written : String} {regular : UInt32 × UInt32} {stunt : UInt32} :
      SameOutline (.stunt written) (.stunt ⟨written, regular, stunt⟩)
  | grouping {e : Expr} {t : RollTree} (inner : SameOutline e t) :
      SameOutline (.grouping e) (.grouping t)
  | negate {e : Expr} {t : RollTree} (inner : SameOutline e t) :
      SameOutline (.negate e) (.negate t)
  | binary {a b : Expr} {s t : RollTree} {op : BinaryOperator} (left : SameOutline a s)
      (right : SameOutline b t) : SameOutline (.binary a op b) (.binary s op t)

theorem Rolled.sameOutline {e : Expr} {t : RollTree} (h : e.Rolled shows t) : e.SameOutline t := by
  induction h with
  | literal => exact .literal
  | dice _ => exact .dice
  | stunt => exact .stunt
  | grouping _ ih => exact .grouping ih
  | negate _ ih => exact .negate ih
  | binary _ _ ihLeft ihRight => exact .binary ihLeft ihRight

/-- Trees of the same outline have the same number of groups. -/
theorem SameOutline.length_groups {e : Expr} {t : RollTree} (h : e.SameOutline t) :
    e.groups.length = t.groups.length := by
  induction h with
  | literal | dice | stunt => rfl
  | grouping _ ih | negate _ ih => exact ih
  | binary _ _ ihLeft ihRight =>
    rw [Expr.groups, RollTree.groups, List.length_append, List.length_append, ihLeft, ihRight]

/-- A tree compares with an expression exactly if it does apart from the groups, and the groups fit
one by one.  The two sides have as many groups, so those of an operand can be told apart. -/
theorem rolled_iff {e : Expr} {t : RollTree} :
    e.Rolled shows t ↔
      e.SameOutline t ∧ Forall₂ (DiceGroup.Fits shows) e.groups t.groups := by
  refine ⟨fun h => ⟨h.sameOutline, h.groups⟩, ?_⟩
  rintro ⟨outline, fits⟩
  induction outline with
  | literal => exact .literal
  | dice =>
    cases fits with
    | cons fits _ => exact .dice fits
  | stunt => exact .stunt
  | grouping _ ih => exact .grouping (ih fits)
  | negate _ ih => exact .negate (ih fits)
  | @binary a b s t op left right ihLeft ihRight =>
    have first := List.forall₂_take a.groups.length fits
    have second := List.forall₂_drop a.groups.length fits
    -- The groups of the left operands come first on both sides, and there are as many of them.
    have length := left.length_groups.symm
    rw [Expr.groups, RollTree.groups, List.take_left, List.take_left' length] at first
    rw [Expr.groups, RollTree.groups, List.drop_left, List.drop_left' length] at second
    exact .binary (ihLeft first) (ihRight second)

end Expr

/-- Groups that agree fit if they have the same texts. -/
theorem DiceGroup.fits_of_agrees {groups : List DiceGroup} {rolled : List RollGroup}
    (texts : rolled.map (·.written) = groups.map (·.written))
    (agree : Forall₂ (Agrees shows) groups rolled) : Forall₂ (Fits shows) groups rolled := by
  have same : Forall₂ (· = ·) (groups.map (·.written)) (rolled.map (·.written)) := by
    rw [List.forall₂_eq_eq_eq, texts]
  rw [List.forall₂_map_left_iff, List.forall₂_map_right_iff] at same
  exact same.mp (fun _ _ written agrees => ⟨agrees, written.symm⟩) agree

/-! ## Results

A result is its tree, with everything else computed from it. -/

/-- A result is made of a tree that has a total, and there is only one way to make it. -/
theorem RollResult.ofTree_eq_ok_iff {written : String} {tree : RollTree} {r : RollResult} :
    ofTree written tree = .ok r ↔
      ∃ total, tree.total = .ok total ∧
        r = { written, total, display := Breakdown.markdown.tree tree, tree } := by
  unfold ofTree
  rw [Except.bind_eq_ok_iff]
  refine exists_congr fun total => and_congr_right fun _ => ?_
  exact ⟨fun eq => (Except.ok.inj eq).symm, fun eq => congrArg Except.ok eq.symm⟩

/-- A rolled result has a tree that compares with the expression, and everything else in it is
computed from this tree. -/
theorem Expression.ensures_roll {context : RollContext} (e : Expression) :
    Evaluation.Ensures may (e.roll context) fun r =>
      e.root.Rolled may.Shows r.tree ∧ RollResult.ofTree e.written r.tree = .ok r := by
  refine (Expr.ensures_roll e.root).bind fun tree rolled => ?_
  intro n r value
  obtain ⟨total, -, rfl⟩ := RollResult.ofTree_eq_ok_iff.1 value
  exact ⟨rolled, value⟩

end Tabletop
