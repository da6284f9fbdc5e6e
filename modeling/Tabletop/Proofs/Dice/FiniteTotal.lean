import Mathlib
import Tabletop.Proofs.Dice.ExactTotal
import Tabletop.Proofs.Dice.Rolled
import Tabletop.Proofs.Dice.Stored
import Tabletop.Proofs.Number.Finite

/-!
# Finite totals

Of the nodes of a tree only operations can fail, and one fails if both of its sides have a total and
the result for these two is not finite.  An operation above it has no totals to work on and does not
fail by itself.  So of several operations that fail the one is reported that comes first when the
sides of an operation come before it and the left side before the right; `RollTree.postorder` is
this order.  If no operation fails, nothing but finite numbers have come up on the way, and the
total is one of them.

* `RollTree.Overflows` — an operation fails by itself, and on which numbers;
* `RollTree.findSome?_postorder` — the order in which a total is computed is the order of the nodes;
* `RollTree.isFinite_total` — what comes out is finite if what goes in is;
* `RollTree.total_eq_error_iff` — when and how totals fail.

How the proof goes.  The computation of a total stops at the first error it meets, and it meets the
nodes in post-order.  So the error of a tree is found by `findSome?` over its nodes, where a node
contributes the error that it has by itself (`overflow?`).  That an operation above a failing one
has none of its own is part of the definition of `Overflows`, and this is what makes the order of
the whole list the order of the computation.
-/

namespace Tabletop

/-- A group whose dice fit a word has a finite total. -/
theorem RollGroup.isFinite_total {g : RollGroup}
    (fits : g.countsSuccesses = false → (g.live.map Die.pips).sum < 2 ^ 63) :
    g.total.isFinite = true := by
  cases counts : g.countsSuccesses with
  | true =>
    rw [total, if_pos counts]
    rfl
  | false =>
    have exact : g.exactTotal < 2 ^ 63 := by
      rw [exactTotal, counts, if_neg Bool.false_ne_true]
      exact fits counts
    obtain ⟨n, eq, -⟩ := is_total exact
    rw [eq]
    rfl

namespace RollTree

/-! ## Overflows in order

The program totals the left tree first, then the right one, then the operation, so the first error
is the first in this order. -/

/-- A tree and all that it is made of: the parts before the whole, and the left before the right. -/
def postorder : RollTree → List RollTree
  | t@(literal _) | t@(dice _) | t@(stunt _) => [t]
  | t@(grouping inner) | t@(negate inner) => inner.postorder ++ [t]
  | t@(binary left _ right) => left.postorder ++ right.postorder ++ [t]

/-- The tree is an operation both of whose sides have a total, and the result for these totals is
infinite or undefined. -/
inductive Overflows : RollTree → Number → BinaryOperator → Number → Prop
  | binary {left right : RollTree} {a b : Number} {op : BinaryOperator} (onLeft : left.total = .ok a)
      (onRight : right.total = .ok b) (infinite : (a.apply op b).isFinite = false) :
      Overflows (.binary left op right) a op b

theorem total_binary {left right : RollTree} {a b : Number} {op : BinaryOperator}
    (onLeft : left.total = .ok a) (onRight : right.total = .ok b) :
    (binary left op right).total =
      if (a.apply op b).isFinite then .ok (a.apply op b) else .error (.nonFinite a op b) := by
  rw [total, onLeft, onRight]
  rfl

/-- The error of an operation that fails by itself. -/
def overflow? : RollTree → Option EvaluationError
  | binary left op right =>
    match left.total, right.total with
    | .ok a, .ok b => if (a.apply op b).isFinite then none else some (.nonFinite a op b)
    | _, _ => none
  | _ => none

theorem overflow?_eq_some_iff {t : RollTree} {e : EvaluationError} :
    t.overflow? = some e ↔ ∃ a op b, t.Overflows a op b ∧ e = .nonFinite a op b := by
  constructor
  · intro h
    unfold overflow? at h
    split at h
    · next left op right =>
      split at h
      · next a b onLeft onRight =>
        obtain ⟨infinite, eq⟩ := Option.ite_none_left_eq_some.1 h
        exact ⟨a, op, b, .binary onLeft onRight (Bool.not_eq_true _ ▸ infinite),
          (Option.some.inj eq).symm⟩
      · cases h
    · cases h
  · rintro ⟨a, op, b, ⟨onLeft, onRight, infinite⟩, rfl⟩
    rw [overflow?, onLeft, onRight]
    dsimp only
    rw [if_neg (Bool.not_eq_true _ ▸ infinite)]

/-- A node has no error of its own if it does not fail by itself. -/
theorem overflow?_eq_none_iff {t : RollTree} :
    t.overflow? = none ↔ ∀ a op b, ¬ t.Overflows a op b := by
  rw [Option.eq_none_iff_forall_not_mem]
  constructor
  · exact fun none a op b overflows => none _ (overflow?_eq_some_iff.2 ⟨a, op, b, overflows, rfl⟩)
  · rintro none e error
    obtain ⟨a, op, b, overflows, -⟩ := overflow?_eq_some_iff.1 error
    exact none a op b overflows

/-- The error with which the total of a tree fails. -/
def totalError? (t : RollTree) : Option EvaluationError :=
  match t.total with
  | .ok _ => none
  | .error e => some e

theorem totalError?_eq_some_iff {t : RollTree} {e : EvaluationError} :
    t.totalError? = some e ↔ t.total = .error e := by
  unfold totalError?
  cases t.total with
  | ok n => exact ⟨nofun, nofun⟩
  | error e' =>
    exact ⟨fun eq => congrArg _ (Option.some.inj eq), fun eq => congrArg _ (Except.error.inj eq)⟩

theorem totalError?_negate (inner : RollTree) : (negate inner).totalError? = inner.totalError? := by
  unfold totalError?
  rw [total]
  cases inner.total <;> rfl

/-- The left side is looked at before the right side, and both before the operation itself. -/
theorem totalError?_binary (left : RollTree) (op : BinaryOperator) (right : RollTree) :
    (binary left op right).totalError? =
      (left.totalError?.or right.totalError?).or (binary left op right).overflow? := by
  unfold totalError?
  cases onLeft : left.total with
  -- The right side is not computed if the left one fails.
  | error e =>
    rw [total, onLeft]
    rfl
  | ok a =>
    cases onRight : right.total with
    | error e =>
      rw [total, onLeft, onRight]
      rfl
    | ok b =>
      rw [total_binary onLeft onRight, overflow?, onLeft, onRight]
      dsimp only
      cases (a.apply op b).isFinite <;> rfl

/-- **The total fails as the first operation does that fails by itself.** The induction is on the
tree; the list of a node is that of its parts with the node behind them. -/
theorem findSome?_postorder (t : RollTree) : t.postorder.findSome? overflow? = t.totalError? := by
  induction t with
  | literal | dice | stunt => rfl
  | grouping inner ih =>
    rw [postorder, List.findSome?_append, ih]
    exact Option.or_none
  | negate inner ih =>
    rw [postorder, List.findSome?_append, ih, totalError?_negate]
    exact Option.or_none
  | binary left op right ihLeft ihRight =>
    rw [postorder, List.findSome?_append, List.findSome?_append, ihLeft, ihRight,
      totalError?_binary, List.findSome?_singleton]

/-! ## What comes out -/

/-- Finite literals and dice that fit a word make a finite total, if they make one at all. -/
theorem isFinite_total {t : RollTree} (literals : ∀ n ∈ t.numbers, n.isFinite = true)
    (sums : ∀ g ∈ t.groups, g.countsSuccesses = false → (g.live.map Die.pips).sum < 2 ^ 63)
    {n : Number} (value : t.total = .ok n) : n.isFinite = true := by
  induction t generalizing n with
  | literal x =>
    cases value
    exact literals x List.mem_cons_self
  | dice group =>
    cases value
    exact group.isFinite_total (sums group List.mem_cons_self)
  | stunt roll =>
    cases value
    rfl
  | grouping inner ih => exact ih literals sums value
  | negate inner ih =>
    obtain ⟨a, onInner, eq⟩ := Except.bind_eq_ok_iff.1 value
    cases eq
    exact Number.isFinite_neg (ih literals sums onInner)
  | binary left op right ihLeft ihRight =>
    -- An operation looks at its result itself, so nothing has to be known about its sides.
    obtain ⟨a, onLeft, rest⟩ := Except.bind_eq_ok_iff.1 value
    obtain ⟨b, onRight, -⟩ := Except.bind_eq_ok_iff.1 rest
    rw [total_binary onLeft onRight] at value
    split at value
    · next finite =>
      cases value
      exact finite
    · cases value

/-! ## What is reported -/

/-- The first operation that fails by itself, with the parts of a tree before the whole and the left
before the right. -/
def FirstOverflow (t : RollTree) (a : Number) (op : BinaryOperator) (b : Number) : Prop :=
  ∃ before s after, t.postorder = before ++ s :: after ∧
    (∀ r ∈ before, ∀ a op b, ¬ r.Overflows a op b) ∧ s.Overflows a op b

/-- A total fails with the error of the first operation that fails by itself. -/
theorem total_eq_error_iff {t : RollTree} {e : EvaluationError} :
    t.total = .error e ↔ ∃ a op b, t.FirstOverflow a op b ∧ e = .nonFinite a op b := by
  rw [← totalError?_eq_some_iff, ← findSome?_postorder, List.findSome?_eq_some_iff]
  constructor
  · rintro ⟨before, s, after, order, error, none⟩
    obtain ⟨a, op, b, overflows, eq⟩ := overflow?_eq_some_iff.1 error
    exact ⟨a, op, b, ⟨before, s, after, order, fun r mem => overflow?_eq_none_iff.1 (none r mem),
      overflows⟩, eq⟩
  · rintro ⟨a, op, b, ⟨before, s, after, order, none, overflows⟩, eq⟩
    exact ⟨before, s, after, order, overflow?_eq_some_iff.2 ⟨a, op, b, overflows, eq⟩,
      fun r mem => overflow?_eq_none_iff.2 (none r mem)⟩

/-- A total is computed unless some operation fails by itself. -/
theorem exists_total_iff {t : RollTree} :
    (∃ n, t.total = .ok n) ↔ ∀ s ∈ t.postorder, ∀ a op b, ¬ s.Overflows a op b := by
  have computed : (∃ n, t.total = .ok n) ↔ t.totalError? = none := by
    unfold totalError?
    cases t.total with
    | ok n => exact ⟨fun _ => rfl, fun _ => ⟨n, rfl⟩⟩
    | error e => exact ⟨fun ⟨_, eq⟩ => (nomatch eq), nofun⟩
  rw [computed, ← findSome?_postorder, List.findSome?_eq_none_iff]
  exact forall₂_congr fun s _ => overflow?_eq_none_iff

/-- **Totals are finite or refused.**  Let the literals of a tree be finite and the sum of each of
its groups fit a word.  Its total fails exactly if an operation somewhere in it has a total on both
sides and no finite result for them.  The error names the two numbers and the operator of the first
such operation, the parts before the whole and the left before the right.  Otherwise the total is a
finite number, and so is that of every result. -/
theorem total_isFinite_or_overflows {t : RollTree} (literals : ∀ n ∈ t.numbers, n.isFinite = true)
    (sums : ∀ g ∈ t.groups, g.countsSuccesses = false → (g.live.map Die.pips).sum < 2 ^ 63) :
    ((∃ e, t.total = .error e) ↔ ∃ s ∈ t.postorder, ∃ a op b, s.Overflows a op b) ∧
    (∀ e, t.total = .error e ↔ ∃ a op b, t.FirstOverflow a op b ∧ e = .nonFinite a op b) ∧
    ((∀ s ∈ t.postorder, ∀ a op b, ¬ s.Overflows a op b) →
      ∃ n, t.total = .ok n ∧ n.isFinite = true) ∧
    ∀ written r, RollResult.ofTree written t = .ok r → r.total.isFinite = true := by
  have fails : (∃ e, t.total = .error e) ↔ ¬ ∃ n, t.total = .ok n := by
    cases t.total with
    | ok n => exact ⟨fun ⟨_, eq⟩ => (nomatch eq), fun none => absurd ⟨n, rfl⟩ none⟩
    | error e => exact ⟨fun _ ⟨_, eq⟩ => (nomatch eq), fun _ => ⟨e, rfl⟩⟩
  refine ⟨?_, fun e => total_eq_error_iff, fun none => ?_, fun written r result => ?_⟩
  · rw [fails, exists_total_iff]
    push Not
    rfl
  · obtain ⟨n, value⟩ := exists_total_iff.2 none
    exact ⟨n, value, isFinite_total literals sums value⟩
  · obtain ⟨n, value, rfl⟩ := RollResult.ofTree_eq_ok_iff.1 result
    exact isFinite_total literals sums value

/-- Of two quotients by zero the left one is reported, and neither what lies above them nor the
finite number on their left. -/
theorem total_isFinite_or_overflows_two_quotients :
    let six : Faces := ⟨6, by decide⟩
    let dice : List Die := [{ faces := six, face := 3 }, { faces := six, face := 4 }]
    let group : RollGroup := ⟨"2d6", 2, six, [], dice⟩
    let zero : RollTree := .literal (.int 0)
    let half : RollTree := .binary (.dice group) .mul (.literal (.float 0.5))
    let opposite : RollTree := .negate (.grouping half)
    let quotient : RollTree := .binary (.dice group) .div zero
    let t : RollTree := .binary opposite .add (.binary quotient .sub (.binary zero .div zero))
    (∀ n ∈ t.numbers, n.isFinite = true) ∧
      (∀ g ∈ t.groups, g.countsSuccesses = false → (g.live.map Die.pips).sum < 2 ^ 63) ∧
      t.total = .error (.nonFinite (.int 7) .div (.int 0)) ∧
      ∃ n, opposite.total = .ok n ∧ n.isFinite = true := by
  intro six dice group zero half opposite quotient t
  have literals : ∀ n ∈ t.numbers, n.isFinite = true := by decide +kernel
  have sums : ∀ g ∈ t.groups,
      g.countsSuccesses = false → (g.live.map Die.pips).sum < 2 ^ 63 := by decide
  have seven : (RollTree.dice group).total = .ok (.int 7) := by decide
  have infinite : (Number.apply .div (.int 7) (.int 0)).isFinite = false := by decide +kernel
  have overflows : quotient.Overflows (.int 7) .div (.int 0) := .binary seven rfl infinite
  have none : ∀ r ∈ opposite.postorder ++ [.dice group, zero], r.overflow? = none := by
    decide +kernel
  refine ⟨literals, sums, ?_, ?_⟩
  · refine ((total_isFinite_or_overflows literals sums).2.1 _).2 ⟨_, _, _, ?_, rfl⟩
    exact ⟨opposite.postorder ++ [.dice group, zero], quotient, _, rfl,
      fun r mem => overflow?_eq_none_iff.1 (none r mem), overflows⟩
  · refine (total_isFinite_or_overflows (t := opposite) ?_ ?_).2.2.1 fun s mem => ?_
    · exact fun n mem => literals n (List.mem_append_left _ mem)
    · exact fun g mem => sums g (List.mem_append_left _ mem)
    · exact overflow?_eq_none_iff.1 (none s (List.mem_append_left _ mem))

end RollTree

end Tabletop
