import Mathlib
import Tabletop.Engine
import Tabletop.Proofs.Dice.Rolled
import Tabletop.Rolling.Sequence

/-!
# Stored results

A stored result is used again for a notation if the text of the notation and the texts of its groups
are those of the result.  This is enough for the results that the notation itself has given: rolling
gives the groups in the order in which the parser has them, and the total and the breakdown are
functions of the tree.  It is not enough to tell other trees apart, since nothing but the texts of
the groups is compared.

* `Engine.always_rollDice` — what every rolled result has in common;
* `Engine.applyResult_of_rollDice` — a rolled result is accepted, and computed again exactly;
* `Engine.applyResult_eq_ok_iff_texts` — what is accepted, and which accepted trees are trees of the
  notation.

A rolled result contains everything that is needed to recognise it, because a rolled tree has its
groups where the expression has them (`Expr.Rolled.groups_written`).  The converse is where
acceptance is generous: a tree is accepted whose groups have the right texts, wherever they are and
whatever stands around them.
-/

namespace Tabletop

open List (Forall₂)

namespace Engine

variable {may : Answers} (engine : Engine) (text : String)

/-- What the function looks at, condition by condition. -/
theorem applyResult_eq_ok_iff {stored r : RollResult} :
    engine.applyResult text stored = .ok r ↔
      ∃ e, engine.parse text = .ok e ∧ stored.written = e.written ∧
        stored.groups.map (·.written) = e.groups.map (·.written) ∧
        RollResult.ofTree e.written stored.tree = .ok r := by
  unfold applyResult
  rw [Except.bind_eq_ok_iff]
  refine exists_congr fun e => and_congr_right fun _ => ?_
  split
  · next texts =>
    rw [Except.mapError_eq_ok_iff]
    exact ⟨fun h => ⟨texts.1.symm, texts.2.symm, h⟩, fun h => h.2.2⟩
  · next texts => exact ⟨fun h => (nomatch h), fun h => (texts ⟨h.1.symm, h.2.1.symm⟩).elim⟩

/-- A rolled result has a tree of the parsed expression, and the rest of it is computed from this
tree. -/
theorem always_rollDice :
    (engine.rollDice text).Always may fun result => ∀ r, result = .ok r →
      ∃ e, engine.parse text = .ok e ∧ e.root.Rolled may.Shows r.tree ∧
        RollResult.ofTree e.written r.tree = .ok r := by
  unfold rollDice
  cases engine.parse text with
  | error e => exact fun r eq => nomatch eq
  | ok e =>
    show Rolling.Always may _ (_ >>= _)
    rw [Rolling.always_bind_iff]
    refine (Expression.ensures_roll e 0).mono fun result value r eq => ?_
    exact ⟨e, rfl, value r (Except.mapError_eq_ok_iff.1 eq)⟩

/-! ## Results that the notation has given -/

/-- **A rolled result can be used again.**  Whatever its stored total and breakdown say, a stored
result with the notation and the tree of a rolled one is accepted, and gives the rolled result. -/
theorem applyResult_of_rollDice {ρ : Type} [Roller ρ] (roller : ρ) {r stored : RollResult}
    (rolled : ((engine.rollDice text).run roller).1 = .ok r) (written : stored.written = r.written)
    (tree : stored.tree = r.tree) : engine.applyResult text stored = .ok r := by
  obtain ⟨e, parsed, compares, computed⟩ :=
    (engine.always_rollDice text).run (Answers.admit_any ρ) roller r rolled
  have texts : r.written = e.written := by
    obtain ⟨total, -, eq⟩ := RollResult.ofTree_eq_ok_iff.1 computed
    rw [eq]
  -- Parsing does not roll, so the same expression is parsed for the stored result.
  rw [applyResult_eq_ok_iff]
  refine ⟨e, parsed, written.trans texts, ?_, ?_⟩
  · rw [RollResult.groups, tree]
    exact compares.groups_written.symm
  · rw [tree]
    exact computed

/-- A die that shows 4, stored with a wrong total and no breakdown. -/
theorem applyResult_of_rollDice_one_die :
    let six : Faces := ⟨6, by decide⟩
    let die : RollTree := .dice ⟨"1d6", 1, six, [], [{ faces := six, face := 4 }]⟩
    ((({} : Engine).rollDice "1d6").run (SequenceRoller.ofList [4])).1 =
        .ok ⟨"1d6", .int 4, "1d6 (4)", die⟩ ∧
      ({} : Engine).applyResult "1d6" ⟨"1d6", .int 99, "", die⟩ =
        .ok ⟨"1d6", .int 4, "1d6 (4)", die⟩ := by
  intro six die
  have rolled : ((({} : Engine).rollDice "1d6").run (SequenceRoller.ofList [4])).1 =
      .ok ⟨"1d6", .int 4, "1d6 (4)", die⟩ := by cbv
  exact ⟨rolled, applyResult_of_rollDice _ _ _ rolled rfl rfl⟩

/-! ## Results from elsewhere -/

/-- **What is accepted.**  A stored result is accepted exactly if its notation and the texts of its
groups are those of the parsed notation and its tree has a total; the answer then has the stored
tree.  Such a tree is a tree of the notation exactly if, beyond the texts, it has the outline of the
expression and groups that agree with those parsed; and it is one if the notation was rolled to it
by a roller that answers in the range. -/
theorem applyResult_eq_ok_iff_texts (stored : RollResult) :
    (∀ r, engine.applyResult text stored = .ok r ↔
      ∃ e total, engine.parse text = .ok e ∧ stored.written = e.written ∧
        stored.groups.map (·.written) = e.groups.map (·.written) ∧
        stored.tree.total = .ok total ∧
        r = { stored with total, display := Breakdown.markdown.tree stored.tree }) ∧
    (∀ r e, engine.applyResult text stored = .ok r → engine.parse text = .ok e →
      (e.root.Rolled Faces.Has stored.tree ↔
        e.root.SameOutline stored.tree ∧
          Forall₂ (DiceGroup.Agrees Faces.Has) e.groups stored.groups)) ∧
    (∀ {ρ : Type} [Roller ρ], Answers.inRange.Admit ρ → ∀ (roller : ρ) (r : RollResult),
      ((engine.rollDice text).run roller).1 = .ok r → r.tree = stored.tree →
      ∃ e, engine.parse text = .ok e ∧ e.root.Rolled Faces.Has stored.tree) := by
  refine ⟨fun r => ?_, fun r e accepted parsed => ?_, fun {ρ} _ inRange roller r rolled tree => ?_⟩
  · rw [applyResult_eq_ok_iff]
    constructor
    · rintro ⟨e, parsed, written, groups, computed⟩
      obtain ⟨total, value, rfl⟩ := RollResult.ofTree_eq_ok_iff.1 computed
      exact ⟨e, total, parsed, written, groups, value, by rw [written]⟩
    · rintro ⟨e, total, parsed, written, groups, value, rfl⟩
      refine ⟨e, parsed, written, groups, RollResult.ofTree_eq_ok_iff.2 ⟨total, value, ?_⟩⟩
      rw [written]
  -- Whoever parses twice gets the same expression.
  · obtain ⟨e', parsed', -, groups, -⟩ := (engine.applyResult_eq_ok_iff text).1 accepted
    obtain rfl : e = e' := Except.ok.inj (parsed.symm.trans parsed')
    rw [Expr.rolled_iff]
    refine and_congr_right fun _ => ⟨fun fits => ?_, DiceGroup.fits_of_agrees groups⟩
    exact fits.imp fun _ _ fit => fit.toAgrees
  · obtain ⟨e, parsed, compares, -⟩ := (engine.always_rollDice text).run inRange roller r rolled
    rw [← tree]
    exact ⟨e, parsed, compares.mono fun _ _ shown => shown.between⟩

/-- A die with six faces that shows 9 is accepted, although no roller in the range shows it. -/
theorem applyResult_eq_ok_iff_texts_nine :
    let six : Faces := ⟨6, by decide⟩
    let group : DiceGroup := ⟨1, six, [], [], "1d6"⟩
    let tree : RollTree := .dice ⟨"1d6", 1, six, [], [{ faces := six, face := 9 }]⟩
    let stored : RollResult := ⟨"1d6", .int 9, "1d6 (9)", tree⟩
    ({} : Engine).parse "1d6" = .ok ⟨.dice group, "1d6"⟩ ∧
      ({} : Engine).applyResult "1d6" stored = .ok stored ∧
      ¬ (Expr.dice group).Rolled Faces.Has stored.tree := by
  intro six group tree stored
  obtain ⟨accepts, trees, -⟩ := applyResult_eq_ok_iff_texts {} "1d6" stored
  have parsed : ({} : Engine).parse "1d6" = .ok ⟨.dice group, "1d6"⟩ := by cbv
  have accepted : ({} : Engine).applyResult "1d6" stored = .ok stored :=
    (accepts stored).2 ⟨_, _, parsed, rfl, rfl, by cbv, by cbv⟩
  refine ⟨parsed, accepted, fun rolled => ?_⟩
  cases ((trees stored _ accepted parsed).1 rolled).2 with
  | cons agrees _ =>
    have has : six.Has 9 :=
      agrees.values _ (List.mem_singleton_self _) 9 (List.mem_singleton_self _)
    exact absurd has.2 (by decide)

/-- A tree with the number 7 is accepted for a sum of two ones: there are no groups to compare. -/
theorem applyResult_accepts_other_number :
    let stored : RollResult := ⟨"1+1", .int 2, "1 + 1", .literal (.int 7)⟩
    let e : Expression := ⟨.binary (.literal (.int 1)) .add (.literal (.int 1)), "1+1"⟩
    ({} : Engine).parse "1+1" = .ok e ∧
      ({} : Engine).applyResult "1+1" stored = .ok ⟨"1+1", .int 7, "7", .literal (.int 7)⟩ ∧
      ¬ e.root.Rolled Faces.Has stored.tree := by
  refine ⟨by cbv, by cbv, ?_⟩
  rintro ⟨⟩

end Engine

end Tabletop
