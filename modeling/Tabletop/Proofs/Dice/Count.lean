import Mathlib
import Tabletop.Proofs.Dice.Prepaid
import Tabletop.Rolling.Sequence

/-!
# The count of dice over several evaluations

Expressions that are rolled one after the other under one limit share one count of dice.  As long as
nothing is refused the count is the number of dice that a roller has been asked for, also when an
operation has no finite result.  A refused batch, however, has been counted and is not rolled.  So
after a refusal the count is beyond the limit for good, while the dice that were drawn are within
it, and every later expression that needs dice is refused as well, however few they are.

* `Counted.Prepaid.counts` — one roll that counts dice, from any count on;
* `Expr.roll_of_exhausted` — an expression with dice is refused once the count is beyond the limit;
* `Expression.count_rollEach` — what the count says after any number of expressions;
* `Expression.count_rollEach_refused` — a count that is not the number of dice drawn.

How the proof goes.  `Counted.Accounts` is what one roll does to the count, and it is closed under
doing one thing after the other, because a refusal ends a roll.  Expressions rolled one after the
other are different: a refusal ends one of them and the next is rolled all the same.  That the
statement survives this is due to the first lemma about `Accounts`, that nothing is drawn once the
count is beyond the limit.
-/

namespace Tabletop

variable {α β : Type} {limit : Option UInt64}

namespace Counted

/-- What has become of the count `before` when a roll has drawn some dice and come to a value and a
count.  A value without a refusal has every die counted that was drawn, and no other. -/
structure Accounts (limit : Option UInt64) (complete refused : α → Prop) (before drawn : Nat)
    (r : α × Nat) : Prop where
  /-- Nothing is drawn beyond the limit. -/
  within : ∀ m ∈ limit, before + drawn ≤ max before m.toNat
  outcome : complete r.1 ∧ r.2 = before + drawn ∨
    refused r.1 ∧ before + drawn ≤ r.2 ∧ ∃ m ∈ limit, m.toNat < r.2

section Accounts

variable {complete refused : α → Prop} {before drawn : Nat} {r : α × Nat}

/-- The count never falls behind the dice that were drawn. -/
theorem Accounts.le (h : Accounts limit complete refused before drawn r) : before + drawn ≤ r.2 :=
  h.outcome.elim (fun completed => Nat.le_of_eq completed.2.symm) fun refusal => refusal.2.1

/-- Beyond the limit nothing is drawn. -/
theorem Accounts.drawn_eq_zero (h : Accounts limit complete refused before drawn r)
    (exhausted : ∃ m ∈ limit, m.toNat < before) : drawn = 0 := by
  obtain ⟨m, isLimit, above⟩ := exhausted
  have within := h.within m isLimit
  omega

/-- What follows a roll that was given all its dice goes on with its count. -/
theorem Accounts.prepend {more : Nat} (within : ∀ m ∈ limit, before + drawn ≤ max before m.toNat)
    (h : Accounts limit complete refused (before + drawn) more r) :
    Accounts limit complete refused before (drawn + more) r := by
  obtain ⟨within', outcome⟩ := h
  rw [Nat.add_assoc] at within' outcome
  refine ⟨fun m isLimit => Nat.le_trans (within' m isLimit) ?_, outcome⟩
  exact Nat.max_le.2 ⟨within m isLimit, Nat.le_max_right _ _⟩

theorem Accounts.map {complete' refused' : β → Prop} {a : α} {b : β} {count : Nat}
    (h : Accounts limit complete refused before drawn (a, count)) (completes : complete a → complete' b)
    (refuses : refused a → refused' b) : Accounts limit complete' refused' before drawn (b, count) :=
  ⟨h.within, h.outcome.imp (And.imp_left completes) (And.imp_left refuses)⟩

end Accounts

/-- A roll accounts for its dice with every roller, and from every count on. -/
def Counts (limit : Option UInt64) (complete refused : α → Prop) (x : Counted α) : Prop :=
  ∀ {ρ : Type} [Roller ρ] (roller : ρ) (before : Nat),
    Accounts limit complete refused before ((x.run before).draws roller)
      ((x.run before).run roller).1

/-! ### From batches to evaluations

A batch of dice is drawn whole or refused whole, and an evaluation is a sequence of batches and of
steps that draw nothing. -/

/-- One batch: all its dice are counted and drawn, or all are counted and none is drawn. -/
theorem counts_batch {complete refused : Except EvaluationError α → Prop} (context : RollContext)
    {n : Nat} {x : Rolling α} (asks : x.Asks n) (completes : ∀ a, complete (.ok a))
    (refuses : refused (.error .tooManyRolls)) :
    Counts limit complete refused
      (do (context.withMaxRolls limit).count n; x : Evaluation α).run := by
  intro ρ _ roller before
  rw [RollContext.run_count_bind]
  split
  · next allowed =>
    rw [Rolling.draws_bind, asks.draws, Rolling.run_bind, Rolling.draws_done, Nat.add_zero]
    refine ⟨fun m isLimit => ?_, .inl ⟨completes _, rfl⟩⟩
    obtain rfl := isLimit
    exact Nat.le_trans (of_decide_eq_true allowed) (Nat.le_max_right _ _)
  -- Without a limit nothing is refused.
  · next few =>
    refine ⟨fun m _ => Nat.le_max_left _ _, .inr ⟨refuses, Nat.le_add_right _ _, ?_⟩⟩
    cases limit with
    | none => exact absurd (context.allows_withMaxRolls_none _) few
    | some m => exact ⟨m, rfl, Nat.not_le.1 (mt decide_eq_true few)⟩

/-- One roll after the other.  The second begins with the count of the first, also when this is no
longer the number of dice drawn. -/
theorem Counts.bind {complete refused : α → Prop} {complete' refused' : β → Prop} {x : Counted α}
    {f : α → Counted β} (first : Counts limit complete refused x)
    (next : ∀ a, complete a → Counts limit complete' refused' (f a))
    (stop : ∀ a, refused a → ∃ b, refused' b ∧ f a = pure b) :
    Counts limit complete' refused' (x >>= f) := by
  intro ρ _ roller before
  have one := first roller before
  rw [StateT.run_bind, Rolling.draws_bind, Rolling.run_bind]
  generalize (x.run before).draws roller = drawn at one ⊢
  generalize (x.run before).run roller = r at one ⊢
  obtain ⟨⟨a, count⟩, roller'⟩ := r
  obtain ⟨within, ⟨completed, eq⟩ | ⟨refusal, least, above⟩⟩ := one
  · obtain rfl : count = before + drawn := eq
    exact (next a completed roller' (before + drawn)).prepend within
  · -- A refusal ends the roll, so the second part neither counts nor draws.
    obtain ⟨b, refusal', eq⟩ := stop a refusal
    dsimp only at least above ⊢
    rw [eq]
    exact ⟨within, .inr ⟨refusal', least, above⟩⟩

/-- **Dice that are counted before they are rolled are accounted for.** The induction is on how the
computation is put together from batches. -/
theorem Prepaid.counts {complete refused : α → Prop} {x : Option UInt64 → Counted α}
    (h : Prepaid complete refused x) (limit : Option UInt64) :
    Counts limit complete refused (x limit) := by
  induction h with
  | value completes =>
    exact fun _ before => ⟨fun m _ => Nat.le_max_left _ _, .inl ⟨completes, rfl⟩⟩
  | batch asks completes refuses => exact counts_batch _ asks completes refuses
  | bind _ _ stop ihFirst ihNext =>
    refine ihFirst.bind ihNext fun a refusal => ?_
    obtain ⟨b, refuses, eq⟩ := stop a refusal
    exact ⟨b, refuses, eq _⟩

end Counted

/-! ## After a refusal

An exhausted limit stays exhausted, and a batch of dice is refused under it even if it is empty.  So
the only expressions that are still rolled are those that roll nothing. -/

/-- What fails at once fails with all that follows it. -/
theorem Evaluation.run_bind_of_error {x : Evaluation α} {f : α → Evaluation β}
    {error : EvaluationError} {before count : Nat}
    (fails : x.run.run before = .done (.error error, count)) :
    (x >>= f).run.run before = .done (.error error, count) := by
  rw [ExceptT.run_bind, StateT.run_bind, fails]
  rfl

/-! ### What is left once the limit is passed

The count goes on after a refusal, so it is above the limit from then on, and no later batch of any
size is drawn. -/

/-- The count is beyond the limit. -/
def RollContext.Exhausted (context : RollContext) (count : Nat) : Prop :=
  ∃ m ∈ context.maxRolls, m.toNat < count

namespace RollContext

variable {context : RollContext} {before count : Nat}

theorem Exhausted.mono (h : context.Exhausted before) (le : before ≤ count) :
    context.Exhausted count := by
  obtain ⟨m, isLimit, above⟩ := h
  exact ⟨m, isLimit, Nat.lt_of_lt_of_le above le⟩

theorem Exhausted.allows (h : context.Exhausted count) : context.allows count = false := by
  obtain ⟨m, isLimit, above⟩ := h
  unfold RollContext.allows
  rw [Option.mem_def.1 isLimit]
  exact decide_eq_false (Nat.not_le.2 above)

/-- No batch of dice is allowed any more, not even an empty one. -/
theorem Exhausted.run_count_bind (h : context.Exhausted before) (n : Nat) (x : Rolling α) :
    (do context.count n; x : Evaluation α).run.run before =
      .done (.error .tooManyRolls, before + n) := by
  rw [RollContext.run_count_bind, (h.mono (Nat.le_add_right before n)).allows, if_neg nofun]

end RollContext

namespace Expr

/-- Whether an expression has dice to roll. -/
def hasDice : Expr → Bool
  | literal _ => false
  | dice _ => true
  | stunt _ => true
  | grouping inner => inner.hasDice
  | negate inner => inner.hasDice
  | binary left _ right => left.hasDice || right.hasDice

variable {context : RollContext}

/-- An expression without dice is rolled to a tree and asks for nothing. -/
theorem roll_of_not_hasDice {e : Expr} (none : e.hasDice = false) :
    ∃ t, e.roll context = pure t := by
  induction e with
  | literal x => exact ⟨_, rfl⟩
  | dice | stunt => cases none
  | grouping e ih | negate e ih =>
    obtain ⟨t, eq⟩ := ih none
    exact ⟨_, by rw [roll, eq, pure_bind]⟩
  | binary a op b ihLeft ihRight =>
    obtain ⟨noneLeft, noneRight⟩ := Bool.or_eq_false_iff.1 none
    obtain ⟨s, eqLeft⟩ := ihLeft noneLeft
    obtain ⟨t, eqRight⟩ := ihRight noneRight
    exact ⟨_, by rw [roll, eqLeft, eqRight, pure_bind, pure_bind]⟩

/-- **After a refusal every expression with dice is refused**, at its first batch of dice.  The
induction is on the expression, and an operation fails on that side which has the first dice. -/
theorem roll_of_exhausted {before : Nat} (exhausted : context.Exhausted before) {e : Expr}
    (some : e.hasDice = true) :
    ∃ count, (e.roll context).run.run before = .done (.error .tooManyRolls, count) := by
  induction e with
  | literal x => cases some
  | dice group =>
    exact ⟨_, Evaluation.run_bind_of_error (Evaluation.run_bind_of_error
      (exhausted.run_count_bind group.count.toNat _))⟩
  | stunt written =>
    exact ⟨_, Evaluation.run_bind_of_error (exhausted.run_count_bind 1 _)⟩
  | grouping e ih | negate e ih =>
    obtain ⟨count, eq⟩ := ih some
    exact ⟨count, Evaluation.run_bind_of_error eq⟩
  | binary a op b ihLeft ihRight =>
    cases left : a.hasDice with
    | true =>
      obtain ⟨count, eq⟩ := ihLeft left
      exact ⟨count, Evaluation.run_bind_of_error eq⟩
    -- The left side rolls nothing and is not refused, so the right side has its turn.
    | false =>
      rw [hasDice, left, Bool.false_or] at some
      obtain ⟨count, eq⟩ := ihRight some
      obtain ⟨s, eqLeft⟩ : ∃ s, a.roll context = pure s := roll_of_not_hasDice left
      refine ⟨count, ?_⟩
      rw [roll, eqLeft, pure_bind]
      exact Evaluation.run_bind_of_error eq

end Expr

/-! ## Expressions one after the other

The run lemma: `Accounts` holds of any number of expressions, by induction on the list with the
count and the roller as parameters. -/

namespace Expression

/-- Rolls expressions one after the other, with one count of dice.  A failure does not keep the
others from being rolled. -/
def rollEach (context : RollContext) :
    List Expression → Counted (List (Except EvaluationError RollResult))
  | [] => return []
  | e :: es => do
    let result ← (e.roll context).run
    let results ← rollEach context es
    return result :: results

variable (context : RollContext) {ρ : Type} [Roller ρ]

theorem counts_roll (e : Expression) :
    Counted.Counts context.maxRolls Evaluation.Complete Evaluation.Refused (e.roll context).run :=
  (prepaid_roll context e).counts context.maxRolls

/-- The dice drawn for a list are those for its head and those for its tail. -/
theorem draws_rollEach_cons (e : Expression) (es : List Expression) (before : Nat) (roller : ρ) :
    ((rollEach context (e :: es)).run before).draws roller =
      let first := (e.roll context).run.run before
      let after := first.run roller
      first.draws roller + ((rollEach context es).run after.1.2).draws after.2 := by
  show (_ >>= fun _ => _ >>= fun _ => Rolling.done _ : Rolling _).draws roller = _
  rw [Rolling.draws_bind, Rolling.draws_bind]
  rfl

/-- The results for a list are that of its head and those of its tail, which begins with the count
of the head. -/
theorem run_rollEach_cons (e : Expression) (es : List Expression) (before : Nat) (roller : ρ) :
    (((rollEach context (e :: es)).run before).run roller).1 =
      let after := ((e.roll context).run.run before).run roller
      let rest := (((rollEach context es).run after.1.2).run after.2).1
      (after.1.1 :: rest.1, rest.2) := by
  show ((_ >>= fun _ => _ >>= fun _ => Rolling.done _ : Rolling _).run roller).1 = _
  rw [Rolling.run_bind, Rolling.run_bind]
  rfl

/-- Expressions that are rolled one after the other account for their dice together, where a refusal
is that of any of them. -/
theorem counts_rollEach (es : List Expression) :
    Counted.Counts context.maxRolls (.error .tooManyRolls ∉ ·) (.error .tooManyRolls ∈ ·)
      (rollEach context es) := by
  induction es with
  | nil => exact fun _ before => ⟨fun m _ => Nat.le_max_left _ _, .inl ⟨List.not_mem_nil, rfl⟩⟩
  | cons e es ih =>
    intro ρ _ roller before
    -- The dice and results of the head and the tail are numbers and values from here on; what
    -- relates them is `one` and `rest`.
    have one := counts_roll context e roller before
    rw [draws_rollEach_cons, run_rollEach_cons]
    dsimp only
    generalize ((e.roll context).run.run before).draws roller = drawn at one ⊢
    generalize ((e.roll context).run.run before).run roller = after at one ⊢
    obtain ⟨⟨result, count⟩, roller'⟩ := after
    have rest := ih roller' count
    dsimp only
    generalize ((rollEach context es).run count).draws roller' = more at rest ⊢
    generalize (((rollEach context es).run count).run roller').1 = later at rest ⊢
    obtain ⟨results, last⟩ := later
    obtain ⟨within, ⟨completed, eq⟩ | ⟨refused, le, exhausted⟩⟩ := one
    · obtain rfl : count = before + drawn := eq
      refine (rest.prepend within).map (fun none => ?_) (List.mem_cons_of_mem _)
      exact List.not_mem_cons_of_ne_of_not_mem (fun eq => completed.not_refused eq.symm) none
    · -- The count is beyond the limit already, so that nothing more is drawn.
      obtain ⟨m, isLimit, above⟩ := exhausted
      obtain rfl : more = 0 := rest.drawn_eq_zero ⟨m, isLimit, above⟩
      obtain rfl : result = .error .tooManyRolls := refused
      have last_le : count ≤ last := rest.le
      exact ⟨within, .inr ⟨List.mem_cons_self, Nat.le_trans le last_le, m, isLimit,
        Nat.lt_of_lt_of_le above last_le⟩⟩

/-! ### The first refusal

The expressions before it have been rolled whole and those with dice behind it are refused, so a
list of expressions falls into two parts. -/

/-- The count is beyond the limit when an expression has been refused.  A refusal leaves the count
there, even though the dice were not drawn. -/
theorem exhausted_of_refused {e : Expression} {before : Nat} {roller : ρ}
    (refused : (((e.roll context).run.run before).run roller).1.1 = .error .tooManyRolls) :
    context.Exhausted (((e.roll context).run.run before).run roller).1.2 := by
  obtain ⟨-, ⟨completed, -⟩ | ⟨-, -, exhausted⟩⟩ := counts_roll context e roller before
  · exact absurd refused completed.not_refused
  · exact exhausted

/-- Once the count is beyond the limit, every expression with dice is refused.  The induction is on
the list; the expressions before the one at hand cannot bring the count back. -/
theorem refused_of_exhausted {es : List Expression} {before : Nat} (roller : ρ)
    (exhausted : context.Exhausted before) {j : Nat} {e : Expression} (at_j : es[j]? = some e)
    (dice : e.root.hasDice = true) :
    (((rollEach context es).run before).run roller).1.1[j]? = some (.error .tooManyRolls) := by
  induction es generalizing before roller j with
  | nil => cases at_j
  | cons first es ih =>
    rw [run_rollEach_cons]
    cases j with
    | zero =>
      obtain rfl : first = e := Option.some.inj at_j
      obtain ⟨count, eq⟩ := Expr.roll_of_exhausted exhausted dice
      have refused : (first.roll context).run.run before = .done (.error .tooManyRolls, count) :=
        Evaluation.run_bind_of_error eq
      rw [refused]
      rfl
    | succ j =>
      have le := Nat.le_trans (Nat.le_add_right _ _) (counts_roll context first roller before).le
      exact ih _ (exhausted.mono le) at_j

/-- After a refusal every expression with dice is refused.  The induction goes to the place of the
refusal. -/
theorem refused_of_lt {es : List Expression} {before : Nat} (roller : ρ) {i j : Nat}
    (refused : (((rollEach context es).run before).run roller).1.1[i]? =
      some (.error .tooManyRolls)) (later : i < j) {e : Expression} (at_j : es[j]? = some e)
    (dice : e.root.hasDice = true) :
    (((rollEach context es).run before).run roller).1.1[j]? = some (.error .tooManyRolls) := by
  induction es generalizing before roller i j with
  | nil => cases at_j
  | cons first es ih =>
    obtain ⟨j, rfl⟩ := Nat.exists_eq_succ_of_ne_zero (Nat.ne_zero_of_lt later)
    rw [run_rollEach_cons] at refused ⊢
    cases i with
    | zero =>
      have exhausted := exhausted_of_refused context (Option.some.inj refused)
      exact refused_of_exhausted context _ exhausted at_j dice
    | succ i => exact ih _ refused (Nat.lt_of_succ_lt_succ later) at_j

/-- The dice that are drawn are those of the expressions up to one that is refused.  Behind it
nothing is drawn, by any of them. -/
theorem draws_rollEach_take {es : List Expression} {before : Nat} (roller : ρ) {i : Nat}
    (refused : (((rollEach context es).run before).run roller).1.1[i]? =
      some (.error .tooManyRolls)) :
    ((rollEach context (es.take (i + 1))).run before).draws roller =
      ((rollEach context es).run before).draws roller := by
  induction es generalizing before roller i with
  | nil => cases refused
  | cons first es ih =>
    rw [run_rollEach_cons] at refused
    rw [List.take_succ_cons, draws_rollEach_cons, draws_rollEach_cons]
    refine congrArg (_ + ·) ?_
    cases i with
    | zero =>
      have exhausted := exhausted_of_refused context (Option.some.inj refused)
      exact ((counts_rollEach context es _ _).drawn_eq_zero exhausted).symm
    | succ i => exact ih _ refused

/-! ## The count and the budget

The parts above, put together for any list of expressions. -/

/-- **What the count of dice says.**  Expressions are rolled one after the other with one count of
dice, under one limit or none.  The count is the number of dice drawn from the roller exactly if no
expression was refused; expressions that fail for another reason do no harm.  If one was refused,
the count is beyond the limit and the dice drawn are within it.  All of them were then drawn up to
the refused expression, and every expression behind it that has dice is refused as well, even if its
own dice would be few enough. -/
theorem count_rollEach (context : RollContext) (es : List Expression) (roller : ρ) :
    let run := (rollEach context es).run 0
    let results := (run.run roller).1.1
    let count := (run.run roller).1.2
    (count = run.draws roller ↔ .error .tooManyRolls ∉ results) ∧
    (.error .tooManyRolls ∈ results →
      ∃ m, context.maxRolls = some m ∧ run.draws roller ≤ m.toNat ∧ m.toNat < count) ∧
    ∀ i, results[i]? = some (.error .tooManyRolls) →
      ((rollEach context (es.take (i + 1))).run 0).draws roller = run.draws roller ∧
      ∀ j e, i < j → es[j]? = some e → e.root.hasDice = true →
        results[j]? = some (.error .tooManyRolls) := by
  intro run results count
  obtain ⟨within, outcome⟩ := counts_rollEach context es roller 0
  have beyond (refused : .error .tooManyRolls ∈ results) :
      ∃ m, context.maxRolls = some m ∧ run.draws roller ≤ m.toNat ∧ m.toNat < count := by
    rcases outcome with ⟨none, -⟩ | ⟨-, -, m, isLimit, above⟩
    · exact absurd refused none
    · have few := within m isLimit
      rw [Nat.zero_add, Nat.max_eq_right (Nat.zero_le _)] at few
      exact ⟨m, isLimit, few, above⟩
  refine ⟨⟨fun same refused => ?_, fun none => ?_⟩, beyond, fun i refused => ?_⟩
  · obtain ⟨m, -, few, above⟩ := beyond refused
    omega
  · rcases outcome with ⟨-, eq⟩ | ⟨refused, -⟩
    · rwa [Nat.zero_add] at eq
    · exact absurd refused none
  · exact ⟨draws_rollEach_take context roller refused, fun j e later at_j dice =>
      refused_of_lt context roller refused later at_j dice⟩

/-- Under a limit of ten dice, two are rolled, eleven are refused, and then one is refused too. -/
theorem count_rollEach_three :
    let dice (count : UInt32) (written : String) : Expression :=
      ⟨.dice ⟨count, ⟨6, by decide⟩, [], [], written⟩, written⟩
    let es := [dice 2 "2d6", dice 11 "11d6", dice 1 "1d6"]
    let context : RollContext := .ofSettings { maxRolls := some 10 }
    let roller := SequenceRoller.ofList [3, 5]
    let run := (rollEach context es).run 0
    let results := (run.run roller).1.1
    results[1]? = some (.error .tooManyRolls) ∧ run.draws roller = 2 ∧ run.draws roller ≤ 10 ∧
      10 < (run.run roller).1.2 ∧ results[2]? = some (.error .tooManyRolls) := by
  intro dice es context roller run results
  have refused : results[1]? = some (.error .tooManyRolls) := by cbv
  obtain ⟨-, beyond, after⟩ := count_rollEach context es roller
  obtain ⟨m, isLimit, few, above⟩ := beyond (List.mem_of_getElem? refused)
  obtain rfl : (10 : UInt64) = m := Option.some.inj isLimit
  obtain ⟨drawn, later⟩ := after 1 refused
  refine ⟨refused, ?_, few, above, later 2 (dice 1 "1d6") (by decide) rfl rfl⟩
  rw [← drawn]
  cbv

/-- Eleven dice under a limit of ten are counted and not drawn.  The single die after them, which
the limit allows, is refused because of them. -/
theorem count_rollEach_refused :
    let dice (count : UInt32) (written : String) : Expression :=
      ⟨.dice ⟨count, ⟨6, by decide⟩, [], [], written⟩, written⟩
    let context : RollContext := .ofSettings { maxRolls := some 10 }
    let roller := SequenceRoller.ofList [3]
    let both := (rollEach context [dice 11 "11d6", dice 1 "1d6"]).run 0
    let alone := (rollEach context [dice 1 "1d6"]).run 0
    (both.run roller).1 = ([.error .tooManyRolls, .error .tooManyRolls], 12) ∧
      both.draws roller = 0 ∧ ∃ r, (alone.run roller).1 = ([.ok r], 1) := by
  intro dice context roller both alone
  let die : Die := { faces := ⟨6, by decide⟩, face := 3 }
  let tree : RollTree := .dice ⟨"1d6", 1, ⟨6, by decide⟩, [], [die]⟩
  exact ⟨by cbv, by cbv, ⟨"1d6", .int 3, "1d6 (3)", tree⟩, by cbv⟩

end Expression

end Tabletop
