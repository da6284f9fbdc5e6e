import Tabletop.Evaluation
import Tabletop.Proofs.Rolling.Draws

/-!
# Dice are counted before they are rolled

Whatever an evaluation does, it asks a roller for dice in batches, and each batch is counted before
it is rolled: the limit either allows all of it, or nothing of it is rolled and the evaluation ends.
`Counted.Prepaid` says this of a roll that counts dice, as a function of the limit, by the three
ways in which such rolls are put together.  Everything that is true about limits and counts follows
from it by an induction over these three ways, and none of these inductions has to know what
modifiers, groups or expressions are.

How an evaluation ends is split in two: it is `Complete` if it was given all its dice, also if an
operation had no finite result afterwards, and `Refused` if it was not.

* `Counted.Prepaid`, `Evaluation.Prepaid` — the three ways;
* `RollContext.run_count_bind` — what a batch of dice does to the count;
* `RollContext.prepaid_rollMany`, `RollContext.prepaid_rollOne` — the batches that there are.

The three ways take the limit as an argument, so that an evaluation with a limit and the same
without one are two values of one function.  What is said by `Counted.Prepaid` is thus about a
program and not about two runs of it, and it is proved by going through the program once.
-/

namespace Tabletop

variable {α β : Type}

namespace RollContext

/-- The rules with another limit on the number of dice. -/
def withMaxRolls (context : RollContext) (maxRolls : Option UInt64) : RollContext :=
  { context with maxRolls }

variable (context : RollContext)

theorem allows_withMaxRolls_none (rolls : Nat) :
    (context.withMaxRolls none).allows rolls = true := rfl

theorem allows_withMaxRolls_some (limit : UInt64) (rolls : Nat) :
    (context.withMaxRolls (some limit)).allows rolls = decide (rolls ≤ limit.toNat) := rfl

/-- Dice are added to the count in any case, and then the new count is tested. -/
theorem run_count (n drawn : Nat) :
    (context.count n).run.run drawn =
      .done (if context.allows (drawn + n) then .ok () else .error .tooManyRolls, drawn + n) := by
  show (ExceptT.run (unless context.allows (drawn + n) do
    throw EvaluationError.tooManyRolls : Evaluation Unit)).run (drawn + n) = _
  cases context.allows (drawn + n) <;> rfl

/-- A roll whose dice are counted first. -/
theorem run_count_bind (n drawn : Nat) (x : Rolling α) :
    (do context.count n; x : Evaluation α).run.run drawn =
      if context.allows (drawn + n) then x >>= fun a => .done (.ok a, drawn + n)
      else .done (.error .tooManyRolls, drawn + n) := by
  rw [ExceptT.run_bind, StateT.run_bind, run_count, Rolling.done_bind]
  cases context.allows (drawn + n) with
  | true =>
    show x >>= (fun a => Rolling.done (a, drawn + n)) >>= (fun r =>
      Rolling.done (Except.ok r.1, r.2)) = _
    rw [Rolling.bind_bind]
    rfl
  | false => rfl

end RollContext

/-! ## Rolls that count dice

The three ways: what needs no dice, one batch, and one roll after another. -/

namespace Counted

/-- A roll that counts dice, for every limit.  It ends with a `complete` value if the limit allowed
all its dice, and with a `refused` one otherwise. -/
inductive Prepaid : {α : Type} → (complete refused : α → Prop) → (Option UInt64 → Counted α) → Prop
  /-- No dice are needed. -/
  | value {α : Type} {complete refused : α → Prop} {a : α} (completes : complete a) :
      Prepaid complete refused fun _ => pure a
  /-- As many dice are rolled as are counted. -/
  | batch {α : Type} {complete refused : Except EvaluationError α → Prop} {context : RollContext}
      {n : Nat} {x : Rolling α} (asks : x.Asks n) (completes : ∀ a, complete (.ok a))
      (refuses : refused (.error .tooManyRolls)) :
      Prepaid complete refused fun limit =>
        (do (context.withMaxRolls limit).count n; x : Evaluation α).run
  /-- One roll is made after another, and a refusal goes through to the end. -/
  | bind {α β : Type} {complete refused : α → Prop} {complete' refused' : β → Prop}
      {x : Option UInt64 → Counted α} {f : Option UInt64 → α → Counted β}
      (first : Prepaid complete refused x)
      (next : ∀ a, complete a → Prepaid complete' refused' fun limit => f limit a)
      (stop : ∀ a, refused a → ∃ b, refused' b ∧ ∀ limit, f limit a = pure b) :
      Prepaid complete' refused' fun limit => x limit >>= f limit

end Counted

/-! ## Evaluations

How an evaluation ends, and which of the ways its own operations are. -/

namespace Evaluation

/-- How an evaluation ends that was given all its dice: with a value, or at an operation without a
finite result. -/
def Complete (result : Except EvaluationError α) : Prop :=
  ∀ e, result = .error e → ∃ left op right, e = .nonFinite left op right

/-- How an evaluation ends that was refused a die. -/
def Refused (result : Except EvaluationError α) : Prop :=
  result = .error .tooManyRolls

/-- The dice of an evaluation are counted before they are rolled. -/
def Prepaid (x : Option UInt64 → Evaluation α) : Prop :=
  Counted.Prepaid Complete Refused fun limit => (x limit).run

theorem complete_ok (a : α) : Complete (.ok a) := nofun

theorem Complete.not_refused {result : Except EvaluationError α} (h : Complete result) :
    ¬ Refused result := by
  intro refused
  obtain ⟨_, _, _, eq⟩ := h _ refused
  cases eq

/-- What is computed afterwards may end without a finite result, which is complete as well. -/
theorem Complete.bind {x : Except EvaluationError α} {f : α → Except EvaluationError β}
    (h : Complete x) (next : ∀ a, Complete (f a)) : Complete (x >>= f) := by
  cases x with
  | ok a => exact next a
  | error e => exact fun e' eq => h e' (by cases eq; rfl)

theorem prepaid_pure (a : α) : Prepaid fun _ => pure a :=
  .value (complete_ok a)

/-- What is computed without rolling. -/
theorem prepaid_of_complete {x : Except EvaluationError α} (h : Complete x) :
    Prepaid fun _ => (x : Evaluation α) :=
  .value h

/-- One evaluation after another: an error of the first is that of both, whichever it is. -/
theorem Prepaid.bind {x : Option UInt64 → Evaluation α} {f : Option UInt64 → α → Evaluation β}
    (first : Prepaid x) (next : ∀ a, Prepaid fun limit => f limit a) :
    Prepaid fun limit => x limit >>= f limit := by
  unfold Prepaid
  simp only [ExceptT.run_bind]
  refine Counted.Prepaid.bind first (fun result complete => ?_) ?_
  · cases result with
    | ok a => exact next a
    | error e => exact .value fun e' eq => complete e' (by cases eq; rfl)
  · rintro _ rfl
    exact ⟨_, rfl, fun _ => rfl⟩

/-- A counting roll that an evaluation goes on with: it has to throw what was refused. -/
theorem Prepaid.lift_bind {complete refused : α → Prop} {x : Option UInt64 → Counted α}
    {f : Option UInt64 → α → Evaluation β} (first : Counted.Prepaid complete refused x)
    (next : ∀ a, complete a → Prepaid fun limit => f limit a)
    (stop : ∀ a, refused a → ∀ limit, f limit a = throw .tooManyRolls) :
    Prepaid fun limit => liftM (x limit) >>= f limit := by
  show Counted.Prepaid Complete Refused fun limit => (ExceptT.lift (x limit) >>= f limit).run
  simp only [ExceptT.run_bind_lift]
  exact .bind first next fun a refusal =>
    ⟨_, rfl, fun limit => congrArg ExceptT.run (stop a refusal limit)⟩

end Evaluation

namespace RollContext

variable (context : RollContext) (faces : Faces)

theorem prepaid_rollMany (n : Nat) :
    Evaluation.Prepaid fun limit => (context.withMaxRolls limit).rollMany n faces :=
  .batch (Rolling.asks_many n faces) Evaluation.complete_ok rfl

/-- A single die, which is rolled unless it is refused. -/
theorem prepaid_rollOne {complete refused : Except EvaluationError UInt32 → Prop}
    (completes : ∀ face, complete (.ok face)) (refuses : refused (.error .tooManyRolls)) :
    Counted.Prepaid complete refused fun limit =>
      ((context.withMaxRolls limit).rollOne faces).run :=
  .batch (Rolling.asks_face faces) completes refuses

end RollContext

end Tabletop
