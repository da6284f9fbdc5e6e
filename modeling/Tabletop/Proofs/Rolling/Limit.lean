import Tabletop.Proofs.Rolling.Prepaid

/-!
# A limit on the number of dice

An evaluation with a limit asks a roller exactly as the same evaluation without one does, until it
wants more dice than the limit allows; there it ends.  So the tree of its questions is the other
tree with branches cut off, and a branch is cut off only where every path through it goes beyond the
limit.  `Rolling.Cut` relates two trees in this way.  Its first index is the number of dice that the
roller has been asked for, and where a path is not cut off, the count that the evaluation keeps is
this number.

* `Rolling.Cut.run_eq`, `Rolling.Cut.refused_run`, `Rolling.Cut.draws_le` — what a cut means for any
  roller: the same result and the same roller after it as long as the limit is kept, a refusal
  otherwise, and never more draws than the limit;
* `Rolling.Cut.bind`, `Counted.Cut.bind` — cuts of rolls one after another;
* `Counted.Prepaid.cut` — a limit cuts off what goes beyond it, wherever dice are counted before they
  are rolled.

The count that an evaluation keeps and the number of dice that were rolled are not the same: dice
are counted before it is known whether they are allowed.  They agree on every path that is not cut
off, and this is why the index of `Rolling.Cut` is the second and its first constructor ties both
together.
-/

namespace Tabletop

variable {α β : Type} {limit : Nat}

namespace Rolling

/-- The second roll is the first, cut off where `limit` dice are not enough, after `drawn` dice.
A path that is not cut off ends with a `complete` value, one that is cut off with a `refused`
one. -/
inductive Cut (limit : Nat) (complete refused : α → Prop) :
    (drawn : Nat) → Rolling (α × Nat) → Rolling (α × Nat) → Prop
  | done {drawn : Nat} {a : α} (within : drawn ≤ limit) (value : complete a) :
      Cut limit complete refused drawn (done (a, drawn)) (done (a, drawn))
  | draw {drawn : Nat} {lo hi : Int64} {next next' : Int64 → Rolling (α × Nat)}
      (each : ∀ v, Cut limit complete refused (drawn + 1) (next v) (next' v)) :
      Cut limit complete refused drawn (draw lo hi next) (draw lo hi next')
  | refuse {drawn count : Nat} {free : Rolling (α × Nat)} {a : α} (within : drawn ≤ limit)
      (beyond : ∀ {ρ : Type} [Roller ρ] (roller : ρ), limit < drawn + free.draws roller)
      (value : refused a) : Cut limit complete refused drawn free (done (a, count))

namespace Cut

variable {complete refused : α → Prop} {drawn : Nat} {free limited : Rolling (α × Nat)}

section Run

variable {ρ : Type} [Roller ρ]

/-- Where the roll without a limit keeps to it, the limit makes no difference. -/
theorem run_eq (h : Cut limit complete refused drawn free limited) (roller : ρ)
    (within : drawn + free.draws roller ≤ limit) :
    limited.run roller = free.run roller ∧ complete (free.run roller).1.1 := by
  induction h generalizing roller with
  | done _ value => exact ⟨rfl, value⟩
  | @draw drawn lo hi next next' _ ih =>
    rw [draws_draw, ← Nat.add_assoc, Nat.add_right_comm] at within
    exact ih _ _ within
  | refuse _ beyond _ => exact absurd (beyond roller) (Nat.not_lt.2 within)

/-- Where that roll goes beyond the limit, the result is a refusal. -/
theorem refused_run (h : Cut limit complete refused drawn free limited) (roller : ρ)
    (beyond : limit < drawn + free.draws roller) : refused (limited.run roller).1.1 := by
  induction h generalizing roller with
  | done within _ => exact absurd beyond (Nat.not_lt.2 within)
  | @draw drawn lo hi next next' _ ih =>
    rw [draws_draw, ← Nat.add_assoc, Nat.add_right_comm] at beyond
    exact ih _ _ beyond
  | refuse _ _ value => exact value

/-- The limit is kept in any case. -/
theorem draws_le (h : Cut limit complete refused drawn free limited) (roller : ρ) :
    drawn + limited.draws roller ≤ limit := by
  induction h generalizing roller with
  | done within _ => exact within
  | draw _ ih =>
    rw [draws_draw, ← Nat.add_assoc, Nat.add_right_comm]
    exact ih _ _
  | refuse within _ _ => exact within

end Run

/-- A cut of one roll after another.  A refusal has to go through to the end without a further
question. -/
theorem bind {complete' refused' : β → Prop} {f f' : α × Nat → Rolling (β × Nat)}
    (h : Cut limit complete refused drawn free limited)
    (next : ∀ a drawn, complete a → drawn ≤ limit →
      Cut limit complete' refused' drawn (f (a, drawn)) (f' (a, drawn)))
    (stop : ∀ a count, refused a → ∃ b count', refused' b ∧ f' (a, count) = .done (b, count')) :
    Cut limit complete' refused' drawn (free >>= f) (limited >>= f') := by
  induction h with
  | done within value => exact next _ _ value within
  | draw _ ih => exact .draw ih
  | @refuse drawn count free a within beyond value =>
    obtain ⟨b, count', refusal, eq⟩ := stop a count value
    rw [done_bind, eq]
    refine .refuse within (fun roller => ?_) refusal
    have first := beyond roller
    rw [draws_bind]
    omega

/-- A roll that asks for as many dice as are still allowed is not cut off. -/
theorem of_asks {n : Nat} {x : Rolling β} (asks : Asks n x) {value : β → α}
    (within : drawn + n ≤ limit) (completes : ∀ b, complete (value b)) :
    Cut limit complete refused drawn (x >>= fun b => .done (value b, drawn + n))
      (x >>= fun b => .done (value b, drawn + n)) := by
  induction asks generalizing drawn with
  | done => exact .done within (completes _)
  | @draw n lo hi next _ ih =>
    refine .draw fun v => ?_
    rw [← Nat.add_assoc, Nat.add_right_comm]
    exact ih v (by omega)

end Cut

end Rolling

/-! ## Rolls that count dice

A cut of counting rolls is one from every count that the limit allows. -/

namespace Counted

/-- The second roll is the first, cut off where `limit` dice are not enough, whatever the count
before it, as long as it is within the limit. -/
def Cut (limit : Nat) (complete refused : α → Prop) (free limited : Counted α) : Prop :=
  ∀ drawn ≤ limit, Rolling.Cut limit complete refused drawn (free.run drawn) (limited.run drawn)

variable {complete refused : α → Prop} {complete' refused' : β → Prop} {free limited : Counted α}

/-- One counting roll after another.  What was refused in the first has to be refused by the whole,
without a further question. -/
theorem Cut.bind {f f' : α → Counted β} (h : Cut limit complete refused free limited)
    (next : ∀ a, complete a → Cut limit complete' refused' (f a) (f' a))
    (stop : ∀ a, refused a → ∃ b, refused' b ∧ f' a = pure b) :
    Cut limit complete' refused' (free >>= f) (limited >>= f') := by
  intro drawn within
  rw [StateT.run_bind, StateT.run_bind]
  refine (h drawn within).bind (fun a drawn value within => next a value drawn within) ?_
  intro a count value
  obtain ⟨b, refusal, eq⟩ := stop a value
  exact ⟨b, count, refusal, by rw [eq]; rfl⟩

/-- Dice that are counted before they are rolled: all of them are rolled, or none. -/
theorem cut_batch {complete refused : Except EvaluationError α → Prop} (context : RollContext)
    {n : Nat} {x : Rolling α} (asks : x.Asks n) (completes : ∀ a, complete (.ok a))
    (refuses : refused (.error .tooManyRolls)) (limit : UInt64) :
    Cut limit.toNat complete refused
      (do (context.withMaxRolls none).count n; x : Evaluation α).run
      (do (context.withMaxRolls (some limit)).count n; x : Evaluation α).run := by
  intro drawn within
  rw [RollContext.run_count_bind, RollContext.run_count_bind,
    RollContext.allows_withMaxRolls_none, RollContext.allows_withMaxRolls_some, if_pos rfl]
  split
  · next enough => exact .of_asks asks (of_decide_eq_true enough) completes
  -- The batch is refused: the other tree goes on with as many dice as were too many.
  · next few =>
    refine .refuse within (fun roller => ?_) refuses
    rw [Rolling.draws_bind, asks.draws, Rolling.draws_done]
    exact Nat.not_le.1 (mt decide_eq_true few)

/-- **A limit cuts off what goes beyond it** from every roll whose dice are counted first. -/
theorem Prepaid.cut {x : Option UInt64 → Counted α} (h : Prepaid complete refused x)
    (limit : UInt64) : Cut limit.toNat complete refused (x none) (x (some limit)) := by
  induction h with
  | value completes => exact fun _ within => .done within completes
  | batch asks completes refuses => exact cut_batch _ asks completes refuses limit
  | bind _ _ stop ihFirst ihNext =>
    refine ihFirst.bind ihNext fun a refusal => ?_
    obtain ⟨b, refuses, eq⟩ := stop a refusal
    exact ⟨b, refuses, eq _⟩

end Counted

/-- The second evaluation is the first, cut off where `limit` dice are not enough. -/
def Evaluation.Cut (limit : Nat) (free limited : Evaluation α) : Prop :=
  Counted.Cut limit Complete Refused free.run limited.run

end Tabletop
