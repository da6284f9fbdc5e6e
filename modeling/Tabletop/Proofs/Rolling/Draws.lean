import Tabletop.Rolling

/-!
# The number of draws

A roller that answers a roll is asked a certain number of times, which depends on its answers.
`Rolling.draws` counts the questions on the path that they choose, also those that leave no choice
of an answer.  For some rolls the number is the same on every path: `Rolling.Asks`.

Draws are counted by the run and not by the tree: two branches of a tree may be of different length.
A bound for all rollers is proved step by step along the program, where `draws_bind` is the rule for
one roll after another; a roll that asks the same number everywhere has no need of a run.
-/

namespace Tabletop

namespace Rolling

variable {α β ρ : Type} [Roller ρ]

/-- A roll followed by another, which goes on with the roller that the first leaves behind. -/
theorem run_bind (x : Rolling α) (f : α → Rolling β) (roller : ρ) :
    (x >>= f).run roller = (f (x.run roller).1).run (x.run roller).2 := by
  induction x generalizing roller with
  | done a => rfl
  | draw lo hi next ih => exact ih _ _

/-- The number of integers that a roller is asked for. -/
def draws : Rolling α → ρ → Nat
  | done _, _ => 0
  | draw lo hi next, roller =>
    let (v, roller) := Roller.uniform lo hi roller
    (next v).draws roller + 1

@[simp] theorem draws_done (a : α) (roller : ρ) : (done a).draws roller = 0 := rfl

@[simp] theorem draws_draw (lo hi : Int64) (next : Int64 → Rolling α) (roller : ρ) :
    (draw lo hi next).draws roller =
      (next (Roller.uniform lo hi roller).1).draws (Roller.uniform lo hi roller).2 + 1 := rfl

/-- **Draws add up** over rolls one after another. -/
theorem draws_bind (x : Rolling α) (f : α → Rolling β) (roller : ρ) :
    (x >>= f).draws roller =
      x.draws roller + (f (x.run roller).1).draws (x.run roller).2 := by
  induction x generalizing roller with
  | done a => exact (Nat.zero_add _).symm
  | draw lo hi next ih =>
    rw [draw_bind, draws_draw, draws_draw, ih, Nat.add_right_comm]
    rfl

/-- What is only computed from the value of a roll needs no further draws. -/
theorem draws_bind_le {x : Rolling α} {f : α → Rolling β} {roller : ρ} {bound : Nat}
    (first : x.draws roller ≤ bound) (still : ∀ a, ∃ b, f a = done b) :
    (x >>= f).draws roller ≤ bound := by
  obtain ⟨b, eq⟩ := still (x.run roller).1
  rwa [draws_bind, eq]

/-! ## Rolls with a fixed number of draws

These are the batches of dice and of places that the programs are made of. -/

/-- Whatever the answers, a roller is asked for `n` integers. -/
inductive Asks : (n : Nat) → Rolling α → Prop
  | done {a : α} : Asks 0 (done a)
  | draw {n : Nat} {lo hi : Int64} {next : Int64 → Rolling α} (each : ∀ v, Asks n (next v)) :
      Asks (n + 1) (draw lo hi next)

theorem Asks.draws {n : Nat} {x : Rolling α} (h : Asks n x) (roller : ρ) : x.draws roller = n := by
  induction h generalizing roller with
  | done => rfl
  | draw _ ih => exact congrArg (· + 1) (ih _ _)

theorem asks_face (faces : Faces) : Asks 1 (face faces) :=
  .draw fun _ => .done

/-- The induction for several dice. -/
theorem asks_facesAfter (faces : Faces) (count : Nat) (shown : List UInt32) :
    Asks count (facesAfter faces count shown) := by
  induction count generalizing shown with
  | zero => exact .done
  | succ count ih => exact .draw fun v => ih _

theorem asks_many (count : Nat) (faces : Faces) : Asks count (many count faces) :=
  asks_facesAfter faces count []

end Rolling

end Tabletop
