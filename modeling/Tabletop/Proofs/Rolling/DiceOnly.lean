import Tabletop.Proofs.Rolling.Prepaid

/-!
# Rolls of dice with the same faces

Everything that a modifier rolls are dice with the faces of its group, and what it makes of the dice
of the group depends on the faces that these show, in the order in which they are rolled.  So its
result is not compared with single answers of a roller but with all faces shown at once:
`Rolling.DiceOnly` says of a roll that it asks for nothing but such dice, and that its value belongs
to the list of faces.  With a given roller the list is what that roller shows when it is asked for
as many dice in one go.

* `Rolling.DrawsFaces` — the faces that a roll is shown by a given roller;
* `Rolling.DiceOnly.exists_drawsFaces` — the value that a roller leads to, and the faces it shows;
* `Counted.DiceOnly.bind` — one roll after another: the faces of the first are followed by those of
  the second.

The property is carried along as a function of the faces that are still to come.  Each question
takes one face off its argument, and after the last question it is left with none; this is how
`Rolling.DiceOnly` can be defined by recursion on the tree although it speaks of whole lists.
-/

namespace Tabletop

variable {α β : Type} {faces : Faces}

namespace Rolling

section Run

variable {ρ : Type} [Roller ρ]

/-- The faces shown before stay in front, and the roller does not depend on them. -/
theorem run_facesAfter (faces : Faces) (count : Nat) (shown : List UInt32) (roller : ρ) :
    (facesAfter faces count shown).run roller =
      (shown.reverse ++ ((many count faces).run roller).1, ((many count faces).run roller).2) := by
  induction count generalizing shown roller with
  | zero => exact congrArg (·, roller) (List.append_nil _).symm
  | succ count ih =>
    rcases answer : Roller.uniform 1 faces.highest roller with ⟨v, after⟩
    have first (shown : List UInt32) : (facesAfter faces (count + 1) shown).run roller =
        (facesAfter faces count (faceOf v :: shown)).run after := by
      rw [facesAfter, run, answer]
    rw [many, first shown, first [], ih, ih [faceOf v], List.reverse_cons, List.append_assoc]
    rfl

/-- A number of dice are one die and the others. -/
theorem run_many_succ (faces : Faces) (count : Nat) {roller after : ρ} {v : Int64}
    (answer : Roller.uniform 1 faces.highest roller = (v, after)) :
    (many (count + 1) faces).run roller =
      (faceOf v :: ((many count faces).run after).1, ((many count faces).run after).2) := by
  have first : (many (count + 1) faces).run roller =
      (facesAfter faces count [faceOf v]).run after := by
    rw [many, facesAfter, run, answer]
  rw [first, run_facesAfter]
  rfl

/-- With a given roller, a roll asks for dice with the given faces and for nothing else, and `shown`
are the faces that these dice show, in the order in which they are rolled. -/
structure DrawsFaces (faces : Faces) (x : Rolling α) (roller : ρ) (shown : List UInt32) : Prop where
  draws : x.draws roller = shown.length
  run : (many shown.length faces).run roller = (shown, (x.run roller).2)

end Run

/-- A roll asks for dice with the given faces and for nothing else, and its value has a property
together with the faces that these dice show, in the order in which they are rolled. -/
def DiceOnly (faces : Faces) : (post : List UInt32 → α → Prop) → Rolling α → Prop
  | post, done a => post [] a
  | post, draw lo hi next =>
    (lo = 1 ∧ hi = faces.highest) ∧
      ∀ v, (next v).DiceOnly faces fun shown => post (faceOf v :: shown)

variable {post weaker : List UInt32 → α → Prop}

theorem DiceOnly.mono {x : Rolling α} (h : x.DiceOnly faces post)
    (implied : ∀ shown a, post shown a → weaker shown a) : x.DiceOnly faces weaker := by
  induction x generalizing post weaker with
  | done a => exact implied [] a h
  | draw lo hi next ih =>
    exact ⟨h.1, fun v => ih v (h.2 v) fun shown => implied (faceOf v :: shown)⟩

theorem diceOnly_face : (face faces).DiceOnly faces fun shown a => shown = [a] :=
  ⟨⟨rfl, rfl⟩, fun _ => rfl⟩

/-- The faces that the second roll is shown follow those of the first. -/
theorem DiceOnly.bind {post' : List UInt32 → β → Prop} {x : Rolling α} {f : α → Rolling β}
    (h : x.DiceOnly faces post)
    (next : ∀ shown a, post shown a → (f a).DiceOnly faces fun more => post' (shown ++ more)) :
    (x >>= f).DiceOnly faces post' := by
  induction x generalizing post post' with
  | done a => exact next [] a h
  | draw lo hi tree ih =>
    exact ⟨h.1, fun v => ih v (h.2 v) fun shown a value => next (faceOf v :: shown) a value⟩

/-- **What a roller shows.**  The value that a roll comes to belongs to the faces that the roller
shows when it is asked for as many dice, and the roll leaves the roller behind as these dice do. -/
theorem DiceOnly.exists_drawsFaces {ρ : Type} [Roller ρ] {x : Rolling α}
    (h : x.DiceOnly faces post) (roller : ρ) :
    ∃ shown, x.DrawsFaces faces roller shown ∧ post shown (x.run roller).1 := by
  induction x generalizing post roller with
  | done a => exact ⟨[], ⟨rfl, rfl⟩, h⟩
  | draw lo hi next ih =>
    obtain ⟨⟨rfl, rfl⟩, each⟩ := h
    rcases answer : Roller.uniform 1 faces.highest roller with ⟨v, after⟩
    obtain ⟨shown, ⟨draws, run⟩, value⟩ := ih v (each v) after
    refine ⟨faceOf v :: shown, ⟨?_, ?_⟩, ?_⟩
    · rw [draws_draw, answer, draws, List.length_cons]
    · rw [List.length_cons, run_many_succ faces shown.length answer, run, Rolling.run, answer]
    · rw [Rolling.run, answer]
      exact value

end Rolling

/-! ## Rolls that count dice

Modifiers count their dice, so the same is needed for counting rolls. -/

namespace Counted

/-- The same of a counting roll, whatever the count. -/
def DiceOnly (faces : Faces) (post : List UInt32 → α → Prop) (x : Counted α) : Prop :=
  ∀ n, (x.run n).DiceOnly faces fun shown r => post shown r.1

variable {post weaker : List UInt32 → α → Prop} {x : Counted α}

theorem DiceOnly.mono (h : DiceOnly faces post x)
    (implied : ∀ shown a, post shown a → weaker shown a) : DiceOnly faces weaker x :=
  fun n => (h n).mono fun shown r => implied shown r.1

theorem diceOnly_pure {a : α} (h : post [] a) : DiceOnly faces post (pure a) := fun _ => h

theorem DiceOnly.bind {post' : List UInt32 → β → Prop} {f : α → Counted β}
    (h : DiceOnly faces post x)
    (next : ∀ shown a, post shown a → DiceOnly faces (fun more => post' (shown ++ more)) (f a)) :
    DiceOnly faces post' (x >>= f) := by
  intro n
  rw [StateT.run_bind]
  exact (h n).bind fun shown r value => next shown r.1 value r.2

end Counted

/-- A die that is refused is not rolled. -/
theorem RollContext.diceOnly_rollOne (context : RollContext) (faces : Faces) :
    Counted.DiceOnly faces (fun shown r => shown = r.toOption.toList)
      (context.rollOne faces).run := by
  intro n
  rw [rollOne, run_count_bind]
  split
  · refine Rolling.diceOnly_face.bind fun shown face eq => ?_
    rw [eq]
    rfl
  · rfl

end Tabletop
