import Tabletop.Faces

/-!
# Rolling

A roll asks for random integers one after the other, and what it asks next may depend on the
answers so far. `Rolling α` is such a roll as a tree: it is done with a value, or it names a
range and goes on with every possible answer. A roller is a state machine that answers; `run`
follows the one path of the tree that its answers choose. Nothing about a roll can depend on the
roller other than through the answers.
-/

namespace Tabletop

/-- A roll: done, or waiting for an integer in a range. -/
inductive Rolling (α : Type u) where
  | done (value : α)
  | draw (lo hi : Int64) (next : Int64 → Rolling α)

namespace Rolling

/-- One roll after another. -/
def bind (x : Rolling α) (f : α → Rolling β) : Rolling β :=
  match x with
  | done a => f a
  | draw lo hi next => draw lo hi fun v => (next v).bind f

instance : Monad Rolling where
  pure := done
  bind := bind

@[simp] theorem pure_eq (a : α) : (pure a : Rolling α) = done a := rfl

@[simp] theorem done_bind (a : α) (f : α → Rolling β) : done a >>= f = f a := rfl

@[simp] theorem draw_bind (lo hi : Int64) (next : Int64 → Rolling α) (f : α → Rolling β) :
    draw lo hi next >>= f = draw lo hi fun v => next v >>= f := rfl

theorem bind_done (x : Rolling α) : x >>= done = x := by
  induction x with
  | done a => rfl
  | draw lo hi next ih =>
    rw [draw_bind]
    exact congrArg _ (funext ih)

theorem bind_bind (x : Rolling α) (f : α → Rolling β) (g : β → Rolling γ) :
    x >>= f >>= g = x >>= fun a => f a >>= g := by
  induction x with
  | done a => rfl
  | draw lo hi next ih =>
    rw [draw_bind, draw_bind, draw_bind]
    exact congrArg _ (funext ih)

instance : LawfulMonad Rolling :=
  LawfulMonad.mk' _ bind_done done_bind bind_bind

end Rolling

/-- A source of integers: asked for one between `lo` and `hi`, it answers and changes its state.
Where `lo` is not below `hi`, a source answers `lo`. -/
class Roller (ρ : Type) where
  uniform (lo hi : Int64) : ρ → Int64 × ρ

namespace Rolling

/-- What a roll comes to with a roller, and the roller afterwards. -/
def run [Roller ρ] : Rolling α → ρ → α × ρ
  | done a, roller => (a, roller)
  | draw lo hi next, roller =>
    let (v, roller) := Roller.uniform lo hi roller
    (next v).run roller

/-- An integer between `lo` and `hi`. -/
def between (lo hi : Int64) : Rolling Int64 :=
  draw lo hi done

/-- The word that a drawn integer is cut to when it is the face of a die. -/
def faceOf (v : Int64) : UInt32 :=
  v.toUInt64.toUInt32

/-- The face that a die shows. -/
def face (faces : Faces) : Rolling UInt32 :=
  draw 1 faces.highest fun v => done (faceOf v)

/-- The faces that a number of dice show, after those in `shown`, which is in reverse. -/
def facesAfter (faces : Faces) : (count : Nat) → (shown : List UInt32) → Rolling (List UInt32)
  | 0, shown => done shown.reverse
  | count + 1, shown => draw 1 faces.highest fun v => facesAfter faces count (faceOf v :: shown)

/-- The faces that a number of dice show. -/
def many (count : Nat) (faces : Faces) : Rolling (List UInt32) :=
  facesAfter faces count []

end Rolling

end Tabletop
