import Tabletop.Faces

/-!
# Dice

A die that has been rolled remembers its whole history: the faces it showed before it was rolled
again, the values that explosions added to it, and what the modifiers made of it.
-/

namespace Tabletop

/-- A rolled die. -/
structure Die where
  faces : Faces
  /-- The faces it showed before it was last rolled again, oldest first. -/
  earlier : List UInt32 := []
  /-- The face it shows. -/
  face : UInt32
  /-- The values added by explosions. -/
  bonus : List UInt32 := []
  /-- It does not count. -/
  dropped : Bool := false
  /-- It was rolled more than once. -/
  rerolled : Bool := false
  /-- It was added by an explosion. -/
  exploded : Bool := false
  /-- It made an explosion happen. -/
  triggered : Bool := false
  /-- It satisfied the conditionals of its group. -/
  matched : Bool := false
  deriving DecidableEq

namespace Die

/-- Every face the die has shown, oldest first. -/
def rolls (d : Die) : List UInt32 :=
  d.earlier ++ [d.face]

theorem rolls_ne_nil (d : Die) : d.rolls ≠ [] :=
  List.append_ne_nil_of_right_ne_nil _ (List.cons_ne_nil _ _)

/-- The value that was added last, or else the face. -/
def lastComponent (d : Die) : UInt32 :=
  d.bonus.getLast?.getD d.face

/-- The face and all that was added to it. -/
def pips (d : Die) : Nat :=
  d.bonus.foldl (fun n value => n + value.toNat) d.face.toNat

/-- The value of the die as a word. -/
def value (d : Die) : Int64 :=
  Int64.ofNat d.pips

/-- The die rolled again, once for each of the given faces. Nothing stays added to it. -/
def rollAgain (d : Die) (shown : List UInt32) : Die :=
  match shown.getLast? with
  | none => d
  | some last =>
    { d with
      earlier := d.earlier ++ d.face :: shown.dropLast
      face := last
      bonus := []
      rerolled := true }

/-- The die with the given values added by explosions. -/
def gain (d : Die) (added : List UInt32) : Die :=
  if added.isEmpty then d else { d with bonus := d.bonus ++ added, triggered := true }

/-- The dice of a chain of explosions that showed the given faces: each but the last made the next
one happen. -/
def chain (faces : Faces) : (shown : List UInt32) → List Die
  | [] => []
  | [face] => [{ faces, face, exploded := true }]
  | face :: next :: shown =>
    { faces, face, exploded := true, triggered := true } :: chain faces (next :: shown)

end Die

end Tabletop
