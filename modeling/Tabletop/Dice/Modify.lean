import Tabletop.Dice.RollGroup
import Tabletop.Evaluation
import Tabletop.Expression

/-!
# What modifiers do

Keeping and dropping order the dice; the other modifiers go through them from left to right and
roll further values. If such a value is refused because the limit is reached, the modifier stops
there: the dice before are changed, and so is the one at hand by the values it already has.
-/

namespace Tabletop

/-- A value, and the refusal that stopped it from getting further. -/
abbrev Stopped (α : Type) := α × Option EvaluationError

namespace Modifier

/-- Whether a value asks for another roll: the conditionals decide, or `default` if there are
none. -/
def holds (policy : MatchPolicy) (conditionals : List Conditional) (default : Int64 → Bool)
    (value : Int64) : Bool :=
  if conditionals.isEmpty then default value else policy.check conditionals value

/-- Rolls as long as the last value asks for it, at most `times` times. The result is the list of
the values rolled, after those of `rolled`, which is in reverse. -/
def rollWhile (context : RollContext) (faces : Faces) (again : Int64 → Bool) :
    (times : Nat) → (last : Int64) → (rolled : List UInt32) → Counted (Stopped (List UInt32))
  | 0, _, rolled => pure (rolled.reverse, none)
  | times + 1, last, rolled =>
    if again last then do
      match ← (context.rollOne faces).run with
      | .error refusal => pure (rolled.reverse, some refusal)
      | .ok face =>
        rollWhile context faces again times (Int64.ofNat face.toNat) (face :: rolled)
    else pure (rolled.reverse, none)

/-- What a repeating modifier makes of one die: the die changed, and the dice added by it. -/
abbrev DieChange := Die → Counted (Stopped (Die × List Die))

/-- Leaves a die as it is. -/
def leave (d : Die) : Counted (Stopped (Die × List Die)) :=
  pure ((d, []), none)

/-- Rolls a die again. -/
def rerollDie (context : RollContext) (faces : Faces) (times : UInt32)
    (conditionals : List Conditional) : DieChange := fun d =>
  if d.dropped then leave d
  else do
    let again := holds context.policy conditionals (· ≤ 1)
    let (shown, refusal) ← rollWhile context faces again (context.capped times) d.value []
    pure ((d.rollAgain shown, []), refusal)

/-- Adds dice for a die that explodes, unless it has exploded before. -/
def explodeDie (context : RollContext) (faces : Faces) (times : UInt32)
    (conditionals : List Conditional) : DieChange := fun d =>
  if d.dropped || d.triggered then leave d
  else do
    let again := holds context.policy conditionals (· == faces.highest)
    let (shown, refusal) ← rollWhile context faces again (context.capped times) d.value []
    pure (({ d with triggered := !shown.isEmpty }, Die.chain faces shown), refusal)

/-- Adds values to a die that explodes. -/
def combineDie (context : RollContext) (faces : Faces) (times : UInt32)
    (conditionals : List Conditional) : DieChange := fun d =>
  if d.dropped then leave d
  else do
    let again := holds context.policy conditionals (· == faces.highest)
    let last := Int64.ofNat d.lastComponent.toNat
    let (added, refusal) ← rollWhile context faces again (context.capped times) last []
    pure ((d.gain added, []), refusal)

/-- Changes the dice one after the other until one is refused. `changed` and `added` hold, in
reverse, the dice that are done and the dice added so far; these follow after all others. -/
def changeEach (change : DieChange) (changed added : List Die) :
    List Die → Counted (Stopped (List Die))
  | [] => pure (changed.reverse ++ added.reverse, none)
  | d :: dice => do
    let ((d, more), refusal) ← change d
    let added := more.reverse ++ added
    match refusal with
    | some _ => pure (changed.reverse ++ d :: dice ++ added.reverse, refusal)
    | none => changeEach change (d :: changed) added dice

/-- Whether a die comes before another, or may, when dice are taken from a side. -/
def comesFirst (side : Side) (a b : Die) : Bool :=
  match side with
  | .high => b.value ≤ a.value
  | .low => a.value ≤ b.value

/-- The places of the dice that count, from the given side, equal dice in the order in which they
were rolled. -/
def ranking (side : Side) (dice : List Die) : List Nat :=
  let live := dice.zipIdx.filter (!·.1.dropped)
  (live.mergeSort fun a b => comesFirst side a.1 b.1).map (·.2)

/-- The dice with those at the given places dropped. -/
def dropAt (places : List Nat) (dice : List Die) : List Die :=
  (places.foldl (fun dice i => dice.modify i ({ · with dropped := true })) dice.toArray).toList

/-- What a modifier makes of a group. -/
def apply (context : RollContext) (m : Modifier) (g : RollGroup) : Counted (Stopped RollGroup) :=
  match m with
  | reroll times conditionals =>
    changed (changeEach (rerollDie context g.faces times conditionals) [] [] g.dice)
  | explode times conditionals =>
    changed (changeEach (explodeDie context g.faces times conditionals) [] [] g.dice)
  | explodeCombine times conditionals =>
    changed (changeEach (combineDie context g.faces times conditionals) [] [] g.dice)
  | keep side n =>
    pure ({ g with dice := dropAt ((ranking side g.dice).drop n.toNat) g.dice }, none)
  | drop side n =>
    pure ({ g with dice := dropAt ((ranking side g.dice).take n.toNat) g.dice }, none)
where
  /-- The group with its dice changed. -/
  changed (change : Counted (Stopped (List Die))) : Counted (Stopped RollGroup) := do
    let (dice, refusal) ← change
    pure ({ g with dice }, refusal)

end Modifier

namespace RollGroup

/-- The group after its modifiers; it fails with the first that is refused. -/
def applyAll (context : RollContext) : List Modifier → RollGroup → Evaluation RollGroup
  | [], g => pure g
  | m :: modifiers, g => do
    let (g, refusal) ← (m.apply context g : Counted _)
    match refusal with
    | some e => throw e
    | none => applyAll context modifiers g

/-- Rolls a group of dice, applies its modifiers and marks the matches. -/
def roll (context : RollContext) (group : DiceGroup) : Evaluation RollGroup := do
  let shown ← context.rollMany group.count.toNat group.faces
  let rolled : RollGroup :=
    { written := group.written
      count := group.count
      faces := group.faces
      conditionals := group.conditionals
      dice := shown.map fun face => { faces := group.faces, face } }
  let changed ← applyAll context group.modifiers rolled
  return changed.markMatches context.policy

end RollGroup

end Tabletop
