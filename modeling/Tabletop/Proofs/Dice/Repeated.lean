import Mathlib
import Tabletop.Proofs.Dice.Rolled
import Tabletop.Proofs.Rolling.DiceOnly
import Tabletop.Rolling.Sequence

/-!
# Repeated rolls

Three modifiers go through the dice of a group and roll further values for each, as long as the
latest value asks for another one and the number of repetitions allows it.  They differ in what they
make of the values.  What they have in common is stated here once: how many values are rolled for a
die, and that the dice which a roller is asked for are those of the first die of the group, then
those of the second, and so on.

* `Modifier.rollWhile_succ` — the loop, one value at a time;
* `Modifier.diceOnly_rollWhile` — the number of values is the least at which the loop can stop;
* `Modifier.makes_rollWhile` — a single die, from what is made of its values;
* `Modifier.exists_changes` — a whole group, from what becomes of each single die;
* `Modifier.apply_reroll` — the modifier that rolls dice again.

The loop looks at a die only at its start.  From then on it looks at the values that it has rolled,
while the statements are about the die that is made of them; `Modifier.latest` is the value that
both have in common.

"The least number at which the loop can stop" is the load-bearing phrase.  It says both that the
loop does not stop before, since no smaller number is one at which it can, and that it does not go
on, and it needs no recursion to say so.  The three statements about modifiers below are this phrase
with the value spelled out that the loop looks at.
-/

namespace Tabletop

open List (Forall₂)

variable {faces : Faces} {context : RollContext}

/-- The number of repetitions is cut at the limit on repetitions. -/
theorem RollContext.capped_eq (context : RollContext) (times : UInt32) :
    context.capped times = min times.toNat context.cap.toNat := by
  show (if times ≤ context.cap then times else context.cap).toNat = _
  split
  · next below => exact (Nat.min_eq_left (UInt32.le_iff_toNat_le.1 below)).symm
  · next above => exact (Nat.min_eq_right (Nat.le_of_lt (UInt32.not_le.1 above))).symm

namespace Modifier

/-! ## The loop

The loop has an accumulator in reverse order, which is of no use to anybody but itself.  The first
two lemmas get rid of it. -/

/-- The value there was at the start, or the last of those that have been rolled since. -/
def latest (start : Int64) (shown : List UInt32) : Int64 :=
  (shown.getLast?.map fun face => Int64.ofNat face.toNat).getD start

theorem latest_nil (start : Int64) : latest start [] = start := rfl

/-- A value that is rolled takes the place of the one at the start. -/
theorem latest_cons (start : Int64) (face : UInt32) (shown : List UInt32) :
    latest start (face :: shown) = latest (Int64.ofNat face.toNat) shown := by
  unfold latest
  rw [List.getLast?_cons]
  cases shown.getLast? <;> rfl

variable {again : Int64 → Bool}

/-- The values rolled before stay in front of the further ones, which do not depend on them.  The
induction is on the number of rolls that are left, for any accumulator. -/
theorem rollWhile_eq_bind (times : Nat) (last : Int64) (rolled : List UInt32) :
    rollWhile context faces again times last rolled =
      rollWhile context faces again times last [] >>= fun r =>
        pure (rolled.reverse ++ r.1, r.2) := by
  have stop (rolled : List UInt32) (refusal : Option EvaluationError) :
      (pure (rolled.reverse, refusal) : Counted (Stopped (List UInt32))) =
        pure ([], refusal) >>= fun r => pure (rolled.reverse ++ r.1, r.2) := by
    rw [pure_bind, List.append_nil]
  induction times generalizing last rolled with
  | zero => exact stop rolled none
  | succ times ih =>
    unfold rollWhile
    split
    · rw [bind_assoc]
      refine congrArg _ (funext fun r => ?_)
      cases r with
      | error refusal => exact stop rolled (some refusal)
      | ok face =>
        dsimp only
        rw [ih _ (face :: rolled), ih _ [face], bind_assoc]
        refine congrArg _ (funext fun s => ?_)
        rw [pure_bind, List.reverse_cons, List.append_assoc]
        rfl
    · exact stop rolled none

/-- A value that asks for it is followed by another one, and the loop goes on from there. -/
theorem rollWhile_succ (times : Nat) (start : Int64) :
    rollWhile context faces again (times + 1) start [] =
      if again start then
        (context.rollOne faces).run >>= fun
          | .error refusal => pure ([], some refusal)
          | .ok face =>
            rollWhile context faces again times (Int64.ofNat face.toNat) [] >>= fun r =>
              pure (face :: r.1, r.2)
      else pure ([], none) := by
  rw [rollWhile]
  refine if_congr Iff.rfl (congrArg _ (funext fun r => ?_)) rfl
  cases r with
  | error refusal => rfl
  | ok face => exact rollWhile_eq_bind times _ [face]

/-! ### The least number that stops

The loop goes on until the last value fails the test or the number of times is used up, and says
nothing of the values it would have shown after that. -/

/-- The numbers of values after which the loop can stop: as many as it may roll, and those after
which the latest value does not ask for another. -/
def stops (again : Int64 → Bool) (times : Nat) (start : Int64) (shown : List UInt32) : Set Nat :=
  {k | k = times ∨ again (latest start (shown.take k)) = false}

theorem isLeast_stops_nil {times : Nat} {start : Int64}
    (finished : times = 0 ∨ again start = false) : IsLeast (stops again times start []) 0 :=
  ⟨finished.imp Eq.symm id, fun k _ => Nat.zero_le k⟩

/-- A value that asks for another one takes the loop one value further.  Numbers are shifted by one,
and zero is ruled out by the value at the start. -/
theorem isLeast_stops_cons {times : Nat} {start : Int64} {face : UInt32} {shown : List UInt32}
    (asks : again start = true)
    (least : IsLeast (stops again times (Int64.ofNat face.toNat) shown) shown.length) :
    IsLeast (stops again (times + 1) start (face :: shown)) (face :: shown).length := by
  have shift (k : Nat) : k + 1 ∈ stops again (times + 1) start (face :: shown) ↔
      k ∈ stops again times (Int64.ofNat face.toNat) shown := by
    show k + 1 = times + 1 ∨ again (latest start ((face :: shown).take (k + 1))) = false ↔ _
    rw [Nat.add_right_cancel_iff, List.take_succ_cons, latest_cons]
    rfl
  refine ⟨(shift shown.length).2 least.1, fun k stopsAt => ?_⟩
  cases k with
  | zero =>
    rcases stopsAt with spent | quiet
    · cases spent
    · rw [List.take_zero, latest_nil, asks] at quiet
      cases quiet
  | succ k => exact Nat.succ_le_succ (least.2 ((shift k).1 stopsAt))

/-- **How many values are rolled.**  Unless it is refused a die, the loop ends with the least number
of values after which it can. -/
theorem diceOnly_rollWhile (times : Nat) (start : Int64) :
    Counted.DiceOnly faces
      (fun shown r =>
        r.1 = shown ∧ (r.2 = none → IsLeast (stops again times start shown) shown.length))
      (rollWhile context faces again times start []) := by
  induction times generalizing start with
  | zero => exact Counted.diceOnly_pure ⟨rfl, fun _ => isLeast_stops_nil (.inl rfl)⟩
  | succ times ih =>
    rw [rollWhile_succ]
    split
    · next asks =>
      refine (context.diceOnly_rollOne faces).bind fun first r eq => ?_
      cases r with
      -- Refused: how many values there are is left open.
      | error refusal => exact Counted.diceOnly_pure ⟨eq.symm ▸ rfl, nofun⟩
      | ok face =>
        obtain rfl : first = [face] := eq
        refine (ih _).bind fun shown r value => Counted.diceOnly_pure ?_
        obtain ⟨rfl, least⟩ := value
        rw [List.append_nil]
        exact ⟨rfl, fun success => isLeast_stops_cons asks (least success)⟩
    · next quiet =>
      rw [Bool.not_eq_true] at quiet
      exact Counted.diceOnly_pure ⟨rfl, fun _ => isLeast_stops_nil (.inr quiet)⟩

/-! ## All dice of a group

The loop is about a single die, and a group is changed die by die.  A relation `R` between a die,
what becomes of it and the faces rolled for it is what is carried from the one to the other. -/

/-- What a change makes of a die, unless it is refused one on the way: the relation is between the
die, what becomes of it and is added, and the faces that are rolled for it. -/
def DieChange.Makes (faces : Faces) (R : Die → Die × List Die → List UInt32 → Prop)
    (change : DieChange) : Prop :=
  ∀ d, Counted.DiceOnly faces (fun shown r => r.2 = none → R d r.1 shown) (change d)

variable {change : DieChange} {R : Die → Die × List Die → List UInt32 → Prop}

/-- The three changes are of this form: they leave some dice as they are, and make something of any
other die and of the values that the loop rolls for it. -/
theorem makes_rollWhile {idle : Die → Bool} {start : Die → Int64} {times : UInt32}
    (become : Die → List UInt32 → Die × List Die)
    (left : ∀ d, idle d = true → R d (d, []) [])
    (made : ∀ d shown, idle d = false →
      IsLeast (stops again (min times.toNat context.cap.toNat) (start d) shown) shown.length →
      R d (become d shown) shown) :
    DieChange.Makes faces R (fun d =>
      if idle d then leave d
      else do
        let (shown, refusal) ←
          rollWhile context faces again (context.capped times) (start d) []
        pure (become d shown, refusal)) := by
  intro d
  dsimp only
  split
  · next isIdle => exact Counted.diceOnly_pure fun _ => left d isIdle
  · next active =>
    rw [context.capped_eq]
    refine (diceOnly_rollWhile _ _).bind fun shown r value => ?_
    obtain ⟨rfl, least⟩ := value
    refine Counted.diceOnly_pure fun success => ?_
    rw [List.append_nil]
    exact made d _ (Bool.eq_false_iff.2 active) (least success)

/-- The faces rolled for a die come after those rolled for the dice before it. -/
theorem diceOnly_changeEach (each : change.Makes faces R) (changed added dice : List Die) :
    Counted.DiceOnly faces
      (fun drawn r => r.2 = none → ∃ changes : List ((Die × List Die) × List UInt32),
        r.1 = changed.reverse ++ changes.map (·.1.1) ++
          (added.reverse ++ changes.flatMap (·.1.2)) ∧
        drawn = changes.flatMap (·.2) ∧ Forall₂ (fun d c => R d c.1 c.2) dice changes)
      (changeEach change changed added dice) := by
  -- Induction on the dice still to be changed; the two accumulators stay in front of their parts.
  induction dice generalizing changed added with
  | nil => exact Counted.diceOnly_pure fun _ => ⟨[], by simp, rfl, .nil⟩
  | cons d dice ih =>
    refine (each d).bind ?_
    rintro shown ⟨⟨d', fresh⟩, refusal⟩ one
    cases refusal with
    -- Refused at this die, so nothing is claimed.
    | some refusal => exact Counted.diceOnly_pure nofun
    | none =>
      refine (ih (d' :: changed) (fresh.reverse ++ added)).mono fun drawn r value success => ?_
      obtain ⟨changes, eq, rfl, related⟩ := value success
      refine ⟨((d', fresh), shown) :: changes, ?_, rfl, .cons (one rfl) related⟩
      rw [eq]
      simp only [List.reverse_append, List.reverse_cons, List.reverse_reverse, List.append_assoc,
        List.map_cons, List.flatMap_cons, List.cons_append, List.nil_append]

/-- **A whole group.**  A modifier that is not refused a die makes of each die what it makes of it
alone, and the dice that the roller is asked for are those of the single dice, one after the
other. -/
theorem exists_changes {g g' : RollGroup} (each : change.Makes g.faces R) {counted : Nat}
    {ρ : Type} [Roller ρ] {roller : ρ}
    (success : (((apply.changed g (changeEach change [] [] g.dice)).run counted).run roller).1.1 =
      (g', none)) :
    ∃ changes : List ((Die × List Die) × List UInt32),
      g' = { g with dice := changes.map (·.1.1) ++ changes.flatMap (·.1.2) } ∧
      Forall₂ (fun d c => R d c.1 c.2) g.dice changes ∧
      ((apply.changed g (changeEach change [] [] g.dice)).run counted).DrawsFaces g.faces roller
        (changes.flatMap (·.2)) := by
  have whole : Counted.DiceOnly g.faces
      (fun drawn r => r.2 = none → ∃ changes : List ((Die × List Die) × List UInt32),
        r.1 = { g with dice := changes.map (·.1.1) ++ changes.flatMap (·.1.2) } ∧
        drawn = changes.flatMap (·.2) ∧ Forall₂ (fun d c => R d c.1 c.2) g.dice changes)
      (apply.changed g (changeEach change [] [] g.dice)) := by
    refine (diceOnly_changeEach each [] [] g.dice).bind fun drawn r value => ?_
    refine Counted.diceOnly_pure fun success => ?_
    obtain ⟨changes, eq, drawn, related⟩ := value success
    exact ⟨changes, congrArg (RollGroup.mk _ _ _ _) eq, (List.append_nil _).trans drawn, related⟩
  obtain ⟨drawn, draws, value⟩ := (whole counted).exists_drawsFaces roller
  rw [success] at value
  obtain ⟨changes, eq, rfl, related⟩ := value rfl
  exact ⟨changes, eq, related, draws⟩

/-- The same for a modifier that adds no dice. -/
theorem exists_changes_of_added_eq_nil {P : Die → Die → List UInt32 → Prop} {g g' : RollGroup}
    (each : change.Makes g.faces fun d r shown => P d r.1 shown ∧ r.2 = []) {counted : Nat}
    {ρ : Type} [Roller ρ] {roller : ρ}
    (success : (((apply.changed g (changeEach change [] [] g.dice)).run counted).run roller).1.1 =
      (g', none)) :
    ∃ changes : List (Die × List UInt32),
      g' = { g with dice := changes.map (·.1) } ∧
      Forall₂ (fun d c => P d c.1 c.2) g.dice changes ∧
      ((apply.changed g (changeEach change [] [] g.dice)).run counted).DrawsFaces g.faces roller
        (changes.flatMap (·.2)) := by
  obtain ⟨changes, rfl, related, draws⟩ := exists_changes each success
  -- No die has others added for it, so there are none behind the dice.
  have none : changes.flatMap (·.1.2) = [] := by
    clear draws success
    generalize g.dice = dice at related
    induction related with
    | nil => rfl
    | cons one _ ih => rw [List.flatMap_cons, one.2, ih, List.nil_append]
  refine ⟨changes.map fun c => (c.1.1, c.2), ?_, ?_, ?_⟩
  · rw [none, List.append_nil, List.map_map]
    rfl
  · exact List.forall₂_map_right_iff.2 (related.imp fun _ _ => And.left)
  · rwa [List.flatMap_map]

end Modifier

/-! ## Rolling dice again

The first of the three modifiers, which needs no further preparation; the other two have modules of
their own. -/

namespace Die

/-- What becomes of a die for which `shown` is rolled again.  The values that ask for another roll
are given by `again`, and there are at most `times` rolls. -/
structure RollsAgain (again : Int64 → Bool) (times : Nat) (d d' : Die) (shown : List UInt32) :
    Prop where
  /-- A dropped die is not rolled again. -/
  dropped : d.dropped = true → shown = []
  /-- Any other die is rolled again until its value does not ask for it, or as often as it may. -/
  least : d.dropped = false →
    IsLeast {k | k = times ∨ again (d.rollAgain (shown.take k)).value = false} shown.length
  /-- The faces are shown after those that were shown before. -/
  rolls : d'.rolls = d.rolls ++ shown
  /-- Nothing stays added to a die that is rolled again. -/
  rolled : shown ≠ [] → d'.bonus = [] ∧ d'.rerolled = true
  not_rolled : shown = [] → d' = d
  /-- Nothing else of the die changes. -/
  others : d' = { d with
    earlier := d'.earlier, face := d'.face, bonus := d'.bonus, rerolled := d'.rerolled }

/-- The value of a die before it is rolled again counts what was added to it, and that of a die that
has been rolled again is the face. -/
theorem value_rollAgain (d : Die) (shown : List UInt32) :
    (d.rollAgain shown).value = Modifier.latest d.value shown := by
  unfold rollAgain Modifier.latest
  cases shown.getLast? <;> rfl

theorem rollAgain_nil (d : Die) : d.rollAgain [] = d := rfl

theorem rollsAgain_nil {again : Int64 → Bool} {times : Nat} {d : Die} (dropped : d.dropped = true) :
    d.RollsAgain again times d [] where
  dropped _ := rfl
  least live := by
    rw [dropped] at live
    cases live
  rolls := (List.append_nil _).symm
  rolled some := absurd rfl some
  not_rolled _ := rfl
  others := rfl

/-- **What the loop makes of a live die.** The values of the loop are those of the die, by
`Die.value_rollAgain`. -/
theorem rollsAgain_rollAgain {again : Int64 → Bool} {times : Nat} {d : Die} {shown : List UInt32}
    (live : d.dropped = false)
    (least : IsLeast (Modifier.stops again times d.value shown) shown.length) :
    d.RollsAgain again times (d.rollAgain shown) shown where
  dropped isDropped := by
    rw [live] at isDropped
    cases isDropped
  least _ := by simpa only [value_rollAgain, Modifier.stops] using least
  rolls := rolls_rollAgain d shown
  rolled some := by
    unfold rollAgain
    split
    · next none => exact absurd (List.getLast?_eq_none_iff.1 none) some
    · exact ⟨rfl, rfl⟩
  not_rolled none := by rw [none, rollAgain_nil]
  others := by
    unfold rollAgain
    split <;> rfl

end Die

namespace Modifier

/-- The modifier on one die, as the loop and what is made of its values. -/
theorem rerollDie_makes (times : UInt32) (conditionals : List Conditional) :
    (rerollDie context faces times conditionals).Makes faces fun d r shown =>
      d.RollsAgain (holds context.policy conditionals (· ≤ 1))
        (min times.toNat context.cap.toNat) r.1 shown ∧ r.2 = [] :=
  makes_rollWhile (fun d shown => (d.rollAgain shown, []))
    (fun _ dropped => ⟨Die.rollsAgain_nil dropped, rfl⟩)
    fun _ _ live least => ⟨Die.rollsAgain_rollAgain live least, rfl⟩

/-- **Rolling dice again.**  Let the modifier be applied to any group, by whatever rules and with
whatever roller, and let it not be refused a die.  Nothing but the dice of the group has changed,
and no die was added.  For each live die further values are rolled: as many as the modifier may
roll, or fewer if the die as it is after that many rolls does not ask for another one, and this
number is the least such.  Its value is the face and all that was added to it before the first of
these rolls, and the face alone from then on.  The conditionals decide which values ask for another
roll, and without any a value of at most 1 does.  Dropped dice are not rolled again.  What the
roller was asked for are exactly the values of the dice, in the order of the dice. -/
theorem apply_reroll (context : RollContext) (times : UInt32) (conditionals : List Conditional)
    (g : RollGroup) (counted : Nat) {ρ : Type} [Roller ρ] (roller : ρ) {g' : RollGroup}
    (success :
      ((((reroll times conditionals).apply context g).run counted).run roller).1.1 = (g', none)) :
    ∃ changes : List (Die × List UInt32),
      g' = { g with dice := changes.map (·.1) } ∧
      Forall₂ (fun d c => d.RollsAgain (holds context.policy conditionals (· ≤ 1))
        (min times.toNat context.cap.toNat) c.1 c.2) g.dice changes ∧
      (((reroll times conditionals).apply context g).run counted).DrawsFaces g.faces roller
        (changes.flatMap (·.2)) :=
  exists_changes_of_added_eq_nil (rerollDie_makes times conditionals) success

/-- A one to which a two was added asks for another roll by its value, which is three, and stops at
a five.  The second die was dropped.  The third still asks for a roll when there may be no more. -/
theorem apply_reroll_three :
    let six : Faces := ⟨6, by decide⟩
    let context : RollContext := .ofSettings {}
    let sum : Die := { faces := six, face := 1, bonus := [2], triggered := true }
    let out : Die := { faces := six, face := 1, dropped := true }
    let low : Die := { faces := six, face := 2 }
    let g : RollGroup := ⟨"3d6r2<=3", 3, six, [], [sum, out, low]⟩
    let g' : RollGroup := ⟨"3d6r2<=3", 3, six, [],
      [{ sum with earlier := [1], face := 5, bonus := [], rerolled := true }, out,
        { low with earlier := [2, 1], face := 3, rerolled := true }]⟩
    let roller := SequenceRoller.ofList [5, 1, 3]
    let rolled := ((reroll 2 [⟨.le, 3⟩]).apply context g).run 0
    (rolled.run roller).1.1 = (g', none) ∧
      ∃ changes : List (Die × List UInt32),
        g' = { g with dice := changes.map (·.1) } ∧
        Forall₂ (fun d c => d.RollsAgain (holds context.policy [⟨.le, 3⟩] (· ≤ 1)) 2 c.1 c.2)
          g.dice changes ∧
        rolled.DrawsFaces six roller (changes.flatMap (·.2)) := by
  intro six context sum out low g g' roller rolled
  have success : (rolled.run roller).1.1 = (g', none) := by cbv
  -- Without this step the two sides are evaluated to see that they agree.
  dsimp only [rolled] at success ⊢
  exact ⟨success, apply_reroll context 2 [⟨.le, 3⟩] g 0 roller success⟩

end Modifier

end Tabletop
