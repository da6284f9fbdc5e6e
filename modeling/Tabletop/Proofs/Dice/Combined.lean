import Mathlib
import Tabletop.Proofs.Dice.ExactTotal
import Tabletop.Proofs.Dice.Repeated

/-!
# Values added to dice

An explosion can add its value to the die that made it happen.  What asks for another value is then
no longer the face of the die but the value that was added last, also if another modifier added it
before, while everything else looks at the sum.  `Die.Gains` says what becomes of a die in this way.

Since the last component tells where an explosion stopped, a second one goes on from there: it adds
nothing if the first stopped because nothing asked for more, and otherwise what one explosion with
more repetitions would have added next.  For a single live die that makes two explosions one.  For
several it does not, since the second explosion comes to the first die only after the first
explosion has been through all of them, so that the dice get other values.

* `Die.gains_gain` — what the loop makes of a die;
* `Modifier.rollWhile_add` — a loop that is gone on with;
* `Modifier.apply_explodeCombine_add` — two explosions in a row, also where one of them is refused a
  value;
* `Modifier.apply_explodeCombine` — the modifier on a whole group, and two of them.

The two halves of the main result have nothing in common but the definition of `Die.gain`.  The
first is the general theorem on repeated rolls with another step for each die.  The second is an
equation between computations, proved without any roller: the loops are equal as trees of questions
(`rollWhile_add`), the dropped dice around the live one ask no questions (`changeEach_of_single`),
and what the first explosion leaves is a die on which the second starts with the component that was
added last (`lastComponent_gain`).
-/

namespace Tabletop

open List (Forall₂)

variable {faces : Faces} {context : RollContext}

namespace Die

/-! ## What is added to a die -/

/-- What becomes of a die to which the values in `added` are added by explosions.  The values that
ask for another one are given by `again`, and at most `times` are added. -/
structure Gains (again : Int64 → Bool) (times : Nat) (d d' : Die) (added : List UInt32) :
    Prop where
  /-- Nothing is added to a dropped die. -/
  dropped : d.dropped = true → added = []
  /-- Values are added to any other die until the last of them does not ask for another, or as many
  as may be. -/
  least : d.dropped = false →
    IsLeast {k | k = times ∨
      again (Int64.ofNat (d.gain (added.take k)).lastComponent.toNat) = false} added.length
  /-- The values come after those that were added before, a die to which there are any is flagged,
  and nothing else of it changes. -/
  eq : d' = { d with bonus := d.bonus ++ added, triggered := d.triggered || !added.isEmpty }
  pips : d'.pips = d.pips + (added.map UInt32.toNat).sum
  value : d'.value = d.value + Int64.ofNat (added.map UInt32.toNat).sum

/-- Adding no values leaves the flag as it is, which is why the flag is a disjunction here. -/
theorem gain_eq (d : Die) (added : List UInt32) :
    d.gain added =
      { d with bonus := d.bonus ++ added, triggered := d.triggered || !added.isEmpty } := by
  cases added with
  | nil =>
    show d = { d with bonus := d.bonus ++ [], triggered := d.triggered || false }
    rw [List.append_nil, Bool.or_false]
  | cons value added =>
    show { d with bonus := d.bonus ++ value :: added, triggered := true } = _
    rw [List.isEmpty_cons, Bool.not_false, Bool.or_true]

theorem gain_gain (d : Die) (first second : List UInt32) :
    (d.gain first).gain second = d.gain (first ++ second) := by
  cases first with
  | nil => rfl
  | cons value first =>
    simp only [gain_eq, List.append_assoc, List.cons_append, List.isEmpty_cons, Bool.not_false,
      Bool.or_true, Bool.true_or]

theorem dropped_gain (d : Die) (added : List UInt32) : (d.gain added).dropped = d.dropped := by
  rw [gain_eq]

/-- The last component is the value that was added last, and before any the one there was.  It is
where a second explosion starts. -/
theorem lastComponent_gain (d : Die) (added : List UInt32) :
    Int64.ofNat (d.gain added).lastComponent.toNat =
      Modifier.latest (Int64.ofNat d.lastComponent.toNat) added := by
  rw [gain_eq]
  unfold lastComponent Modifier.latest
  rw [List.getLast?_append]
  cases added.getLast? <;> rfl

theorem pips_gain (d : Die) (added : List UInt32) :
    (d.gain added).pips = d.pips + (added.map UInt32.toNat).sum := by
  rw [gain_eq]
  unfold pips
  rw [List.foldl_append, foldl_add_toNat]

/-- A die gains what the loop has rolled for it.  The hypothesis `least` speaks of the values of the
loop, and the structure of the components of the die, which are the same. -/
theorem gains_gain {again : Int64 → Bool} {times : Nat} {d : Die} {added : List UInt32}
    (dropped : d.dropped = true → added = [])
    (least : d.dropped = false →
      IsLeast (Modifier.stops again times (Int64.ofNat d.lastComponent.toNat) added)
        added.length) :
    d.Gains again times (d.gain added) added where
  dropped := dropped
  least live := by simpa only [lastComponent_gain, Modifier.stops] using least live
  eq := gain_eq d added
  pips := pips_gain d added
  value := by
    unfold value
    rw [pips_gain, Int64.ofNat_add]

end Die

namespace Modifier

/-- The modifier on one die, as the loop and what is made of its values. -/
theorem combineDie_makes (times : UInt32) (conditionals : List Conditional) :
    (combineDie context faces times conditionals).Makes faces fun d r shown =>
      d.Gains (holds context.policy conditionals (· == faces.highest))
        (min times.toNat context.cap.toNat) r.1 shown ∧ r.2 = [] := by
  refine makes_rollWhile (fun d added => (d.gain added, [])) (fun d dropped => ⟨?_, rfl⟩)
    fun d added live least => ⟨?_, rfl⟩
  · refine Die.gains_gain (fun _ => rfl) fun live => ?_
    rw [dropped] at live
    cases live
  · exact Die.gains_gain (fun dropped => absurd dropped (Bool.eq_false_iff.1 live)) fun _ => least

/-! ## Two explosions in a row -/

variable {again : Int64 → Bool}

/-- A loop that may roll more values is the loop that may roll fewer, gone on with where it stopped.
If it stopped because the latest value did not ask for another, it stops again at once.  The
induction is on the repetitions of the first loop, for any value that it starts with. -/
theorem rollWhile_add (a b : Nat) (start : Int64) :
    rollWhile context faces again (a + b) start [] =
      rollWhile context faces again a start [] >>= fun
        | (shown, some refusal) => pure (shown, some refusal)
        | (shown, none) => rollWhile context faces again b (latest start shown) [] >>= fun r =>
            pure (shown ++ r.1, r.2) := by
  induction a generalizing start with
  -- The first loop rolls nothing, and what is left is the second.
  | zero =>
    rw [Nat.zero_add]
    show _ = rollWhile context faces again b start [] >>= fun r => pure ([] ++ r.1, r.2)
    exact (bind_pure _).symm
  | succ a ih =>
    rw [Nat.succ_add, rollWhile_succ, rollWhile_succ]
    split
    · rw [bind_assoc]
      refine congrArg _ (funext fun r => ?_)
      cases r with
      -- Refused: neither side goes on.
      | error refusal => rfl
      | ok face =>
        dsimp only
        rw [ih, bind_assoc, bind_assoc]
        refine congrArg _ (funext fun s => ?_)
        obtain ⟨shown, _ | refusal⟩ := s
        · rw [pure_bind, bind_assoc]
          dsimp only
          rw [latest_cons]
          rfl
        · rfl
    -- The value asks for nothing, so all three loops stop where they start.
    · next quiet =>
      rw [pure_bind]
      dsimp only
      rw [latest_nil]
      cases b with
      | zero => rfl
      | succ b =>
        rw [rollWhile_succ, if_neg quiet]
        rfl

/-! ### Groups with a single live die

All other dice are left as they are, so the group does what its one die does. -/

/-- Dice that are left as they are join those that are done.  The induction is on these dice, with
those already done as the parameter. -/
theorem changeEach_append_of_leave {change : DieChange} {idle : List Die}
    (leaves : ∀ x ∈ idle, change x = leave x) (changed added dice : List Die) :
    changeEach change changed added (idle ++ dice) =
      changeEach change (idle.reverse ++ changed) added dice := by
  induction idle generalizing changed with
  | nil => rfl
  | cons x idle ih =>
    obtain ⟨first, others⟩ := List.forall_mem_cons.1 leaves
    rw [List.cons_append, changeEach, first, leave, pure_bind]
    show changeEach change (x :: changed) added (idle ++ dice) = _
    rw [ih others, List.reverse_cons, List.append_assoc]
    rfl

/-- If all dice are left as they are, so is the group. -/
theorem changeEach_of_leave {change : DieChange} {idle : List Die}
    (leaves : ∀ x ∈ idle, change x = leave x) (changed added : List Die) :
    changeEach change changed added idle =
      pure (changed.reverse ++ idle ++ added.reverse, none) := by
  have all := changeEach_append_of_leave leaves changed added []
  rwa [List.append_nil, changeEach, List.reverse_append, List.reverse_reverse] at all

/-- If all dice but one are left as they are, the change of the group is that of this die. -/
theorem changeEach_of_single {change : DieChange} {before after : List Die} {d : Die}
    (leaves : ∀ x ∈ before ++ after, change x = leave x) :
    changeEach change [] [] (before ++ d :: after) =
      change d >>= fun r => pure (before ++ r.1.1 :: after ++ r.1.2, r.2) := by
  obtain ⟨leavesBefore, leavesAfter⟩ := List.forall_mem_append.1 leaves
  rw [changeEach_append_of_leave leavesBefore, List.append_nil, changeEach]
  refine congrArg _ (funext fun r => ?_)
  obtain ⟨⟨d', more⟩, refusal⟩ := r
  cases refusal with
  | some e => simp only [List.append_nil, List.reverse_reverse]
  | none =>
    dsimp only
    rw [changeEach_of_leave leavesAfter]
    simp only [List.append_nil, List.reverse_cons, List.reverse_reverse, List.append_assoc,
      List.cons_append, List.nil_append]

variable {a b : UInt32} {conditionals : List Conditional}

/-- The modifier on a group with a single live die is the loop on this die. -/
theorem apply_explodeCombine_of_single {g : RollGroup} {before after : List Die} {d : Die}
    (dice : g.dice = before ++ d :: after) (live : d.dropped = false)
    (dropped : ∀ x ∈ before ++ after, x.dropped = true) (times : UInt32) :
    (explodeCombine times conditionals).apply context g =
      rollWhile context g.faces (holds context.policy conditionals (· == g.faces.highest))
        (context.capped times) (Int64.ofNat d.lastComponent.toNat) [] >>= fun r =>
          pure ({ g with dice := before ++ d.gain r.1 :: after }, r.2) := by
  have leaves : ∀ x ∈ before ++ after,
      combineDie context g.faces times conditionals x = leave x :=
    fun x mem => if_pos (dropped x mem)
  rw [apply, dice, apply.changed, changeEach_of_single leaves, combineDie,
    if_neg (Bool.eq_false_iff.1 live)]
  simp

/-- **Two explosions in a row.**  With a single live die, the second explosion goes on where the
first stopped, so that together they are one that may add as many values as both. -/
theorem apply_explodeCombine_add {g : RollGroup} {d : Die} (single : g.live = [d])
    (within : a.toNat + b.toNat ≤ context.cap.toNat) :
    (explodeCombine (a + b) conditionals).apply context g =
      (explodeCombine a conditionals).apply context g >>= fun
        | (g', some refusal) => pure (g', some refusal)
        | (g', none) => (explodeCombine b conditionals).apply context g' := by
  -- The live die and the dropped ones on both sides of it.
  obtain ⟨before, after, dice, notLiveBefore, isLive, none⟩ := List.filter_eq_cons_iff.1 single
  have live : d.dropped = false := by simpa using isLive
  have dropped : ∀ x ∈ before ++ after, x.dropped = true := by
    refine List.forall_mem_append.2 ⟨fun x mem => ?_, fun x mem => ?_⟩
    · simpa using notLiveBefore x mem
    · simpa using List.filter_eq_nil_iff.1 none x mem
  -- Both numbers are below the limit on repetitions, and their sum does not wrap.
  have sum : (a + b).toNat = a.toNat + b.toNat := by
    rw [UInt32.toNat_add]
    exact Nat.mod_eq_of_lt (Nat.lt_of_le_of_lt within context.cap.toNat_lt)
  have capped : context.capped (a + b) = context.capped a + context.capped b := by
    rw [context.capped_eq, context.capped_eq, context.capped_eq, sum]
    omega
  rw [apply_explodeCombine_of_single dice live dropped,
    apply_explodeCombine_of_single dice live dropped, capped, rollWhile_add, bind_assoc, bind_assoc]
  refine congrArg _ (funext fun r => ?_)
  obtain ⟨shown, _ | refusal⟩ := r
  · rw [bind_assoc, pure_bind]
    dsimp only
    rw [apply_explodeCombine_of_single rfl ((d.dropped_gain shown).trans live) dropped,
      Die.lastComponent_gain]
    refine congrArg _ (funext fun s => ?_)
    rw [pure_bind, Die.gain_gain]
  · rfl

end Modifier

/-- The same as parts of the modifiers of a group: a refusal in the first explosion is one in the
second. -/
theorem RollGroup.applyAll_explodeCombine_add {a b : UInt32} {conditionals : List Conditional}
    {g : RollGroup} {d : Die} (single : g.live = [d])
    (within : a.toNat + b.toNat ≤ context.cap.toNat) :
    applyAll context [.explodeCombine a conditionals, .explodeCombine b conditionals] g =
      applyAll context [.explodeCombine (a + b) conditionals] g := by
  rw [applyAll, applyAll, Modifier.apply_explodeCombine_add single within, liftM_bind, bind_assoc]
  refine congrArg _ (funext fun r => ?_)
  obtain ⟨g', _ | refusal⟩ := r
  -- Not refused: the second modifier is applied to what the first has left.
  · rfl
  · exact (pure_bind _ _).symm

namespace Modifier

/-- **Explosions that add values.**  Let the modifier be applied to any group, by whatever rules and
with whatever roller, and let it not be refused a die.  Nothing but the dice of the group has
changed, and no die was added.  For each live die values are rolled and added: as many as the
modifier may add, or fewer if the last component of the die as it is after that many does not ask
for another one, and this number is the least such.  The conditionals decide which components ask
for another value, and without any the highest face does.  The value of the die grows by what was
added to it.  To dropped dice nothing is added.  What the roller was asked for are exactly the
values added, in the order of the dice.

In a group with a single live die, two such modifiers one after the other are one with as many
repetitions as both, if these are within the limit on repetitions: as rolls they are the same,
whatever the count and the roller are. -/
theorem apply_explodeCombine (context : RollContext) (conditionals : List Conditional)
    (g : RollGroup) :
    (∀ (times : UInt32) (counted : Nat) {ρ : Type} [Roller ρ] (roller : ρ) (g' : RollGroup),
      ((((explodeCombine times conditionals).apply context g).run counted).run roller).1.1 =
          (g', none) →
        ∃ changes : List (Die × List UInt32),
          g' = { g with dice := changes.map (·.1) } ∧
          Forall₂ (fun d c => d.Gains (holds context.policy conditionals (· == g.faces.highest))
            (min times.toNat context.cap.toNat) c.1 c.2) g.dice changes ∧
          (((explodeCombine times conditionals).apply context g).run counted).DrawsFaces g.faces
            roller (changes.flatMap (·.2))) ∧
    ∀ a b : UInt32, g.live.length = 1 → a.toNat + b.toNat ≤ context.cap.toNat →
      RollGroup.applyAll context [explodeCombine a conditionals, explodeCombine b conditionals] g =
        RollGroup.applyAll context [explodeCombine (a + b) conditionals] g := by
  refine ⟨fun times counted ρ _ roller g' success => ?_, fun a b single within => ?_⟩
  · exact exists_changes_of_added_eq_nil (combineDie_makes times conditionals) success
  · obtain ⟨d, eq⟩ := List.length_eq_one_iff.1 single
    exact RollGroup.applyAll_explodeCombine_add eq within

/-- A six that is dropped gains nothing, and one to which a four was added before gains nothing
either, since it is the four that counts.  The six after them gains as many values as it may, which
is what it gains in two steps. -/
theorem apply_explodeCombine_three :
    let six : Faces := ⟨6, by decide⟩
    let context : RollContext := .ofSettings {}
    let out : Die := { faces := six, face := 6, dropped := true }
    let gained : Die := { faces := six, face := 6, bonus := [4], triggered := true }
    let high : Die := { faces := six, face := 6 }
    let after : Die := { high with bonus := [6, 6, 2], triggered := true }
    let all : RollGroup := ⟨"3d6!!3", 3, six, [], [out, gained, high]⟩
    let single : RollGroup := ⟨"2d6!!!!2", 2, six, [], [out, high]⟩
    let roller := SequenceRoller.ofList [6, 6, 2]
    let rolled := ((explodeCombine 3 []).apply context all).run 0
    (rolled.run roller).1.1 = (⟨"3d6!!3", 3, six, [], [out, gained, after]⟩, none) ∧
      (∃ changes : List (Die × List UInt32),
        (⟨"3d6!!3", 3, six, [], [out, gained, after]⟩ : RollGroup) =
          { all with dice := changes.map (·.1) } ∧
        Forall₂ (fun d c => d.Gains (holds context.policy [] (· == six.highest)) 3 c.1 c.2)
          all.dice changes ∧
        rolled.DrawsFaces six roller (changes.flatMap (·.2))) ∧
      single.live.length = 1 ∧ (1 : UInt32).toNat + (2 : UInt32).toNat ≤ context.cap.toNat ∧
      RollGroup.applyAll context [explodeCombine 1 [], explodeCombine 2 []] single =
        RollGroup.applyAll context [explodeCombine 3 []] single := by
  intro six context out gained high after all single roller rolled
  have success : (rolled.run roller).1.1 =
      (⟨"3d6!!3", 3, six, [], [out, gained, after]⟩, none) := by cbv
  have within : (1 : UInt32).toNat + (2 : UInt32).toNat ≤ context.cap.toNat := by decide
  -- Without this step the two sides are evaluated to see that they agree.
  dsimp only [rolled] at success ⊢
  exact ⟨success, (apply_explodeCombine context [] all).1 3 0 roller _ success, rfl, within,
    (apply_explodeCombine context [] single).2 1 2 rfl within⟩

end Modifier

end Tabletop
