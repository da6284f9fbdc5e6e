import Mathlib
import Tabletop.Proofs.Dice.Repeated

/-!
# Chains of dice

A die that explodes brings a chain of dice into its group: its own value asks for the first of them,
and the value of each asks for the next.  The chains of all dice stand behind the dice of the group,
and in the group nothing tells where one ends and the next begins.  The loop that rolls a chain
knows only values; its dice are made from them afterwards, and each die but the last of them is
flagged.  So the dice of a chain, with the die before them, are compared with the values one by one,
by their places.

* `Die.exists_getElem?_cons_chain` — the dice of a chain by their places;
* `Die.explodes_chain` — what the loop makes of a die;
* `Modifier.apply_explode` — the modifier on a whole group.

How the proof goes.  What the loop stops at is known from the module on repeated rolls: the least
number of values that `Modifier.stops` accepts.  Read at the places of the chain, that it is the
least says that every earlier die asked for another one, and that it is accepted says that the last
one does not, or that there may be no more.  Everything else about a die is seen from how it is
made.
-/

namespace Tabletop

open List (Forall₂)

variable {faces : Faces} {context : RollContext}

/-- The value that counts after one more roll is the value of this roll. -/
theorem Modifier.latest_take_succ {start : Int64} {shown : List UInt32} {k : Nat} {face : UInt32}
    (at_k : shown[k]? = some face) :
    latest start (shown.take (k + 1)) = Int64.ofNat face.toNat := by
  unfold latest
  rw [List.take_add_one, at_k, Option.toList_some, List.getLast?_concat]
  rfl

namespace Die

/-! ## The dice of a chain

`Die.chain` is a recursion with a case for a single value, and the dice are wanted by their places.
Both inductions here follow the recursion. -/

/-- At every place stands a fresh die, which is flagged unless it is the last. -/
theorem getElem?_chain (shown : List UInt32) (k : Nat) :
    (chain faces shown)[k]? = shown[k]?.map fun face =>
      { faces, face, triggered := decide (k + 1 < shown.length), exploded := true } := by
  induction shown using chain.induct generalizing k with
  | case1 => rfl
  | case2 face => cases k <;> rfl
  | case3 face next shown ih =>
    cases k with
    | zero => simp [chain]
    | succ k => simp [chain, ih]

/-- The dice of a chain show the values that were rolled, in their order. -/
theorem map_face_chain (shown : List UInt32) : (chain faces shown).map (·.face) = shown := by
  induction shown using chain.induct with
  | case1 | case2 => rfl
  | case3 face next shown ih => rw [chain, List.map_cons, ih]

theorem length_chain (shown : List UInt32) : (chain faces shown).length = shown.length := by
  rw [← List.length_map (·.face), map_face_chain]

/-! ### Chains and what they are asked

The conditions say of each die of the chain whether it may explode and of the last one why it does
not. -/

/-- What becomes of a die that may explode, and the dice that are added for it.  The values that ask
for a further die are given by `again`, and at most `times` dice are added. -/
structure Explodes (again : Int64 → Bool) (times : Nat) (faces : Faces) (d d' : Die)
    (added : List Die) : Prop where
  /-- Nothing of the die itself changes but one flag. -/
  others : d' = { d with triggered := d'.triggered }
  /-- A dropped die does not explode, and neither does one that is flagged already. -/
  idle : d.dropped = true ∨ d.triggered = true → d' = d ∧ added = []
  length_le : added.length ≤ times
  /-- The added dice have shown one face each. -/
  fresh : ∀ x ∈ added, x = { faces, face := x.face, triggered := x.triggered, exploded := true }
  /-- All dice from this one on but the last asked for another one, and are flagged for it. -/
  asked : ∀ x ∈ (d' :: added).dropLast, again x.value = true ∧ x.triggered = true
  /-- The last of them is not flagged, and if there could have been more, it asks for none. -/
  last : d.dropped = false → d.triggered = false → ∀ x ∈ (d' :: added).getLast?,
    x.triggered = false ∧ (added.length < times → again x.value = false)

/-- A die that is dropped or flagged already is passed over. -/
theorem explodes_nil {again : Int64 → Bool} {times : Nat} {d : Die}
    (idle : (d.dropped || d.triggered) = true) : d.Explodes again times faces d [] where
  others := rfl
  idle _ := ⟨rfl, rfl⟩
  length_le := Nat.zero_le times
  fresh := List.forall_mem_nil _
  asked := List.forall_mem_nil _
  last live quiet := by
    rw [live, quiet] at idle
    cases idle

/-- The dice of a chain and the die before it, one by one: the value of each is the one that the
loop looks at, and each but the last is flagged. -/
theorem exists_getElem?_cons_chain (faces : Faces) (d : Die) (shown : List UInt32) {k : Nat}
    (inside : k ≤ shown.length) :
    ∃ x, ({ d with triggered := !shown.isEmpty } :: chain faces shown)[k]? = some x ∧
      x.value = Modifier.latest d.value (shown.take k) ∧
      x.triggered = decide (k < shown.length) := by
  cases k with
  -- The die that the chain belongs to.
  | zero =>
    refine ⟨_, rfl, rfl, ?_⟩
    cases shown <;> rfl
  -- A die of the chain itself, whose value is the one rolled last at this point.
  | succ k =>
    have at_k : shown[k]? = some shown[k] := List.getElem?_eq_getElem inside
    let link : Die :=
      { faces, face := shown[k], triggered := decide (k + 1 < shown.length), exploded := true }
    have value : link.value = Modifier.latest d.value (shown.take (k + 1)) :=
      (Modifier.latest_take_succ at_k).symm
    refine ⟨link, ?_, value, rfl⟩
    rw [List.getElem?_cons_succ, getElem?_chain, at_k]
    rfl

/-- **What the loop makes of a live die.** Each field is a fact about one place of the chain, and
the two that are not immediate come from the number of values being the least. -/
theorem explodes_chain {again : Int64 → Bool} {times : Nat} {d : Die} {shown : List UInt32}
    (live : d.dropped = false) (quiet : d.triggered = false)
    (least : IsLeast (Modifier.stops again times d.value shown) shown.length) :
    d.Explodes again times faces { d with triggered := !shown.isEmpty } (chain faces shown) where
  others := rfl
  idle set := by
    rw [live, quiet] at set
    rcases set with set | set <;> cases set
  length_le := by
    rw [length_chain]
    exact least.2 (.inl rfl)
  -- Fresh dice, flags and values do not depend on the die that the chain belongs to.
  fresh x mem := by
    obtain ⟨k, at_k⟩ := List.mem_iff_getElem?.1 mem
    rw [getElem?_chain, Option.map_eq_some_iff] at at_k
    obtain ⟨face, -, rfl⟩ := at_k
    rfl
  asked x mem := by
    obtain ⟨k, at_k⟩ := List.mem_iff_getElem?.1 mem
    rw [List.getElem?_dropLast, List.length_cons, length_chain, Nat.add_sub_cancel] at at_k
    split at at_k
    · next inside =>
      obtain ⟨y, at_k', value, triggered⟩ :=
        exists_getElem?_cons_chain faces d shown (Nat.le_of_lt inside)
      obtain rfl : y = x := Option.some.inj (at_k'.symm.trans at_k)
      refine ⟨?_, triggered.trans (decide_eq_true inside)⟩
      -- The loop would have stopped here if this value did not ask for another one.
      rw [value, ← Bool.not_eq_false]
      exact fun stops => absurd (least.2 (.inr stops)) (Nat.not_le.2 inside)
    · cases at_k
  last _ _ x isLast := by
    obtain ⟨y, at_end, value, triggered⟩ :=
      exists_getElem?_cons_chain faces d shown (Nat.le_refl shown.length)
    rw [Option.mem_def, List.getLast?_eq_getElem?, List.length_cons, length_chain,
      Nat.add_sub_cancel, at_end] at isLast
    obtain rfl : y = x := Option.some.inj isLast
    refine ⟨triggered.trans (decide_eq_false (Nat.lt_irrefl _)), fun more => ?_⟩
    rw [length_chain] at more
    rw [value]
    exact least.1.resolve_left (Nat.ne_of_lt more)

end Die

namespace Modifier

/-- The modifier on one die, as the loop and what is made of its values. -/
theorem explodeDie_makes (times : UInt32) (conditionals : List Conditional) :
    (explodeDie context faces times conditionals).Makes faces fun d r shown =>
      d.Explodes (holds context.policy conditionals (· == faces.highest))
        (min times.toNat context.cap.toNat) faces r.1 r.2 ∧ r.2.map (·.face) = shown := by
  refine makes_rollWhile
    (fun d shown => ({ d with triggered := !shown.isEmpty }, Die.chain faces shown))
    (fun _ idle => ⟨Die.explodes_nil idle, rfl⟩) fun d shown active least => ?_
  obtain ⟨live, quiet⟩ : d.dropped = false ∧ d.triggered = false := by simpa using active
  exact ⟨Die.explodes_chain live quiet least, Die.map_face_chain shown⟩

/-- **Explosions that add dice.**  Let the modifier be applied to any group, by whatever rules and
with whatever roller, and let it not be refused a die.  Nothing but the dice of the group has
changed.  The dice that were there are still there, and nothing of them has changed but that some
are flagged as having made an explosion happen.  Behind them stand the chains of those that were
neither dropped nor flagged before, in the order of these dice.  A chain has at most as many dice as
the modifier may add.  From the die that it belongs to on, each die asks for the next one and is
flagged; the last one is not, and it asks for none if the chain could have been longer.  The
conditionals decide which values ask for another die, and without any the highest face does.  The
added dice are live and flagged as added, and what they show is exactly what the roller was asked
for, in their order. -/
theorem apply_explode (context : RollContext) (times : UInt32) (conditionals : List Conditional)
    (g : RollGroup) (counted : Nat) {ρ : Type} [Roller ρ] (roller : ρ) {g' : RollGroup}
    (success :
      ((((explode times conditionals).apply context g).run counted).run roller).1.1 = (g', none)) :
    ∃ changes : List (Die × List Die),
      g' = { g with dice := changes.map (·.1) ++ changes.flatMap (·.2) } ∧
      Forall₂ (fun d c => d.Explodes (holds context.policy conditionals (· == g.faces.highest))
        (min times.toNat context.cap.toNat) g.faces c.1 c.2) g.dice changes ∧
      (((explode times conditionals).apply context g).run counted).DrawsFaces g.faces roller
        ((changes.flatMap (·.2)).map (·.face)) := by
  obtain ⟨changes, eq, related, draws⟩ :=
    exists_changes (explodeDie_makes times conditionals) success
  -- The faces of all chains together are what was rolled for the dice, one die after the other.
  have shown : ((changes.map (·.1)).flatMap (·.2)).map (·.face) = changes.flatMap (·.2) := by
    clear eq draws success
    generalize g.dice = dice at related
    induction related with
    | nil => rfl
    | cons one _ ih =>
      rw [List.map_cons, List.flatMap_cons, List.map_append, ih, one.2, List.flatMap_cons]
  refine ⟨changes.map (·.1), ?_, ?_, ?_⟩
  · rw [eq, List.map_map, List.flatMap_map]
    rfl
  · exact List.forall₂_map_right_iff.2 (related.imp fun _ _ => And.left)
  · rw [shown]
    exact draws

/-- The chain of the first six ends where the limit on repetitions ends it, though its last die is a
six.  The second six was dropped, and the third has exploded before.  A four to which a two was
added explodes as well, and its chain ends with its first die. -/
theorem apply_explode_two_chains :
    let six : Faces := ⟨6, by decide⟩
    let context : RollContext := .ofSettings { unboundedCap := 2 }
    let high : Die := { faces := six, face := 6 }
    let out : Die := { high with dropped := true }
    let flagged : Die := { high with triggered := true }
    let sum : Die := { faces := six, face := 4, bonus := [2] }
    let link : Die := { high with triggered := true, exploded := true }
    let end₁ : Die := { high with exploded := true }
    let end₂ : Die := { faces := six, face := 2, exploded := true }
    let g : RollGroup := ⟨"4d6!9", 4, six, [], [high, out, flagged, sum]⟩
    let g' : RollGroup := ⟨"4d6!9", 4, six, [],
      [flagged, out, flagged, { sum with triggered := true }, link, end₁, end₂]⟩
    let roller := SequenceRoller.ofList [6, 6, 2]
    let rolled := ((explode 9 []).apply context g).run 0
    (rolled.run roller).1.1 = (g', none) ∧
      ∃ changes : List (Die × List Die),
        g' = { g with dice := changes.map (·.1) ++ changes.flatMap (·.2) } ∧
        Forall₂ (fun d c => d.Explodes (holds context.policy [] (· == six.highest)) 2 six c.1 c.2)
          g.dice changes ∧
        rolled.DrawsFaces six roller ((changes.flatMap (·.2)).map (·.face)) := by
  intro six context high out flagged sum link end₁ end₂ g g' roller rolled
  have success : (rolled.run roller).1.1 = (g', none) := by cbv
  -- Without this step the two sides are evaluated to see that they agree.
  dsimp only [rolled] at success ⊢
  exact ⟨success, apply_explode context 9 [] g 0 roller success⟩

end Modifier

end Tabletop
