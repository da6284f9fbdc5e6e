import Mathlib.Data.List.Forall2
import Mathlib.Logic.Relation
import Tabletop.Dice.Modify
import Tabletop.Proofs.Rolling.Always

/-!
# What modifiers can do to dice

Everything that a modifier does to a group is done die by die: each die that was there takes one
step, and further dice may be appended.  `Die.Step` lists the steps, `Modifier.Changes` says what
one modifier does to the dice of a group, and a group that is rolled runs through any number of such
changes.

* `Modifier.ensures_apply` — a modifier changes only the dice, and those as `Modifier.Changes` says,
  also where it is stopped by the limit;
* `RollGroup.ensures_applyAll` — all modifiers of a group, one after the other;
* `RollGroup.ensures_roll` — a rolled group: as many dice as were asked for, the dice added by
  explosions after them, each run through any number of steps, and the matches marked at the end.

A property of single dice is a property of every rolled group if fresh dice have it and steps
preserve it.  The order of the dice and the split between those asked for and those added come with
the theorem, so that properties of the group as a list can be read off as well.

What is load-bearing is that the steps are listed at all.  The bodies of the modifiers are opened
once, in the lemmas named `_sound` below, and every later statement about rolled dice is proved by
an induction on steps: it never meets a roller, a budget or a loop.  The set `may` of the faces that
can be shown is a parameter, so that one list of steps serves statements about all rollers and
statements about those that keep to the faces.
-/

namespace Tabletop

open List (Forall₂)
open Relation (ReflTransGen)

variable {may : Answers} {faces : Faces}

/-! ## Steps of a die

A step is what one modifier does to one die.  Its constructors say what the die must have been like,
which is where later proofs find that a dropped die is left alone. -/

namespace Die

/-- What one modifier can make of one die of a group whose dice have the given faces.  A die that
was dropped stays as it is.  The faces come from outside, as those of the group: a die is never
rolled with other faces than the group has. -/
inductive Step (may : Answers) (faces : Faces) : Die → Die → Prop
  | same {d : Die} : Step may faces d d
  | drop {d : Die} (live : d.dropped = false) : Step may faces d { d with dropped := true }
  | again {d : Die} {shown : List UInt32} (live : d.dropped = false)
      (rolled : ∀ v ∈ shown, may.Shows faces v) : Step may faces d (d.rollAgain shown)
  | gain {d : Die} {added : List UInt32} (live : d.dropped = false)
      (rolled : ∀ v ∈ added, may.Shows faces v) : Step may faces d (d.gain added)
  | trigger {d : Die} {triggered : Bool} (live : d.dropped = false)
      (quiet : d.triggered = false) : Step may faces d { d with triggered }

/-- A die that stays as it is, or is dropped if it counts. -/
def MayDrop (d d' : Die) : Prop :=
  d' = d ∨ d.dropped = false ∧ d' = { d with dropped := true }

/-- A die as it is first rolled. -/
def IsAsked (may : Answers) (faces : Faces) (d : Die) : Prop :=
  ∃ face, may.Shows faces face ∧ d = { faces, face }

/-- A die as an explosion adds it. -/
def IsAdded (may : Answers) (faces : Faces) (d : Die) : Prop :=
  ∃ face triggered, may.Shows faces face ∧ d = { faces, face, triggered, exploded := true }

/-- A die takes a step, and only fresh dice are added for it. -/
def ChangesTo (may : Answers) (faces : Faces) (d : Die) (r : Die × List Die) : Prop :=
  d.Step may faces r.1 ∧ ∀ fresh ∈ r.2, fresh.IsAdded may faces

/-- A die that has come from a fresh one by steps. -/
def ComesFrom (may : Answers) (faces : Faces) (fresh : Answers → Faces → Die → Prop)
    (d : Die) : Prop :=
  ∃ first, fresh may faces first ∧ ReflTransGen (Step may faces) first d

theorem ComesFrom.refl {fresh : Answers → Faces → Die → Prop} {d : Die} (h : fresh may faces d) :
    ComesFrom may faces fresh d :=
  ⟨d, h, .refl⟩

theorem ComesFrom.step {fresh : Answers → Faces → Die → Prop} {d d' : Die}
    (h : ComesFrom may faces fresh d) (step : Step may faces d d') :
    ComesFrom may faces fresh d' := by
  obtain ⟨first, isFresh, run⟩ := h
  exact ⟨first, isFresh, run.tail step⟩

/-- A property of fresh dice that steps preserve.  The induction is on the run, from its end, so
that `preserved` is applied at the last step. -/
theorem ComesFrom.invariant {fresh : Answers → Faces → Die → Prop} {P : Die → Prop}
    (start : ∀ d, fresh may faces d → P d) (preserved : ∀ {d d'}, Step may faces d d' → P d → P d')
    {d : Die} (h : ComesFrom may faces fresh d) : P d := by
  obtain ⟨first, isFresh, run⟩ := h
  induction run with
  | refl => exact start first isFresh
  | tail _ step ih => exact preserved step ih

/-- All dice of a chain are fresh.  The induction follows the chain, whose last die is not triggered
and whose others are. -/
theorem isAdded_of_mem_chain {shown : List UInt32} (rolled : ∀ v ∈ shown, may.Shows faces v) :
    ∀ d ∈ chain faces shown, IsAdded may faces d := by
  induction shown using chain.induct with
  | case1 => exact List.forall_mem_nil _
  | case2 face =>
    rw [List.forall_mem_singleton] at rolled
    rw [chain, List.forall_mem_singleton]
    exact ⟨face, false, rolled, rfl⟩
  | case3 face next shown ih =>
    rw [List.forall_mem_cons] at rolled
    rw [chain, List.forall_mem_cons]
    exact ⟨⟨face, true, rolled.1, rfl⟩, ih rolled.2⟩

end Die

namespace Modifier

/-- What a modifier can make of the dice of a group: each takes a step, and dice are added. -/
def Changes (may : Answers) (faces : Faces) (before after : List Die) : Prop :=
  ∃ kept added, after = kept ++ added ∧ Forall₂ (Die.Step may faces) before kept ∧
    ∀ d ∈ added, d.IsAdded may faces

/-! ## Dropping -/

/-- Dropping a die twice is dropping it once, so a list of places may name a place repeatedly. -/
theorem forall₂_modify {R : Die → Die → Prop} {f : Die → Die}
    (absorbs : ∀ {a b}, R a b → R a (f b)) {before after : List Die} (h : Forall₂ R before after)
    (i : Nat) : Forall₂ R before (after.modify i f) := by
  induction h generalizing i with
  | nil =>
    rw [List.modify_nil]
    exact .nil
  | cons head tail ih =>
    cases i with
    | zero => exact .cons (absorbs head) tail
    | succ i => exact .cons head (ih i)

/-- Dropping the dice at some places leaves every die as it is or drops it. -/
theorem forall₂_dropAt (places : List Nat) (dice : List Die) :
    Forall₂ (fun d d' => d' = d ∨ d' = { d with dropped := true }) dice (dropAt places dice) := by
  let R (d d' : Die) : Prop := d' = d ∨ d' = { d with dropped := true }
  have absorbs : ∀ {d d'}, R d d' → R d { d' with dropped := true } := by
    rintro d d' (rfl | rfl) <;> exact .inr rfl
  -- The places are worked off one by one, so the array in between has to be a parameter.
  suffices ∀ now : Array Die, Forall₂ R dice now.toList → Forall₂ R dice
      (places.foldl (fun dice i => dice.modify i ({ · with dropped := true })) now).toList from
    this dice.toArray (List.forall₂_same.2 fun d _ => .inl rfl)
  induction places with
  | nil => exact fun _ h => h
  | cons i places ih =>
    intro now h
    refine ih _ ?_
    rw [Array.toList_modify]
    exact forall₂_modify absorbs h i

/-- Dropping a die that was dropped before changes nothing. -/
theorem mayDrop_dropAt (places : List Nat) (dice : List Die) :
    Forall₂ Die.MayDrop dice (dropAt places dice) := by
  refine (forall₂_dropAt places dice).imp ?_
  rintro d d' (rfl | rfl)
  · exact .inl rfl
  · cases dropped : d.dropped with
    | false => exact .inr ⟨dropped, rfl⟩
    | true =>
      have unchanged : { d with dropped := true } = d := by rw [← dropped]
      exact .inl unchanged

/-- So dropping is a change of the kind that every modifier makes, and it adds nothing. -/
theorem changes_dropAt (places : List Nat) (dice : List Die) :
    Changes may faces dice (dropAt places dice) := by
  refine ⟨_, [], (List.append_nil _).symm, ?_, List.forall_mem_nil _⟩
  refine (mayDrop_dropAt places dice).imp ?_
  rintro d d' (rfl | ⟨live, rfl⟩)
  · exact .same
  · exact .drop live

/-! ## Repeated rolls

The three modifiers that roll again share the loop `rollWhile`.  What is shown in its course can be
shown, also when the loop is stopped by a refusal, and of each modifier it remains to see which step
it makes of what was shown. -/

variable {context : RollContext}

/-- The loop returns only faces that can be shown.  The induction is on the number of rolls that are
left; the rolls made so far are an accumulator, so what holds of them is a hypothesis. -/
theorem ensures_rollWhile {again : Int64 → Bool} (times : Nat) {last : Int64}
    {rolled : List UInt32} (before : ∀ v ∈ rolled, may.Shows faces v) :
    Counted.Ensures may (rollWhile context faces again times last rolled) fun r =>
      ∀ v ∈ r.1, may.Shows faces v := by
  have stop : ∀ v ∈ rolled.reverse, may.Shows faces v :=
    fun v mem => before v (List.mem_reverse.1 mem)
  induction times generalizing last rolled with
  | zero => exact Counted.ensures_pure stop
  | succ times ih =>
    unfold rollWhile
    split
    · refine Counted.Ensures.bind (context.ensures_rollOne faces) fun r shown => ?_
      cases r with
      | error refusal => exact Counted.ensures_pure stop
      | ok face =>
        have more := List.forall_mem_cons.2 ⟨shown face rfl, before⟩
        exact ih more fun v mem => more v (List.mem_reverse.1 mem)
    · exact Counted.ensures_pure stop

/-- What a repeating modifier makes of one die is a step, and it adds only fresh dice. -/
def DieChange.Sound (may : Answers) (faces : Faces) (change : DieChange) : Prop :=
  ∀ d, Counted.Ensures may (change d) fun r => d.ChangesTo may faces r.1

variable {times : UInt32} {conditionals : List Conditional}

/-- A die that a modifier passes over has taken the step that changes nothing. -/
theorem ensures_leave (d : Die) :
    Counted.Ensures may (leave d) fun r => d.ChangesTo may faces r.1 :=
  Counted.ensures_pure ⟨.same, List.forall_mem_nil _⟩

theorem rerollDie_sound :
    DieChange.Sound may faces (rerollDie context faces times conditionals) := by
  intro d
  unfold rerollDie
  split
  · exact ensures_leave d
  · next live =>
    refine (ensures_rollWhile _ (List.forall_mem_nil _)).bind fun r rolled => ?_
    exact Counted.ensures_pure ⟨.again (Bool.not_eq_true _ ▸ live) rolled, List.forall_mem_nil _⟩

/-- An explosion triggers a live die and adds the chain of what was rolled. -/
theorem explodeDie_sound :
    DieChange.Sound may faces (explodeDie context faces times conditionals) := by
  intro d
  unfold explodeDie
  split
  · exact ensures_leave d
  · next idle =>
    obtain ⟨live, quiet⟩ : d.dropped = false ∧ d.triggered = false := by simpa using idle
    refine (ensures_rollWhile _ (List.forall_mem_nil _)).bind fun r rolled => ?_
    exact Counted.ensures_pure ⟨.trigger live quiet, Die.isAdded_of_mem_chain rolled⟩

/-- A combining explosion adds to the die what was rolled. -/
theorem combineDie_sound :
    DieChange.Sound may faces (combineDie context faces times conditionals) := by
  intro d
  unfold combineDie
  split
  · exact ensures_leave d
  · next live =>
    refine (ensures_rollWhile _ (List.forall_mem_nil _)).bind fun r rolled => ?_
    exact Counted.ensures_pure ⟨.gain (by simpa using live) rolled, List.forall_mem_nil _⟩

/-- What a change does to every single die it does to a list of dice, die by die; the dice that it
adds stand behind all others, in the order of the dice that they were added for.  A die that is not
reached because another was refused before it is left as it is. -/
theorem ensures_changeEach {change : DieChange} {R : Die → Die × List Die → Prop}
    (each : ∀ d, Counted.Ensures may (change d) fun r => R d r.1) (leave : ∀ d, R d (d, []))
    (changed added dice : List Die) :
    Counted.Ensures may (changeEach change changed added dice) fun r =>
      ∃ changes, r.1 = changed.reverse ++ changes.map (·.1) ++
          (added.reverse ++ changes.flatMap (·.2)) ∧
        Forall₂ R dice changes := by
  -- Induction on the dice still to be changed; the two accumulators stay in front of their parts.
  induction dice generalizing changed added with
  | nil => exact Counted.ensures_pure ⟨[], by simp, .nil⟩
  | cons d dice ih =>
    refine (each d).bind ?_
    rintro ⟨⟨d', fresh⟩, refusal⟩ one
    cases refusal with
    -- Refused at this die: the dice behind it are left as they are.
    | some refusal =>
      refine Counted.ensures_pure ⟨(d', fresh) :: dice.map (·, []), ?_, .cons one ?_⟩
      · simp [Function.comp_def, List.flatMap_map]
      · exact List.forall₂_map_right_iff.2 (List.forall₂_same.2 fun d _ => leave d)
    | none =>
      refine (ih (d' :: changed) (fresh.reverse ++ added)).mono ?_
      rintro r ⟨changes, eq, related⟩
      refine ⟨(d', fresh) :: changes, ?_, .cons one related⟩
      rw [eq]
      simp only [List.reverse_append, List.reverse_cons, List.reverse_reverse, List.append_assoc,
        List.map_cons, List.flatMap_cons, List.cons_append, List.nil_append]

/-- Single steps make a change: the dice that stepped come first, the added ones behind them. -/
theorem changes_of_forall₂ {dice : List Die} {changes : List (Die × List Die)}
    (related : Forall₂ (Die.ChangesTo may faces) dice changes) :
    Changes may faces dice (changes.map (·.1) ++ changes.flatMap (·.2)) := by
  refine ⟨_, _, rfl, List.forall₂_map_right_iff.2 (related.imp fun _ _ => And.left), ?_⟩
  induction related with
  | nil => exact List.forall_mem_nil _
  | cons one _ ih =>
    rw [List.flatMap_cons, List.forall_mem_append]
    exact ⟨one.2, ih⟩

/-- **What a modifier does to a group.** It changes nothing but the dice, and those only by one step
each and by adding fresh dice behind them, also where it is stopped by the limit.  The only place
where the modifiers are told apart. -/
theorem ensures_apply (m : Modifier) (g : RollGroup) :
    Counted.Ensures may (m.apply context g) fun r =>
      ∃ dice, r.1 = { g with dice } ∧ Changes may g.faces g.dice dice := by
  have repeated {change : DieChange} (sound : change.Sound may g.faces) :
      Counted.Ensures may (apply.changed g (changeEach change [] [] g.dice)) fun r =>
        ∃ dice, r.1 = { g with dice } ∧ Changes may g.faces g.dice dice := by
    refine (ensures_changeEach (R := Die.ChangesTo may g.faces) sound
      (fun d => ⟨.same, List.forall_mem_nil _⟩) [] [] g.dice).bind ?_
    rintro ⟨_, refusal⟩ ⟨changes, rfl, related⟩
    exact Counted.ensures_pure ⟨_, rfl, changes_of_forall₂ related⟩
  cases m with
  | reroll => exact repeated rerollDie_sound
  | explode => exact repeated explodeDie_sound
  | explodeCombine => exact repeated combineDie_sound
  | keep => exact Counted.ensures_pure ⟨_, rfl, changes_dropAt _ _⟩
  | drop => exact Counted.ensures_pure ⟨_, rfl, changes_dropAt _ _⟩

end Modifier

/-! ## Rolled groups

From one modifier to a whole group: `Gathered` is what holds of the dice between two modifiers, and
it is an invariant of the list of modifiers (`Gathered.change`). -/

/-- The dice of a group in the course of a roll: as many as were asked for, behind them those added
by explosions, and each come from a fresh die by steps.  The two lists are named, and not only the
whole, because most statements treat the dice that were asked for differently from the rest. -/
structure Gathered (may : Answers) (faces : Faces) (count : Nat) (dice : List Die) : Prop where
  split : ∃ asked added, dice = asked ++ added ∧ asked.length = count ∧
    (∀ d ∈ asked, d.ComesFrom may faces Die.IsAsked) ∧
    ∀ d ∈ added, d.ComesFrom may faces Die.IsAdded

/-- If each of some dice takes a step, all of them still come from fresh ones. -/
theorem Die.comeFrom_of_steps {fresh : Answers → Faces → Die → Prop} {before after : List Die}
    (steps : Forall₂ (Die.Step may faces) before after)
    (come : ∀ d ∈ before, d.ComesFrom may faces fresh) :
    ∀ d ∈ after, d.ComesFrom may faces fresh := by
  induction steps with
  | nil => exact come
  | cons step _ ih =>
    rw [List.forall_mem_cons] at come ⊢
    exact ⟨come.1.step step, ih come.2⟩

/-- Dice that have just been rolled are gathered, and none has been added. -/
theorem gathered_of_shown {shown : List UInt32} (rolled : ∀ v ∈ shown, may.Shows faces v) :
    Gathered may faces shown.length (shown.map fun face => { faces, face }) := by
  refine ⟨_, [], (List.append_nil _).symm, List.length_map _, ?_, List.forall_mem_nil _⟩
  rw [List.forall_mem_map]
  exact fun face mem => .refl ⟨face, rolled face mem, rfl⟩

/-- A modifier keeps the dice gathered: the first `count` of them step where they are. -/
theorem Gathered.change {count : Nat} {before after : List Die}
    (h : Gathered may faces count before) (change : Modifier.Changes may faces before after) :
    Gathered may faces count after := by
  obtain ⟨asked, added, rfl, length, comeAsked, comeAdded⟩ := h
  obtain ⟨kept, fresh, rfl, steps, areFresh⟩ := change
  -- No die moves, so the first `count` dice after the change are those asked for.
  have stepsAsked := List.forall₂_take count steps
  have stepsAdded := List.forall₂_drop count steps
  rw [List.take_left' length] at stepsAsked
  rw [List.drop_left' length] at stepsAdded
  refine ⟨kept.take count, kept.drop count ++ fresh, ?_, ?_, ?_, ?_⟩
  · rw [← List.append_assoc, List.take_append_drop]
  · rw [← stepsAsked.length_eq, length]
  · exact Die.comeFrom_of_steps stepsAsked comeAsked
  · rw [List.forall_mem_append]
    exact ⟨Die.comeFrom_of_steps stepsAdded comeAdded, fun d mem => .refl (areFresh d mem)⟩

/-- A property that fresh dice have and steps preserve holds of all gathered dice. -/
theorem Gathered.forall_mem {P : Die → Prop} (asked : ∀ d, Die.IsAsked may faces d → P d)
    (added : ∀ d, Die.IsAdded may faces d → P d)
    (preserved : ∀ {d d'}, Die.Step may faces d d' → P d → P d') {count : Nat} {dice : List Die}
    (h : Gathered may faces count dice) : ∀ d ∈ dice, P d := by
  obtain ⟨_, _, rfl, -, comeAsked, comeAdded⟩ := h
  rw [List.forall_mem_append]
  exact ⟨fun d mem => (comeAsked d mem).invariant asked preserved,
    fun d mem => (comeAdded d mem).invariant added preserved⟩

namespace RollGroup

variable {context : RollContext}

/-- The run of the invariant over all modifiers of a group.  The induction is on the modifiers, and
the group between two of them differs from the first only in its dice. -/
theorem ensures_applyAll {count : Nat} (modifiers : List Modifier) (g : RollGroup)
    (gathered : Gathered may g.faces count g.dice) :
    Evaluation.Ensures may (applyAll context modifiers g) fun r =>
      ∃ dice, r = { g with dice } ∧ Gathered may g.faces count dice := by
  induction modifiers generalizing g with
  | nil => exact Evaluation.ensures_pure ⟨g.dice, rfl, gathered⟩
  | cons m modifiers ih =>
    refine (Evaluation.ensures_of_counted (Modifier.ensures_apply m g)).bind ?_
    rintro ⟨g', refusal⟩ ⟨dice, rfl, change⟩
    cases refusal with
    -- A refusal ends the roll, so there is no group to speak of.
    | some e => exact Evaluation.ensures_throw
    | none =>
      refine (ih { g with dice } (gathered.change change)).mono ?_
      rintro r ⟨dice', rfl, gathered'⟩
      exact ⟨dice', rfl, gathered'⟩

/-- Marking the matches of a group changes nothing else of its dice. -/
theorem exists_markMatches_eq (g : RollGroup) (policy : MatchPolicy) :
    ∃ mark : Die → Bool,
      g.markMatches policy =
        { g with dice := g.dice.map fun d => { d with matched := mark d } } := by
  unfold markMatches
  split
  · refine ⟨fun d => if d.dropped then d.matched else policy.check g.conditionals d.value, ?_⟩
    congr 2
    funext d
    by_cases dropped : d.dropped = true
    · simp only [if_pos dropped]
    · simp only [if_neg dropped]
  · -- Without conditionals each die keeps the mark that it has.
    refine ⟨Die.matched, ?_⟩
    show g = { g with dice := g.dice.map id }
    rw [List.map_id]

/-- **What a rolled group is.**  It is for the group that was asked for, and its dice are the dice
gathered by its modifiers, with the matches marked. -/
theorem ensures_roll (group : DiceGroup) :
    Evaluation.Ensures may (roll context group) fun g =>
      ∃ dice, Gathered may group.faces group.count.toNat dice ∧
        g = markMatches
          { written := group.written
            count := group.count
            faces := group.faces
            conditionals := group.conditionals
            dice } context.policy := by
  refine (context.ensures_rollMany group.faces group.count.toNat).bind ?_
  rintro shown ⟨length, rolled⟩
  have gathered := gathered_of_shown rolled
  rw [length] at gathered
  refine (ensures_applyAll group.modifiers _ gathered).bind ?_
  rintro g ⟨dice, rfl, gathered'⟩
  exact Evaluation.ensures_pure ⟨dice, gathered', rfl⟩

end RollGroup

end Tabletop
