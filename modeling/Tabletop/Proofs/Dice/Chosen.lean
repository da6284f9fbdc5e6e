import Mathlib
import Tabletop.Proofs.Dice.ExactTotal
import Tabletop.Proofs.Dice.Ranking
import Tabletop.Proofs.Dice.Step

/-!
# Dice that are kept and dropped

To keep the best dice and to drop them are opposite: the one drops what the other leaves.  Which
dice are the best is said without the ranking (`Modifier.KeepsBest`): as many as are asked for, no
dropped die better than one that is left, and the first of equal ones.

* `Modifier.apply_keep_drop` — what keeping and dropping do to a group;
* `RollGroup.applyAll_keep_drop` — keeping or dropping twice, and keeping from one side against
  dropping from the other.

From the two sides equal dice are ranked in the same order, and not in the opposite one, so the
last of these laws is not about the dice that are left but about their values.

How the proof goes.  All laws are equations between lists of places.  Dropping is determined by
which places it names (`Modifier.dropAt_congr`), and after dice are dropped the ranking is a part of
the one before (`Modifier.ranked_keep`, `Modifier.ranked_drop`), so that dropping twice comes to
taking parts of one list.
-/

namespace Tabletop

open List (Forall₂)

namespace Modifier

variable {side : Side} {dice : List Die} {out : List Nat}

/-- The die at a place counts. -/
def LiveAt (dice : List Die) (i : Nat) : Prop :=
  ∃ d, dice[i]? = some d ∧ d.dropped = false

/-- The `n` best dice are kept of those that count, and nothing else becomes of the dice. -/
structure KeepsBest (side : Side) (n : Nat) (dice kept : List Die) : Prop where
  /-- Dice that count are dropped, and all else stays as it was. -/
  mayDrop : Forall₂ Die.MayDrop dice kept
  /-- So many are left, or all if there are fewer. -/
  length : (kept.filter (!·.dropped)).length = min n (dice.filter (!·.dropped)).length
  /-- A die that is dropped is not better than one that is left, and of equal ones the first are
  left. -/
  best : ∀ {i j : Nat} {a b : Die}, dice[i]? = some a → LiveAt kept i →
    dice[j]? = some b → b.dropped = false → ¬ LiveAt kept j →
      ¬ side.Better b.value a.value ∧ (a.value = b.value → i < j)

theorem liveAt_iff (side : Side) {i : Nat} : LiveAt dice i ↔ i ∈ ranking side dice := by
  have places : i ∈ ranking side dice ↔ i ∈ (standing dice).map (·.2) :=
    ((ranked_perm side dice).map _).mem_iff
  rw [places, List.mem_map]
  constructor
  · rintro ⟨d, at_i, counts⟩
    exact ⟨(d, i), mem_standing.2 ⟨at_i, counts⟩, rfl⟩
  · rintro ⟨⟨d, i⟩, mem, rfl⟩
    exact ⟨d, mem_standing.1 mem⟩

theorem liveAt_keep (side : Side) (n : Nat) {i : Nat} :
    LiveAt (dropAt ((ranking side dice).drop n) dice) i ↔ i ∈ (ranking side dice).take n := by
  rw [liveAt_iff side, ranking_eq, ranked_keep, List.map_take]
  rfl

theorem liveAt_drop (side : Side) (n : Nat) {i : Nat} :
    LiveAt (dropAt ((ranking side dice).take n) dice) i ↔ i ∈ (ranking side dice).drop n := by
  rw [liveAt_iff side, ranking_eq, ranked_drop, List.map_drop]
  rfl

/-- As many dice count as are ranked. -/
theorem length_ranked (side : Side) (dice : List Die) :
    (ranked side dice).length = (dice.filter (!·.dropped)).length := by
  rw [(ranked_perm side dice).length_eq, ← map_fst_standing, List.length_map]

/-- Every die in the front of the ranking is before every other.  The front and the back together
are the ranking, so it is enough that the ranking is in order. -/
theorem outranks_of_liveAt {n i j : Nat} {a b : Die} (at_i : dice[i]? = some a)
    (front : i ∈ (ranking side dice).take n) (at_j : dice[j]? = some b) (counts : b.dropped = false)
    (back : j ∉ (ranking side dice).take n) : Outranks side (a, i) (b, j) := by
  rw [ranking_eq, ← List.map_take] at front back
  obtain ⟨⟨a', i⟩, frontPair, rfl⟩ := List.mem_map.1 front
  -- The die that is ranked with a place is the one that stands there.
  have ranked_i := (ranked_perm side dice).mem_iff.1 (List.mem_of_mem_take frontPair)
  obtain rfl : a = a' := Option.some.inj (at_i.symm.trans (mem_standing.1 ranked_i).1)
  have backPair : (b, j) ∈ (ranked side dice).drop n := by
    have ranked_j := (ranked_perm side dice).mem_iff.2 (mem_standing.2 ⟨at_j, counts⟩)
    rw [← List.take_append_drop n (ranked side dice), List.mem_append] at ranked_j
    exact ranked_j.resolve_left fun mem => back (List.mem_map_of_mem mem)
  have ordered : ((ranked side dice).take n ++ (ranked side dice).drop n).Pairwise
      (Outranks side) := by
    rw [List.take_append_drop]
    exact pairwise_ranked
  exact (List.pairwise_append.1 ordered).2.2 _ frontPair _ backPair

/-- **What is kept are the best**, by the three fields of the definition. -/
theorem keepsBest_dropAt (side : Side) (n : Nat) (dice : List Die) :
    KeepsBest side n dice (dropAt ((ranking side dice).drop n) dice) where
  mayDrop := mayDrop_dropAt _ _
  length := by
    rw [← length_ranked side, ranked_keep, List.length_take, length_ranked]
  best at_i kept at_j counts gone := by
    rw [liveAt_keep] at kept gone
    have before := outranks_of_liveAt at_i kept at_j counts gone
    exact ⟨before.not_better, before.lt_of_eq⟩

/-- Every die that counts is either in the front of the ranking or behind it. -/
theorem mem_drop_ranking (side : Side) (n : Nat) {i : Nat} :
    i ∈ (ranking side dice).drop n ↔ i ∈ ranking side dice ∧ i ∉ (ranking side dice).take n := by
  have nodup : (ranking side dice).Nodup :=
    ((ranked_perm side dice).map _).nodup_iff.2 (nodup_places dice)
  constructor
  · intro back
    exact ⟨List.mem_of_mem_drop back, fun front =>
      List.disjoint_take_drop nodup (Nat.le_refl n) front back⟩
  · rintro ⟨mem, notFront⟩
    rw [← List.take_append_drop n (ranking side dice), List.mem_append] at mem
    exact mem.resolve_left notFront

/-- **Keeping and dropping.**  To keep the best `n` dice leaves them and drops the others that
count; to drop the best `n` drops just those that would be kept.  Neither changes anything else
about the group, and neither is ever refused. -/
theorem apply_keep_drop (side : Side) (n : UInt32) (context : RollContext) (g : RollGroup) :
    ∃ kept left : List Die,
      (keep side n).apply context g = pure ({ g with dice := kept }, none) ∧
      (drop side n).apply context g = pure ({ g with dice := left }, none) ∧
      KeepsBest side n.toNat g.dice kept ∧
      Forall₂ Die.MayDrop g.dice left ∧
      ∀ i, LiveAt left i ↔ LiveAt g.dice i ∧ ¬ LiveAt kept i := by
  refine ⟨_, _, rfl, rfl, keepsBest_dropAt side n.toNat g.dice, mayDrop_dropAt _ _, fun i => ?_⟩
  rw [liveAt_keep, liveAt_drop, liveAt_iff side]
  exact mem_drop_ranking side n.toNat

/-! ## Laws

Each law is first proved for the places that are dropped, and then carried over to groups. -/

/-! ### Keeping and dropping twice

After the worst have been left out, the others are ranked as they were. -/

/-- All but the best `n` are dropped, and of these all but the best `m`. -/
theorem dropAt_keep_keep (side : Side) (n m : Nat) (dice : List Die) :
    dropAt ((ranking side (dropAt ((ranking side dice).drop n) dice)).drop m)
        (dropAt ((ranking side dice).drop n) dice) =
      dropAt ((ranking side dice).drop (min n m)) dice := by
  have front : ranking side (dropAt ((ranking side dice).drop n) dice) =
      (ranking side dice).take n := by
    rw [ranking_eq, ranked_keep, List.map_take, ← ranking_eq]
  rw [front, ← dropAt_append]
  refine dropAt_congr fun i => ?_
  rw [List.mem_append]
  -- If the second number is the greater one, the second modifier finds nothing left to drop.
  rcases Nat.le_total n m with few | many
  · have none : ((ranking side dice).take n).drop m = [] :=
      List.drop_eq_nil_of_le (Nat.le_trans (List.length_take_le _ _) few)
    rw [none, Nat.min_eq_left few]
    exact or_iff_left List.not_mem_nil
  · have parts := List.take_append_drop (n - m) ((ranking side dice).drop m)
    rw [List.drop_drop, Nat.add_sub_cancel' many] at parts
    rw [Nat.min_eq_right many, ← parts, List.drop_take, List.mem_append]
    exact or_comm

/-- The best `n` are dropped, and of the others the best `m`.  Two pieces of the ranking, one behind
the other, are one piece. -/
theorem dropAt_drop_drop (side : Side) (n m : Nat) (dice : List Die) :
    dropAt ((ranking side (dropAt ((ranking side dice).take n) dice)).take m)
        (dropAt ((ranking side dice).take n) dice) =
      dropAt ((ranking side dice).take (n + m)) dice := by
  have back : ranking side (dropAt ((ranking side dice).take n) dice) =
      (ranking side dice).drop n := by
    rw [ranking_eq, ranked_drop, List.map_drop, ← ranking_eq]
  rw [back, ← dropAt_append, ← List.take_add]

/-- The values of the dice that count, in the order of the ranking. -/
theorem values_perm (side : Side) (dice : List Die) :
    ((dice.filter (!·.dropped)).map Die.value).Perm ((ranked side dice).map (·.1.value)) := by
  rw [← map_fst_standing, List.map_map]
  exact ((ranked_perm side dice).map _).symm

/-- The best `n` from one side show the same values as all but the best from the other.  The back of
a ranking is the front of the opposite one, up to the order of equal dice, which values do not show.
-/
theorem values_keep_drop (side : Side) {n k : Nat} {dice : List Die}
    (all : n + k = (dice.filter (!·.dropped)).length) :
    (((dropAt ((ranking side dice).drop n) dice).filter (!·.dropped)).map Die.value).Perm
      (((dropAt ((ranking side.opposite dice).take k) dice).filter (!·.dropped)).map
        Die.value) := by
  refine (values_perm side _).trans (.trans ?_ (values_perm side.opposite _).symm)
  rw [ranked_keep, ranked_drop, List.map_take, List.map_drop, map_value_ranked, List.drop_reverse,
    List.length_map, length_ranked, ← all, Nat.add_sub_cancel]
  exact (List.reverse_perm _).symm

end Modifier

namespace RollGroup

open Modifier

variable {context : RollContext} {side : Side} {modifiers : List Modifier} {g : RollGroup}

/-! ### What keeping and dropping do to a group

Both draw nothing and never fail, so applying them is a computation on the dice. -/

/-- Keeping is never refused, so the other modifiers go on with its dice. -/
theorem applyAll_keep (n : UInt32) :
    applyAll context (keep side n :: modifiers) g =
      applyAll context modifiers
        { g with dice := dropAt ((ranking side g.dice).drop n.toNat) g.dice } := rfl

theorem applyAll_drop (n : UInt32) :
    applyAll context (drop side n :: modifiers) g =
      applyAll context modifiers
        { g with dice := dropAt ((ranking side g.dice).take n.toNat) g.dice } := rfl

/-- Evaluations that come to groups at once are equal only if the groups are. -/
theorem pure_injective {a b : RollGroup} (same : (pure a : Evaluation RollGroup) = pure b) :
    a = b := by
  have values : (Rolling.done (.ok a, 0) : Rolling (Except EvaluationError RollGroup × Nat)) =
      .done (.ok b, 0) := congrFun same 0
  cases values
  rfl

/-- **Laws of keeping and dropping.**  Let the best dice be taken from either side, by whatever
rules.

* Keeping the best `n` and then the best `m` is keeping as many as the smaller number says.
* Dropping the best `n` and then the best `m` is dropping `n + m`, if this is a word.
* Keeping the best `n` from one side, and dropping all but `n` from the other, leaves dice with the
  same values, though not always the same dice: of equal ones the first are taken from either side.
  If there are no conditionals the two groups have the same total.  This is said of sums that fit a
  word, which are exact; a greater one goes on as a float, and is then rounded at every die, in the
  order of the dice. -/
theorem applyAll_keep_drop (side : Side) (context : RollContext) (modifiers : List Modifier)
    (g : RollGroup) :
    (∀ n m, applyAll context (keep side n :: keep side m :: modifiers) g =
      applyAll context (keep side (min n m) :: modifiers) g) ∧
    (∀ n m, n.toNat + m.toNat < UInt32.size →
      applyAll context (drop side n :: drop side m :: modifiers) g =
        applyAll context (drop side (n + m) :: modifiers) g) ∧
    ∀ n k, n.toNat + k.toNat = g.live.length →
      ∃ kept left : RollGroup,
        applyAll context [keep side n] g = pure kept ∧
        applyAll context [drop side.opposite k] g = pure left ∧
        (kept.live.map Die.value).Perm (left.live.map Die.value) ∧
        (g.conditionals = [] → (kept.live.map Die.pips).sum < 2 ^ 63 →
          kept.total = left.total) := by
  refine ⟨fun n m => ?_, fun n m word => ?_, fun n k all => ?_⟩
  · rw [applyAll_keep, applyAll_keep, applyAll_keep, dropAt_keep_keep, UInt32.toNat_min]
  -- The number of both together is a word, so it is their sum.
  · have sum : (n + m).toNat = n.toNat + m.toNat := by
      rw [UInt32.toNat_add]
      exact Nat.mod_eq_of_lt word
    rw [applyAll_drop, applyAll_drop, applyAll_drop, dropAt_drop_drop, sum]
  · have same := values_keep_drop side all
    refine ⟨_, _, rfl, rfl, same, fun plain fits => ?_⟩
    have sums : g.countsSuccesses = false := by
      rw [countsSuccesses, plain]
      rfl
    exact total_eq_of_perm sums sums same fits

/-- Of three dice, two of them equal, the best two are kept or the worst is dropped: the first of
the equal dice is left by the one, and the second by the other. -/
theorem applyAll_keep_drop_level :
    let six : Faces := ⟨6, by decide⟩
    let die (face : UInt32) : Die := { faces := six, face }
    let lost (face : UInt32) : Die := { faces := six, face, dropped := true }
    let g : RollGroup := ⟨"3d6", 3, six, [], [die 3, die 3, die 5]⟩
    let kept : RollGroup := { g with dice := [die 3, lost 3, die 5] }
    let left : RollGroup := { g with dice := [lost 3, die 3, die 5] }
    let context : RollContext := .ofSettings {}
    ((1 : UInt32).toNat + (1 : UInt32).toNat < UInt32.size ∧
      applyAll context [drop .low 1, drop .low 1] g = applyAll context [drop .low 2] g) ∧
    (2 : UInt32).toNat + (1 : UInt32).toNat = g.live.length ∧
    applyAll context [keep .high 2] g = pure kept ∧ applyAll context [drop .low 1] g = pure left ∧
    (kept.live.map Die.value).Perm (left.live.map Die.value) ∧
    g.conditionals = [] ∧ (kept.live.map Die.pips).sum < 2 ^ 63 ∧ kept.total = left.total := by
  intro six die lost g kept left context
  obtain ⟨-, both, -⟩ := applyAll_keep_drop .low context [] g
  obtain ⟨-, -, opposite⟩ := applyAll_keep_drop .high context [] g
  have all : (2 : UInt32).toNat + (1 : UInt32).toNat = g.live.length := by decide
  have word : (1 : UInt32).toNat + (1 : UInt32).toNat < UInt32.size := by decide
  have fits : (kept.live.map Die.pips).sum < 2 ^ 63 := by decide
  obtain ⟨kept', left', eqKept, eqLeft, same, totals⟩ := opposite 2 1 all
  have isKept : applyAll context [keep .high 2] g = pure kept := by cbv
  have isLeft : applyAll context [drop .low 1] g = pure left := by cbv
  obtain rfl : kept' = kept := pure_injective (eqKept.symm.trans isKept)
  obtain rfl : left' = left := pure_injective (eqLeft.symm.trans isLeft)
  exact ⟨⟨word, both 1 1 word⟩, all, isKept, isLeft, same, rfl, fits, totals rfl fits⟩

/-! ### Sums that do not fit

A float of this size is a multiple of 2048.  Four dice show 1100, `2 ^ 62` twice, and 1100 again,
and one of the two that are equal and worst is dropped: the last by keeping, the first by dropping.
The 1100 that stands before the others is rounded away with them; the one that stands behind them is
rounded up. -/

/-- A die that shows the same value again and again.  No sum of words is evaluated for it: the pips
are one number. -/
theorem value_replicate (faces : Faces) (face : UInt32) (n : Nat) :
    ({ faces, face, bonus := List.replicate n face } : Die).value =
      Int64.ofNat (face.toNat + n * face.toNat) := by
  show Int64.ofNat ((List.replicate n face).foldl _ face.toNat) = _
  rw [Die.foldl_add_toNat, List.map_replicate, List.sum_replicate, smul_eq_mul]

/-- Two dice between two others, ranked from a side from which they are better or worse.  A ranking
is recognised by its order (`Modifier.eq_ranked`), so no sort is evaluated either. -/
theorem ranking_between {a b : Die} (countsA : a.dropped = false) (countsB : b.dropped = false) :
    (side.Better b.value a.value → ranking side [a, b, b, a] = [1, 2, 0, 3]) ∧
      (side.Better a.value b.value → ranking side [a, b, b, a] = [0, 3, 1, 2]) := by
  have all : standing [a, b, b, a] = [(a, 0), (b, 1), (b, 2), (a, 3)] := by
    simp [standing, countsA, countsB]
  have moved : [(b, 1), (b, 2), (a, 0), (a, 3)].Perm [(a, 0), (b, 1), (b, 2), (a, 3)] :=
    @List.perm_middle _ (a, 0) [(b, 1), (b, 2)] [(a, 3)]
  have moved' : [(b, 1), (b, 2), (a, 3)].Perm [(a, 3), (b, 1), (b, 2)] :=
    @List.perm_middle _ (a, 3) [(b, 1), (b, 2)] []
  constructor
  · intro better
    have ordered : [(b, 1), (b, 2), (a, 0), (a, 3)].Pairwise (Outranks side) := by
      simp [Outranks, better]
    have same : _ = ranked side [a, b, b, a] := eq_ranked (all ▸ moved) ordered
    rw [ranking_eq, ← same]
    rfl
  · intro better
    have ordered : [(a, 0), (a, 3), (b, 1), (b, 2)].Pairwise (Outranks side) := by
      simp [Outranks, better]
    have same : _ = ranked side [a, b, b, a] := eq_ranked (all ▸ moved'.symm.cons _) ordered
    rw [ranking_eq, ← same]
    rfl

/-- **Totals that do not fit depend on the order of the dice,** and so on which of the worst dice is
dropped. -/
theorem applyAll_keep_drop_rounded :
    let faces : Faces := ⟨2147483648, by decide⟩
    let small : Die := { faces, face := 1100 }
    let large : Die :=
      { faces, face := 2147483648, bonus := List.replicate 2147483647 2147483648 }
    let lost : Die := { small with dropped := true }
    let g : RollGroup := ⟨"4d2147483648", 4, faces, [], [small, large, large, small]⟩
    let kept : RollGroup := { g with dice := [small, large, large, lost] }
    let left : RollGroup := { g with dice := [lost, large, large, small] }
    let context : RollContext := .ofSettings {}
    (3 : UInt32).toNat + (1 : UInt32).toNat = g.live.length ∧
      applyAll context [keep .high 3] g = pure kept ∧ applyAll context [drop .low 1] g = pure left ∧
      g.conditionals = [] ∧ kept.total ≠ left.total := by
  intro faces small large lost g kept left context
  have valueSmall : small.value = 1100 := by decide
  have valueLarge : large.value = 4611686018427387904 := value_replicate faces _ _
  have greater : small.value < large.value := by
    rw [valueSmall, valueLarge]
    decide
  -- From both sides the two equal dice are ranked in the order of their places.
  have high : ranking .high [small, large, large, small] = [1, 2, 0, 3] :=
    (ranking_between rfl rfl).1 greater
  have low : ranking .low [small, large, large, small] = [0, 3, 1, 2] :=
    (ranking_between rfl rfl).2 greater
  have totalKept : kept.total = Number.sum [.int 1100, .int 4611686018427387904,
      .int 4611686018427387904] := by
    rw [total_eq_sum rfl]
    show Number.sum [.int small.value, .int large.value, .int large.value] = _
    rw [valueSmall, valueLarge]
  have totalLeft : left.total = Number.sum [.int 4611686018427387904, .int 4611686018427387904,
      .int 1100] := by
    rw [total_eq_sum rfl]
    show Number.sum [.int large.value, .int large.value, .int small.value] = _
    rw [valueSmall, valueLarge]
  refine ⟨rfl, ?_, ?_, rfl, ?_⟩
  · rw [applyAll_keep, high]
    rfl
  · rw [applyAll_drop, low]
    rfl
  · rw [totalKept, totalLeft]
    decide +kernel

end RollGroup

end Tabletop
