import Mathlib
import Tabletop.Dice.Modify

/-!
# The ranking of dice

To keep or to drop dice, those that count are ranked from one side, and a part of the ranking is
dropped.  The ranking is a stable sort, and it is determined by what it puts in order: of two dice
the better one comes first, and of equal ones the one that was rolled first.  No two dice are level
in this order, so there is only one list of the dice that count in which every die is before all
those that it outranks.  Hence to drop dice is to take them out of every ranking, and the others
stay in it in the order that they had.

* `Modifier.pairwise_ranked`, `Modifier.eq_ranked` — the ranking, and that there is no other;
* `Modifier.ranked_dropAt` — the ranking after some dice are dropped;
* `Modifier.ranked_keep`, `Modifier.ranked_drop` — after all but its front is dropped, or its front;
* `Modifier.map_value_ranked` — the rankings from the two sides show the same values, in opposite
  order.

Places are load-bearing.  Dice may be equal, and a list of dice that are equal in some order cannot
be told from another; together with their places no two are alike, and the order `Outranks` is
strict and total on them.  That the sort is stable is used once, to see that equal dice are ranked
by their places (`Modifier.filter_ranked`); from then on the sort is not opened again, since the
ranking is known as the only list in this order.
-/

namespace Tabletop

/-! ## Sides

Words are compared, so these are facts about a linear order and its opposite.  They are stated for a
side in order that nothing later has to be proved twice. -/

namespace Side

/-- A value is strictly better than another, if the best are taken from the side. -/
def Better : Side → Int64 → Int64 → Prop
  | high, a, b => b < a
  | low, a, b => a < b

/-- The other side. -/
def opposite : Side → Side
  | high => low
  | low => high

variable {side : Side} {a b c : Int64}

theorem Better.asymm (h : side.Better a b) : ¬ side.Better b a := by
  cases side with
  | high => exact Int64.lt_asymm h
  | low => exact Int64.lt_asymm h

/-- To be at least as good is transitive, read from right to left. -/
theorem not_better_trans (first : ¬ side.Better b a) (second : ¬ side.Better c b) :
    ¬ side.Better c a := by
  cases side with
  | high => exact Int64.not_lt.2 (Int64.le_trans (Int64.not_lt.1 second) (Int64.not_lt.1 first))
  | low => exact Int64.not_lt.2 (Int64.le_trans (Int64.not_lt.1 first) (Int64.not_lt.1 second))

theorem eq_of_not_better (first : ¬ side.Better a b) (second : ¬ side.Better b a) : a = b := by
  cases side with
  | high => exact Int64.le_antisymm (Int64.not_lt.1 first) (Int64.not_lt.1 second)
  | low => exact Int64.le_antisymm (Int64.not_lt.1 second) (Int64.not_lt.1 first)

theorem better_opposite : side.opposite.Better a b ↔ side.Better b a := by
  cases side with
  | high | low => rfl

end Side

namespace Modifier

variable {side : Side} {dice : List Die} {out : List Nat}

/-! ## Dice and their places

A place is a position in the list of all dice of the group, dropped ones included, so it does not
move when dice are dropped. -/

/-- The dice that count, with their places. -/
def standing (dice : List Die) : List (Die × Nat) :=
  dice.zipIdx.filter (!·.1.dropped)

theorem mem_standing {d : Die} {i : Nat} :
    (d, i) ∈ standing dice ↔ dice[i]? = some d ∧ d.dropped = false := by
  rw [standing, List.mem_filter, List.mk_mem_zipIdx_iff_getElem?, Bool.not_eq_true']

/-- Without their places these are the dice that count. -/
theorem map_fst_standing (dice : List Die) :
    (standing dice).map (·.1) = dice.filter (!·.dropped) := by
  have places : dice.zipIdx.map (·.1) = dice := List.zipIdx_map_fst 0 dice
  conv_rhs => rw [← places, List.filter_map]
  rfl

theorem pairwise_standing (dice : List Die) : (standing dice).Pairwise fun a b => a.2 < b.2 := by
  have all : (dice.zipIdx.map (·.2)).Pairwise (· < ·) := by
    rw [List.zipIdx_map_snd]
    exact List.pairwise_lt_range'
  exact (List.pairwise_map.1 all).filter _

theorem nodup_places (dice : List Die) : ((standing dice).map (·.2)).Nodup :=
  (List.pairwise_map.2 (pairwise_standing dice)).imp Nat.ne_of_lt

/-- Only its place decides whether a die is dropped, and dropping it twice is dropping it once.  The
induction is on the places, over all arrays of dice that there may be in between. -/
theorem getElem?_dropAt (out : List Nat) (dice : List Die) (i : Nat) :
    (dropAt out dice)[i]? =
      dice[i]?.map fun d => if i ∈ out then { d with dropped := true } else d := by
  suffices ∀ now : Array Die,
      (out.foldl (fun dice i => dice.modify i ({ · with dropped := true })) now).toList[i]? =
        now.toList[i]?.map fun d => if i ∈ out then { d with dropped := true } else d from
    this dice.toArray
  induction out with
  | nil => simp
  | cons first out ih =>
    intro now
    rw [List.foldl_cons, ih, Array.toList_modify, List.getElem?_modify]
    cases now.toList[i]? with
    | none => rfl
    | some d => by_cases first = i <;> by_cases i ∈ out <;> simp_all [eq_comm]

/-- The order of the places does not matter. -/
theorem dropAt_congr {out' : List Nat} (same : ∀ i, i ∈ out ↔ i ∈ out') :
    dropAt out dice = dropAt out' dice := by
  refine List.ext_getElem? fun i => ?_
  rw [getElem?_dropAt, getElem?_dropAt]
  simp only [same]

/-- Dropping at some places and then at others is dropping at all of them. -/
theorem dropAt_append (out out' : List Nat) (dice : List Die) :
    dropAt (out ++ out') dice = dropAt out' (dropAt out dice) := by
  unfold dropAt
  rw [List.foldl_append]

/-- The dice that still count are those that are not named. -/
theorem standing_dropAt (out : List Nat) (dice : List Die) :
    standing (dropAt out dice) = (standing dice).filter (·.2 ∉ out) := by
  let f (p : Die × Nat) : Die × Nat :=
    (if p.2 ∈ out then { p.1 with dropped := true } else p.1, p.2)
  have paired : (dropAt out dice).zipIdx = dice.zipIdx.map f := by
    refine List.ext_getElem? fun i => ?_
    rw [List.getElem?_zipIdx, getElem?_dropAt, List.getElem?_map, List.getElem?_zipIdx]
    cases dice[i]? with
    | none => rfl
    | some d => simp [f]
  -- A die counts afterwards if it did before and is not named.
  have stays (p : Die × Nat) : (!(f p).1.dropped) = (decide (p.2 ∉ out) && !p.1.dropped) := by
    by_cases named : p.2 ∈ out <;> simp [f, named]
  -- Of those that count afterwards none was touched.
  have same : ∀ p ∈ dice.zipIdx.filter fun p => decide (p.2 ∉ out) && !p.1.dropped, f p = p := by
    intro p mem
    obtain ⟨remains, -⟩ := Bool.and_eq_true_iff.1 (List.mem_filter.1 mem).2
    show (if p.2 ∈ out then _ else p.1, p.2) = p
    rw [if_neg (of_decide_eq_true remains)]
  rw [standing, paired, List.filter_map, standing, List.filter_filter]
  simp only [Function.comp_def, stays]
  rw [List.map_congr_left same, List.map_id']

/-! ## The order

The comparison that the sort is given ignores places and is only a preorder. -/

/-- The comparison of the sort: the first is at least as good as the second. -/
theorem comesFirst_iff {a b : Die} :
    comesFirst side a b = true ↔ ¬ side.Better b.value a.value := by
  cases side with
  | high => exact decide_eq_true_iff.trans Int64.not_lt.symm
  | low => exact decide_eq_true_iff.trans Int64.not_lt.symm

theorem comesFirst_trans (a b c : Die × Nat) (first : comesFirst side a.1 b.1 = true)
    (second : comesFirst side b.1 c.1 = true) : comesFirst side a.1 c.1 = true := by
  rw [comesFirst_iff] at first second ⊢
  exact Side.not_better_trans first second

theorem comesFirst_total (a b : Die × Nat) :
    (comesFirst side a.1 b.1 || comesFirst side b.1 a.1) = true := by
  rw [Bool.or_eq_true, comesFirst_iff, comesFirst_iff, ← not_and_or]
  exact fun both => both.1.asymm both.2

/-- A die is before another in the ranking: it is better, or it is as good and was rolled first. -/
def Outranks (side : Side) (a b : Die × Nat) : Prop :=
  side.Better a.1.value b.1.value ∨ a.1.value = b.1.value ∧ a.2 < b.2

/-- Of two dice only one outranks the other, whichever of the two reasons there are. -/
theorem Outranks.asymm {a b : Die × Nat} (h : Outranks side a b) : ¬ Outranks side b a := by
  rintro (better' | ⟨same', first'⟩) <;> obtain better | ⟨same, first⟩ := h
  · exact better.asymm better'
  · exact (same ▸ better').asymm (same ▸ better')
  · exact (same' ▸ better).asymm (same' ▸ better)
  · exact Nat.lt_asymm first first'

theorem Outranks.not_better {a b : Die × Nat} (h : Outranks side a b) :
    ¬ side.Better b.1.value a.1.value := by
  obtain better | ⟨same, -⟩ := h
  · exact better.asymm
  · exact fun better => (same ▸ better).asymm (same ▸ better)

/-- Of equal dice the one that was rolled first outranks the other. -/
theorem Outranks.lt_of_eq {a b : Die × Nat} (h : Outranks side a b)
    (same : a.1.value = b.1.value) : a.2 < b.2 := by
  obtain better | ⟨-, first⟩ := h
  · exact absurd (same ▸ better) (same ▸ better : side.Better b.1.value b.1.value).asymm
  · exact first

/-! ## The ranking

Two descriptions are brought together here: a list that is the result of a sort, and a list that is
in order. -/

/-- The dice that count, with their places, as they are ranked. -/
def ranked (side : Side) (dice : List Die) : List (Die × Nat) :=
  (standing dice).mergeSort fun a b => comesFirst side a.1 b.1

/-- The ranking of the code is that of the dice with their places, of which it returns the places.
-/
theorem ranking_eq (side : Side) (dice : List Die) :
    ranking side dice = (ranked side dice).map (·.2) := rfl

theorem ranked_perm (side : Side) (dice : List Die) : (ranked side dice).Perm (standing dice) :=
  List.mergeSort_perm _ _

theorem sorted_ranked :
    (ranked side dice).Pairwise fun a b => comesFirst side a.1 b.1 = true :=
  List.pairwise_mergeSort comesFirst_trans comesFirst_total (standing dice)

open List in
/-- The sort is stable: equal dice stay as they were. -/
theorem filter_ranked (v : Int64) :
    (ranked side dice).filter (·.1.value = v) = (standing dice).filter (·.1.value = v) := by
  have level : ((standing dice).filter (·.1.value = v)).Pairwise fun a b =>
      comesFirst side a.1 b.1 = true := by
    refine List.pairwise_of_forall_mem_list fun a memA b memB => ?_
    have same : a.1.value = b.1.value := by
      rw [of_decide_eq_true (List.mem_filter.1 memA).2,
        of_decide_eq_true (List.mem_filter.1 memB).2]
    rw [comesFirst_iff, same]
    exact fun better => better.asymm better
  -- Equal dice are sorted already, and a stable sort keeps a sorted part as it is.
  have sublist : (standing dice).filter (·.1.value = v) <+ ranked side dice :=
    List.sublist_mergeSort comesFirst_trans comesFirst_total level List.filter_sublist
  have within := sublist.filter (·.1.value = v)
  rw [List.filter_filter] at within
  simp only [Bool.and_self] at within
  exact (within.eq_of_length ((ranked_perm side dice).filter _).length_eq.symm).symm

/-- **The ranking** puts every die before those that it outranks. -/
theorem pairwise_ranked : (ranked side dice).Pairwise (Outranks side) := by
  refine List.pairwise_iff_forall_sublist.2 fun {a b} inOrder => ?_
  have first := comesFirst_iff.1 (List.pairwise_iff_forall_sublist.1 sorted_ranked inOrder)
  by_cases better : side.Better a.1.value b.1.value
  · exact .inl better
  · -- The dice are equal, and both are in the part of the list where the sort changes nothing.
    have same := Side.eq_of_not_better better first
    have level := inOrder.filter (·.1.value = b.1.value)
    rw [filter_ranked, List.filter_eq_self.2 (by simp [same])] at level
    exact .inr ⟨same, List.pairwise_iff_forall_sublist.1 ((pairwise_standing dice).filter _) level⟩

/-- **There is no other ranking** of the dice that count.  Two lists of the same elements that are
in the same strict order are equal. -/
theorem eq_ranked {l : List (Die × Nat)} (all : l.Perm (standing dice))
    (ordered : l.Pairwise (Outranks side)) : l = ranked side dice :=
  List.Perm.eq_of_pairwise (fun _ _ _ _ first second => absurd second first.asymm) ordered
    pairwise_ranked (all.trans (ranked_perm side dice).symm)

/-! ## The ranking after dice are dropped

What is left after some dice are dropped is a ranking of the dice that are left, so it is the
ranking of them. -/

/-- **Dropping takes dice out of the ranking**, and the others stay in it in the order that they
had. -/
theorem ranked_dropAt {gone kept : List (Die × Nat)} (all : (gone ++ kept).Perm (standing dice))
    (ordered : kept.Pairwise (Outranks side)) :
    ranked side (dropAt (gone.map (·.2)) dice) = kept := by
  have nodup : ((gone ++ kept).map (·.2)).Nodup :=
    (all.map _).nodup_iff.2 (nodup_places dice)
  rw [List.map_append, List.nodup_append] at nodup
  -- The dice that are gone are named, and because no place occurs twice the others are not.
  have named : ∀ a ∈ gone, ¬ decide (a.2 ∉ gone.map (·.2)) = true := fun a mem out =>
    of_decide_eq_true out (List.mem_map_of_mem mem)
  have remains : ∀ b ∈ kept, decide (b.2 ∉ gone.map (·.2)) = true := fun b mem =>
    decide_eq_true fun mem' => nodup.2.2 b.2 mem' b.2 (List.mem_map_of_mem mem) rfl
  have left := all.filter (·.2 ∉ gone.map (·.2))
  rw [List.filter_append, List.filter_eq_nil_iff.2 named, List.filter_eq_self.2 remains,
    List.nil_append, ← standing_dropAt] at left
  exact (eq_ranked left ordered).symm

/-- If all but the front of a ranking is dropped, the front is left. -/
theorem ranked_keep (side : Side) (n : Nat) (dice : List Die) :
    ranked side (dropAt ((ranking side dice).drop n) dice) = (ranked side dice).take n := by
  rw [ranking_eq, ← List.map_drop]
  refine ranked_dropAt (List.perm_append_comm.trans ?_)
    (pairwise_ranked.sublist (List.take_sublist _ _))
  rw [List.take_append_drop]
  exact ranked_perm side dice

/-- If the front of a ranking is dropped, the rest is left. -/
theorem ranked_drop (side : Side) (n : Nat) (dice : List Die) :
    ranked side (dropAt ((ranking side dice).take n) dice) = (ranked side dice).drop n := by
  rw [ranking_eq, ← List.map_take]
  refine ranked_dropAt ?_ (pairwise_ranked.sublist (List.drop_sublist _ _))
  rw [List.take_append_drop]
  exact ranked_perm side dice

/-- From the other side the values come in the opposite order, though equal dice do not. -/
theorem map_value_ranked (side : Side) (dice : List Die) :
    (ranked side.opposite dice).map (·.1.value) =
      ((ranked side dice).map (·.1.value)).reverse := by
  -- Both lists have the same values, and from this side both fall.
  have rising : ((ranked side.opposite dice).map (·.1.value)).Pairwise
      fun a b => ¬ side.Better a b := by
    refine List.pairwise_map.2 (sorted_ranked.imp fun first => ?_)
    rwa [comesFirst_iff, Side.better_opposite] at first
  have falling : ((ranked side dice).map (·.1.value)).Pairwise fun a b => ¬ side.Better b a :=
    List.pairwise_map.2 (sorted_ranked.imp comesFirst_iff.1)
  have same : ((ranked side.opposite dice).map (·.1.value)).Perm
      ((ranked side dice).map (·.1.value)).reverse :=
    (((ranked_perm _ dice).trans (ranked_perm side dice).symm).map _).trans
      (List.reverse_perm _).symm
  exact same.eq_of_pairwise (fun _ _ _ _ => Side.eq_of_not_better) rising
    (List.pairwise_reverse.2 falling)

end Modifier

end Tabletop
