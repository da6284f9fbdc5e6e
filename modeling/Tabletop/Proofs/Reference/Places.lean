import Mathlib
import Tabletop.Proofs.Rolling.Always
import Tabletop.Reference.Draw

/-!
# Drawn places

Entries are drawn by their places.  Whatever a roller answers, a drawn place is one that there is:
places that are drawn independently are cut to the last one, and a shuffle only exchanges places
that are in the pool.  So as many entries are drawn as places, and something is drawn whenever
something is asked for and there is something to draw from.  What is taken from a shuffle has no
place twice.

* `Draw.Drawn`, `Draw.always_places` — the places that are drawn;
* `Draw.DrawnFrom`, `Draw.always_drawnFrom` — the entries at these places;
* `Draw.always_entries`, `Draw.entries_eq_done` — when there are some, and when nothing is drawn at
  all.

None of this asks anything of the roller (`may` is arbitrary): an answer out of range is cut to the
last place by `placeOf`, and what is cut is a place.  This is why every roller gets some entries,
and why it takes more than that to say how likely they are.
-/

namespace Tabletop.Draw

variable {may : Answers} {α : Type} {population count : Nat}

/-! ## Single draws and shuffles

A drawn integer stands for a place, whatever the roller answers.  A shuffle exchanges places of a
pool, so that the pool has the same members in the end. -/

/-- A place that an integer stands for is one of the places, however many there are. -/
theorem placeOf_lt (some : population ≠ 0) (v : Int64) :
    placeOf (Int64.ofNat population - 1) v < population := by
  have last : (Int64.ofNat population - 1).toUInt64 = UInt64.ofNat (population - 1) := by
    obtain ⟨n, rfl⟩ := Nat.exists_eq_succ_of_ne_zero some
    simp
  have cut : (UInt64.ofNat (population - 1)).toNat ≤ population - 1 := by
    rw [UInt64.toNat_ofNat']
    exact Nat.mod_le _ _
  rw [placeOf, UInt64.toNat_min, last]
  omega

/-- The induction is on the number of places left to draw, with those drawn so far as a parameter.
-/
theorem always_independent (some : population ≠ 0) (count : Nat) {drawn : List Nat}
    (before : ∀ place ∈ drawn, place < population) :
    (independent (Int64.ofNat population - 1) count drawn).Always may fun places =>
      places.length = drawn.length + count ∧ ∀ place ∈ places, place < population := by
  induction count generalizing drawn with
  | zero => exact ⟨List.length_reverse, fun place mem => before place (List.mem_reverse.1 mem)⟩
  | succ count ih =>
    intro v _
    refine (ih (List.forall_mem_cons.2 ⟨placeOf_lt some v, before⟩)).mono fun places value => ?_
    rw [List.length_cons] at value
    exact ⟨by omega, value.2⟩

/-- An exchange keeps what is in the pool, and so does an exchange with a place that there is not.
-/
theorem swapIfInBounds_perm (pool : Array Nat) (i j : Nat) :
    (pool.swapIfInBounds i j).Perm pool := by
  rw [Array.swapIfInBounds_def]
  split
  · split
    · exact Array.swap_perm _ _
    · exact .rfl
  · exact .rfl

/-- A shuffle keeps what is in the pool. -/
theorem always_shuffle (last : Int64) (count i : Nat) (pool : Array Nat) :
    (shuffle last count i pool).Always may (·.Perm pool) := by
  induction count generalizing i pool with
  | zero => exact .rfl
  | succ count ih =>
    intro v _
    exact (ih _ _).mono fun shuffled same => same.trans (swapIfInBounds_perm pool _ _)

/-! ## Drawn places

What a caller needs to know of the places: how many there are, and whether they differ. -/

/-- Places that are drawn if `count` of `population` are asked for.  No place is drawn twice unless
more are asked for than there are and the settings let them repeat; then as many are drawn as are
asked for all the same, and under the other settings every place is drawn. -/
structure Drawn (count : Nat) (exhaustion : Exhaustion) (places : List (Fin population)) : Prop where
  nodup : count ≤ population ∨ exhaustion = .truncate → places.Nodup
  length : count ≤ population ∨ exhaustion = .repeat → places.length = count
  length_all : population < count → exhaustion = .truncate → places.length = population

/-- **The places that are drawn**, independently where they may repeat, and else from the front of a
shuffled pool.  The pool is a permutation of all places, so its front has none twice. -/
theorem always_places (some : population ≠ 0) (count : Nat) (exhaustion : Exhaustion) :
    (places population count exhaustion).Always may fun drawn =>
      ∃ places : List (Fin population), Drawn count exhaustion places ∧
        places.map Fin.val = drawn := by
  unfold places
  rw [if_neg some]
  split
  · next few =>
    refine (always_independent some count (List.forall_mem_nil _)).mono fun drawn value => ?_
    obtain ⟨length, within⟩ := value
    lift drawn to List (Fin population) using within
    rw [List.length_map, List.length_nil, Nat.zero_add] at length
    refine ⟨drawn, ⟨?_, fun _ => length, ?_⟩, rfl⟩
    · rintro (enough | truncate)
      · exact absurd few.1 (Nat.not_lt.2 enough)
      · exact nomatch few.2.symm.trans truncate
    · exact fun _ truncate => nomatch few.2.symm.trans truncate
  · next enough =>
    rw [Rolling.always_bind_iff]
    refine (always_shuffle _ _ _ _).mono fun pool same => ?_
    have all : pool.toList.Perm (List.range population) := by
      simpa using Array.perm_iff_toList_perm.1 same
    obtain ⟨drawn, eq⟩ : ∃ drawn, (pool.take (min count population)).toList = drawn := ⟨_, rfl⟩
    rw [Rolling.pure_eq, Rolling.always_done, eq]
    have front : drawn = pool.toList.take (min count population) := by simp [← eq]
    have within : ∀ place ∈ drawn, place < population := fun place mem =>
      List.mem_range.1 (all.mem_iff.1 (List.mem_of_mem_take (front ▸ mem)))
    have nodup : drawn.Nodup := front ▸ (all.nodup_iff.2 List.nodup_range).take
    have length : drawn.length = min count population := by
      rw [front, List.length_take, all.length_eq, List.length_range, Nat.min_assoc, Nat.min_self]
    lift drawn to List (Fin population) using within
    rw [List.length_map] at length
    refine ⟨drawn, ⟨fun _ => nodup.of_map, ?_, fun fewer _ => ?_⟩, rfl⟩
    · intro asked
      have inside : count ≤ population := by
        refine asked.elim id fun repeated => Nat.le_of_not_lt fun fewer => enough ⟨fewer, repeated⟩
      rw [length, Nat.min_eq_left inside]
    · rw [length, Nat.min_eq_right (Nat.le_of_lt fewer)]

/-! ## Drawn entries

Entries are looked up at drawn places.  Two entries may be the same text at different places, so it
is the places that are said to differ. -/

/-- The entries at drawn places. -/
def DrawnFrom (all : List α) (count : Nat) (exhaustion : Exhaustion) (drawn : List α) : Prop :=
  ∃ places : List (Fin all.length), Drawn count exhaustion places ∧ drawn = places.map all.get

/-- Entries are drawn by their places.  Every place has an entry, so that none is lost. -/
theorem always_drawnFrom {all : List α} (some : all ≠ []) (count : Nat) (exhaustion : Exhaustion) :
    (entries all count exhaustion).Always may (DrawnFrom all count exhaustion) := by
  have size : all.length ≠ 0 := fun none => some (List.length_eq_zero_iff.1 none)
  unfold entries
  rw [Rolling.always_bind_iff, List.size_toArray]
  refine (always_places size count exhaustion).mono fun drawn value => ?_
  obtain ⟨places, settled, rfl⟩ := value
  have found (place : Fin all.length) : all.toArray[place.val]? = .some (all.get place) := by simp
  refine ⟨places, settled, ?_⟩
  rw [List.filterMap_map, ← List.filterMap_eq_map]
  exact List.filterMap_congr fun place _ => found place

/-- Something is drawn if something is asked for. -/
theorem DrawnFrom.ne_nil {all drawn : List α} {exhaustion : Exhaustion}
    (h : DrawnFrom all count exhaustion drawn) (some : all ≠ []) (asked : count ≠ 0) :
    drawn ≠ [] := by
  obtain ⟨places, settled, rfl⟩ := h
  rintro none
  have length : places.length = 0 := by rw [List.map_eq_nil_iff.1 none, List.length_nil]
  rcases Nat.lt_or_ge all.length count with fewer | enough
  · cases exhaustion with
    | «repeat» => exact asked ((settled.length (.inr rfl)).symm.trans length)
    | truncate =>
      exact some (List.length_eq_zero_iff.1 ((settled.length_all fewer rfl).symm.trans length))
  · exact asked ((settled.length (.inl enough)).symm.trans length)

/-- Entries are drawn if some are asked for and there are any. -/
theorem always_entries {all : List α} (some : all ≠ []) (asked : count ≠ 0)
    (exhaustion : Exhaustion) : (entries all count exhaustion).Always may (· ≠ []) :=
  (always_drawnFrom some count exhaustion).mono fun _ drawn => drawn.ne_nil some asked

/-- Otherwise nothing is drawn at all. -/
theorem entries_eq_done {all : List α} (none : all = [] ∨ count = 0) (exhaustion : Exhaustion) :
    entries all count exhaustion = .done [] := by
  rcases none with rfl | rfl
  · rfl
  · cases all with
    | nil => rfl
    | cons a all => simp [entries, places, shuffle]

end Tabletop.Draw
