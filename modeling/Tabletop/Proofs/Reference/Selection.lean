import Mathlib
import Tabletop.Proofs.Reference.Places
import Tabletop.Proofs.Rolling.Chance

/-!
# Every selection is as likely as the others

A shuffle settles the places of a pool from the front: at the place `i` it asks for one of the
places from `i` on, and exchanges the two.  No later exchange moves what is settled.  So the answer
is where the entry that ends up at `i` was before, and the answers that draw a given selection can
be read off it, one after the other.  Each selection is drawn by one sequence of answers, and none
of these sequences is more likely than the others.

* `Draw.draws_cons_iff` — the first step of a shuffle, and the rest;
* `Draw.existsUnique_answers` — the answers that draw a selection;
* `Draw.chance_shuffle` — how likely they are;
* `Draw.places_without_replacement` — a whole draw, also if there is not enough to draw from.

The answers are words and the places are numbers below `n`.  They are compared only in the first
section, where `n` is small enough for each place to have a word of its own.  From then on a path of
the shuffle is a sequence of places, and the argument is about a pool and what is exchanged in it.
-/

open scoped ENNReal

namespace Tabletop.Draw

variable {n count i : Nat} {pool final : Array Nat} {answers : List Int64}
  {drawn : List Nat}

/-! ## One question

A question is asked for a range of words, and an answer in the range is a place that is left. -/

theorem toInt_last (small : n ≤ 2 ^ 63) (some : n ≠ 0) : (Int64.ofNat n - 1).toInt = n - 1 := by
  obtain ⟨m, rfl⟩ := Nat.exists_eq_succ_of_ne_zero some
  have before : Int64.ofNat m.succ - 1 = Int64.ofNat m := by simp
  rw [before, Int64.toInt_ofNat_of_lt (by omega)]
  omega

/-- The answers that are admissible where a place from `i` on is asked for. -/
theorem faithful_iff (small : n ≤ 2 ^ 63) (inside : i < n) {v : Int64} :
    Answers.faithful (Int64.ofNat i) (Int64.ofNat n - 1) v ↔ i ≤ v.toInt ∧ v.toInt < n := by
  have first : (Int64.ofNat i).toInt = i := Int64.toInt_ofNat_of_lt (by omega)
  have last := toInt_last small (Nat.ne_zero_of_lt inside)
  simp only [Answers.faithful, Int64.lt_iff_toInt_lt, Int64.le_iff_toInt_le, ← Int64.toInt_inj,
    first, last]
  omega

theorem placeOf_ofNat (small : n ≤ 2 ^ 63) {j : Nat} (inside : j < n) :
    placeOf (Int64.ofNat n - 1) (Int64.ofNat j) = j := by
  have value : (Int64.ofNat j).toInt = j := Int64.toInt_ofNat_of_lt (by omega)
  have last := toInt_last small (Nat.ne_zero_of_lt inside)
  have positive : 0 ≤ Int64.ofNat j := by
    rw [Int64.le_iff_toInt_le, value]
    exact Int.natCast_nonneg j
  have order : 0 ≤ Int64.ofNat n - 1 := by
    rw [Int64.le_iff_toInt_le, last, Int64.toInt_zero]
    omega
  rw [placeOf, UInt64.toNat_min, Int64.toNat_toUInt64_of_le positive,
    Int64.toNat_toUInt64_of_le order]
  unfold Int64.toNatClampNeg
  rw [value, last]
  omega

/-- A shuffle goes on with any of the places from `i` on, which is exchanged with `i`. -/
theorem path_shuffle_succ_iff (small : n ≤ 2 ^ 63) (inside : i < n) :
    (shuffle (Int64.ofNat n - 1) (count + 1) i pool).Path answers final ↔
      ∃ j rest, i ≤ j ∧ j < n ∧ answers = Int64.ofNat j :: rest ∧
        (shuffle (Int64.ofNat n - 1) count (i + 1) (pool.swapIfInBounds i j)).Path rest final := by
  rw [shuffle, Rolling.path_draw_iff]
  constructor
  · rintro ⟨v, rest, rfl, admitted, path⟩
    obtain ⟨low, high⟩ := (faithful_iff small inside).1 admitted
    obtain ⟨j, value⟩ := Int.eq_ofNat_of_zero_le (Int.le_trans (Int.natCast_nonneg i) low)
    obtain rfl : v = Int64.ofNat j :=
      Int64.toInt_inj.1 (value.trans (Int64.toInt_ofNat_of_lt (by omega)).symm)
    rw [placeOf_ofNat small (by omega)] at path
    exact ⟨j, rest, by omega, by omega, rfl, path⟩
  · rintro ⟨j, rest, low, high, rfl, path⟩
    have value : (Int64.ofNat j).toInt = j := Int64.toInt_ofNat_of_lt (by omega)
    refine ⟨_, rest, rfl, (faithful_iff small inside).2 (by omega), ?_⟩
    rwa [placeOf_ofNat small high]

/-! ## One exchange

What an exchange does to the places behind the one that is settled. -/

theorem getElem?_swapIfInBounds {i j : Nat} (first : i < pool.size) (second : j < pool.size)
    (k : Nat) : (pool.swapIfInBounds i j)[k]? =
      if k = i then pool[j]? else if k = j then pool[i]? else pool[k]? := by
  rw [Array.swapIfInBounds_def, dif_pos first, dif_pos second, Array.getElem?_swap]
  grind

theorem nodup_swapIfInBounds (nodup : pool.toList.Nodup) (i j : Nat) :
    (pool.swapIfInBounds i j).toList.Nodup :=
  (Array.perm_iff_toList_perm.1 (swapIfInBounds_perm pool i j)).nodup_iff.2 nodup

/-- After the exchange, the places behind `i` hold what was there from `i` on, but for the entry
that was exchanged. -/
theorem mem_drop_swapIfInBounds {i j p a : Nat} (order : i ≤ j) (found : pool[j]? = some p)
    (mem : a ∈ pool.toList.drop i) (different : a ≠ p) :
    a ∈ (pool.swapIfInBounds i j).toList.drop (i + 1) := by
  obtain ⟨k, at_k⟩ := List.mem_iff_getElem?.1 mem
  rw [List.getElem?_drop, Array.getElem?_toList] at at_k
  have second : j < pool.size := (Array.getElem?_eq_some_iff.1 found).1
  have exchanged := getElem?_swapIfInBounds (by omega : i < pool.size) second
  rw [List.mem_iff_getElem?]
  simp only [List.getElem?_drop, Array.getElem?_toList, exchanged]
  have elsewhere : i + k ≠ j := by
    rintro rfl
    exact different (Option.some.inj (at_k.symm.trans found))
  -- The entry that was at `i` has gone to `j`, and the others have stayed.
  cases k with
  | zero => exact ⟨j - (i + 1), by grind⟩
  | succ k => exact ⟨k, by grind⟩

/-! ## The answers that draw a selection

The induction is along a shuffle that has settled the places before `i`.  It needs the pool without
repetitions, for the answer to be unique, and the selection within what is left of the pool, for
there to be an answer. -/

/-- The entries that a shuffle of `count` places from `i` on has settled. -/
def settled (count i : Nat) (pool : Array Nat) : List Nat :=
  (pool.toList.drop i).take count

/-- What is settled from a place on is what is there and what is settled behind it. -/
theorem settled_succ (inside : i < pool.size) (count : Nat) :
    settled (count + 1) i pool = pool[i] :: settled count (i + 1) pool := by
  unfold settled
  rw [List.drop_eq_getElem_cons inside, List.take_succ_cons]
  rfl

/-- The answers draw `drawn` from the places from `i` on. -/
def Draws (n i : Nat) (pool : Array Nat) (answers : List Int64) (drawn : List Nat) : Prop :=
  ∃ final, (shuffle (Int64.ofNat n - 1) drawn.length i pool).Path answers final ∧
    settled drawn.length i final = drawn

/-- A shuffle that has come to the place `i` leaves those before it as they are. -/
theorem getElem?_of_path (small : n ≤ 2 ^ 63) (room : i + count ≤ n) (size : pool.size = n)
    (path : (shuffle (Int64.ofNat n - 1) count i pool).Path answers final) {k : Nat}
    (before : k < i) : final[k]? = pool[k]? := by
  induction count generalizing i pool answers with
  | zero =>
    obtain ⟨rfl, rfl⟩ := Rolling.path_done_iff.1 path
    rfl
  | succ count ih =>
    obtain ⟨j, rest, order, inside, rfl, further⟩ :=
      (path_shuffle_succ_iff small (by omega)).1 path
    rw [ih (by omega) (by simpa using size) further (by omega),
      getElem?_swapIfInBounds (by omega) (by omega), if_neg (by omega), if_neg (by omega)]

/-- **One step.**  The first answer is the place of the first entry. -/
theorem draws_cons_iff (small : n ≤ 2 ^ 63) (size : pool.size = n) {p : Nat}
    (room : i + (p :: drawn).length ≤ n) :
    Draws n i pool answers (p :: drawn) ↔ ∃ j rest, i ≤ j ∧ pool[j]? = some p ∧
      answers = Int64.ofNat j :: rest ∧ Draws n (i + 1) (pool.swapIfInBounds i j) rest drawn := by
  rw [List.length_cons] at room
  -- What is settled at `i` is what was exchanged with it.
  have first {j : Nat} {rest : List Int64} {final : Array Nat} (inside : j < n)
      (path : (shuffle (Int64.ofNat n - 1) drawn.length (i + 1) (pool.swapIfInBounds i j)).Path
        rest final) :
      settled (drawn.length + 1) i final = p :: drawn ↔
        pool[j]? = some p ∧ settled drawn.length (i + 1) final = drawn := by
    have kept := getElem?_of_path small (by omega) (by simpa using size) path (Nat.lt_succ_self i)
    rw [getElem?_swapIfInBounds (by omega) (by omega), if_pos rfl] at kept
    have found : i < final.size := by grind
    rw [settled_succ found, List.cons.injEq, ← kept, Array.getElem?_eq_getElem found,
      Option.some.injEq]
  constructor
  · rintro ⟨final, path, value⟩
    obtain ⟨j, rest, order, inside, rfl, further⟩ :=
      (path_shuffle_succ_iff small (by omega)).1 path
    obtain ⟨found, value⟩ := (first inside further).1 value
    exact ⟨j, rest, order, found, rfl, final, further, value⟩
  · rintro ⟨j, rest, order, found, rfl, final, further, value⟩
    have inside : j < n := size ▸ (Array.getElem?_eq_some_iff.1 found).1
    exact ⟨final, (path_shuffle_succ_iff small (by omega)).2 ⟨j, rest, order, inside, rfl, further⟩,
      (first inside further).2 ⟨found, value⟩⟩

/-- **Each selection is drawn by one sequence of answers.**  The first entry of the selection has
one place in the pool, and the others are behind `i` once it is exchanged. -/
theorem existsUnique_answers (small : n ≤ 2 ^ 63) (size : pool.size = n)
    (nodup : pool.toList.Nodup) (distinct : drawn.Nodup) (within : drawn ⊆ pool.toList.drop i)
    (room : i + drawn.length ≤ n) : ∃! answers, Draws n i pool answers drawn := by
  induction drawn generalizing i pool with
  | nil =>
    refine ⟨[], ⟨pool, .done, rfl⟩, ?_⟩
    rintro answers ⟨final, path, -⟩
    exact (Rolling.path_done_iff.1 path).1
  | cons p drawn ih =>
    obtain ⟨fresh, distinct⟩ := List.nodup_cons.1 distinct
    obtain ⟨mem, within⟩ := List.cons_subset.1 within
    obtain ⟨k, found⟩ := List.mem_iff_getElem?.1 mem
    rw [List.getElem?_drop, Array.getElem?_toList] at found
    obtain ⟨rest, draws, only⟩ := ih (by simpa using size) (nodup_swapIfInBounds nodup i (i + k))
      distinct
      (fun a mem => mem_drop_swapIfInBounds (Nat.le_add_right i k) found (within mem)
        (fun same => fresh (same ▸ mem)))
      (by rw [List.length_cons] at room; omega)
    simp only [draws_cons_iff small size room]
    refine ⟨_, ⟨i + k, rest, Nat.le_add_right i k, found, rfl, draws⟩, ?_⟩
    rintro _ ⟨j, others, order, again, rfl, further⟩
    obtain rfl : i + k = j := by
      rw [← Array.getElem?_toList] at found again
      exact (List.getElem?_inj (List.getElem?_eq_some_iff.1 found).1 nodup).1
        (found.trans again.symm)
    rw [only others further]

/-- **All answers are equally likely**, whatever they draw. -/
theorem chance_shuffle (small : n ≤ 2 ^ 63) (room : i + count ≤ n)
    (path : (shuffle (Int64.ofNat n - 1) count i pool).Path answers final) :
    (shuffle (Int64.ofNat n - 1) count i pool).chance answers =
      ((n - i).descFactorial count : ℝ≥0∞)⁻¹ := by
  induction count generalizing i pool answers with
  | zero =>
    obtain ⟨rfl, rfl⟩ := Rolling.path_done_iff.1 path
    simp [shuffle, Rolling.chance]
  | succ count ih =>
    obtain ⟨j, rest, order, inside, rfl, further⟩ :=
      (path_shuffle_succ_iff small (by omega)).1 path
    have admitted : Answers.faithful (Int64.ofNat i) (Int64.ofNat n - 1) (Int64.ofNat j) := by
      rw [faithful_iff small (by omega), Int64.toInt_ofNat_of_lt (by omega)]
      omega
    -- The answer is one of those that are left, and the rest follows with one less.
    obtain ⟨m, left⟩ : ∃ m, n - i = m + 1 := ⟨n - i - 1, by omega⟩
    have others : n - (i + 1) = m := by omega
    have length : ((Int64.ofNat n - 1).toInt - (Int64.ofNat i).toInt).toNat = m := by
      rw [toInt_last small (by omega), Int64.toInt_ofNat_of_lt (by omega)]
      omega
    rw [shuffle, Rolling.chance, uniformLaw_apply admitted, placeOf_ofNat small inside,
      ih (by omega) further, length, others, left, Nat.succ_descFactorial_succ, Nat.cast_mul,
      ENNReal.mul_inv (.inr (ENNReal.natCast_ne_top _)) (.inl (ENNReal.natCast_ne_top _))]

/-- Answers to `count` questions, of which the first asks for a place from `i` on, the second for
one from `i + 1` on, and so forth. -/
def answersFrom (n i count : Nat) : Set (List Int64) :=
  {answers | answers.length = count ∧
    ∀ answer ∈ answers.zipIdx i, answer.2 ≤ answer.1.toInt ∧ answer.1.toInt < n}

theorem cons_mem_answersFrom {v : Int64} :
    v :: answers ∈ answersFrom n i (count + 1) ↔
      (i ≤ v.toInt ∧ v.toInt < n) ∧ answers ∈ answersFrom n (i + 1) count := by
  simp only [answersFrom, Set.mem_ofPred_eq, List.length_cons, Nat.add_right_cancel_iff,
    List.zipIdx_cons, List.forall_mem_cons]
  exact and_left_comm

/-- The questions of a shuffle can be answered in these ways. -/
theorem exists_path_iff (small : n ≤ 2 ^ 63) (room : i + count ≤ n) :
    (∃ final, (shuffle (Int64.ofNat n - 1) count i pool).Path answers final) ↔
      answers ∈ answersFrom n i count := by
  induction count generalizing i pool answers with
  | zero =>
    constructor
    · rintro ⟨final, path⟩
      obtain ⟨rfl, -⟩ := Rolling.path_done_iff.1 path
      exact ⟨rfl, List.forall_mem_nil _⟩
    · rintro ⟨length, -⟩
      obtain rfl := List.length_eq_zero_iff.1 length
      exact ⟨pool, .done⟩
  | succ count ih =>
    cases answers with
    | nil => simp [shuffle, Rolling.path_draw_iff, answersFrom]
    | cons v rest =>
      simp only [shuffle, Rolling.path_draw_cons_iff, exists_and_left]
      rw [faithful_iff small (by omega), ih (by omega), cons_mem_answersFrom]

/-! ## A whole draw

A shuffle from the front of the pool of all places. -/

/-- The ways to select `count` places out of `n` in an order. -/
def selections (n count : Nat) : Set (List Nat) :=
  {places | places.length = count ∧ places.Nodup ∧ ∀ place ∈ places, place < n}

/-- If there is enough to draw from, places are drawn by a shuffle. -/
theorem places_of_le (some : n ≠ 0) (enough : count ≤ n) (exhaustion : Exhaustion) :
    places n count exhaustion = shuffle (Int64.ofNat n - 1) count 0 (Array.range n) >>= fun pool =>
      .done (settled count 0 pool) := by
  have order : ¬ (n < count ∧ exhaustion = .repeat) := fun fewer => by omega
  unfold places
  rw [if_neg some, if_neg order, Nat.min_eq_left enough]
  simp [settled]

/-- A draw is a path of the shuffle of all places that settles what is drawn. -/
theorem path_places_iff (some : n ≠ 0) (enough : drawn.length ≤ n) (exhaustion : Exhaustion) :
    (places n drawn.length exhaustion).Path answers drawn ↔
      Draws n 0 (Array.range n) answers drawn := by
  rw [places_of_le some enough, Rolling.path_map_iff]
  rfl

/-- The questions of a draw can be answered in just these ways. -/
theorem exists_path_places_iff (small : n ≤ 2 ^ 63) (some : n ≠ 0) (enough : count ≤ n)
    (exhaustion : Exhaustion) :
    (∃ drawn, (places n count exhaustion).Path answers drawn) ↔
      answers ∈ answersFrom n 0 count := by
  have asked : (∃ pool, (shuffle (Int64.ofNat n - 1) count 0 (Array.range n)).Path answers pool) ↔
      answers ∈ answersFrom n 0 count := exists_path_iff small (by omega)
  simp only [places_of_le some enough, Rolling.path_map_iff]
  rw [← asked]
  constructor
  · rintro ⟨drawn, pool, path, -⟩
    exact ⟨pool, path⟩
  · rintro ⟨pool, path⟩
    exact ⟨_, pool, path, rfl⟩

/-- Each selection is drawn in one way. -/
theorem existsUnique_path_places (small : n ≤ 2 ^ 63) (some : n ≠ 0) (enough : count ≤ n)
    (exhaustion : Exhaustion) (selected : drawn ∈ selections n count) :
    ∃! answers, (places n count exhaustion).Path answers drawn := by
  obtain ⟨rfl, distinct, within⟩ := selected
  simp only [path_places_iff some enough]
  exact existsUnique_answers small (by simp) (by simpa using List.nodup_range) distinct
    (fun place mem => by simpa using within place mem) (by omega)

/-- Only selections are drawn. -/
theorem always_mem_selections {may : Answers} (some : n ≠ 0) (enough : count ≤ n)
    (exhaustion : Exhaustion) :
    (places n count exhaustion).Always may (· ∈ selections n count) := by
  refine (always_places some count exhaustion).mono fun drawn value => ?_
  obtain ⟨drawn, settled, rfl⟩ := value
  refine ⟨by rw [List.length_map, settled.length (.inl enough)],
    (settled.nodup (.inl enough)).map Fin.val_injective, ?_⟩
  exact List.forall_mem_map.2 fun place _ => place.isLt

theorem exists_path_places (small : n ≤ 2 ^ 63) (some : n ≠ 0) (enough : count ≤ n)
    (exhaustion : Exhaustion) :
    (∃ answers, (places n count exhaustion).Path answers drawn) ↔ drawn ∈ selections n count :=
  ⟨fun ⟨_, path⟩ => (always_mem_selections some enough exhaustion).path path,
    fun selected => (existsUnique_path_places small some enough exhaustion selected).exists⟩

/-- Answers and selections correspond. -/
theorem places_bijOn (small : n ≤ 2 ^ 63) (some : n ≠ 0) (enough : count ≤ n)
    (exhaustion : Exhaustion) :
    Set.BijOn (fun answers => ((places n count exhaustion).run (ClampedRoller.mk answers)).1)
      (answersFrom n 0 count) (selections n count) := by
  have asked : {answers | ∃ drawn, (places n count exhaustion).Path answers drawn} =
      answersFrom n 0 count := Set.ext fun _ => exists_path_places_iff small some enough exhaustion
  have reached : {drawn | ∃ answers, (places n count exhaustion).Path answers drawn} =
      selections n count := Set.ext fun _ => exists_path_places small some enough exhaustion
  rw [← asked, ← reached]
  refine Rolling.bijOn_run fun drawn first second path other => ?_
  have selected : drawn ∈ selections n count := reached ▸ ⟨first, path⟩
  exact (existsUnique_path_places small some enough exhaustion selected).unique path other

/-- All selections have the same chance. -/
theorem law_places (small : n ≤ 2 ^ 63) (some : n ≠ 0) (enough : count ≤ n)
    (exhaustion : Exhaustion) (selected : drawn ∈ selections n count) :
    (places n count exhaustion).law drawn = (n.descFactorial count : ℝ≥0∞)⁻¹ := by
  obtain ⟨answers, path, only⟩ :=
    existsUnique_path_places small some enough exhaustion selected
  rw [Rolling.law_apply_of_unique path only]
  rw [places_of_le some enough, Rolling.path_map_iff] at path
  obtain ⟨final, path, -⟩ := path
  rw [places_of_le some enough, Rolling.chance_map, chance_shuffle small (by omega) path,
    Nat.sub_zero]

/-! ## Drawing more than there is

Either the shuffle settles the whole pool, or there is no shuffle. -/

/-- As many different places as there are, and each of them is one that there is. -/
theorem always_perm_range {may : Answers} (some : n ≠ 0) (fewer : n < count) :
    (places n count .truncate).Always may (·.Perm (List.range n)) := by
  refine (always_places some count .truncate).mono fun drawn value => ?_
  obtain ⟨drawn, settled, rfl⟩ := value
  have distinct := (settled.nodup (.inr rfl)).map Fin.val_injective
  refine (List.subperm_of_subset distinct ?_).perm_of_length_le ?_
  · exact List.forall_mem_map.2 fun place _ => List.mem_range.2 place.isLt
  · rw [List.length_range, List.length_map, settled.length_all fewer rfl]

theorem always_length_repeat {may : Answers} (some : n ≠ 0) (count : Nat) :
    (places n count .repeat).Always may fun drawn =>
      drawn.length = count ∧ ∀ place ∈ drawn, place < n := by
  refine (always_places some count .repeat).mono fun drawn value => ?_
  obtain ⟨drawn, settled, rfl⟩ := value
  refine ⟨by rw [List.length_map, settled.length (.inr rfl)], ?_⟩
  exact List.forall_mem_map.2 fun place _ => place.isLt

/-- **Drawing without replacement.**  Let a roller keep to the ranges it is asked for.  As long as
there is enough to draw from, it draws as many places as are asked for, all of them different.  The
sequences of answers, of which the one to the question `i` is a place from `i` on, correspond to the
selections of that many places in an order: different answers draw different selections, and every
selection is drawn.  So an ideal roller draws each selection equally often, and nothing else.

If more is asked for than there is, either all places are drawn in some order, or as many as are
asked for, with repetitions.

The answers are words, and those that are not negative tell `2 ^ 63` places apart: in a longer pool
there would be places that no answer stands for. -/
theorem places_without_replacement {population : Nat} (some : population ≠ 0) (count : Nat)
    (exhaustion : Exhaustion) :
    let draw := places population count exhaustion
    (count ≤ population →
      (∀ {ρ : Type} [Roller ρ], Answers.inRange.Admit ρ → ∀ roller : ρ,
        (draw.run roller).1 ∈ selections population count) ∧
      (population ≤ 2 ^ 63 →
        Set.BijOn (fun answers => (draw.run (ClampedRoller.mk answers)).1)
          (answersFrom population 0 count) (selections population count) ∧
        draw.law.support = selections population count ∧
        ∀ drawn ∈ selections population count,
          draw.law drawn = (population.descFactorial count : ℝ≥0∞)⁻¹)) ∧
    (population < count → ∀ {ρ : Type} [Roller ρ], Answers.inRange.Admit ρ → ∀ roller : ρ,
      (exhaustion = .truncate → (draw.run roller).1.Perm (List.range population)) ∧
      (exhaustion = .repeat → (draw.run roller).1.length = count ∧
        ∀ place ∈ (draw.run roller).1, place < population)) := by
  intro draw
  refine ⟨fun enough => ⟨fun inRange => ?_, fun small => ⟨?_, ?_, ?_⟩⟩, fun fewer _ _ inRange => ?_⟩
  · exact (always_mem_selections some enough exhaustion).run inRange
  · exact places_bijOn small some enough exhaustion
  · exact Set.ext fun drawn =>
      Rolling.mem_support_law.trans (exists_path_places small some enough exhaustion)
  · exact fun drawn selected => law_places small some enough exhaustion selected
  · refine fun roller => ⟨?_, ?_⟩
    · rintro rfl
      exact (always_perm_range some fewer).run inRange roller
    · rintro rfl
      exact (always_length_repeat some count).run inRange roller

/-- There are 60 ways to draw three places out of five.  If five are asked for and there are three,
all of them are drawn, or if they may repeat, as many as are asked for. -/
theorem places_without_replacement_five :
    let draw := places 5 3 .repeat
    let all := ((places 3 5 .truncate).run (ClampedRoller.mk [1, 1])).1
    let repeated := ((places 2 4 .repeat).run (ClampedRoller.mk [1])).1
    [4, 4, 4] ∈ answersFrom 5 0 3 ∧
      (draw.run (ClampedRoller.mk [4, 4, 4])).1 = [4, 0, 1] ∧
      [4, 0, 1] ∈ selections 5 3 ∧ draw.law [4, 0, 1] = 60⁻¹ ∧
      all = [1, 0, 2] ∧ all.Perm (List.range 3) ∧
      repeated = [1, 0, 0, 0] ∧ repeated.length = 4 := by
  intro draw all repeated
  have answered : [4, 4, 4] ∈ answersFrom 5 0 3 := ⟨rfl, by decide⟩
  have value : (draw.run (ClampedRoller.mk [4, 4, 4])).1 = [4, 0, 1] := by
    dsimp only [draw]
    cbv
  have ways : (5 : Nat).descFactorial 3 = 60 := by decide
  obtain ⟨bijOn, -, law⟩ := ((places_without_replacement (by decide : 5 ≠ 0) 3 .repeat).1
    (by decide)).2 (by decide)
  have selected : [4, 0, 1] ∈ selections 5 3 := value ▸ bijOn.mapsTo answered
  have chance := law _ selected
  obtain ⟨perm, -⟩ := (places_without_replacement (by decide : 3 ≠ 0) 5 .truncate).2
    (by decide) ClampedRoller.inRange_admit (ClampedRoller.mk [1, 1])
  obtain ⟨-, length⟩ := (places_without_replacement (by decide : 2 ≠ 0) 4 .repeat).2
    (by decide) ClampedRoller.inRange_admit (ClampedRoller.mk [1])
  rw [ways] at chance
  refine ⟨answered, value, selected, chance, ?_, perm rfl, ?_, (length rfl).1⟩
  · dsimp only [all]
    cbv
  · dsimp only [repeated]
    cbv

end Tabletop.Draw
