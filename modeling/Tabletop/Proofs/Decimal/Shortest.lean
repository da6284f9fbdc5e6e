import Mathlib.Algebra.Order.Ring.Nat
import Tabletop.Decimal.Shortest

/-!
# The shortest decimal is found

The search for the shortest decimal looks at twenty-two grids, and gives a zero if none of them has
a point in the interval of the float.  It always hits (`Dyadic.contains_shortest`): on the last of
the grids one step is shorter than the upper half of the interval (`Dyadic.step_lt_half`), so that
the upper neighbour of the float lies in it.

How fine the last grid is follows from `2 ^ 93 < 10 ^ 28` and `10 ^ 3 < 2 ^ 10`, which are close
enough for the exponents that floats have.
-/

namespace Tabletop.Decimal

/-! ## Powers of two and ten

A power of ten is compared with one of two by raising both to a power at which the comparison is one
of small numbers. -/

theorem ten_pow_lt_two_pow {m n : Nat} (few : 10 * m < 3 * n) : 10 ^ m < 2 ^ n := by
  refine (Nat.pow_lt_pow_iff_left (by decide : 3 ≠ 0)).1 ?_
  calc (10 ^ m) ^ 3 = (10 ^ 3) ^ m := Nat.pow_right_comm ..
    _ ≤ (2 ^ 10) ^ m := Nat.pow_le_pow_left (by decide) m
    _ = 2 ^ (10 * m) := (Nat.pow_mul ..).symm
    _ < 2 ^ (3 * n) := Nat.pow_lt_pow_right (by decide) few
    _ = (2 ^ n) ^ 3 := by rw [Nat.mul_comm, Nat.pow_mul]

/-- The opposite comparison needs a better approximation.  It is used where the exponent of the
float is small, and the bounds of the exponents are what makes this approximation good enough. -/
theorem two_pow_lt_ten_pow {m n : Nat} (few : 28 * m < 93 * n) : 2 ^ m < 10 ^ n := by
  refine (Nat.pow_lt_pow_iff_left (by decide : 93 ≠ 0)).1 ?_
  calc (2 ^ m) ^ 93 = (2 ^ 93) ^ m := Nat.pow_right_comm ..
    _ ≤ (10 ^ 28) ^ m := Nat.pow_le_pow_left (by decide) m
    _ = 10 ^ (28 * m) := (Nat.pow_mul ..).symm
    _ < 10 ^ (93 * n) := Nat.pow_lt_pow_right (by decide) few
    _ = (10 ^ n) ^ 93 := by rw [Nat.mul_comm, Nat.pow_mul]

/-! ## The search

The search goes from coarse grids to finer ones and takes the first hit. -/

namespace Interval

variable {i : Interval} {tie : Tie} {power : Int} {d : Scaled}

theorem contains_of_nearest? (found : i.nearest? tie power = some d) : i.contains d = true := by
  unfold nearest? at found
  extract_lets value unit floor twice preferUp down up at found
  split at found
  case h_1 downIn upIn =>
    obtain rfl := Option.some.inj found
    split
    · exact upIn
    · exact downIn
  case h_2 downIn _ => exact Option.some.inj found ▸ downIn
  case h_3 _ upIn => exact Option.some.inj found ▸ upIn
  case h_4 => exact nomatch found

/-- A point strictly between the ends lies in the interval, whether the ends belong to it or not.
Whether they do depends on the last digit of the float, and no lemma here needs to know it. -/
theorem contains_of_lt
    (left : i.low * 10 ^ (-d.power).toNat < d.digits * 10 ^ d.power.toNat * i.scale)
    (right : d.digits * 10 ^ d.power.toNat * i.scale < i.high * 10 ^ (-d.power).toNat) :
    i.contains d = true := by
  unfold contains
  extract_lets point unit
  split
  · exact Bool.and_eq_true_iff.2
      ⟨decide_eq_true (Nat.le_of_lt left), decide_eq_true (Nat.le_of_lt right)⟩
  · exact Bool.and_eq_true_iff.2 ⟨decide_eq_true left, decide_eq_true right⟩

theorem digits_ne_zero (inside : i.contains d = true) (positive : 0 < i.low) : d.digits ≠ 0 := by
  intro zero
  have left : 0 < i.low * Nat.pow 10 (-d.power).toNat :=
    Nat.mul_pos positive (Nat.pow_pos (by decide))
  have point : d.digits * Nat.pow 10 d.power.toNat * i.scale = 0 := by
    rw [zero, Nat.zero_mul, Nat.zero_mul]
  unfold contains at inside
  rw [point] at inside
  extract_lets unit at inside
  split at inside
  · exact Nat.not_le_of_lt left (of_decide_eq_true (Bool.and_eq_true_iff.1 inside).1)
  · exact Nat.not_lt_zero _ (of_decide_eq_true (Bool.and_eq_true_iff.1 inside).1)

/-- A grid whose step is shorter than the upper half of the interval has a hit.  The point above the
float is the one that hits, and it may still be that the one below is chosen. -/
theorem isSome_nearest? (below : i.low < i.value) (positive : 0 < i.scale)
    (fine : i.value * 10 ^ (-power).toNat + i.scale * 10 ^ power.toNat
      < i.high * 10 ^ (-power).toNat) :
    (i.nearest? tie power).isSome := by
  unfold nearest?
  extract_lets value unit floor twice preferUp down up
  have step : 0 < unit := Nat.mul_pos positive (Nat.pow_pos (by decide))
  have point : up.digits * 10 ^ up.power.toNat * i.scale = unit * floor + unit := by
    show (floor + 1) * 10 ^ power.toNat * i.scale = unit * floor + unit
    rw [Nat.mul_assoc, Nat.mul_comm _ i.scale, Nat.mul_comm, ← Nat.mul_succ]
    rfl
  -- The point above the float is at most one step away, so it lies below the upper end.
  have upIn : i.contains up = true := by
    refine contains_of_lt ?_ ?_
    · rw [point]
      calc i.low * 10 ^ (-power).toNat ≤ value := Nat.mul_le_mul_right _ (Nat.le_of_lt below)
        _ < unit * floor + unit := Nat.lt_mul_div_succ value step
    · rw [point]
      calc unit * floor + unit ≤ value + unit :=
            Nat.add_le_add_right (Nat.mul_div_le value unit) unit
        _ < i.high * 10 ^ (-power).toNat := fine
  rw [upIn]
  cases i.contains down <;> rfl

/-- A search that comes to a grid with a hit ends with a decimal in the interval.  The induction is
on the grids that are left.  How many grids there are is the same as how many tries there are. -/
theorem contains_search {tries : Nat} :
    ∀ {power : Int} {steps : Nat}, steps < tries → (i.nearest? tie (power - steps)).isSome →
      i.contains (i.search tie power tries) = true := by
  induction tries with
  | zero => exact fun h => absurd h (Nat.not_lt_zero _)
  | succ tries ih =>
    intro power steps within hit
    rw [search]
    cases found : i.nearest? tie power with
    | some d => exact contains_of_nearest? found
    | none =>
      -- the hit lies on a later grid
      cases steps with
      | zero =>
        rw [Int.natCast_zero, Int.sub_zero, found] at hit
        exact nomatch hit
      | succ steps =>
        have same : power - ((steps + 1 : Nat) : Int) = power - 1 - steps := by omega
        exact ih (Nat.lt_of_succ_lt_succ within) (same ▸ hit)

end Interval

/-! ## Floats

What is asked of the search holds of all floats, since their exponents are bounded. -/

namespace Dyadic

/-- The significands and exponents that floats have.  The zero is among them, and is the only one
that the search does not look for. -/
structure Bounded (x : Dyadic) : Prop where
  significand_lt : x.significand < 2 ^ 53
  le_exponent : -1074 ≤ x.exponent
  exponent_le : x.exponent ≤ 972

/-- Every float has a significand and an exponent within the bounds.  The exponents are those of the
smallest floats at one end and of the infinite ones at the other. -/
theorem bounded_ofFloat (x : Float) : (ofFloat x).Bounded := by
  unfold ofFloat
  extract_lets bits biased fraction negative
  have exponent : biased < 2048 := Nat.mod_lt _ (by decide)
  have digits : fraction < 2 ^ 52 := Nat.mod_lt _ (by decide)
  split
  · exact ⟨Nat.lt_trans digits (by decide), Int.le_refl _, show (-1074 : Int) ≤ 972 by decide⟩
  · next normal =>
    refine ⟨Nat.add_lt_add_right digits (2 ^ 52), ?_, ?_⟩
    · show -1074 ≤ (biased : Int) - 1075
      omega
    · show (biased : Int) - 1075 ≤ 972
      omega

variable {x : Dyadic}

/-- On the last of the grids one step is shorter than half the distance of two floats.  The cases
are the signs of the two exponents, of the grid and of the float. -/
theorem step_lt_half (bounded : x.Bounded) {power : Int} (last : power = x.powerAbove - 21) :
    2 ^ (2 - x.exponent).toNat * 10 ^ power.toNat
      < 2 * 2 ^ (x.exponent - 2).toNat * 10 ^ (-power).toNat := by
  have log : x.significand.log2 < 53 := by
    by_cases zero : x.significand = 0
    · rw [zero]
      decide
    · exact (Nat.log2_lt zero).2 bounded.significand_lt
  have low := bounded.le_exponent
  have high := bounded.exponent_le
  have top : power ≤ (53 + x.exponent) * 30103 / 100000 - 19 := by
    unfold powerAbove at last
    omega
  by_cases whole : 0 ≤ power
  · have scale : (2 - x.exponent).toNat = 0 := by omega
    have unit : (-power).toNat = 0 := by omega
    have half : (x.exponent - 2).toNat.succ = (x.exponent - 1).toNat := by omega
    rw [scale, unit, pow_zero, pow_zero, Nat.one_mul, Nat.mul_one, ← Nat.pow_succ', half]
    exact ten_pow_lt_two_pow (by omega)
  · have unit : power.toNat = 0 := by omega
    rw [unit, pow_zero, Nat.mul_one]
    by_cases up : 2 ≤ x.exponent
    · have scale : (2 - x.exponent).toNat = 0 := by omega
      rw [scale, pow_zero, Nat.mul_assoc]
      have : 0 < 2 ^ (x.exponent - 2).toNat * 10 ^ (-power).toNat :=
        Nat.mul_pos (Nat.pow_pos (by decide)) (Nat.pow_pos (by decide))
      omega
    · have scale : (x.exponent - 2).toNat = 0 := by omega
      have half : (2 - x.exponent).toNat = (1 - x.exponent).toNat + 1 := by omega
      rw [scale, half, pow_zero, Nat.mul_one, Nat.pow_succ']
      exact Nat.mul_lt_mul_of_pos_left (two_pow_lt_ten_pow (by omega)) (by decide)

variable {tie : Tie}

/-- The shortest decimal names the float: the search never gives up. -/
theorem contains_shortest (bounded : x.Bounded) (positive : x.significand ≠ 0) :
    x.interval.contains (shortest tie x) = true := by
  have up : 0 < 2 ^ (x.exponent - 2).toNat := Nat.pow_pos (by decide)
  have hit : (x.interval.nearest? tie (x.powerAbove - (21 : Nat))).isSome := by
    refine Interval.isSome_nearest? ?below (Nat.pow_pos (by decide)) ?fine
    case below =>
      refine Nat.mul_lt_mul_of_pos_right ?_ up
      split <;> omega
    case fine =>
      show 4 * x.significand * 2 ^ (x.exponent - 2).toNat * _ + 2 ^ (2 - x.exponent).toNat * _
        < (4 * x.significand + 2) * 2 ^ (x.exponent - 2).toNat * _
      rw [Nat.add_mul, Nat.add_mul]
      exact Nat.add_lt_add_left (step_lt_half bounded rfl) _
  rw [shortest, if_neg positive]
  exact Interval.contains_search (by decide) hit

/-- The shortest decimal of a float that is not zero is not zero.  So its text cannot be mistaken
for that of zero. -/
theorem digits_shortest_ne_zero (bounded : x.Bounded) (positive : x.significand ≠ 0) :
    (shortest tie x).digits ≠ 0 := by
  refine Interval.digits_ne_zero (contains_shortest bounded positive) (Nat.mul_pos ?_ ?_)
  · split <;> omega
  · exact Nat.pow_pos (by decide)

end Dyadic

end Tabletop.Decimal
