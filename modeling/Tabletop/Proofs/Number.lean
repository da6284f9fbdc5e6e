import Mathlib
import Tabletop.Number
import Tabletop.Proofs.Decimal.Integer

/-!
# Exact arithmetic

An operation on integers is exact as long as its result fits a word of 64 bits, and nothing that
comes up on the way to the result has to fit besides it: a power is exact whenever its value fits,
whatever the exponent, and so is the sum of integers that are not negative, in whatever order they
are added up.

* `Number.Is` — a number is an integer, and which;
* `Number.Is.apply` — the operators, with `BinaryOperator.exactResult?` for what they come to in
  unbounded integers;
* `Number.exactPower?_eq` — powers;
* `Number.is_sum` — sums.

An operation computes in unbounded integers and checks the result once, so its exactness is the
check.  For a power there is nothing to compute with if the exponent is large; the bases for which
there is a short cut are exactly those whose powers stay small, and every other base is out of range
at once (`Number.toInt64?_pow_eq_none`).  For a sum the check is made after every addend, and none
of these can fail before the last because the addends are not negative.
-/

namespace Tabletop

open Decimal (toInt64?)

/-- An integer fits a word of 64 bits. -/
def FitsWord (n : Int) : Prop :=
  -2 ^ 63 ≤ n ∧ n < 2 ^ 63

instance (n : Int) : Decidable (FitsWord n) :=
  inferInstanceAs (Decidable (-2 ^ 63 ≤ n ∧ n < 2 ^ 63))

theorem FitsWord.toInt64? {n : Int} (fits : FitsWord n) : ∃ m, toInt64? n = some m ∧ m.toInt = n :=
  have back := Int64.toInt_ofInt_of_le fits.1 fits.2
  ⟨Int64.ofInt n, Decimal.toInt64?_eq_some_iff.2 back, back⟩

theorem toInt64?_eq_none_of_not_fitsWord {n : Int} (large : ¬ FitsWord n) : toInt64? n = none := by
  refine if_neg fun within => large ⟨within.1, ?_⟩
  have greatest : Int64.maxValue.toInt = 2 ^ 63 - 1 := rfl
  omega

/-- What an operator comes to in unbounded integers.  Quotients are not integers, and neither are
powers whose exponent is negative; nor are there powers whose exponent is not a word of 32 bits. -/
def BinaryOperator.exactResult? (op : BinaryOperator) (a b : Int) : Option Int :=
  match op with
  | add => some (a + b)
  | sub => some (a - b)
  | mul => some (a * b)
  | div => none
  | pow => if 0 ≤ b ∧ b < UInt32.size then some (a ^ b.toNat) else none

namespace Number

/-- The number is an integer, not a float. -/
def Is (x : Number) (n : Int) : Prop :=
  ∃ m : Int64, x = int m ∧ m.toInt = n

theorem is_int (m : Int64) : (int m).Is m.toInt :=
  ⟨m, rfl, rfl⟩

variable {a b : Number} {m n : Int}

/-- There is only one number that is a given integer: a float is none, even if it has the same
value. -/
theorem Is.unique (left : a.Is n) (right : b.Is n) : a = b := by
  obtain ⟨a, rfl, rfl⟩ := left
  obtain ⟨b, rfl, eq⟩ := right
  rw [Int64.toInt_inj.1 eq]

/-- An operation on words is exact if the exact result fits. -/
theorem Is.combine {exact : Int → Int → Int} {rounded : Float → Float → Float} (left : a.Is m)
    (right : b.Is n) (fits : FitsWord (exact m n)) :
    (Number.combine exact rounded a b).Is (exact m n) := by
  obtain ⟨a, rfl, rfl⟩ := left
  obtain ⟨b, rfl, rfl⟩ := right
  obtain ⟨word, eq, value⟩ := fits.toInt64?
  refine ⟨word, ?_, value⟩
  unfold Number.combine
  dsimp only
  rw [eq]

/-- So is the opposite, which does not fit for the least word. -/
theorem Is.neg (inner : a.Is m) (fits : FitsWord (-m)) : a.neg.Is (-m) := by
  obtain ⟨a, rfl, rfl⟩ := inner
  obtain ⟨word, eq, value⟩ := fits.toInt64?
  refine ⟨word, ?_, value⟩
  unfold Number.neg
  dsimp only
  rw [eq]

/-! ## Powers

From the 64th power on the value is decided by the base alone. -/

/-- A power of a base other than 0, 1 and -1 doubles with every step at least, so that from the 64th
on it fits no word. -/
theorem toInt64?_pow_eq_none {base : Int} (large : 1 < base.natAbs) {exponent : Nat}
    (many : 64 ≤ exponent) : toInt64? (base ^ exponent) = none := by
  have far : 2 ^ 64 ≤ (base ^ exponent).natAbs := by
    rw [Int.natAbs_pow]
    calc 2 ^ 64 ≤ 2 ^ exponent := Nat.pow_le_pow_right (by decide) many
      _ ≤ base.natAbs ^ exponent := Nat.pow_le_pow_left large exponent
  cases fits : toInt64? (base ^ exponent) with
  | none => rfl
  | some word =>
    rw [← Decimal.toInt64?_eq_some_iff.1 fits] at far
    have low := word.le_toInt
    have high := word.toInt_lt
    omega

/-- **Powers are exact if they fit.** -/
theorem exactPower?_eq (base : Int) (exponent : Nat) :
    exactPower? base exponent = toInt64? (base ^ exponent) := by
  unfold exactPower?
  split
  · rfl
  · next many =>
    rw [Nat.not_lt] at many
    split
    · next zero =>
      rw [zero, zero_pow (by omega)]
      rfl
    · split
      · next one =>
        rw [one, one_pow]
        rfl
      · split
        · next minusOne =>
          rw [minusOne, neg_one_pow_eq_pow_mod_two]
          rcases Nat.mod_two_eq_zero_or_one exponent with even | odd
          · rw [even]
            rfl
          · rw [odd]
            rfl
        · next notZero notOne notMinusOne =>
          exact (toInt64?_pow_eq_none (by omega) many).symm

/-- A power of words is exact, for exponents that are words of 32 bits. -/
theorem Is.pow (base : a.Is m) (exponent : b.Is n) (word : 0 ≤ n ∧ n < UInt32.size)
    (fits : FitsWord (m ^ n.toNat)) : (a.pow b).Is (m ^ n.toNat) := by
  obtain ⟨a, rfl, rfl⟩ := base
  obtain ⟨b, rfl, rfl⟩ := exponent
  obtain ⟨result, eq, value⟩ := fits.toInt64?
  refine ⟨result, ?_, value⟩
  unfold Number.pow
  dsimp only
  rw [if_pos word, exactPower?_eq, eq]

/-- **The operators are exact** if their result fits. -/
theorem Is.apply {op : BinaryOperator} {result : Int} (left : a.Is m) (right : b.Is n)
    (exact : op.exactResult? m n = some result) (fits : FitsWord result) :
    (a.apply op b).Is result := by
  cases op with
  | add | sub | mul =>
    cases exact
    exact left.combine right fits
  | div => cases exact
  | pow =>
    obtain ⟨word, eq⟩ := Option.ite_none_right_eq_some.1 exact
    obtain rfl := Option.some.inj eq
    exact left.pow right word fits

/-! ## Sums

A sum is folded from the left, so the induction carries what has been added up so far. -/

/-- The induction for sums.  What is left to add is not negative, so that what has been added so far
fits if the whole sum does. -/
theorem is_foldl_add {words : List Int64} (nonneg : ∀ w ∈ words, 0 ≤ w.toInt) {acc : Number}
    {sofar : Int} (start : acc.Is sofar) (nonneg' : 0 ≤ sofar)
    (fits : sofar + (words.map Int64.toInt).sum < 2 ^ 63) :
    ((words.map int).foldl add acc).Is (sofar + (words.map Int64.toInt).sum) := by
  induction words generalizing acc sofar with
  | nil => simpa using start
  | cons w words ih =>
    rw [List.forall_mem_cons] at nonneg
    simp only [List.map_cons, List.sum_cons, List.foldl_cons, ← Int.add_assoc] at fits ⊢
    have rest : 0 ≤ (words.map Int64.toInt).sum :=
      List.sum_nonneg (List.forall_mem_map.2 nonneg.2)
    refine ih nonneg.2 (start.combine (is_int w) ⟨?_, ?_⟩) ?_ fits <;> omega

/-- **Sums are exact** if the whole sum fits: none of the sums on the way is greater. -/
theorem is_sum {words : List Int64} (nonneg : ∀ w ∈ words, 0 ≤ w.toInt)
    (fits : (words.map Int64.toInt).sum < 2 ^ 63) :
    (sum (words.map int)).Is (words.map Int64.toInt).sum := by
  rw [← Int.zero_add (words.map Int64.toInt).sum] at fits ⊢
  exact is_foldl_add nonneg (is_int 0) (Int.le_refl 0) fits

end Number

end Tabletop
