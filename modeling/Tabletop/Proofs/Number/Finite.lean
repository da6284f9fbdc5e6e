import Mathlib
import Tabletop.Proofs.Number

/-!
# Finite numbers

The opposite of a finite number is finite.  Of a float this is seen from its bits: it is infinite or
undefined exactly if all bits of its exponent are set, and a change of the sign leaves the exponent
as it is.  Of an integer it concerns only the least of 64 bits, whose opposite is a float.

* `isFinite_unpack_iff` — the exponent decides whether a float is finite;
* `Number.isFinite_neg` — the opposite of a number.

The operation works on a float taken apart, and the result is put together again.  In between there
are sign, mantissa and exponent, of which only the exponent matters here; what has to be shown is
that an exponent taken from bits that are not all set is not put back as one that is.
-/

namespace Tabletop

open Float.Model (Format UnpackedFloat)
open Float.Model.UnpackedFloat (unpack pack unpackExponent unpackExponent_packComponents Sign)

/-! ## Bits of floats

Whether a float is finite is a matter of its exponent, and packing a float that has been unpacked
keeps it. -/

/-- A float is finite if not all bits of its exponent are set. -/
theorem isFinite_unpack_iff (bits : BitVec Format.binary64.numBits) :
    (unpack .binary64 bits).isFinite = true ↔ unpackExponent bits ≠ -1#_ := by
  rw [unpack]
  split
  · next full => split <;> simp [full, UnpackedFloat.isFinite]
  · next free =>
    refine iff_of_true ?_ free
    split
    · split <;> rfl
    · rfl

/-- The exponent that stands in the bits of a finite float is less than the greatest. -/
theorem exponent_lt_of_unpack {bits : BitVec Format.binary64.numBits} {sign : Sign}
    {mantissa : Nat} {exponent : Int} {pos : 0 < mantissa}
    (h : unpack .binary64 bits = .finite sign mantissa exponent pos) :
    (exponent + 1075).toNat + 1 < 2 ^ 11 := by
  have free : unpackExponent bits ≠ -1#11 := by
    rw [← isFinite_unpack_iff, h]
    rfl
  have bounded : (unpackExponent bits).toNat + 1 < 2 ^ 11 := by
    have small : (unpackExponent bits).toNat < 2 ^ 11 := (unpackExponent bits).isLt
    have : (unpackExponent bits).toNat ≠ 2047 := fun full => free (BitVec.toNat_inj.1 full)
    omega
  have bias : (Format.binary64.exponentBias + Format.binary64.mantissaBitsWithoutImplicit : Int) =
      1075 := rfl
  rw [unpack] at h
  simp only [bias] at h
  split at h
  · split at h <;> cases h
  · split at h
    · next zero =>
      split at h
      · cases h
      · -- A float below the normal ones has the exponent of the least of these.
        cases h
        rw [zero]
        decide
    · cases h
      rw [Int.sub_add_cancel]
      exact bounded

/-- Where the exponent is less than the greatest, it is not packed as the greatest. -/
theorem unpackExponent_pack_ne {sign : Sign} {mantissa : Nat} {exponent : Int}
    {pos : 0 < mantissa} (small : (exponent + 1075).toNat + 1 < 2 ^ 11) :
    unpackExponent (pack .binary64 (.finite sign mantissa exponent pos)) ≠ -1#_ := by
  have bias : exponent + Format.binary64.exponentBias +
      Format.binary64.mantissaBitsWithoutImplicit = exponent + 1075 := Int.add_assoc ..
  rw [pack]
  simp only [bias]
  rw [if_neg (Nat.not_le.2 small)]
  split
  · rw [unpackExponent_packComponents]
    intro full
    have value := congrArg BitVec.toNat full
    rw [BitVec.toNat_ofNat, Nat.mod_eq_of_lt (by omega)] at value
    have : (-1#11).toNat = 2047 := rfl
    omega
  · rw [unpackExponent_packComponents]
    decide

/-- The opposite of a finite float is finite. -/
theorem isFinite_float_neg {x : Float} (finite : x.isFinite = true) : (-x).isFinite = true := by
  have packed : (-x).isFinite = (unpack .binary64 (pack .binary64 x.toModel.unpack.neg)).isFinite :=
    rfl
  replace finite : x.toModel.unpack.isFinite = true := finite
  rw [packed, isFinite_unpack_iff]
  -- The cases are those of a float taken apart: only a number that is not zero has an exponent.
  cases unpacked : x.toModel.unpack with
  | notANumber | infinity =>
    rw [unpacked] at finite
    cases finite
  | zero sign =>
    rw [UnpackedFloat.neg, pack, UnpackedFloat.packedZero, unpackExponent_packComponents]
    decide
  | finite sign mantissa exponent pos =>
    exact unpackExponent_pack_ne (exponent_lt_of_unpack unpacked)

/-! ## Numbers

Of the operations on numbers this is the only one whose result has no overflow to look for. -/

namespace Number

/-- **The opposite of a finite number is finite.** -/
theorem isFinite_neg {a : Number} (finite : a.isFinite = true) : a.neg.isFinite = true := by
  cases a with
  | float x => exact isFinite_float_neg finite
  | int n =>
    unfold neg
    dsimp only
    split
    · rfl
    · next unfit =>
      -- Every integer of 64 bits but the least has an opposite among them.
      have least : n.toInt = -2 ^ 63 := by
        by_contra other
        have low := n.le_toInt
        have high := n.toInt_lt
        obtain ⟨m, eq, -⟩ := FitsWord.toInt64? (n := -n.toInt) ⟨by omega, by omega⟩
        cases unfit.symm.trans eq
      refine isFinite_float_neg ?_
      rw [toFloat, least]
      rfl

end Number

end Tabletop
