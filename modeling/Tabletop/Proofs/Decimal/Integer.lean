import Tabletop.Decimal.Integer
import Tabletop.Text.CodePoints

/-!
# Whole numbers read as they are written

Numbers are written with the digits of ASCII, without zeros at the front and with a sign only where
they are negative, and this is read back as the same number: `word32?_toDigits` and
`word64?_toDigits` for words and `int64?_ofInt` for integers with a sign.  A run of digits in a text
ends with the number if the text goes on with another character, `takeWhile_append_of_stops` and
`dropWhile_append_of_stops`.

What is written determines how it is read: a sign tells a negative number, and digits alone tell a
natural one.  The word that a number has to fit is looked at last, so that the equations for words
and for integers with a sign follow from those for numbers of any size.
-/

namespace Tabletop

/-! ## Runs of characters

How a run of characters is cut off from a text. -/

namespace Text

variable {p : Char → Bool} {cs rest : List Char}

theorem takeWhile_of_stops (stops : ∀ c ∈ rest.head?, p c = false) : rest.takeWhile p = [] := by
  cases rest with
  | nil => rfl
  | cons c rest => exact List.takeWhile_cons_of_neg (by simp [stops c rfl])

theorem dropWhile_of_stops (stops : ∀ c ∈ rest.head?, p c = false) : rest.dropWhile p = rest := by
  cases rest with
  | nil => rfl
  | cons c rest => exact List.dropWhile_cons_of_neg (by simp [stops c rfl])

/-- A run ends where the text goes on with a character that does not belong to it.  All readers of
runs are used through this lemma and the next: what was read once is read again in front of any text
that begins otherwise. -/
theorem takeWhile_append_of_stops (all : ∀ c ∈ cs, p c) (stops : ∀ c ∈ rest.head?, p c = false) :
    (cs ++ rest).takeWhile p = cs := by
  rw [List.takeWhile_append_of_pos all, takeWhile_of_stops stops, List.append_nil]

theorem dropWhile_append_of_stops (all : ∀ c ∈ cs, p c) (stops : ∀ c ∈ rest.head?, p c = false) :
    (cs ++ rest).dropWhile p = rest := by
  rw [List.dropWhile_append_of_pos all, dropWhile_of_stops stops]

/-- The digits of ASCII are decimal digits.  Runs are cut off by the wider class, and numbers are
written in the narrower one. -/
theorem isDigit_of_isDigit {c : Char} (digit : c.isDigit = true) : isDigit c = true := by
  have small : c.toNat < 128 := by
    have := (Char.isDigit_iff_toNat.1 digit).2
    exact Nat.lt_of_le_of_lt this (by decide)
  rw [isDigit, if_pos small]
  exact digit

theorem isDigit_toDigits {n : Nat} : ∀ c ∈ Nat.toDigits 10 n, isDigit c = true := fun _ mem =>
  isDigit_of_isDigit (Nat.isDigit_of_mem_toDigits (by decide) (by decide) mem)

end Text

/-! ## Numbers

Readers of words are tested against the greatest word after the digits have been read, so a lemma
about digits has no bound in it. -/

namespace Decimal

theorem isDigit_toDigits {n : Nat} : ∀ c ∈ Nat.toDigits 10 n, c.isDigit = true :=
  fun _ mem => Nat.isDigit_of_mem_toDigits (by decide) (by decide) mem

theorem isEmpty_toDigits (n : Nat) : (Nat.toDigits 10 n).isEmpty = false :=
  List.isEmpty_eq_false_iff.2 Nat.toDigits_ne_nil

/-- A text that begins with a number begins with a digit.  Sums of lemmas about what may follow a
text come down to this, since no number is empty. -/
theorem isDigit_head_toDigits {n : Nat} {rest : List Char} :
    ∀ c ∈ (Nat.toDigits 10 n ++ rest).head?, c.isDigit = true := by
  obtain ⟨d, ds, eq⟩ := List.exists_cons_of_ne_nil (Nat.toDigits_ne_nil (b := 10) (n := n))
  rintro c mem
  rw [eq] at mem
  obtain rfl := Option.some.inj mem
  exact isDigit_toDigits d (by rw [eq]; exact .head _)

theorem digitChar_ne_zero {n : Nat} (small : n < 10) (positive : n ≠ 0) : n.digitChar ≠ '0' := by
  decide +revert

/-- A number that is not zero has no zero at the front.  The induction takes away the last digit,
since the first is that of a smaller number.  So the way in which a number is written is the only
one without zeros to spare. -/
theorem head?_toDigits {n : Nat} (positive : n ≠ 0) : (Nat.toDigits 10 n).head? ≠ some '0' := by
  induction n using Nat.strongRecOn with
  | ind n ih =>
    by_cases small : n < 10
    · rw [Nat.toDigits_of_lt_base small]
      exact fun same => digitChar_ne_zero small positive (Option.some.inj same)
    · have front : n / 10 ≠ 0 := by omega
      have some : (Nat.toDigits 10 (n / 10)).head?.isSome :=
        List.isSome_head?.2 Nat.toDigits_ne_nil
      rw [Nat.toDigits_of_base_le (by decide) (Nat.le_of_not_lt small), List.head?_append,
        Option.or_of_isSome some]
      exact ih (n / 10) (by omega) front

theorem natural?_toDigits (n : Nat) : natural? (Nat.toDigits 10 n) = some n := by
  rw [natural?, if_pos ⟨Nat.toDigits_ne_nil, List.all_eq_true.2 isDigit_toDigits⟩,
    Nat.ofDigitChars_toDigits (by decide) (by decide)]

/-- A plus sign may stand at the front, and there is none.  The sign is looked for first, and what
is read then is the same as for a natural number. -/
theorem unsigned?_toDigits (n : Nat) : unsigned? (Nat.toDigits 10 n) = some n := by
  unfold unsigned?
  split
  · next cs digits =>
    have : '+' ∈ Nat.toDigits 10 n := by rw [digits]; exact .head _
    exact nomatch isDigit_toDigits _ this
  · exact natural?_toDigits n

theorem word32?_toDigits (n : UInt32) : word32? (Nat.toDigits 10 n.toNat) = some n := by
  rw [word32?, unsigned?_toDigits]
  dsimp only
  rw [if_pos n.toNat_lt, UInt32.ofNat_toNat]

theorem word64?_toDigits (n : UInt64) : word64? (Nat.toDigits 10 n.toNat) = some n := by
  rw [word64?, unsigned?_toDigits]
  dsimp only
  rw [if_pos n.toNat_lt, UInt64.ofNat_toNat]

theorem toInt64?_toInt (n : Int64) : toInt64? n.toInt = some n := by
  rw [toInt64?, if_pos ⟨n.minValue_le_toInt, n.toInt_le⟩, Int64.ofInt_toInt]

/-- An integer is a word with a sign exactly if the word has its value. -/
theorem toInt64?_eq_some_iff {n : Int} {m : Int64} : toInt64? n = some m ↔ m.toInt = n := by
  constructor
  · intro h
    unfold toInt64? at h
    split at h
    · next inside =>
      obtain rfl := Option.some.inj h
      exact Int64.toInt_ofInt_of_le inside.1 (Int.lt_of_le_of_lt inside.2 (by decide))
    · cases h
  · rintro rfl
    exact toInt64?_toInt m

/-- Naturals that fit a word with a sign.  They are the ones below half the number of words, and the
word is made of the natural itself. -/
theorem toInt64?_natCast {n : Nat} (small : n < 0x8000000000000000) :
    toInt64? n = some (Int64.ofNat n) := by
  have low : Int64.minValue.toInt ≤ n := Int.le_trans (by decide) (Int.natCast_nonneg n)
  have high : (n : Int) ≤ Int64.maxValue.toInt := by
    have : Int64.maxValue.toInt = 0x7FFFFFFFFFFFFFFF := rfl
    omega
  rw [toInt64?, if_pos ⟨low, high⟩]
  exact congrArg some Int64.ofInt_eq_ofNat

theorem toInt64?_eq_none {n : Nat} (large : ¬ n < 0x8000000000000000) : toInt64? n = none := by
  have : Int64.maxValue.toInt = 0x7FFFFFFFFFFFFFFF := rfl
  rw [toInt64?, if_neg (by omega)]

/-- An integer is written with a sign only if it is negative.  This equation is all that is known of
the text of an integer in what follows. -/
theorem toList_ofInt (n : Int) :
    (ofInt n).toList =
      if n < 0 then '-' :: Nat.toDigits 10 n.natAbs else Nat.toDigits 10 n.natAbs := by
  cases n with
  | ofNat m =>
    have positive : ¬ Int.ofNat m < 0 := Int.not_lt.2 (Int.natCast_nonneg m)
    rw [if_neg positive]
    exact Nat.toList_repr
  | negSucc m =>
    rw [if_pos (Int.negSucc_lt_zero m)]
    show ("-" ++ (m + 1).repr).toList = _
    rw [String.toList_append, Nat.toList_repr]
    rfl

theorem signed?_ofInt (n : Int) : signed? (ofInt n).toList = some n := by
  rw [toList_ofInt]
  split
  -- The digits behind the sign are those of the natural number, which is read without a sign.
  · next negative =>
    rw [signed?, natural?_toDigits]
    exact congrArg some (show -(n.natAbs : Int) = n by omega)
  · next positive =>
    -- Without a minus sign at the front it is read as a natural number.
    have plain : signed? (Nat.toDigits 10 n.natAbs) =
        (unsigned? (Nat.toDigits 10 n.natAbs)).map Int.ofNat := by
      unfold signed?
      split
      · next cs digits =>
        have : '-' ∈ Nat.toDigits 10 n.natAbs := by rw [digits]; exact .head _
        exact nomatch isDigit_toDigits _ this
      · rfl
    rw [plain, unsigned?_toDigits]
    exact congrArg some (Int.natAbs_of_nonneg (Int.not_lt.1 positive))

/-- **Integers are read as they are written.** The minus sign of the least one is no exception,
since the digits are read before the sign is applied. -/
theorem int64?_ofInt (n : Int64) : int64? (ofInt n.toInt).toList = some n := by
  rw [int64?, signed?_ofInt, Option.bind_some, toInt64?_toInt]

end Decimal

end Tabletop
