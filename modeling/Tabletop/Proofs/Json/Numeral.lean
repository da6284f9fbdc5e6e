import Mathlib.Data.List.Basic
import Tabletop.Json.Read
import Tabletop.Proofs.Decimal.Integer
import Tabletop.Proofs.Decimal.Shortest

/-!
# Numbers in JSON texts

A number is written by its digits and read digit by digit, up to the first character that can not
belong to it.  The digits of integers and floats are such that nothing is lost
(`Numeral.numeral?_unsigned`): a zero at the front stands alone, a point is followed by digits, and
so is an exponent.  For floats this needs that the shortest decimal of a float that is not zero is
not zero either.

What a numeral stands for comes back as well: words and integers by their digits, and a float is
never taken for an integer.

The proofs go along the reader, which takes the whole digits, the fraction and the exponent one
after another.  Each of the three stops at the first character that is none of its own, and what has
to be known of the next part is only how it begins.
-/

namespace Tabletop.Json

/-! ## Digits

The reader takes all the digits there are and then refuses a zero with more of them behind it. -/

/-- At least one digit, and only digits. -/
structure AreDigits (digits : List Char) : Prop where
  ne_nil : digits ≠ []
  isDigit : ∀ c ∈ digits, c.isDigit = true

/-- Digits as they stand before a point: a zero at the front stands alone. -/
structure AreWhole (digits : List Char) : Prop extends AreDigits digits where
  zero : digits.head? = some '0' → digits = ['0']

/-- The digits of a number begin with a zero only if the number is zero. -/
theorem areWhole_toDigits (n : Nat) : AreWhole (Nat.toDigits 10 n) where
  ne_nil := Nat.toDigits_ne_nil
  isDigit := Decimal.isDigit_toDigits
  zero head := by
    by_cases positive : n = 0
    · rw [positive]
      rfl
    · exact absurd head (Decimal.head?_toDigits positive)

/-- Digits may be cut anywhere but at the front: a zero at the front was alone before. -/
theorem AreWhole.take {digits : List Char} (whole : AreWhole digits) {n : Nat} (some : n ≠ 0) :
    AreWhole (digits.take n) where
  ne_nil := by simp [whole.ne_nil, some]
  isDigit c mem := whole.isDigit c (List.mem_of_mem_take mem)
  zero head := by
    rw [List.head?_take, if_neg some] at head
    rw [whole.zero head, List.take_of_length_le]
    exact Nat.pos_of_ne_zero some

theorem digits?_append {digits rest : List Char} (are : AreDigits digits)
    (stop : ∀ c ∈ rest.head?, c.isDigit = false) :
    digits? (digits ++ rest) = some (digits, rest) := by
  unfold digits?
  rw [Text.takeWhile_append_of_stops are.isDigit stop,
    Text.dropWhile_append_of_stops are.isDigit stop]
  split
  · exact absurd rfl are.ne_nil
  · rfl

/-- The digits before a point are read; the test for a zero at the front passes by `AreWhole.zero`.
-/
theorem whole?_append {digits rest : List Char} (are : AreWhole digits)
    (stop : ∀ c ∈ rest.head?, c.isDigit = false) :
    whole? (digits ++ rest) = some (digits, rest) := by
  unfold whole?
  rw [digits?_append are.toAreDigits stop]
  split
  · next found =>
    cases found
    exact nomatch are.zero rfl
  · rfl

/-! ## Numerals

What the writer of numbers promises (`Numeral.WellFormed`), and what the reader makes of it. -/

/-- A text whose front can not belong to the number before it. -/
def Ends (rest : List Char) : Prop :=
  ∀ c ∈ rest.head?, c.isDigit = false ∧ c ≠ '.' ∧ c ≠ 'e' ∧ c ≠ 'E'

namespace Numeral

/-- A numeral whose text is read as itself. -/
structure WellFormed (n : Numeral) : Prop where
  whole : AreWhole n.whole
  fraction : ∀ c ∈ n.fraction, c.isDigit = true
  exponent : ∀ sign digits, n.exponent = some (sign, digits) → AreDigits digits

/-- The text of an exponent. -/
def exponentText : Option (Bool × List Char) → List Char
  | none => []
  | some (negative, digits) => 'e' :: (if negative then '-' else '+') :: digits

/-- The text of a fraction. -/
def fractionText (digits : List Char) : List Char :=
  if digits.isEmpty then [] else '.' :: digits

/-- The text of a numeral after its sign. -/
def unsigned (n : Numeral) : List Char :=
  n.whole ++ (fractionText n.fraction ++ exponentText n.exponent)

theorem text_eq (n : Numeral) : n.text = (if n.negative then ['-'] else []) ++ n.unsigned := by
  unfold text unsigned fractionText
  rw [List.append_assoc, List.append_assoc]
  rfl

/-- An exponent is read with its sign, which is always written.  Where there is none, the letter of
exponents must not follow. -/
theorem exponent?_append {e : Option (Bool × List Char)} {rest : List Char} (ends : Ends rest)
    (valid : ∀ sign digits, e = some (sign, digits) → AreDigits digits) :
    exponent? (exponentText e ++ rest) = some (e, rest) := by
  cases e with
  | none =>
    cases rest with
    | nil => rfl
    | cons c cs =>
      obtain ⟨-, -, small, capital⟩ := ends c rfl
      simp [exponentText, exponent?, small, capital]
  | some e =>
    obtain ⟨negative, digits⟩ := e
    have read := digits?_append (valid negative digits rfl) fun c mem => (ends c mem).1
    cases negative <;> simp [exponentText, exponent?, read]

/-- A fraction is read, and where there is none, no point must follow. -/
theorem fraction?_append {digits rest : List Char} (isDigit : ∀ c ∈ digits, c.isDigit = true)
    (stop : ∀ c ∈ rest.head?, c.isDigit = false ∧ c ≠ '.') :
    fraction? (fractionText digits ++ rest) = some (digits, rest) := by
  cases digits with
  | nil =>
    cases rest with
    | nil => rfl
    | cons c cs =>
      have point := (stop c rfl).2
      simp [fractionText, fraction?, point]
  | cons d digits =>
    exact digits?_append ⟨List.cons_ne_nil d digits, isDigit⟩ fun c mem => (stop c mem).1

/-- **A numeral is read as itself** before any text that can not belong to it. -/
theorem numeral?_unsigned {n : Numeral} (valid : n.WellFormed) {rest : List Char}
    (ends : Ends rest) : numeral? n.negative (n.unsigned ++ rest) = some (n, rest) := by
  -- Each part is followed by the next one or, if that is not written, by what follows that.
  have afterFraction : ∀ c ∈ (exponentText n.exponent ++ rest).head?,
      c.isDigit = false ∧ c ≠ '.' := by
    cases n.exponent with
    | none => exact fun c mem => ⟨(ends c mem).1, (ends c mem).2.1⟩
    | some e =>
      rintro c ⟨rfl⟩
      decide
  have afterWhole : ∀ c ∈ (fractionText n.fraction ++ (exponentText n.exponent ++ rest)).head?,
      c.isDigit = false := by
    cases n.fraction with
    | nil => exact fun c mem => (afterFraction c mem).1
    | cons d digits =>
      rintro c ⟨rfl⟩
      decide
  unfold numeral? unsigned
  rw [List.append_assoc, List.append_assoc, whole?_append valid.whole afterWhole]
  simp only [Option.bind_eq_bind, Option.bind_some]
  rw [fraction?_append valid.fraction afterFraction, Option.bind_some]
  simp only
  rw [exponent?_append ends valid.exponent, Option.bind_some]
  rfl

/-! ## Integers

An integer has a sign and its digits.  The reader of words refuses a sign, even before a zero, and
the reader of integers refuses a sign only there. -/

/-- Integers are written so that they can be read. -/
theorem wellFormed_ofInt (n : Int) : (ofInt n).WellFormed where
  whole := areWhole_toDigits n.natAbs
  fraction _ mem := nomatch mem
  exponent _ _ eq := nomatch eq

theorem wholeValue_ofInt (n : Int) : (ofInt n).wholeValue = n.natAbs :=
  Nat.ofDigitChars_toDigits (by decide) (by decide)

/-- A word comes back below any bound that it respects. -/
theorem natural?_ofInt {n bound : Nat} (below : n < bound) :
    (ofInt n).natural? bound = some n := by
  have plain : (ofInt n).negative = false := decide_eq_false (Int.not_lt.2 (Int.natCast_nonneg n))
  rw [natural?, wholeValue_ofInt, plain]
  exact if_pos ⟨rfl, rfl, below⟩

/-- An integer comes back with its sign; the smallest one has a magnitude that is no integer itself,
which is why the sign is put back before the bounds are tested. -/
theorem int64?_ofInt (n : Int64) : (ofInt n.toInt).int64? = some n := by
  have value : (if (ofInt n.toInt).negative then -((ofInt n.toInt).wholeValue : Int)
      else (ofInt n.toInt).wholeValue) = n.toInt := by
    rw [wholeValue_ofInt]
    split
    · next negative =>
      have : n.toInt < 0 := of_decide_eq_true negative
      omega
    · next positive =>
      have : ¬ n.toInt < 0 := fun below => positive (decide_eq_true below)
      omega
  have plain : ¬ ((!(ofInt n.toInt).isInteger) = true ∨
      (ofInt n.toInt).negative = true ∧ (ofInt n.toInt).wholeValue = 0) := by
    rw [wholeValue_ofInt]
    rintro (false | ⟨negative, zero⟩)
    · exact nomatch false
    · have : n.toInt < 0 := of_decide_eq_true negative
      omega
  rw [int64?, if_neg plain, value, Decimal.toInt64?_toInt]

/-! ## Floats

The digits of a float are laid out around a point, or with an exponent if they would be too far from
it.  Zeros are put before the digits of a small float and behind those of a large one; the first is
harmless, since one of them is left alone before the point, and the second needs digits to stand
behind. -/

/-- With zeros in front, digits are at least one more than the places behind the point. -/
theorem length_filled (digits : List Char) (places : Nat) :
    (List.replicate (places + 1 - digits.length) '0' ++ digits).length
      = max (places + 1) digits.length := by
  rw [List.length_append, List.length_replicate]
  omega

theorem isDigit_filled {digits : List Char} (are : AreDigits digits) (n : Nat) :
    ∀ c ∈ List.replicate n '0' ++ digits, c.isDigit = true := by
  intro c mem
  rcases List.mem_append.1 mem with zero | digit
  · rw [List.eq_of_mem_replicate zero]
    rfl
  · exact are.isDigit c digit

/-- Before the point: a single zero if the digits do not reach there, else the digits cut behind it.
-/
theorem areWhole_parted {digits : List Char} (are : AreWhole digits) (places : Nat) :
    AreWhole (Decimal.parted digits places).1 := by
  unfold Decimal.parted
  rw [List.splitAt_eq, length_filled]
  by_cases short : digits.length ≤ places
  · have one : max (places + 1) digits.length - places = 1 := by omega
    have fill : places + 1 - digits.length = places - digits.length + 1 := by omega
    rw [one, fill, List.replicate_succ]
    exact ⟨⟨by simp, by simp⟩, fun _ => rfl⟩
  · have fill : places + 1 - digits.length = 0 := by omega
    rw [fill]
    exact are.take (by omega)

/-- Behind the point: as many digits as there are places, hence at least one. -/
theorem areDigits_parted {digits : List Char} (are : AreDigits digits) {places : Nat}
    (point : places ≠ 0) : AreDigits (Decimal.parted digits places).2 := by
  unfold Decimal.parted
  rw [List.splitAt_eq]
  refine ⟨fun nothing => ?_, fun c mem => isDigit_filled are _ c (List.mem_of_mem_drop mem)⟩
  have length := congrArg List.length nothing
  rw [List.length_drop, length_filled] at length
  simp only [List.length_nil] at length
  omega

/-- Zeros may follow the digits of a number that is not zero. -/
theorem areWhole_append_zeros {n zeros : Nat} (valid : n ≠ 0 ∨ zeros = 0) :
    AreWhole (Nat.toDigits 10 n ++ List.replicate zeros '0') := by
  rcases valid with positive | rfl
  · refine ⟨⟨by simp [Nat.toDigits_ne_nil], fun c mem => ?_⟩, fun head => ?_⟩
    · rcases List.mem_append.1 mem with digit | zero
      · exact (areWhole_toDigits n).isDigit c digit
      · rw [List.eq_of_mem_replicate zero]
        rfl
    · rw [List.head?_append_of_ne_nil _ Nat.toDigits_ne_nil] at head
      exact absurd head (Decimal.head?_toDigits positive)
  · rw [List.replicate_zero, List.append_nil]
    exact areWhole_toDigits n

/-- The shortest decimal is not a zero with zeros behind it. -/
theorem digits_shortest_ne_zero_or (tie : Decimal.Tie) (x : Float) :
    (Decimal.shortest tie (.ofFloat x)).digits ≠ 0 ∨
      (Decimal.shortest tie (.ofFloat x)).power = 0 := by
  by_cases zero : (Decimal.Dyadic.ofFloat x).significand = 0
  · exact .inr (by rw [Decimal.shortest, if_pos zero])
  · exact .inl (Decimal.Dyadic.digits_shortest_ne_zero (Decimal.Dyadic.bounded_ofFloat x) zero)

/-- Floats are written so that they can be read.  The cases are those of the writer: a point among
the digits, zeros behind them, or an exponent. -/
theorem wellFormed_ofFloat (x : Float) : (ofFloat x).WellFormed := by
  unfold ofFloat
  extract_lets parts d digits place
  have whole : AreWhole digits := areWhole_toDigits d.digits
  split
  · split
    · next below =>
      have point : d.power.natAbs ≠ 0 := by omega
      exact ⟨areWhole_parted whole _, (areDigits_parted whole.toAreDigits point).isDigit, nofun⟩
    · have zeros : d.digits ≠ 0 ∨ d.power.natAbs = 0 :=
        (digits_shortest_ne_zero_or .even x).imp_right Int.natAbs_eq_zero.2
      exact ⟨areWhole_append_zeros zeros, by simp, nofun⟩
  · refine ⟨whole.take (by decide), fun c mem => whole.isDigit c (List.mem_of_mem_drop mem), ?_⟩
    rintro _ _ ⟨rfl, rfl⟩
    exact (areWhole_toDigits place.natAbs).toAreDigits

/-- A float is written with a point or an exponent. -/
theorem isInteger_ofFloat (x : Float) : (ofFloat x).isInteger = false := by
  unfold ofFloat
  extract_lets parts d digits place
  split
  · split
    · next below =>
      have point : d.power.natAbs ≠ 0 := by omega
      have fraction := areDigits_parted (areWhole_toDigits d.digits).toAreDigits point
      simp [isInteger, fraction.ne_nil, digits]
    · rfl
  · simp [isInteger]

/-- A float is read as no integer, so that a number keeps its sort when it is stored. -/
theorem int64?_ofFloat (x : Float) : (ofFloat x).int64? = none := by
  rw [int64?, isInteger_ofFloat]
  exact if_pos (.inl rfl)

end Numeral

end Tabletop.Json
