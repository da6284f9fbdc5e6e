import Tabletop.Proofs.Decimal.Integer
import Tabletop.Proofs.Lexeme.Part

/-!
# Conditional suffixes, pair by pair

A conditional suffix is a sequence of pairs, each a comparison and an integer.  The lexer takes the
suffix in one sense of "digit" and gives the integers their values in another: a suffix reaches over
the decimal digits of every script, but only the digits of ASCII at the front of an integer have a
value.  A pair without a value is taken and then forgotten.

* `Suffix.Pair` — a pair as it is written, in any of the spellings of its comparison;
* `Pair.conditional?_eq_some_iff` — which pairs have a conditional, and what it compares with;
* `exists_pairs` — the suffix that is taken is a sequence of pairs, and its conditionals are those
  of the pairs that have one, in their order;
* `textAll_injective` — a text is a sequence of pairs in one way only;
* `conditionals_pairs` — pairs are read back, whatever follows that cannot make them longer.

The two senses of "digit" are kept apart from the first definition on.  A pair is delimited by
`isDigit` and `Pair.ascii` is what has a value of it.  All that is about texts only uses the first,
and all that is about values only the second; `Pair.comparer?_eq` is the one place where they meet.
-/

namespace Tabletop

/-- The ways in which a comparison is written. -/
def Comparison.spellings : Comparison → List (List Char)
  | eq => [['=']]
  | ne => [['!', '='], ['=', '!']]
  | gt => [['>']]
  | ge => [['>', '='], ['=', '>']]
  | lt => [['<']]
  | le => [['<', '='], ['=', '<']]

namespace Decimal

variable {cs : List Char}

/-- A run of digits has a value if there is a digit. -/
theorem natural?_of_isDigit (digits : ∀ c ∈ cs, c.isDigit = true) :
    natural? cs = if cs = [] then none else some (Nat.ofDigitChars 10 cs 0) := by
  unfold natural?
  by_cases empty : cs = [] <;> simp [empty, List.all_eq_true.2 digits]

/-- Digits without a sign are read as the number that they are. -/
theorem signed?_of_isDigit (digits : ∀ c ∈ cs, c.isDigit = true) :
    signed? cs = (natural? cs).map Int.ofNat := by
  unfold signed? unsigned?
  split
  · exact nomatch digits '-' (.head _)
  · split
    · exact nomatch digits '+' (.head _)
    · rfl

end Decimal

namespace Suffix

open Text (isDigit)

/-! ## Pairs

A pair is a sign with an integer behind it.  It is kept as it is written, since two texts may say
the same. -/

/-- A comparison and an integer as they are written in a suffix. -/
@[ext]
structure Pair where
  comparison : Comparison
  sign : List Char
  spelled : sign ∈ comparison.spellings
  negative : Bool
  digits : List Char
  nonempty : digits ≠ []
  areDigits : ∀ c ∈ digits, isDigit c = true

namespace Pair

/-- The text of a pair. -/
def text (p : Pair) : List Char :=
  p.sign ++ ((if p.negative then ['-'] else []) ++ p.digits)

/-- The digits that have a value: those of ASCII, up to the first of another script. -/
def ascii (p : Pair) : List Char :=
  p.digits.takeWhile Char.isDigit

/-- The integer that these digits say. -/
def integer (p : Pair) : Int :=
  if p.negative then -(Nat.ofDigitChars 10 p.ascii 0 : Int) else Nat.ofDigitChars 10 p.ascii 0

/-- What the lexer makes of a pair. -/
def conditional? (p : Pair) : Option Conditional :=
  (comparer? p.negative p.digits).map (⟨p.comparison, ·⟩)

/-- The pair is an integer of 64 bits in the digits of ASCII. -/
structure IsPlain (p : Pair) : Prop where
  isDigit : ∀ c ∈ p.digits, c.isDigit = true
  fits : ∃ n : Int64, n.toInt = p.integer

/-- The reader of integers sees the digits of ASCII, with a minus before them or without. -/
theorem comparer?_eq (p : Pair) :
    comparer? p.negative p.digits = if p.ascii = [] then none else Decimal.toInt64? p.integer := by
  have digits : ∀ c ∈ p.ascii, c.isDigit = true := fun c mem => List.mem_takeWhile_imp mem
  have value := Decimal.natural?_of_isDigit digits
  show Decimal.int64? (if p.negative then '-' :: p.ascii else p.ascii) = _
  unfold Decimal.int64? integer
  cases p.negative with
  | true =>
    rw [if_pos rfl, if_pos rfl, Decimal.signed?, value]
    split <;> rfl
  | false =>
    rw [if_neg Bool.false_ne_true, if_neg Bool.false_ne_true, Decimal.signed?_of_isDigit digits,
      value]
    split <;> rfl

/-- **The conditional of a pair.**  It is the comparison with the integer in the digits of ASCII, if
there are any and the integer fits 64 bits. -/
theorem conditional?_eq_some_iff {p : Pair} {c : Conditional} :
    p.conditional? = some c ↔
      p.ascii ≠ [] ∧ c.comparison = p.comparison ∧ c.comparer.toInt = p.integer := by
  obtain ⟨comparison, comparer⟩ := c
  unfold conditional?
  rw [comparer?_eq, Option.map_eq_some_iff]
  by_cases empty : p.ascii = []
  · simp [empty]
  · simp only [if_neg empty, Decimal.toInt64?_eq_some_iff, Conditional.mk.injEq]
    constructor
    · rintro ⟨n, value, rfl, rfl⟩
      exact ⟨empty, rfl, value⟩
    · rintro ⟨-, rfl, value⟩
      exact ⟨comparer, value, rfl, rfl⟩

/-- Nothing of a plain pair is lost. -/
theorem IsPlain.exists_conditional {p : Pair} (plain : p.IsPlain) :
    ∃ c, p.conditional? = some c ∧ c.comparison = p.comparison ∧ c.comparer.toInt = p.integer := by
  have ascii : p.ascii = p.digits := List.takeWhile_eq_self_iff.2 plain.isDigit
  obtain ⟨n, value⟩ := plain.fits
  refine ⟨⟨p.comparison, n⟩, ?_, rfl, value⟩
  exact conditional?_eq_some_iff.2 ⟨ascii ▸ p.nonempty, rfl, value⟩

end Pair

/-! ## One pair

The reader of comparisons tries the longer signs first.  It still finds each sign that was written,
since what comes behind a sign is the beginning of an integer and never the rest of a longer sign.
-/

/-- The signs of which comparisons are made are no digits, and no minus. -/
theorem not_mem_signs {d : Char} (integer : d = '-' ∨ isDigit d = true) :
    d ∉ ['=', '!', '>', '<'] := by
  intro mem
  simp only [List.mem_cons, List.not_mem_nil, or_false] at mem
  rcases integer with rfl | digit
  · exact absurd mem (by decide)
  · rcases mem with rfl | rfl | rfl | rfl <;> exact nomatch digit

/-- A comparison is read whole in each of its spellings, since no integer begins with a sign of
one. -/
theorem comparison?_sign {c : Comparison} {sign : List Char} (spelled : sign ∈ c.spellings)
    {d : Char} (cs : List Char) (integer : d = '-' ∨ isDigit d = true) :
    comparison? (sign ++ d :: cs) = some (c, d :: cs) := by
  have other := not_mem_signs integer
  simp only [List.mem_cons, List.not_mem_nil, or_false, not_or] at other
  obtain ⟨notEq, notBang, notGt, notLt⟩ := other
  cases c with
  | ne | ge | le =>
    simp only [Comparison.spellings, List.mem_cons, List.not_mem_nil, or_false] at spelled
    rcases spelled with rfl | rfl <;> rfl
  | eq | gt | lt =>
    obtain rfl := List.mem_singleton.1 spelled
    unfold comparison?
    split <;> simp_all

/-- What is read as a comparison is one of its spellings. -/
theorem exists_sign_of_comparison? {cs after : List Char} {c : Comparison}
    (h : comparison? cs = some (c, after)) : ∃ sign ∈ c.spellings, cs = sign ++ after := by
  unfold comparison? at h
  split at h
  case h_10 => cases h
  all_goals
    obtain ⟨rfl, rfl⟩ := Prod.mk.inj (Option.some.inj h)
    first
    | exact ⟨_, .head _, rfl⟩
    | exact ⟨_, .tail _ (.head _), rfl⟩

theorem eq_of_minus (cs : List Char) :
    (if (minus cs).1 then ['-'] else []) ++ (minus cs).2 = cs := by
  unfold minus
  split <;> rfl

/-- A minus is read if it was written, since no digit is one. -/
theorem minus_digits (negative : Bool) {digits : List Char} (nonempty : digits ≠ [])
    (areDigits : ∀ c ∈ digits, isDigit c = true) (rest : List Char) :
    minus ((if negative then ['-'] else []) ++ (digits ++ rest)) = (negative, digits ++ rest) := by
  obtain ⟨d, ds, rfl⟩ := List.exists_cons_of_ne_nil nonempty
  have digit := areDigits d (.head _)
  cases negative with
  | true => rfl
  | false =>
    show minus (d :: (ds ++ rest)) = _
    unfold minus
    split
    · next eq =>
      obtain ⟨rfl, -⟩ := List.cons.inj eq
      exact nomatch digit
    · rfl

namespace Pair

/-- What stands behind the sign of a pair begins with a minus or a digit. -/
theorem exists_cons_integer (p : Pair) :
    ∃ d cs, (if p.negative then ['-'] else []) ++ p.digits = d :: cs ∧
      (d = '-' ∨ isDigit d = true) := by
  obtain ⟨d, ds, eq⟩ := List.exists_cons_of_ne_nil p.nonempty
  cases p.negative with
  | true => exact ⟨'-', p.digits, rfl, .inl rfl⟩
  | false => exact ⟨d, ds, eq, .inr (p.areDigits d (eq ▸ .head _))⟩

/-- **A pair is read whole**, whatever follows but a digit.  The sign is found by
`comparison?_sign`, the minus by `minus_digits`, and the digits end where the text after them
begins. -/
theorem conditional?_text (p : Pair) {rest : List Char}
    (stops : ∀ c ∈ rest.head?, isDigit c = false) :
    Suffix.conditional? (p.text ++ rest) = some (p.conditional?, rest) := by
  obtain ⟨d, cs, integer, begins⟩ := p.exists_cons_integer
  have sign := comparison?_sign p.spelled (cs ++ rest) begins
  rw [← List.cons_append, ← integer] at sign
  have signed := minus_digits p.negative p.nonempty p.areDigits rest
  rw [← List.append_assoc] at signed
  have nonempty : p.digits.isEmpty = false := List.isEmpty_eq_false_iff.2 p.nonempty
  unfold Suffix.conditional?
  rw [text, List.append_assoc, sign]
  dsimp only
  rw [signed]
  dsimp only
  rw [Text.takeWhile_append_of_stops p.areDigits stops,
    Text.dropWhile_append_of_stops p.areDigits stops, nonempty]
  rfl

end Pair

/-- What is read as a conditional is a pair, and no digit follows. -/
theorem exists_pair_of_conditional? {cs rest : List Char} {c : Option Conditional}
    (h : conditional? cs = some (c, rest)) :
    ∃ p : Pair, cs = p.text ++ rest ∧ c = p.conditional? ∧ ∀ d ∈ rest.head?, isDigit d = false := by
  unfold conditional? at h
  split at h
  · cases h
  · next comparison after found =>
    dsimp only at h
    split at h
    · cases h
    · next nonempty =>
      obtain ⟨rfl, rfl⟩ := Prod.mk.inj (Option.some.inj h)
      obtain ⟨sign, spelled, rfl⟩ := exists_sign_of_comparison? found
      refine ⟨{ comparison, sign, spelled, negative := (minus after).1
                digits := (minus after).2.takeWhile isDigit
                nonempty := mt List.isEmpty_iff.2 nonempty
                areDigits := fun c mem => List.mem_takeWhile_imp mem }, ?_, rfl, ?_⟩
      · show sign ++ after = sign ++ _ ++ _
        rw [List.append_assoc, List.append_assoc, List.takeWhile_append_dropWhile, eq_of_minus]
      · intro d mem
        have := List.head?_dropWhile_not isDigit (minus after).2
        rw [Option.mem_def.1 mem] at this
        simpa using this

/-- **A pair is told from its text**, and so is where it ends. -/
theorem Pair.text_append_inj {p q : Pair} {cs ds : List Char}
    (eq : p.text ++ cs = q.text ++ ds) (stops : ∀ c ∈ cs.head?, isDigit c = false)
    (stops' : ∀ c ∈ ds.head?, isDigit c = false) : p = q ∧ cs = ds := by
  have reads (p : Pair) (rest : List Char) : comparison? (p.text ++ rest) =
      some (p.comparison, (if p.negative then ['-'] else []) ++ (p.digits ++ rest)) := by
    obtain ⟨d, ds, integer, begins⟩ := p.exists_cons_integer
    have sign := comparison?_sign p.spelled (ds ++ rest) begins
    rw [← List.cons_append, ← integer] at sign
    rw [text, List.append_assoc, sign, List.append_assoc]
  have same := reads p cs
  rw [eq, reads q ds, Option.some.injEq, Prod.mk.injEq] at same
  obtain ⟨comparison, integer⟩ := same
  have sign : p.sign = q.sign := by
    simp only [text, List.append_assoc] at eq
    rw [integer] at eq
    exact List.append_cancel_right eq
  have signed := minus_digits p.negative p.nonempty p.areDigits cs
  rw [← integer, minus_digits q.negative q.nonempty q.areDigits ds, Prod.mk.injEq] at signed
  obtain ⟨negative, digits⟩ := signed
  have taken : q.digits = p.digits := by
    have := congrArg (List.takeWhile isDigit) digits
    rwa [Text.takeWhile_append_of_stops q.areDigits stops',
      Text.takeWhile_append_of_stops p.areDigits stops] at this
  rw [taken] at digits
  exact ⟨Pair.ext comparison.symm sign negative.symm taken.symm,
    (List.append_cancel_left digits).symm⟩

/-! ## The whole suffix

Pairs follow one another without anything between them.  Where one ends is seen from its digits, and
the next begins with a sign of a comparison, which is none. -/

/-- The text of several pairs, one after the other. -/
def textAll (pairs : List Pair) : List Char :=
  pairs.flatMap Pair.text

theorem textAll_cons (p : Pair) (pairs : List Pair) :
    textAll (p :: pairs) = p.text ++ textAll pairs :=
  List.flatMap_cons

/-- Every spelling begins with a sign of a comparison. -/
theorem exists_cons_of_mem_spellings {c : Comparison} {sign : List Char}
    (spelled : sign ∈ c.spellings) : ∃ s cs, sign = s :: cs ∧ s ∈ ['=', '!', '>', '<'] := by
  cases c <;>
    simp only [Comparison.spellings, List.mem_cons, List.not_mem_nil, or_false] at spelled
  case eq | gt | lt =>
    subst spelled
    exact ⟨_, _, rfl, by decide⟩
  all_goals rcases spelled with rfl | rfl <;> exact ⟨_, _, rfl, by decide⟩

/-- A pair begins with a sign of a comparison. -/
theorem Pair.head_text (p : Pair) (rest : List Char) :
    ∀ c ∈ (p.text ++ rest).head?, c ∈ ['=', '!', '>', '<'] := by
  obtain ⟨s, cs, eq, sign⟩ := exists_cons_of_mem_spellings p.spelled
  intro c mem
  rw [text, eq] at mem
  obtain rfl := Option.some.inj mem
  exact sign

/-- No pair begins with another character. -/
theorem conditional?_eq_none_of_head {cs : List Char}
    (other : ∀ c ∈ cs.head?, c ∉ ['=', '!', '>', '<']) : conditional? cs = none := by
  cases found : conditional? cs with
  | none => rfl
  | some taken =>
    obtain ⟨p, rfl, -⟩ := exists_pair_of_conditional? (c := taken.1) found
    obtain ⟨s, ss, eq, -⟩ := exists_cons_of_mem_spellings p.spelled
    have head : s ∈ (p.text ++ taken.2).head? := by
      rw [Pair.text, eq]
      rfl
    exact absurd (p.head_text taken.2 s head) (other s head)

/-- What pairs begin with is no character that a text without them could not begin with, but for the
signs of comparisons. -/
theorem head_textAll_append {rest : List Char} (pairs : List Pair) :
    ∀ c ∈ (textAll pairs ++ rest).head?, c ∈ ['=', '!', '>', '<'] ∨ c ∈ rest.head? := by
  intro c mem
  cases pairs with
  | nil => exact .inr mem
  | cons p pairs =>
    rw [textAll_cons, List.append_assoc] at mem
    exact .inl (p.head_text _ c mem)

/-- Pairs do not go on with the digits before them. -/
theorem stops_textAll_append {rest : List Char} (pairs : List Pair)
    (stops : ∀ c ∈ rest.head?, isDigit c = false) :
    ∀ c ∈ (textAll pairs ++ rest).head?, isDigit c = false := by
  intro c mem
  rcases head_textAll_append pairs c mem with sign | mem
  · exact Bool.eq_false_iff.2 fun digit => not_mem_signs (.inr digit) sign
  · exact stops c mem

theorem stops_textAll (pairs : List Pair) : ∀ c ∈ (textAll pairs).head?, isDigit c = false := by
  rw [← List.append_nil (textAll pairs)]
  exact stops_textAll_append pairs fun c none => nomatch none

theorem textAll_ne_nil (p : Pair) (pairs : List Pair) : textAll (p :: pairs) ≠ [] := by
  obtain ⟨s, cs, eq, -⟩ := exists_cons_of_mem_spellings p.spelled
  rw [textAll_cons, Pair.text, eq]
  exact List.cons_ne_nil _ _

/-- **A text is a sequence of pairs in one way only.** The induction takes off the first pair of
both, which is the same by `Pair.text_append_inj`. -/
theorem textAll_injective : Function.Injective textAll := by
  intro pairs others eq
  induction pairs generalizing others with
  | nil =>
    cases others with
    | nil => rfl
    | cons q others => exact absurd eq.symm (textAll_ne_nil q others)
  | cons p pairs ih =>
    cases others with
    | nil => exact absurd eq (textAll_ne_nil p pairs)
    | cons q others =>
      rw [textAll_cons, textAll_cons] at eq
      obtain ⟨rfl, more⟩ := Pair.text_append_inj eq (stops_textAll pairs) (stops_textAll others)
      rw [ih more]

/-! ### Suffixes and pairs

The reader takes pairs as long as there are any, so its answer is a list of pairs and a text that
begins with none. -/

/-- **The suffix that is taken.**  It is a sequence of pairs; the conditionals are those of the
pairs that have one, in order; and no further pair follows. -/
theorem exists_pairs (cs : List Char) :
    ∃ pairs : List Pair, cs = textAll pairs ++ (conditionals cs).2 ∧
      (conditionals cs).1 = pairs.filterMap Pair.conditional? ∧
      conditional? (conditionals cs).2 = none := by
  fun_induction conditionals cs with
  | case1 cs none => exact ⟨[], rfl, rfl, none⟩
  | case2 cs c rest found others last more ih =>
    obtain ⟨p, rfl, rfl, -⟩ := exists_pair_of_conditional? found
    obtain ⟨pairs, whole, values, ends⟩ := ih
    rw [more] at whole values ends
    refine ⟨p :: pairs, ?_, ?_, ends⟩
    · rw [textAll_cons, List.append_assoc, ← whole]
    · show p.conditional?.toList ++ others = _
      rw [List.filterMap_cons, show others = _ from values]
      cases p.conditional? <;> rfl

theorem conditionals_of_conditional?_none {cs : List Char} (h : conditional? cs = none) :
    conditionals cs = ([], cs) := by
  rw [conditionals]
  split
  · rfl
  · next found => cases h.symm.trans found

/-- A pair is taken, and with it its conditional if it has one. -/
theorem conditionals_of_conditional?_some {cs rest : List Char} {c : Option Conditional}
    (h : conditional? cs = some (c, rest)) :
    conditionals cs = (c.toList ++ (conditionals rest).1, (conditionals rest).2) := by
  rw [conditionals]
  split
  · next missing => cases h.symm.trans missing
  · next found =>
    cases h.symm.trans found
    rfl

/-- **Pairs are read back** before a text that begins neither with a pair nor with a digit. -/
theorem conditionals_pairs (pairs : List Pair) {rest : List Char}
    (ends : conditional? rest = none) (stops : ∀ c ∈ rest.head?, isDigit c = false) :
    conditionals (textAll pairs ++ rest) = (pairs.filterMap Pair.conditional?, rest) := by
  induction pairs with
  | nil => exact conditionals_of_conditional?_none ends
  | cons p pairs ih =>
    rw [textAll_cons, List.append_assoc,
      conditionals_of_conditional?_some (p.conditional?_text (stops_textAll_append pairs stops)),
      ih, List.filterMap_cons]
    cases p.conditional? <;> rfl

end Suffix

end Tabletop
