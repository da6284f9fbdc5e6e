import Mathlib
import Tabletop.Proofs.Number
import Tabletop.Rolling.Sequence

/-!
# What sequence rollers answer

A sequence roller moves each of its values into the range that is asked for, by a multiple of the
length of the range.  It computes with words of 64 bits, and neither the distance of a value from
the range nor the length of the range need be a word.  This module says what comes of it:

* `SequenceRoller.IsWrapped` — the right answer, in unbounded integers: a range has one;
* `SequenceRoller.Overflows` — when the computation breaks off;
* `SequenceRoller.wrap?_of_overflows`, `SequenceRoller.exists_wrap?` — it does then, and in all other
  cases it comes to the right answer;
* `SequenceRoller.after?_eq_none_iff` — any number of questions, one after the other;
* `SequenceRoller.uniform_after_ofList` — any question after any others;
* `Rolling.run?_eq` — what a roll has come to if the roller has not been stopped at the end.

### How the proof goes

Two tests decide everything.  If the distance and the length are words, every later result is one:
the remainder is less than the length, and the sum is in the range.  If one of them is not, the
computation ends before the division.  So no remainder is ever taken by 0 or by -1, although the
definition provides for it.

The state of the roller says nothing about which values it has handed out, only how many.  What a
roller of a list answers after some questions is therefore told by the number of those that left a
choice (`SequenceRoller.choices`), and this is the invariant behind `after?_eq`.
-/

namespace Tabletop

open Decimal (toInt64?)

namespace SequenceRoller

/-! ## The right answer

The remainders modulo the length of a range are told by the integers in it, so a value has one place
there. -/

/-- The number of integers in a range. -/
def extent (lo hi : Int64) : Int :=
  hi.toInt - lo.toInt + 1

/-- The integer of a range that differs from a value by a multiple of the length of the range. -/
structure IsWrapped (lo hi value x : Int64) : Prop where
  low : lo ≤ x
  high : x ≤ hi
  congruent : extent lo hi ∣ x.toInt - value.toInt

variable {lo hi value : Int64}

/-- A range holds one integer of each class of remainders. -/
theorem IsWrapped.unique {x y : Int64} (left : IsWrapped lo hi value x)
    (right : IsWrapped lo hi value y) : x = y := by
  have multiple : extent lo hi ∣ x.toInt - y.toInt := by
    have difference := Int.dvd_sub left.congruent right.congruent
    rwa [sub_sub_sub_cancel_right] at difference
  have lowX := Int64.le_iff_toInt_le.1 left.low
  have highX := Int64.le_iff_toInt_le.1 left.high
  have lowY := Int64.le_iff_toInt_le.1 right.low
  have highY := Int64.le_iff_toInt_le.1 right.high
  have near : |x.toInt - y.toInt| < extent lo hi := by
    rw [abs_lt]
    unfold extent
    omega
  exact Int64.toInt_inj.1 (sub_eq_zero.1 (Int.eq_zero_of_abs_lt_dvd multiple near))

/-- A value inside the range is the right answer itself. -/
theorem isWrapped_self (low : lo ≤ value) (high : value ≤ hi) : IsWrapped lo hi value value where
  low := low
  high := high
  congruent := by
    rw [sub_self]
    exact dvd_zero _

theorem one_lt_extent (choice : lo < hi) : 1 < extent lo hi := by
  have := Int64.lt_iff_toInt_lt.1 choice
  unfold extent
  omega

/-! ## Overflow

What the program computes, with each step checked as the program does. -/

/-- Moving a value into a range overflows: the value lies outside, and its distance from the lower
end or the length of the range does not fit a word. -/
def Overflows (lo hi value : Int64) : Prop :=
  ¬ (lo ≤ value ∧ value ≤ hi) ∧
    ¬ (FitsWord (value.toInt - lo.toInt) ∧ FitsWord (extent lo hi))

instance (lo hi value : Int64) : Decidable (Overflows lo hi value) :=
  inferInstanceAs (Decidable (¬ _ ∧ ¬ _))

/-- The computation breaks off at the distance, at the difference of the ends, or at the length. -/
theorem wrap?_of_overflows (overflows : Overflows lo hi value) : wrap? lo hi value = none := by
  obtain ⟨outside, large⟩ := overflows
  unfold wrap?
  rw [if_neg outside]
  by_cases near : FitsWord (value.toInt - lo.toInt)
  case neg =>
    rw [toInt64?_eq_none_of_not_fitsWord near]
    rfl
  have long : ¬ FitsWord (hi.toInt - lo.toInt + 1) := fun short => large ⟨near, short⟩
  obtain ⟨distance, distance_eq, -⟩ := near.toInt64?
  rw [distance_eq]
  by_cases last : FitsWord (hi.toInt - lo.toInt)
  case neg =>
    rw [toInt64?_eq_none_of_not_fitsWord last]
    rfl
  obtain ⟨last, last_eq, value_last⟩ := last.toInt64?
  rw [last_eq]
  show Option.bind (toInt64? (last.toInt + 1)) _ = none
  rw [value_last, toInt64?_eq_none_of_not_fitsWord long]
  rfl

/-- By a divisor greater than 1 every remainder can be taken. -/
theorem exists_remainder? {a b : Int64} (several : 1 < b.toInt) :
    ∃ rest, remainder? a b = some rest ∧ rest.toInt = a.toInt % b.toInt := by
  have nonneg : 0 ≤ a.toInt % b.toInt := Int.emod_nonneg _ (by omega)
  have less : a.toInt % b.toInt < b.toInt := Int.emod_lt_of_pos _ (by omega)
  have word := b.toInt_lt
  refine ⟨_, if_neg ?_, Int64.toInt_ofInt_of_le (by omega) (by omega)⟩
  rintro (rfl | ⟨-, rfl⟩)
  · exact absurd several (by decide)
  · exact absurd several (by decide)

/-- **Without an overflow the answer is the right one.** -/
theorem exists_wrap? (choice : lo < hi) (fits : ¬ Overflows lo hi value) :
    ∃ x, wrap? lo hi value = some x ∧ IsWrapped lo hi value x := by
  by_cases inside : lo ≤ value ∧ value ≤ hi
  · exact ⟨value, if_pos inside, isWrapped_self inside.1 inside.2⟩
  obtain ⟨near, short⟩ := not_not.1 fun large => fits ⟨inside, large⟩
  have several := one_lt_extent choice
  have smaller : FitsWord (hi.toInt - lo.toInt) := by
    unfold FitsWord extent at *
    omega
  obtain ⟨distance, distance_eq, value_distance⟩ := near.toInt64?
  obtain ⟨last, last_eq, value_last⟩ := smaller.toInt64?
  obtain ⟨length, length_eq, value_length⟩ := short.toInt64?
  obtain ⟨rest, rest_eq, value_rest⟩ :=
    exists_remainder? (a := distance) (value_length.symm ▸ several)
  rw [value_distance, value_length] at value_rest
  -- The remainder is less than the length, so adding it to the lower end stays in the range.
  have nonneg : 0 ≤ rest.toInt := value_rest ▸ Int.emod_nonneg _ (by omega)
  have less : rest.toInt < extent lo hi := value_rest ▸ Int.emod_lt_of_pos _ (by omega)
  have within : lo.toInt + rest.toInt ≤ hi.toInt := by
    unfold extent at less
    omega
  have sum : FitsWord (lo.toInt + rest.toInt) := by
    have := lo.le_toInt
    have := hi.toInt_lt
    unfold FitsWord
    omega
  obtain ⟨x, x_eq, value_x⟩ := sum.toInt64?
  refine ⟨x, ?_, Int64.le_iff_toInt_le.2 (by omega), Int64.le_iff_toInt_le.2 (by omega), ?_⟩
  · unfold wrap?
    rw [if_neg inside, distance_eq, last_eq]
    show Option.bind (toInt64? (last.toInt + 1)) _ = _
    rw [value_last]
    show Option.bind (toInt64? (extent lo hi)) _ = _
    rw [length_eq, Option.bind_some, rest_eq]
    exact x_eq
  · rw [value_x, value_rest, Int.emod_def]
    exact ⟨-((value.toInt - lo.toInt) / extent lo hi), by ring⟩

/-! ## Questions

A roller of a list after any questions, and then one more. -/

variable {r r' : SequenceRoller} {v : Int64}

/-- Where there are values, one of them has its turn. -/
theorem exists_next (some : r.values ≠ #[]) :
    ∃ value, r.values[r.drawn % r.values.size]? = .some value := by
  have bound : r.drawn % r.values.size < r.values.size :=
    Nat.mod_lt _ (Array.size_pos_iff.2 some)
  exact ⟨_, Array.getElem?_eq_getElem bound⟩

/-- Where there is no choice, nothing is handed out. -/
theorem uniform?_of_le (order : hi ≤ lo) (r : SequenceRoller) :
    uniform? lo hi r = some (lo, r) := by
  unfold uniform?
  split
  · rfl
  · exact if_pos order

/-- Where there are no values, nothing is handed out. -/
theorem uniform?_of_values_eq (none : r.values = #[]) (lo hi : Int64) :
    uniform? lo hi r = some (lo, r) := by
  unfold uniform?
  rw [none]
  rfl

theorem uniform?_of_next (choice : lo < hi)
    (next : r.values[r.drawn % r.values.size]? = some value) :
    uniform? lo hi r = (wrap? lo hi value).map fun v => (v, { r with drawn := r.drawn + 1 }) := by
  unfold uniform?
  rw [next]
  exact if_neg (Int64.not_le.2 choice)

/-- One value is handed out for a question that leaves a choice, if there are values. -/
theorem snd_of_uniform? (answered : uniform? lo hi r = some (v, r')) :
    r' = { r with drawn := if lo < hi ∧ r.values ≠ #[] then r.drawn + 1 else r.drawn } := by
  by_cases choice : lo < hi
  case neg =>
    rw [uniform?_of_le (Int64.not_lt.1 choice)] at answered
    cases answered
    rw [if_neg fun both => choice both.1]
  by_cases none : r.values = #[]
  · rw [uniform?_of_values_eq none] at answered
    cases answered
    rw [if_neg fun both => both.2 none]
  · obtain ⟨value, next⟩ := exists_next none
    rw [uniform?_of_next choice next] at answered
    obtain ⟨_, -, eq⟩ := Option.map_eq_some_iff.1 answered
    cases eq
    rw [if_pos ⟨choice, none⟩]

/-- The roller after questions for integers between the given ends; none if one of them cannot be
answered. -/
def after? (r : SequenceRoller) (questions : List (Int64 × Int64)) : Option SequenceRoller :=
  questions.foldlM (fun r ends => (uniform? ends.1 ends.2 r).map Prod.snd) r

/-- The number of questions that leave a choice. -/
def choices (questions : List (Int64 × Int64)) : Nat :=
  questions.countP fun ends => ends.1 < ends.2

/-- The last question is asked of the roller that the others leave. -/
theorem after?_concat (r : SequenceRoller) (questions : List (Int64 × Int64))
    (ends : Int64 × Int64) :
    r.after? (questions ++ [ends]) =
      (r.after? questions).bind fun r => (uniform? ends.1 ends.2 r).map Prod.snd := by
  unfold after?
  rw [List.foldlM_append]
  refine congrArg (Option.bind _) (funext fun r => ?_)
  rw [List.foldlM_cons]
  exact bind_pure _

/-- Any number of questions: one value has been handed out for each that left a choice. -/
theorem after?_eq {questions : List (Int64 × Int64)} (answered : r.after? questions = some r') :
    r' = { r with drawn := if r.values = #[] then r.drawn else r.drawn + choices questions } := by
  induction questions using List.reverseRecOn generalizing r' with
  | nil =>
    obtain rfl := Option.some.inj answered
    rw [choices, List.countP_nil, Nat.add_zero, ite_self]
  | append_singleton questions ends ih =>
    rw [after?_concat] at answered
    obtain ⟨before, earlier, last⟩ := Option.bind_eq_some_iff.1 answered
    obtain ⟨⟨v, _⟩, answer, rfl⟩ := Option.map_eq_some_iff.1 last
    dsimp only
    rw [snd_of_uniform? answer, ih earlier]
    dsimp only
    by_cases none : r.values = #[]
    · rw [if_pos none, if_pos none, if_neg fun both => both.2 none]
    · rw [if_neg none, if_neg none, choices, choices, List.countP_append, List.countP_singleton]
      congr 1
      by_cases choice : ends.1 < ends.2
      · rw [if_pos ⟨choice, none⟩, if_pos (decide_eq_true choice)]
        omega
      · rw [if_neg fun both => choice both.1, if_neg (by rwa [decide_eq_true_eq])]
        omega

/-- A question cannot be answered by a roller of the given values: it leaves a choice, and the value
that has its turn after the earlier questions overflows on its way into the range. -/
def Breaks (values : List Int64) (earlier : List (Int64 × Int64)) (lo hi : Int64) : Prop :=
  lo < hi ∧ ∃ value, values[choices earlier % values.length]? = some value ∧ Overflows lo hi value

variable {values : List Int64} {questions : List (Int64 × Int64)}

/-- The state of a roller of the given values after questions that could all be answered. -/
theorem after?_ofList_eq (answered : (ofList values).after? questions = some r) :
    r = { values := values.toArray, drawn := if values = [] then 0 else choices questions } := by
  rw [after?_eq answered]
  show SequenceRoller.mk values.toArray (if values.toArray = #[] then 0 else 0 + _) false = _
  simp only [Array.mk.injEq, Nat.zero_add]

theorem getElem?_after?_ofList (answered : (ofList values).after? questions = some r) :
    r.values[r.drawn % r.values.size]? = values[choices questions % values.length]? := by
  rw [after?_ofList_eq answered]
  by_cases none : values = []
  · subst none
    rfl
  · dsimp only
    rw [if_neg none, List.size_toArray, List.getElem?_toArray]

/-- **One question after others.**  It breaks off exactly if the value that has its turn overflows.
-/
theorem uniform?_eq_none_iff (answered : (ofList values).after? questions = some r) :
    uniform? lo hi r = none ↔ Breaks values questions lo hi := by
  by_cases choice : lo < hi
  case neg =>
    rw [uniform?_of_le (Int64.not_lt.1 choice)]
    exact iff_of_false nofun fun breaks => choice breaks.1
  have turn := getElem?_after?_ofList answered
  by_cases none : r.values = #[]
  · rw [uniform?_of_values_eq none]
    refine iff_of_false nofun fun ⟨_, value, next, _⟩ => ?_
    rw [← turn, none] at next
    cases next
  · obtain ⟨value, next⟩ := exists_next none
    rw [uniform?_of_next choice next, Option.map_eq_none_iff]
    rw [next] at turn
    constructor
    · intro failed
      refine ⟨choice, value, turn.symm, by_contra fun fits => ?_⟩
      obtain ⟨x, found, -⟩ := exists_wrap? choice fits
      cases failed.symm.trans found
    · rintro ⟨-, other, next', overflows⟩
      obtain rfl := Option.some.inj (turn.trans next')
      exact wrap?_of_overflows overflows

/-- **Any number of questions.**  They can all be answered unless one of them breaks off after the
earlier ones. -/
theorem after?_eq_none_iff :
    (ofList values).after? questions = none ↔
      ∃ earlier ends later, questions = earlier ++ ends :: later ∧
        Breaks values earlier ends.1 ends.2 := by
  -- The last question comes after all others, so the induction is from the end.
  induction questions using List.reverseRecOn with
  | nil =>
    refine iff_of_false nofun ?_
    rintro ⟨earlier, ends, later, eq, -⟩
    cases earlier <;> cases eq
  | append_singleton questions last ih =>
    rw [after?_concat]
    cases answered : (ofList values).after? questions with
    | none =>
      obtain ⟨earlier, ends, later, rfl, breaks⟩ := ih.1 answered
      exact iff_of_true rfl ⟨earlier, ends, later ++ [last], by simp, breaks⟩
    | some r =>
      rw [Option.bind_some, Option.map_eq_none_iff, uniform?_eq_none_iff answered]
      constructor
      · exact fun breaks => ⟨questions, last, [], rfl, breaks⟩
      · rintro ⟨earlier, ends, later, eq, breaks⟩
        rcases List.eq_nil_or_concat later with rfl | ⟨later, final, rfl⟩
        · obtain ⟨rfl, rfl⟩ : questions = earlier ∧ last = ends := by simpa using eq
          exact breaks
        · rw [List.concat_eq_append, ← List.cons_append, ← List.append_assoc] at eq
          have before := (List.append_inj' eq rfl).1
          cases answered.symm.trans (ih.2 ⟨earlier, ends, later, before, breaks⟩)

/-- **What a sequence roller answers.**  Let a roller of the given values be asked questions.  They
can all be answered unless at one of them the computation breaks off: the question leaves a choice,
the value that has its turn lies outside of the range, and its distance from the lower end or the
length of the range is no word.  After questions that could be answered, a further one that leaves
no choice, or that finds no values, is answered by the lower end of its range, and the roller stays
as it is.  Any other question takes the next of the values, which come round again.  Either the
computation breaks off there, or the answer is the one number of the range that is congruent to the
value. -/
theorem uniform_after_ofList (values : List Int64) (questions : List (Int64 × Int64))
    (lo hi : Int64) :
    ((ofList values).after? questions = none ↔
      ∃ earlier ends later, questions = earlier ++ ends :: later ∧
        Breaks values earlier ends.1 ends.2) ∧
    ∀ r, (ofList values).after? questions = some r →
      r = { values := values.toArray, drawn := if values = [] then 0 else choices questions } ∧
      (uniform? lo hi r = none ↔ Breaks values questions lo hi) ∧
      (hi ≤ lo ∨ values = [] → uniform? lo hi r = some (lo, r)) ∧
      (lo < hi → values ≠ [] →
        ∃ value, values[choices questions % values.length]? = some value ∧
          (Overflows lo hi value → uniform? lo hi r = none) ∧
          (¬ Overflows lo hi value → ∃ x, (∀ y, IsWrapped lo hi value y ↔ y = x) ∧
            uniform? lo hi r = some (x, { r with drawn := r.drawn + 1 }))) := by
  refine ⟨after?_eq_none_iff, fun r answered => ?_⟩
  have state := after?_ofList_eq answered
  refine ⟨state, uniform?_eq_none_iff answered, ?_, fun choice some => ?_⟩
  · rintro (order | none)
    · exact uniform?_of_le order r
    · refine uniform?_of_values_eq ?_ lo hi
      rw [state, none]
  · obtain ⟨value, next⟩ := exists_next (r := r) (by rw [state]; simpa using some)
    have eq := uniform?_of_next choice next
    rw [getElem?_after?_ofList answered] at next
    refine ⟨value, next, fun overflows => ?_, fun fits => ?_⟩
    · rw [eq, wrap?_of_overflows overflows]
      rfl
    · obtain ⟨x, found, is⟩ := exists_wrap? choice fits
      refine ⟨x, fun y => ⟨fun other => other.unique is, ?_⟩, by rw [eq, found]; rfl⟩
      rintro rfl
      exact is

/-- The second value answers the second question that leaves a choice: on a die, 9 is 3. -/
theorem uniform_after_ofList_nine :
    let r : SequenceRoller := ⟨#[3, 9], 1, false⟩
    (ofList [3, 9]).after? [(1, 6), (4, 4)] = some r ∧
      ((1 : Int64) < 6 ∧ [(3 : Int64), 9] ≠ [] ∧ ¬ Overflows 1 6 9) ∧
      uniform? 1 6 r = some (3, { r with drawn := 2 }) ∧
      (∀ x, IsWrapped 1 6 9 x ↔ x = 3) ∧
      uniform? 5 5 r = some (5, r) := by
  intro r
  have answered : (ofList [3, 9]).after? [(1, 6), (4, 4)] = some r := by decide
  obtain ⟨-, -, alone, -⟩ :=
    (uniform_after_ofList [3, 9] [(1, 6), (4, 4)] 5 5).2 r answered
  obtain ⟨-, -, -, choice⟩ := (uniform_after_ofList [3, 9] [(1, 6), (4, 4)] 1 6).2 r answered
  obtain ⟨value, next, -, exact⟩ := choice (by decide) (by decide)
  obtain rfl : 9 = value := Option.some.inj next
  obtain ⟨x, unique, eq⟩ := exact (by decide)
  have computed : uniform? 1 6 r = some (3, { r with drawn := 2 }) := by decide
  obtain rfl : 3 = x := congrArg Prod.fst (Option.some.inj (computed.symm.trans eq))
  exact ⟨answered, by decide, computed, unique, alone (.inl (by decide))⟩

/-- **The least word overflows on a die.**  It is congruent to 4 modulo 6, and there is no answer.
-/
theorem uniform_least_word :
    let r := ofList [Int64.minValue]
    Overflows 1 6 Int64.minValue ∧
      uniform? 1 6 r = none ∧
      IsWrapped 1 6 Int64.minValue 4 := by
  intro r
  exact ⟨by decide, by decide, by decide, by decide, by decide⟩

end SequenceRoller

/-! ## Rolls -/

namespace Rolling

open SequenceRoller (uniform?)

variable {α : Type}

/-- What a roll comes to with a sequence roller that can answer all its questions. -/
def run? : Rolling α → SequenceRoller → Option (α × SequenceRoller)
  | done a, r => some (a, r)
  | draw lo hi next, r => (uniform? lo hi r).bind fun answer => (next answer.1).run? answer.2

theorem stopped_run (x : Rolling α) {r : SequenceRoller} (stopped : r.stopped = true) :
    (x.run r).2.stopped = true := by
  induction x generalizing r with
  | done a => exact stopped
  | draw lo hi next ih =>
    show ((next (Roller.uniform lo hi r).1).run (Roller.uniform lo hi r).2).2.stopped = true
    refine ih _ ?_
    show ((uniform? lo hi r).getD _).2.stopped = true
    cases answered : uniform? lo hi r with
    | none => rfl
    | some answer =>
      rw [Option.getD_some, SequenceRoller.snd_of_uniform? answered]
      exact stopped

/-- **A roll with a sequence roller.**  If the roller has not been stopped at the end, every
question has been answered; if it has, one of them could not be. -/
theorem run?_eq (x : Rolling α) {r : SequenceRoller} (going : r.stopped = false) :
    x.run? r = if (x.run r).2.stopped then none else some (x.run r) := by
  induction x generalizing r with
  | done a => exact (if_neg (Bool.eq_false_iff.1 going)).symm
  | draw lo hi next ih =>
    show (uniform? lo hi r).bind _ =
      if ((next (Roller.uniform lo hi r).1).run (Roller.uniform lo hi r).2).2.stopped then none
      else some ((next (Roller.uniform lo hi r).1).run (Roller.uniform lo hi r).2)
    cases answered : uniform? lo hi r with
    | none =>
      have stops : Roller.uniform lo hi r = (lo, { r with stopped := true }) :=
        congrArg (Option.getD · _) answered
      rw [stops, if_pos (stopped_run _ rfl)]
      rfl
    | some answer =>
      have goes : Roller.uniform lo hi r = answer := congrArg (Option.getD · _) answered
      rw [goes]
      exact ih _ (by rw [SequenceRoller.snd_of_uniform? answered]; exact going)

end Rolling

end Tabletop
