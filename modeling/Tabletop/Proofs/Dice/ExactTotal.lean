import Mathlib
import Tabletop.Dice.RollTree
import Tabletop.Proofs.Number

/-!
# Exact totals

What a rolled notation comes to in unbounded integers is defined without any words or floats:
`RollGroup.exactTotal` for the dice of a group, and `RollTree.exactTotal?` for a tree, which has no
such value if it divides, if a literal is a float, or if an exponent is not a word of 32 bits.  The
total of a tree is this integer, and no float, if the value of every part fits a word of 64 bits.
That the parts fit is all that is asked: neither the powers that come up within a power nor the sums
that come up within the sum of a group have to be looked at.

* `RollGroup.is_total`, `RollTree.total_eq_exact` — the totals of groups and of trees;
* `RollGroup.total_eq_of_perm` — the order of the dice does not matter if their sum fits.

How the proof goes.  One relation is carried through: a number `Is` an integer if it is that integer
and no float.  Every operation preserves it as long as the result fits, so the theorem is an
induction on the tree, with the condition on the parts handed down to them.  Why the sums inside of
a group need not be looked at is a separate matter: the values of dice are not negative, and of such
summands every partial sum is below the whole.
-/

namespace Tabletop

/-! ## Groups

A group is added up by repeated addition of numbers, which goes over to floats when a word
overflows. -/

namespace Die

/-- The values added to a die are added up behind what comes before them.  They cannot overflow
here, since the sum is a natural number. -/
theorem foldl_add_toNat (start : Nat) (values : List UInt32) :
    values.foldl (fun n value => n + value.toNat) start =
      start + (values.map UInt32.toNat).sum := by
  induction values generalizing start with
  | nil => rfl
  | cons value values ih => rw [List.foldl_cons, ih, List.map_cons, List.sum_cons, Nat.add_assoc]

/-- A value that fits is the number of pips. -/
theorem toInt_value {d : Die} (fits : d.pips < 2 ^ 63) : d.value.toInt = d.pips :=
  Int64.toInt_ofNat_of_lt fits

end Die

namespace RollGroup

/-- The number of successes, or the pips of the dice that count. -/
def exactTotal (g : RollGroup) : Nat :=
  if g.countsSuccesses then g.live.countP (·.matched) else (g.live.map Die.pips).sum

variable {g : RollGroup}

/-- A group without conditionals is added up, and dropped dice do not take part. -/
theorem total_eq_sum (sums : g.countsSuccesses = false) :
    g.total = Number.sum ((g.live.map Die.value).map .int) := by
  have live : ∀ d ∈ g.live, d.total = .int d.value := by
    intro d mem
    have counts : d.dropped = false := by simpa using (List.mem_filter.1 mem).2
    rw [Die.total, counts]
    rfl
  rw [total, sums, List.map_map, List.map_congr_left live]
  rfl

/-- The values of dice whose pips fit together are these pips.  Each die is below the sum, so it
fits if the sum does. -/
theorem toInt_values (fits : (g.live.map Die.pips).sum < 2 ^ 63) :
    (∀ v ∈ g.live.map Die.value, 0 ≤ v.toInt) ∧
      ((g.live.map Die.value).map Int64.toInt).sum = (g.live.map Die.pips).sum := by
  have each : ∀ d ∈ g.live, d.value.toInt = d.pips := fun d mem =>
    Die.toInt_value (Nat.lt_of_le_of_lt (List.le_sum_of_mem (List.mem_map_of_mem mem)) fits)
  constructor
  · rw [List.forall_mem_map]
    intro d mem
    rw [each d mem]
    exact Int.natCast_nonneg d.pips
  · rw [List.map_map, Nat.cast_list_sum, List.map_map]
    exact congrArg List.sum (List.map_congr_left each)

/-- Dice are added up exactly if their sum fits. -/
theorem is_total_of_sums (sums : g.countsSuccesses = false)
    (nonneg : ∀ v ∈ g.live.map Die.value, 0 ≤ v.toInt)
    (fits : ((g.live.map Die.value).map Int64.toInt).sum < 2 ^ 63) :
    g.total.Is ((g.live.map Die.value).map Int64.toInt).sum := by
  rw [total_eq_sum sums]
  exact Number.is_sum nonneg fits

/-- **The total of a group** is exact if it fits. -/
theorem is_total (fits : g.exactTotal < 2 ^ 63) : g.total.Is g.exactTotal := by
  cases counts : g.countsSuccesses with
  -- Successes are counted, and there are no more of them than dice.
  | true =>
    rw [exactTotal, if_pos counts] at fits ⊢
    rw [total, if_pos counts]
    exact ⟨_, rfl, Int64.toInt_ofNat_of_lt fits⟩
  -- Dice are added up, and the sum of the values is the sum of the pips.
  | false =>
    rw [exactTotal, counts, if_neg Bool.false_ne_true] at fits ⊢
    obtain ⟨nonneg, value⟩ := toInt_values fits
    rw [← value]
    refine is_total_of_sums counts nonneg ?_
    rw [value]
    exact_mod_cast fits

/-- Dice that show the same values have the same sum, whatever their order.  Both totals are the
same integer, and an integer is represented in one way only. -/
theorem total_eq_of_perm {g' : RollGroup} (sums : g.countsSuccesses = false)
    (sums' : g'.countsSuccesses = false)
    (same : (g.live.map Die.value).Perm (g'.live.map Die.value))
    (fits : (g.live.map Die.pips).sum < 2 ^ 63) : g.total = g'.total := by
  obtain ⟨nonneg, value⟩ := toInt_values fits
  have sum_lt : ((g.live.map Die.value).map Int64.toInt).sum < 2 ^ 63 := by
    rw [value]
    exact_mod_cast fits
  have sum_eq := (same.map Int64.toInt).sum_eq
  have left := is_total_of_sums sums nonneg sum_lt
  have right := is_total_of_sums sums' (fun v mem => nonneg v (same.mem_iff.2 mem))
    (sum_eq ▸ sum_lt)
  rw [sum_eq] at left
  exact left.unique right

end RollGroup

/-- The pips of three dice fit. -/
theorem StuntRoll.is_total (s : StuntRoll) :
    s.total.Is (s.regular.1.toNat + s.regular.2.toNat + s.stunt.toNat : Nat) := by
  have first := s.regular.1.toNat_lt
  have second := s.regular.2.toNat_lt
  have stunt := s.stunt.toNat_lt
  exact ⟨_, rfl, Int64.toInt_ofNat_of_lt (by omega)⟩

/-! ## Trees

For a tree the condition is that it fits together with all of its parts, since the parts are
computed one by one. -/

namespace RollTree

/-- A tree and all that it is made of. -/
def subtrees : RollTree → List RollTree
  | t@(literal _) | t@(dice _) | t@(stunt _) => [t]
  | t@(grouping inner) | t@(negate inner) => t :: inner.subtrees
  | t@(binary left _ right) => t :: (left.subtrees ++ right.subtrees)

/-- What a tree comes to in unbounded integers, if all its operations have an integer as their
result and all its literals are integers. -/
def exactTotal? : RollTree → Option Int
  | literal (.int n) => some n.toInt
  | literal (.float _) => none
  | dice group => some group.exactTotal
  | stunt roll => some (roll.regular.1.toNat + roll.regular.2.toNat + roll.stunt.toNat : Nat)
  | grouping inner => inner.exactTotal?
  | negate inner => inner.exactTotal?.map (- ·)
  | binary left op right => do op.exactResult? (← left.exactTotal?) (← right.exactTotal?)

/-- The value of a tree and those of all its parts are integers of 64 bits. -/
def Fits (t : RollTree) : Prop :=
  ∀ s ∈ t.subtrees, ∃ n ∈ s.exactTotal?, FitsWord n

instance (t : RollTree) : Decidable t.Fits :=
  inferInstanceAs (Decidable (∀ s ∈ t.subtrees, ∃ n ∈ s.exactTotal?, FitsWord n))

theorem self_mem_subtrees (t : RollTree) : t ∈ t.subtrees := by
  cases t with
  | literal | dice | stunt => exact .head _
  | grouping | negate | binary => exact .head _

/-- From the parts to the whole: a tree that fits has a value, and its total is this value.  The
cases are those of the tree: leaves are what they are, and an operation has a result because its
exact result fits. -/
theorem is_total {t : RollTree} (fits : t.Fits) :
    ∃ n ∈ t.exactTotal?, ∃ total, t.total = .ok total ∧ total.Is n := by
  induction t with
  | literal value =>
    obtain ⟨n, exact, -⟩ := fits _ (self_mem_subtrees _)
    cases value with
    | int m => exact ⟨_, rfl, _, rfl, Number.is_int m⟩
    | float x => cases exact
  | dice group =>
    obtain ⟨n, exact, word⟩ := fits _ (self_mem_subtrees _)
    cases exact
    exact ⟨_, rfl, _, rfl, RollGroup.is_total (by exact_mod_cast word.2)⟩
  | stunt roll => exact ⟨_, rfl, _, rfl, roll.is_total⟩
  | grouping inner ih => exact ih fun s mem => fits s (.tail _ mem)
  -- The opposite of the least word does not fit, which is why the whole has to be looked at as
  -- well.
  | negate inner ih =>
    obtain ⟨n, exact, a, eq, value⟩ := ih fun s mem => fits s (.tail _ mem)
    obtain ⟨m, exact', word⟩ := fits _ (self_mem_subtrees _)
    have opposite : (negate inner).exactTotal? = some (-n) := by rw [exactTotal?, exact]; rfl
    obtain rfl := Option.some.inj (opposite.symm.trans exact')
    refine ⟨_, opposite, a.neg, ?_, value.neg word⟩
    rw [total, eq]
    rfl
  | binary left op right ihLeft ihRight =>
    obtain ⟨m, exactLeft, a, eqLeft, valueLeft⟩ :=
      ihLeft fun s mem => fits s (.tail _ (List.mem_append_left _ mem))
    obtain ⟨n, exactRight, b, eqRight, valueRight⟩ :=
      ihRight fun s mem => fits s (.tail _ (List.mem_append_right _ mem))
    obtain ⟨k, exact, word⟩ := fits _ (self_mem_subtrees _)
    have operation : op.exactResult? m n = some k := by
      rw [exactTotal?, exactLeft, exactRight] at exact
      exact exact
    have value := valueLeft.apply valueRight operation word
    -- A word is finite, so the operation is not refused.
    have finite : (a.apply op b).isFinite = true := by
      obtain ⟨_, eq, -⟩ := value
      rw [eq]
      rfl
    refine ⟨k, exact, a.apply op b, ?_, value⟩
    rw [total, eqLeft, eqRight]
    show (if (a.apply op b).isFinite then _ else _) = _
    rw [if_pos finite]
    rfl

/-- **Totals are exact.**  If a tree does not divide, its literals are integers, its exponents are
words of 32 bits that are not negative, and the value of the tree and of each of its parts fits 64
bits, all in unbounded integers, then its total is an integer with just this value. -/
theorem total_eq_exact {t : RollTree} (fits : t.Fits) :
    ∃ n : Int64, t.total = .ok (.int n) ∧ t.exactTotal? = some n.toInt := by
  obtain ⟨n, exact, total, eq, word, rfl, rfl⟩ := is_total fits
  exact ⟨word, eq, exact⟩

/-- A sum whose first operand is the least integer of 64 bits, as a power. -/
theorem total_eq_exact_least_word :
    let six : Faces := ⟨6, by decide⟩
    let kept (face : UInt32) : Die := { faces := six, face }
    let lost : Die := { faces := six, face := 1, dropped := true }
    let group : RollGroup := ⟨"4d6dl1", 4, six, [], [kept 2, kept 6, kept 4, lost]⟩
    let power : RollTree := .binary (.literal (.int (-2))) .pow (.literal (.int 63))
    let t : RollTree := .binary power .add (.grouping (.dice group))
    t.Fits ∧ t.exactTotal? = some (-2 ^ 63 + 12) ∧
      ∃ n : Int64, t.total = .ok (.int n) ∧ t.exactTotal? = some n.toInt := by
  intro six kept lost group power t
  have fits : t.Fits := by decide
  exact ⟨fits, by decide, total_eq_exact fits⟩

end RollTree

end Tabletop
