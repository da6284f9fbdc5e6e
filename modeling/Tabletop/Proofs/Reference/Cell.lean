import Tabletop.Proofs.Expression.Terminal
import Tabletop.Proofs.Text.Blank
import Tabletop.Reference.Cell

/-!
# Cells with signs

The first cell of a row is a number, a range of two numbers, or a number with a plus sign.  A
hyphen is the sign of a negative number too, and this module says what cells stand for which are
written with numbers of either sign (`Cell.covers_written`).

The three forms are told apart in a fixed order.  A plus sign at the end comes first, and what is
before it is read as a number with its sign.  Then the cell is cut at its first hyphen or dash,
whatever that is, so that a cell that begins with a minus sign is a range from nothing and stands
for no value at all.  Only the second of two numbers can be negative, and there the range is empty.

The proof follows this order.  Of a cell it has to be known whether a plus sign ends it, and if not
where its first dash is.  A number ends with a digit, so the first is seen from what was written
last, and a number without a sign has only digits, so the second is seen from the sign alone.
-/

namespace Tabletop

open Text (Blank isBlank)

namespace Decimal

/-- The characters of an integer: digits, and a minus sign at the front.  Only its ends matter:
whether a dash comes first, and whether a plus sign comes last. -/
theorem head_ofInt (n : Int) :
    ∀ c ∈ (ofInt n).toList.head?, c.isDigit = true ∨ c = '-' := by
  intro c mem
  rw [toList_ofInt] at mem
  split at mem
  · exact .inr (Option.some.inj mem).symm
  · rw [← List.append_nil (Nat.toDigits 10 n.natAbs)] at mem
    exact .inl (isDigit_head_toDigits c mem)

theorem getLast_ofInt (n : Int) : ∀ c ∈ (ofInt n).toList.getLast?, c.isDigit = true := by
  intro c mem
  rw [toList_ofInt] at mem
  split at mem
  · rw [List.getLast?_cons_of_ne_nil Nat.toDigits_ne_nil] at mem
    exact isDigit_toDigits c (List.mem_of_getLast? mem)
  · exact isDigit_toDigits c (List.mem_of_getLast? mem)

theorem ofInt_ne_nil (n : Int) : (ofInt n).toList ≠ [] := by
  rw [toList_ofInt]
  split
  · exact List.cons_ne_nil _ _
  · exact Nat.toDigits_ne_nil

/-- A text that begins with an integer does not begin with white space. -/
theorem isBlank_head_ofInt (n : Int) (cs : List Char) :
    ∀ c ∈ ((ofInt n).toList ++ cs).head?, isBlank c = false := by
  intro c mem
  rw [List.head?_append_of_ne_nil _ (ofInt_ne_nil n)] at mem
  rcases head_ofInt n c mem with digit | rfl
  · exact Text.isBlank_of_isDigit digit
  · rfl

/-- A text that ends with an integer does not end with white space. -/
theorem isBlank_getLast_ofInt (n : Int) (cs : List Char) :
    ∀ c ∈ (cs ++ (ofInt n).toList).getLast?, isBlank c = false := by
  intro c mem
  rw [List.getLast?_append_of_ne_nil _ (ofInt_ne_nil n)] at mem
  exact Text.isBlank_of_isDigit (getLast_ofInt n c mem)

/-- White space around an integer is not part of it.  This serves the cell as a whole and each of
the two numbers of a range. -/
theorem trim_ofInt {before after : List Char} (blank : Blank before) (blank' : Blank after)
    (n : Int) : Text.trim (before ++ (ofInt n).toList ++ after) = (ofInt n).toList := by
  have first := isBlank_head_ofInt n []
  rw [List.append_nil] at first
  exact Text.trim_append_eq_self blank blank' first (isBlank_getLast_ofInt n [])

end Decimal

namespace Cell

/-- A hyphen or a dash. -/
def isDash (c : Char) : Bool :=
  c == '-' || c == '–'

section Forms

variable {cell inner before after : List Char} {lo hi v : Int64}

/-! ## The three forms

Cells by what the program finds in them, whatever they are made of. -/

/-- With a plus sign at the end, a number is the least of the values.  The sign is dropped before
the number is read, so the number may have a sign of its own. -/
theorem covers_plus (trimmed : Text.trim cell = inner ++ ['+'])
    (read : number? (Text.trim inner) = some lo) :
    covers (String.ofList cell) v = true ↔ lo ≤ v := by
  have last : ((inner ++ ['+']).getLast? == some '+') = true := by
    rw [List.getLast?_concat]
    rfl
  rw [covers, String.toList_ofList, trimmed, if_pos last, List.dropLast_concat, read]
  exact decide_eq_true_iff

/-- A cell with a dash in it is cut there.  Both sides have to be numbers, or the cell stands for
nothing. -/
theorem covers_split (trimmed : Text.trim cell = inner) (noPlus : inner.getLast? ≠ some '+')
    (split : Text.splitFirst? isDash inner = some (before, after)) :
    covers (String.ofList cell) v = true ↔
      ∃ lo hi, number? (Text.trim before) = some lo ∧ number? (Text.trim after) = some hi ∧
        lo ≤ v ∧ v ≤ hi := by
  have split : Text.splitFirst? (fun c => c == '-' || c == '–') inner = some (before, after) := split
  rw [covers, String.toList_ofList, trimmed, if_neg (mt eq_of_beq noPlus), split]
  dsimp only
  cases number? (Text.trim before) <;> cases number? (Text.trim after) <;> simp

/-- Every other cell is a number. -/
theorem covers_whole (trimmed : Text.trim cell = inner) (noPlus : inner.getLast? ≠ some '+')
    (noDash : ∀ c ∈ inner, ¬ isDash c = true) :
    covers (String.ofList cell) v = true ↔ number? inner = some v := by
  have whole : Text.splitFirst? (fun c => c == '-' || c == '–') inner = none :=
    Text.splitFirst?_eq_none_iff.2 noDash
  rw [covers, String.toList_ofList, trimmed, if_neg (mt eq_of_beq noPlus), whole]
  dsimp only
  cases number? inner <;> simp

/-- **A cell that begins with a minus sign stands for nothing**, unless a plus sign ends it: there
is no number before the sign.  The cut is at the first dash, wherever a range might have its own. -/
theorem covers_minus (trimmed : Text.trim cell = '-' :: inner)
    (noPlus : ('-' :: inner).getLast? ≠ some '+') : covers (String.ofList cell) v = false := by
  rw [Bool.eq_false_iff]
  intro covered
  obtain ⟨lo, _, read, -⟩ := (covers_split trimmed noPlus rfl).1 covered
  cases read

end Forms

/-! ## Cells as they are written

Now for cells that are made of numbers.  In each of the three forms the sign of the first number
decides; where it is negative the cell begins with a dash, and `covers_minus` says the rest. -/

variable {before after left right : List Char} {x lo hi v : Int64}

theorem number?_ofInt (n : Int64) : number? (Decimal.ofInt n.toInt).toList = some n :=
  Decimal.int64?_ofInt n

/-- No character of a class without the hyphen and the dash is one of them.  Digits and white space
are such classes, so the first dash of a written range is the one between its numbers. -/
theorem not_isDash {p : Char → Bool} (noHyphen : p '-' = false) (noDash : p '–' = false) {c : Char}
    (inside : p c = true) : ¬ isDash c = true := by
  intro dash
  rcases Bool.or_eq_true_iff.1 dash with hyphen | dash
  · rw [eq_of_beq hyphen, noHyphen] at inside
    cases inside
  · rw [eq_of_beq dash, noDash] at inside
    cases inside

theorem getLast_ne_plus (n : Int) (cs : List Char) :
    (cs ++ (Decimal.ofInt n).toList).getLast? ≠ some '+' := by
  rw [List.getLast?_append_of_ne_nil _ (Decimal.ofInt_ne_nil n)]
  exact fun plus => nomatch Decimal.getLast_ofInt n '+' plus

/-- The text of a negative number begins with its sign. -/
theorem exists_ofInt_of_neg (negative : ¬ 0 ≤ x) :
    ∃ digits, (Decimal.ofInt x.toInt).toList = '-' :: digits := by
  rw [Int64.le_iff_toInt_le, Int.not_le] at negative
  exact ⟨_, (Decimal.toList_ofInt x.toInt).trans (if_pos negative)⟩

/-- The text of another number is digits. -/
theorem isDigit_of_nonneg (nonneg : 0 ≤ x) :
    ∀ c ∈ (Decimal.ofInt x.toInt).toList, c.isDigit = true := by
  have positive : 0 ≤ x.toInt := Int64.le_iff_toInt_le.1 nonneg
  rw [Decimal.toList_ofInt, if_neg (Int.not_lt.2 positive)]
  exact Decimal.isDigit_toDigits

/-- A number stands for itself if it has no sign. -/
theorem covers_number (outer : Blank before) (outer' : Blank after) :
    covers (String.ofList (before ++ (Decimal.ofInt x.toInt).toList ++ after)) v = true ↔
      0 ≤ x ∧ v = x := by
  have trimmed := Decimal.trim_ofInt outer outer' x.toInt
  have noPlus := getLast_ne_plus x.toInt []
  rw [List.nil_append] at noPlus
  by_cases nonneg : 0 ≤ x
  · have noDash : ∀ c ∈ (Decimal.ofInt x.toInt).toList, ¬ isDash c = true := fun c mem =>
      not_isDash rfl rfl (isDigit_of_nonneg nonneg c mem)
    rw [covers_whole trimmed noPlus noDash, number?_ofInt, Option.some.injEq]
    exact ⟨fun same => ⟨nonneg, same.symm⟩, fun h => h.2.symm⟩
  · obtain ⟨digits, eq⟩ := exists_ofInt_of_neg nonneg
    rw [eq] at trimmed noPlus
    rw [covers_minus (eq ▸ trimmed) noPlus]
    exact iff_of_false Bool.false_ne_true fun h => nonneg h.1

/-- A range stands for the numbers in it if the first of its bounds has no sign.  Where it has one,
the cell is cut in front of it, and nothing is read there. -/
theorem covers_range (outer : Blank before) (outer' : Blank after) (inner : Blank left)
    (inner' : Blank right) {dash : Char} (parts : isDash dash = true) :
    covers (String.ofList (before ++ ((Decimal.ofInt lo.toInt).toList ++
      (left ++ dash :: (right ++ (Decimal.ofInt hi.toInt).toList))) ++ after)) v = true ↔
        0 ≤ lo ∧ lo ≤ v ∧ v ≤ hi := by
  have ending : (Decimal.ofInt lo.toInt).toList ++
      (left ++ dash :: (right ++ (Decimal.ofInt hi.toInt).toList)) =
      (Decimal.ofInt lo.toInt).toList ++ left ++ dash :: right ++ (Decimal.ofInt hi.toInt).toList := by
    simp
  have last := Decimal.isBlank_getLast_ofInt hi.toInt
    ((Decimal.ofInt lo.toInt).toList ++ left ++ dash :: right)
  have noPlus := getLast_ne_plus hi.toInt ((Decimal.ofInt lo.toInt).toList ++ left ++ dash :: right)
  rw [← ending] at last noPlus
  have trimmed := Text.trim_append_eq_self outer outer' (Decimal.isBlank_head_ofInt lo.toInt _) last
  by_cases nonneg : 0 ≤ lo
  -- A number without a sign and white space have no dash in them, so the cut comes after both.
  · have first : ∀ c ∈ (Decimal.ofInt lo.toInt).toList ++ left, ¬ isDash c = true := by
      intro c mem
      rcases List.mem_append.1 mem with digit | blank
      · exact not_isDash rfl rfl (isDigit_of_nonneg nonneg c digit)
      · exact not_isDash rfl rfl (inner c blank)
    have split : Text.splitFirst? isDash ((Decimal.ofInt lo.toInt).toList ++
        (left ++ dash :: (right ++ (Decimal.ofInt hi.toInt).toList))) =
        some ((Decimal.ofInt lo.toInt).toList ++ left,
          right ++ (Decimal.ofInt hi.toInt).toList) := by
      rw [← List.append_assoc]
      exact Text.splitFirst?_append parts first
    have least := Decimal.trim_ofInt Text.blank_nil inner lo.toInt
    have greatest := Decimal.trim_ofInt inner' Text.blank_nil hi.toInt
    rw [List.nil_append] at least
    rw [List.append_nil] at greatest
    rw [covers_split trimmed noPlus split, least, greatest, number?_ofInt, number?_ofInt]
    simp [nonneg]
  · obtain ⟨digits, eq⟩ := exists_ofInt_of_neg nonneg
    rw [eq, List.cons_append] at trimmed noPlus
    rw [eq, List.cons_append, covers_minus trimmed noPlus]
    exact iff_of_false Bool.false_ne_true fun h => nonneg h.1

/-- A number with a plus sign stands for all numbers from it on.  The plus sign is looked for before
any dash, so here a number below zero is read. -/
theorem covers_atLeast (outer : Blank before) (outer' : Blank after) (inner : Blank left) :
    covers (String.ofList (before ++ ((Decimal.ofInt lo.toInt).toList ++ (left ++ ['+'])) ++ after)) v =
      true ↔ lo ≤ v := by
  have last : ∀ c ∈ ((Decimal.ofInt lo.toInt).toList ++ (left ++ ['+'])).getLast?,
      isBlank c = false := by
    intro c mem
    rw [← List.append_assoc, List.getLast?_concat] at mem
    obtain rfl := Option.some.inj mem
    rfl
  have trimmed := Text.trim_append_eq_self outer outer' (Decimal.isBlank_head_ofInt lo.toInt _) last
  have least := Decimal.trim_ofInt Text.blank_nil inner lo.toInt
  rw [List.nil_append] at least
  have shape : (Decimal.ofInt lo.toInt).toList ++ (left ++ ['+']) =
      (Decimal.ofInt lo.toInt).toList ++ left ++ ['+'] := (List.append_assoc ..).symm
  rw [shape] at trimmed ⊢
  exact covers_plus trimmed (by rw [least, number?_ofInt])

/-- **Cells as they are written**, with white space around the numbers.  A single number and a range
stand for what they say if their first number has no sign, and for nothing if it has one; a number
with a plus sign stands for what it says with either sign. -/
theorem covers_written (outer : Blank before) (outer' : Blank after) (inner : Blank left)
    (inner' : Blank right) (x lo hi v : Int64) :
    (covers (String.ofList (before ++ (Decimal.ofInt x.toInt).toList ++ after)) v = true ↔
      0 ≤ x ∧ v = x) ∧
    (∀ dash, isDash dash = true →
      (covers (String.ofList (before ++ ((Decimal.ofInt lo.toInt).toList ++
        (left ++ dash :: (right ++ (Decimal.ofInt hi.toInt).toList))) ++ after)) v = true ↔
          0 ≤ lo ∧ lo ≤ v ∧ v ≤ hi)) ∧
    (covers (String.ofList (before ++ ((Decimal.ofInt lo.toInt).toList ++ (left ++ ['+'])) ++ after))
      v = true ↔ lo ≤ v) :=
  ⟨covers_number outer outer', fun _ parts => covers_range outer outer' inner inner' parts,
    covers_atLeast outer outer' inner⟩

/-- Four to six, with a dash and spaces, and from minus two on. -/
theorem covers_written_six :
    (Blank [' '] ∧ Blank []) ∧ covers " 4– 6 " 6 = true ∧ covers " -2+ " (-1) = true ∧
      covers " 4 " 6 = false := by
  have blank : Blank [' '] := List.forall_mem_singleton.2 rfl
  have one : (Decimal.ofInt (4 : Int64).toInt).toList = ['4'] := by cbv
  have two : (Decimal.ofInt (6 : Int64).toInt).toList = ['6'] := by cbv
  have three : (Decimal.ofInt (-2 : Int64).toInt).toList = ['-', '2'] := by cbv
  obtain ⟨number, range, -⟩ := covers_written blank blank Text.blank_nil blank 4 4 6 6
  obtain ⟨-, -, atLeast⟩ := covers_written blank blank Text.blank_nil Text.blank_nil 0 (-2) 0 (-1)
  have dashed := range '–' rfl
  rw [one] at number
  rw [one, two] at dashed
  rw [three] at atLeast
  have single : String.ofList ([' '] ++ ['4'] ++ [' ']) = " 4 " := by cbv
  have parted : String.ofList ([' '] ++ (['4'] ++ ([] ++ '–' :: ([' '] ++ ['6']))) ++ [' ']) =
      " 4– 6 " := by cbv
  have open' : String.ofList ([' '] ++ (['-', '2'] ++ ([] ++ ['+'])) ++ [' ']) = " -2+ " := by cbv
  rw [single] at number
  rw [parted] at dashed
  rw [open'] at atLeast
  refine ⟨⟨blank, Text.blank_nil⟩, dashed.2 (by decide), atLeast.2 (by decide), ?_⟩
  exact Bool.eq_false_iff.2 fun covered => absurd (number.1 covered).2 (by decide)

/-- **No cell but one with a plus sign stands for negative numbers alone**: neither the number nor
the ranges that begin with it, whichever dash they have. -/
theorem covers_negative :
    covers "-3" (-3) = false ∧ covers "-3-1" (-3) = false ∧ covers "-3–-1" (-2) = false ∧
      covers "-3+" (-3) = true := by
  decide +kernel

end Cell

end Tabletop
