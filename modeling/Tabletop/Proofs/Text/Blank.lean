import Mathlib.Data.List.TakeWhile
import Tabletop.Proofs.Decimal.Integer
import Tabletop.Text.CodePoints

/-!
# Trimming

Trimming removes the white space around a text and nothing else.

* `isBlank_of_visible` — no visible character of ASCII is white space;
* `trim_append` — white space around a text makes no difference;
* `trim_eq_self` — a text that neither begins nor ends with white space is left as it is;
* `Blank` — white space alone.

Trimming drops characters from both ends as long as they are white space.  White space is a matter
of a table of code points, and what has to be known of the table is only that it has nothing between
the space and the controls behind ASCII.
-/

namespace Tabletop.Text

variable {cs before after : List Char}

/-- From the space to the next line, both excluded, there is no white space. -/
theorem isBlank_of_visible {c : Char} (low : 0x20 < c.toNat) (high : c.toNat < 0x85) :
    isBlank c = false := by
  have first : whiteSpace.changes.takeWhile (· ≤ c.toNat) = [0x9, 0xE, 0x20, 0x21] := by
    have passed : 0x9 ≤ c.toNat ∧ 0xE ≤ c.toNat ∧ 0x20 ≤ c.toNat ∧ 0x21 ≤ c.toNat := by omega
    simp [whiteSpace, passed, high]
  rw [isBlank, CodePoints.contains, first]
  rfl

theorem isBlank_of_isDigit {c : Char} (digit : c.isDigit = true) : isBlank c = false := by
  have range : 48 ≤ c.toNat ∧ c.toNat ≤ 57 := Char.isDigit_iff_toNat.1 digit
  exact isBlank_of_visible (by omega) (by omega)

/-! ## Text between blanks

Trimming takes white space from both ends until it meets something else, so a text that ends with
something else is left as it is. -/

/-- A text of white space alone. -/
def Blank (cs : List Char) : Prop :=
  ∀ c ∈ cs, isBlank c = true

theorem blank_nil : Blank [] :=
  List.forall_mem_nil _

theorem Blank.dropWhile (blank : Blank cs) : cs.dropWhile isBlank = [] :=
  List.dropWhile_eq_nil_iff.2 blank

theorem Blank.not_mem {c : Char} (blank : Blank cs) (visible : isBlank c = false) : c ∉ cs :=
  fun mem => Bool.false_ne_true (visible.symm.trans (blank c mem))

/-- **White space around a text makes no difference.** -/
theorem trim_append (blank : Blank before) (blank' : Blank after) (cs : List Char) :
    trim (before ++ cs ++ after) = trim cs := by
  have ends (left : List Char) : trimEnd (left ++ after) = trimEnd left := by
    have reversed : ∀ c ∈ after.reverse, isBlank c = true := fun c mem =>
      blank' c (List.mem_reverse.1 mem)
    rw [trimEnd, List.reverse_append, List.dropWhile_append_of_pos reversed]
    rfl
  have starts : trimStart (before ++ cs ++ after) = trimStart (cs ++ after) := by
    rw [List.append_assoc]
    exact List.dropWhile_append_of_pos blank
  rw [trim, starts, trim, trimStart, trimStart, List.dropWhile_append]
  split
  · next empty => rw [blank'.dropWhile, List.isEmpty_iff.1 empty]
  · exact ends _

/-- A text that has no white space at its ends is left as it is. -/
theorem trim_eq_self (first : ∀ c ∈ cs.head?, isBlank c = false)
    (last : ∀ c ∈ cs.getLast?, isBlank c = false) : trim cs = cs := by
  have reversed : ∀ c ∈ cs.reverse.head?, isBlank c = false := by rwa [List.head?_reverse]
  rw [trim, trimStart, dropWhile_of_stops first, trimEnd, dropWhile_of_stops reversed,
    List.reverse_reverse]

/-- White space around a text that has none is what trimming removes. -/
theorem trim_append_eq_self (blank : Blank before) (blank' : Blank after)
    (first : ∀ c ∈ cs.head?, isBlank c = false) (last : ∀ c ∈ cs.getLast?, isBlank c = false) :
    trim (before ++ cs ++ after) = cs :=
  (trim_append blank blank' cs).trans (trim_eq_self first last)

/-- A text that trimming leaves as it is does not begin with white space. -/
theorem head_of_trim_eq_self (trimmed : trim cs = cs) : ∀ c ∈ cs.head?, isBlank c = false := by
  intro c mem
  obtain ⟨rest, rfl⟩ : ∃ rest, cs = c :: rest := by
    cases cs with
    | nil => cases mem
    | cons d rest => exact ⟨rest, by rw [Option.some.inj mem]⟩
  rw [Bool.eq_false_iff]
  intro blank
  have short : (trim (c :: rest)).length ≤ rest.length := by
    rw [trim, trimStart, List.dropWhile_cons_of_pos blank, trimEnd, List.length_reverse]
    have fromEnd := (List.dropWhile_suffix isBlank (l := (rest.dropWhile isBlank).reverse)).length_le
    rw [List.length_reverse] at fromEnd
    exact Nat.le_trans fromEnd (List.dropWhile_suffix _).length_le
  rw [trimmed] at short
  exact Nat.not_succ_le_self _ short

/-- A text that trimming leaves as it is does not end with white space. -/
theorem getLast_of_trim_eq_self (trimmed : trim cs = cs) :
    ∀ c ∈ cs.getLast?, isBlank c = false := by
  intro c mem
  have last := List.head?_dropWhile_not isBlank (trimStart cs).reverse
  rw [← trimmed, trim, trimEnd, List.getLast?_reverse] at mem
  rw [Option.mem_def.1 mem] at last
  simpa using last

end Tabletop.Text
