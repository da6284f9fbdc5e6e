import Tabletop.Json

/-!
# Reading JSON

A text is read as one value with white space around its parts. Every reader returns the text it
has left, which is shorter than what it was given; that is why the reading ends.
-/

namespace Tabletop.Json

/-- The text left after something has been read. -/
abbrev Left (cs : List Char) :=
  { rest : List Char // rest.length < cs.length }

/-- Whether a character is white space between the parts of a value. -/
def isSpace (c : Char) : Bool :=
  c == ' ' || c == '\n' || c == '\t' || c == '\r'

/-- A text from its first character that is not white space on. -/
def skip (cs : List Char) : List Char :=
  cs.dropWhile isSpace

theorem length_skip_le (cs : List Char) : (skip cs).length ≤ cs.length :=
  (List.dropWhile_suffix _).length_le

/-- The value of a hexadecimal digit. -/
def hexDigit? (c : Char) : Option Nat :=
  if '0' ≤ c ∧ c ≤ '9' then some (c.toNat - '0'.toNat)
  else if 'a' ≤ c ∧ c ≤ 'f' then some (c.toNat - 'a'.toNat + 10)
  else if 'A' ≤ c ∧ c ≤ 'F' then some (c.toNat - 'A'.toNat + 10)
  else none

/-- The value of four hexadecimal digits. -/
def hexUnit? (a b c d : Char) : Option Nat := do
  let a ← hexDigit? a
  let b ← hexDigit? b
  let c ← hexDigit? c
  let d ← hexDigit? d
  return ((a * 16 + b) * 16 + c) * 16 + d

/-- The character that a backslash and a letter write. -/
def escape? : Char → Option Char
  | '"' => some '"'
  | '\\' => some '\\'
  | '/' => some '/'
  | 'b' => some '\x08'
  | 'f' => some '\x0c'
  | 'n' => some '\n'
  | 'r' => some '\r'
  | 't' => some '\t'
  | _ => none

/-- The pieces of a string up to its closing quote, and the text after it. -/
def pieces? : List Char → Option (List Piece × List Char)
  | [] => none
  | '"' :: cs => some ([], cs)
  | '\\' :: 'u' :: a :: b :: c :: d :: cs => do
    let n ← hexUnit? a b c d
    let (pieces, rest) ← pieces? cs
    return (.unit n :: pieces, rest)
  | '\\' :: e :: cs => do
    let c ← escape? e
    let (pieces, rest) ← pieces? cs
    return (.escaped c :: pieces, rest)
  | c :: cs =>
    if c.toNat < 0x20 ∨ c = '\\' then none
    else do
      let (pieces, rest) ← pieces? cs
      return (.plain c :: pieces, rest)

theorem length_of_pieces? {cs rest : List Char} {pieces : List Piece}
    (h : pieces? cs = some (pieces, rest)) : rest.length < cs.length := by
  fun_induction pieces? cs generalizing pieces rest with
  | case1 => simp at h
  | case2 cs => simp_all
  | case3 a b c d cs ih =>
    simp only [bind, Option.bind_eq_some_iff, Prod.exists, pure, Option.some.injEq,
      Prod.mk.injEq] at h
    obtain ⟨_, _, _, left, found, _, rfl⟩ := h
    have := ih found
    simp only [List.length_cons]
    omega
  | case4 e cs _ ih =>
    simp only [bind, Option.bind_eq_some_iff, Prod.exists, pure, Option.some.injEq,
      Prod.mk.injEq] at h
    obtain ⟨_, _, _, left, found, _, rfl⟩ := h
    have := ih found
    simp only [List.length_cons]
    omega
  | case5 => simp at h
  | case6 c cs _ _ _ _ ih =>
    simp only [bind, Option.bind_eq_some_iff, Prod.exists, pure, Option.some.injEq,
      Prod.mk.injEq] at h
    obtain ⟨_, left, found, _, rfl⟩ := h
    have := ih found
    simp only [List.length_cons]
    omega

/-- The digits at the front of a text, of which there has to be one, and the rest. -/
def digits? (cs : List Char) : Option (List Char × List Char) :=
  match cs.takeWhile Char.isDigit with
  | [] => none
  | digits => some (digits, cs.dropWhile Char.isDigit)

theorem length_of_digits? {cs digits rest : List Char} (h : digits? cs = some (digits, rest)) :
    rest.length < cs.length := by
  unfold digits? at h
  split at h
  · simp at h
  · next nonempty =>
    simp only [Option.some.injEq, Prod.mk.injEq] at h
    have total := congrArg List.length (List.takeWhile_append_dropWhile (p := Char.isDigit) (l := cs))
    have := List.length_pos_iff.2 nonempty
    rw [List.length_append] at total
    rw [← h.2]
    omega

/-- The digits before the point: a zero stands alone. -/
def whole? (cs : List Char) : Option (List Char × List Char) :=
  match digits? cs with
  | some ('0' :: _ :: _, _) => none
  | other => other

/-- The digits after a point, if there is one. -/
def fraction? : List Char → Option (List Char × List Char)
  | '.' :: cs => digits? cs
  | cs => some ([], cs)

/-- The sign and the digits of an exponent, if there is one. -/
def exponent? : List Char → Option (Option (Bool × List Char) × List Char)
  | e :: cs =>
    if e == 'e' || e == 'E' then
      let (negative, cs) :=
        match cs with
        | '-' :: cs => (true, cs)
        | '+' :: cs => (false, cs)
        | cs => (false, cs)
      (digits? cs).map fun (digits, rest) => (some (negative, digits), rest)
    else some (none, e :: cs)
  | [] => some (none, [])

/-- A number at the front of a text, after its sign, and the rest. -/
def numeral? (negative : Bool) (cs : List Char) : Option (Numeral × List Char) := do
  let (whole, cs) ← whole? cs
  let (fraction, cs) ← fraction? cs
  let (exponent, cs) ← exponent? cs
  return (⟨negative, whole, fraction, exponent⟩, cs)

theorem length_of_fraction? {cs digits rest : List Char} (h : fraction? cs = some (digits, rest)) :
    rest.length ≤ cs.length := by
  unfold fraction? at h
  split at h
  · exact Nat.le_succ_of_le (Nat.le_of_lt (length_of_digits? h))
  · simp only [Option.some.injEq, Prod.mk.injEq] at h
    exact h.2 ▸ Nat.le_refl _

theorem length_of_exponent? {cs rest : List Char} {e : Option (Bool × List Char)}
    (h : exponent? cs = some (e, rest)) : rest.length ≤ cs.length := by
  unfold exponent? at h
  split at h
  · split at h
    · dsimp only at h
      simp only [Option.map_eq_some_iff, Prod.exists, Prod.mk.injEq] at h
      obtain ⟨_, left, found, _, rfl⟩ := h
      have := length_of_digits? found
      simp only [List.length_cons]
      split at this <;> simp_all <;> omega
    · simp only [Option.some.injEq, Prod.mk.injEq] at h
      exact h.2 ▸ Nat.le_refl _
  · simp only [Option.some.injEq, Prod.mk.injEq] at h
    exact h.2 ▸ Nat.le_refl _

theorem length_of_numeral? {negative : Bool} {cs rest : List Char} {n : Numeral}
    (h : numeral? negative cs = some (n, rest)) : rest.length < cs.length := by
  simp only [numeral?, bind, Option.bind_eq_some_iff, Prod.exists, pure, Option.some.injEq,
    Prod.mk.injEq] at h
  obtain ⟨_, afterWhole, whole, _, afterFraction, fraction, _, left, exponent, _, rfl⟩ := h
  have first : afterWhole.length < cs.length := by
    unfold whole? at whole
    split at whole
    · simp at whole
    · exact length_of_digits? whole
  have := length_of_fraction? fraction
  have := length_of_exponent? exponent
  omega

mutual

/-- A value at the front of a text, and the rest. -/
def value? (cs : List Char) : Option (Json × Left cs) :=
  match cs with
  | 'n' :: 'u' :: 'l' :: 'l' :: rest => some (null, ⟨rest, by grind⟩)
  | 't' :: 'r' :: 'u' :: 'e' :: rest => some (bool true, ⟨rest, by grind⟩)
  | 'f' :: 'a' :: 'l' :: 's' :: 'e' :: rest => some (bool false, ⟨rest, by grind⟩)
  | '"' :: cs =>
    match found : pieces? cs with
    | some (pieces, rest) =>
      some (string pieces, ⟨rest, Nat.lt_succ_of_lt (length_of_pieces? found)⟩)
    | none => none
  | '-' :: cs =>
    match found : numeral? true cs with
    | some (n, rest) => some (number n, ⟨rest, Nat.lt_succ_of_lt (length_of_numeral? found)⟩)
    | none => none
  | '[' :: cs =>
    match elements? true cs with
    | some (elements, ⟨rest, shorter⟩) => some (array elements, ⟨rest, Nat.lt_succ_of_lt shorter⟩)
    | none => none
  | '{' :: cs =>
    match fields? true cs with
    | some (fields, ⟨rest, shorter⟩) => some (object fields, ⟨rest, Nat.lt_succ_of_lt shorter⟩)
    | none => none
  | cs =>
    match found : numeral? false cs with
    | some (n, rest) => some (number n, ⟨rest, length_of_numeral? found⟩)
    | none => none
  termination_by (cs.length, 0)

/-- The elements of an array up to its closing bracket, and the text after it. Before every element
but the first there is a comma. -/
def elements? (first : Bool) (cs : List Char) : Option (List Json × Left cs) :=
  match start : skip cs with
  | ']' :: rest =>
    some ([], ⟨rest, by have := length_skip_le cs; rw [start] at this; exact this⟩)
  | c :: after =>
    let next := if first then c :: after else after
    if !first && c != ',' then none
    else
      match value? (skip next) with
      | none => none
      | some (x, ⟨rest, shorter⟩) =>
        have bound : rest.length < cs.length := by
          have := length_skip_le cs
          have := length_skip_le next
          have : next.length ≤ (c :: after).length := by grind
          rw [start] at *
          omega
        match elements? false rest with
        | none => none
        | some (elements, ⟨last, shorter⟩) => some (x :: elements, ⟨last, by omega⟩)
  | [] => none
  termination_by (cs.length, 1)
  decreasing_by
    · have := length_skip_le cs
      have := length_skip_le next
      have : next.length ≤ (c :: after).length := by grind
      rw [start] at *
      grind
    · grind

/-- The fields of an object up to its closing brace, and the text after it. Before every field but
the first there is a comma. -/
def fields? (first : Bool) (cs : List Char) :
    Option (List (List Piece × Json) × Left cs) :=
  match start : skip cs with
  | '}' :: rest =>
    some ([], ⟨rest, by have := length_skip_le cs; rw [start] at this; exact this⟩)
  | c :: after =>
    let next := if first then c :: after else after
    if !first && c != ',' then none
    else
      match quote : skip next with
      | '"' :: name =>
        match named : pieces? name with
        | none => none
        | some (name, afterName) =>
          match colon : skip afterName with
          | ':' :: afterColon =>
            have bound : (skip afterColon).length < cs.length := by
              have := length_skip_le cs
              have := length_skip_le next
              have : next.length ≤ (c :: after).length := by grind
              have := length_of_pieces? named
              have := length_skip_le afterName
              have := length_skip_le afterColon
              rw [start] at *
              rw [quote] at *
              rw [colon] at *
              simp only [List.length_cons] at *
              omega
            match value? (skip afterColon) with
            | none => none
            | some (x, ⟨rest, shorter⟩) =>
              have : rest.length < cs.length := Nat.lt_trans shorter bound
              match fields? false rest with
              | none => none
              | some (fields, ⟨last, shorter⟩) => some ((name, x) :: fields, ⟨last, by omega⟩)
          | _ => none
      | _ => none
  | [] => none
  termination_by (cs.length, 1)
  decreasing_by
    · grind
    · grind

end

/-- The value that a whole text is. -/
def read? (s : String) : Option Json :=
  match value? (skip s.toList) with
  | some (j, ⟨rest, _⟩) => if (skip rest).isEmpty then some j else none
  | none => none

end Tabletop.Json
