import Tabletop.Decimal.Reading
import Tabletop.Toml
import Tabletop.Toml.Token

/-!
# Numbers and dates of TOML

A number is a word, and where it has a point, a sign in its exponent or a time of day, the words
and signs that follow it. Digits may be separated by underscores. Of dates and times only the form
is looked at, and that loosely.
-/

namespace Tabletop.Toml

open Token (isWordChar)

/-- The value of a digit in a base of at most sixteen. -/
def digit? (base : Nat) (c : Char) : Option Nat := do
  let n ← Token.hexValue? [c]
  if n < base then some n else none

/-- Where the reading of digits stands. -/
structure Digits where
  /-- Whether nothing has been read yet. -/
  first : Bool := true
  /-- Whether the first digit was a zero. -/
  zero : Bool := false
  /-- Whether the last character was an underscore. -/
  underscore : Bool := false

/-- The digits of a number from the place where the reading stands, without underscores, and what
follows them. Underscores stand only between digits, and where zeros may not lead, a zero stands
alone. -/
def digitsFrom? (base : Nat) (zeros : Bool) (state : Digits) :
    List Char → Option (List Char × List Char)
  | [] => if state.first || state.underscore then none else some ([], [])
  | c :: cs =>
    if c = '0' ∧ state.first then
      (digitsFrom? base zeros ⟨false, true, state.underscore⟩ cs).map fun (ds, rest) => (c :: ds, rest)
    else if (digit? base c).isSome then
      if !state.first && state.zero && !zeros then none
      else
        (digitsFrom? base zeros ⟨false, state.zero, false⟩ cs).map fun (ds, rest) => (c :: ds, rest)
    else if c = '_' ∧ state.first then none
    else if c = '_' ∧ !state.underscore then digitsFrom? base zeros ⟨false, state.zero, true⟩ cs
    else if state.first || state.underscore then none
    else some ([], c :: cs)

/-- The digits at the front of a word, after a sign if there may be one. -/
def digits? (base : Nat) (sign zeros : Bool) (cs : List Char) : Option (List Char × List Char) :=
  match cs with
  | '-' :: cs =>
    if sign then (digitsFrom? base zeros {} cs).map fun (ds, rest) => ('-' :: ds, rest)
    else none
  | cs => digitsFrom? base zeros {} cs

/-- The integer that a whole word writes in a base. -/
def integer? (base : Nat) (cs : List Char) : Option Value := do
  let (digits, rest) ← digits? base (base = 10) (base ≠ 10) cs
  if !rest.isEmpty then none
  else
    let (negative, digits) :=
      match digits with
      | '-' :: digits => (true, digits)
      | digits => (false, digits)
    let n := digits.foldl (fun n c => n * base + ((digit? base c).getD 0)) 0
    let n ← Decimal.toInt64? (if negative then -(n : Int) else n)
    return .integer n

/-- The finite float that a text writes. -/
def finite? (cs : List Char) : Option Value := do
  let x ← Decimal.float? cs
  if x.isFinite then return .float x else none

/-- The exponent of a float, given what follows its other digits in their word and the tokens after
the word. A sign stands between two words. -/
def exponent? (suffix : List Char) (ts : List Token) : Option (List Char × List Token) :=
  match suffix with
  | [] => some ([], ts)
  | e :: suffix =>
    if e = 'e' ∨ e = 'E' then
      match suffix with
      | [] =>
        let ts :=
          match ts with
          | .plus :: ts => ts
          | ts => ts
        match ts with
        | .word cs :: ts =>
          match digits? 10 false true cs with
          | some (digits, []) => some ('e' :: digits, ts)
          | _ => none
        | _ => none
      | suffix =>
        match digits? 10 true true suffix with
        | some (digits, []) => some ('e' :: digits, ts)
        | _ => none
    else none

/-- The float whose first word is given, with the digits after the point if there are any. -/
def float? (cs : List Char) (fraction : Option (List Char)) (ts : List Token) :
    Option (Value × List Token) := do
  let (whole, suffix) ← digits? 10 true false cs
  match fraction with
  | none =>
    let (exponent, ts) ← exponent? suffix ts
    let x ← finite? (whole ++ exponent)
    return (x, ts)
  | some after =>
    if !suffix.isEmpty then none
    else
      let (fraction, suffix) ← digits? 10 false true after
      let (exponent, ts) ← exponent? suffix ts
      let x ← finite? (whole ++ '.' :: fraction ++ exponent)
      return (x, ts)

/-- The number whose first word is given, and the tokens after it. -/
def number? (cs : List Char) (ts : List Token) : Option (Value × List Token) :=
  match cs with
  | '0' :: 'x' :: digits => (integer? 16 digits).map (·, ts)
  | '0' :: 'o' :: digits => (integer? 8 digits).map (·, ts)
  | '0' :: 'b' :: digits => (integer? 2 digits).map (·, ts)
  | cs =>
    if 'e' ∈ cs ∨ 'E' ∈ cs then float? cs none ts
    else
      match ts with
      | .period :: .word after :: ts => float? cs (some after) ts
      | .period :: _ => none
      | ts =>
        if cs = ['i', 'n', 'f'] then some (.float Decimal.infinity, ts)
        else if cs = ['-', 'i', 'n', 'f'] then some (.float (-Decimal.infinity), ts)
        else if cs = ['n', 'a', 'n'] ∨ cs = ['-', 'n', 'a', 'n'] then
          some (.float Decimal.notANumber, ts)
        else (integer? 10 cs).map (·, ts)

/-- The tokens after a sign and a word, if they are there. -/
def afterSigned (sign : Token) : List Token → Option (List Token)
  | t :: ts =>
    if t = sign then
      match ts with
      | .word _ :: ts => some ts
      | _ => none
    else some (t :: ts)
  | [] => some []

/-- The tokens after the minutes and all that follows them in a time: seconds, a fraction of a
second and an offset. -/
def afterMinutes? : List Token → Option (List Token)
  | .word _ :: .colon :: .word _ :: ts => do
    let ts ← afterSigned .period ts
    let ts ← afterSigned .plus ts
    afterSigned .colon ts
  | _ => none

/-- The tokens after a date or time that begins with a word; whether a colon has been read after
it. Between a date and a time there may be a single blank. -/
def afterDate? (colon : Bool) (ts : List Token) : Option (List Token) :=
  let ts :=
    match ts with
    | .blank true :: .word _ :: ts => ts
    | ts => ts
  if colon then afterMinutes? ts
  else
    match ts with
    | .colon :: ts => afterMinutes? ts
    | ts => some ts

/-- Whether the mark of an exponent and a minus sign stand next to each other. -/
def hasNegativeExponent : List Char → Bool
  | c :: '-' :: cs => c == 'e' || c == 'E' || hasNegativeExponent ('-' :: cs)
  | _ :: cs => hasNegativeExponent cs
  | [] => false

/-- Whether a word can only be the beginning of a date. -/
def isDate (cs : List Char) : Bool :=
  'T' ∈ cs || 't' ∈ cs || ('-' ∈ cs.drop 1 && !hasNegativeExponent cs)

/-- The number, date or time that begins with a word, and the tokens after it. -/
def numberOrDate? (cs : List Char) (ts : List Token) : Option (Value × List Token) :=
  let date := Value.date (String.ofList cs)
  if isDate cs then (afterDate? false ts).map (date, ·)
  else
    match ts with
    | .colon :: ts => (afterDate? true ts).map (date, ·)
    | ts => number? cs ts

theorem length_of_exponent? {suffix digits : List Char} {ts rest : List Token}
    (h : exponent? suffix ts = some (digits, rest)) : rest.length ≤ ts.length := by
  unfold exponent? at h
  grind

theorem length_of_float? {cs : List Char} {fraction : Option (List Char)} {ts rest : List Token}
    {v : Value} (h : float? cs fraction ts = some (v, rest)) : rest.length ≤ ts.length := by
  simp only [float?, bind, Option.bind_eq_some_iff, Prod.exists] at h
  obtain ⟨whole, suffix, _, h⟩ := h
  split at h
  · simp only [Option.bind_eq_some_iff, Prod.exists, pure, Option.some.injEq, Prod.mk.injEq] at h
    obtain ⟨_, left, found, _, _, _, rfl⟩ := h
    exact length_of_exponent? found
  · split at h
    · simp at h
    · simp only [Option.bind_eq_some_iff, Prod.exists, pure, Option.some.injEq, Prod.mk.injEq] at h
      obtain ⟨_, _, _, _, left, found, _, _, _, rfl⟩ := h
      exact length_of_exponent? found

theorem length_of_number? {cs : List Char} {ts rest : List Token} {v : Value}
    (h : number? cs ts = some (v, rest)) : rest.length ≤ ts.length := by
  unfold number? at h
  split at h
  · obtain ⟨_, _, e⟩ := Option.map_eq_some_iff.1 h
    simp_all
  · obtain ⟨_, _, e⟩ := Option.map_eq_some_iff.1 h
    simp_all
  · obtain ⟨_, _, e⟩ := Option.map_eq_some_iff.1 h
    simp_all
  · split at h
    · exact length_of_float? h
    · split at h
      · have := length_of_float? h
        simp only [List.length_cons]
        omega
      · simp at h
      · split at h
        · simp_all
        · split at h
          · simp_all
          · split at h
            · simp_all
            · obtain ⟨_, _, e⟩ := Option.map_eq_some_iff.1 h
              simp_all

theorem length_of_afterSigned {sign : Token} {ts rest : List Token}
    (h : afterSigned sign ts = some rest) : rest.length ≤ ts.length := by
  unfold afterSigned at h
  grind

theorem length_of_afterMinutes? {ts rest : List Token} (h : afterMinutes? ts = some rest) :
    rest.length ≤ ts.length := by
  unfold afterMinutes? at h
  split at h
  · simp only [bind, Option.bind_eq_some_iff] at h
    obtain ⟨_, first, _, second, third⟩ := h
    have := length_of_afterSigned first
    have := length_of_afterSigned second
    have := length_of_afterSigned third
    simp only [List.length_cons]
    omega
  · simp at h

theorem length_of_afterDate? {colon : Bool} {ts rest : List Token}
    (h : afterDate? colon ts = some rest) : rest.length ≤ ts.length := by
  unfold afterDate? at h
  grind [→ length_of_afterMinutes?]

theorem length_of_numberOrDate? {cs : List Char} {ts rest : List Token} {v : Value}
    (h : numberOrDate? cs ts = some (v, rest)) : rest.length ≤ ts.length := by
  unfold numberOrDate? at h
  dsimp only at h
  split at h
  · obtain ⟨_, found, e⟩ := Option.map_eq_some_iff.1 h
    have := length_of_afterDate? found
    simp_all
  · split at h
    · obtain ⟨_, found, e⟩ := Option.map_eq_some_iff.1 h
      have := length_of_afterDate? found
      simp only [List.length_cons]
      simp_all
      omega
    · exact length_of_number? h

end Tabletop.Toml
