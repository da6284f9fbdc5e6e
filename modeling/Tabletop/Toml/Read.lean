import Tabletop.Toml.Number

/-!
# Reading TOML

The tokens of a text are read as pairs and headers. Every reader returns the tokens it has left,
which are fewer than it was given; that is why the reading ends.
-/

namespace Tabletop.Toml

/-- The tokens left after something has been read. -/
abbrev Left (ts : List Token) :=
  { rest : List Token // rest.length < ts.length }

/-- Whether a token is blank space within a line. -/
def isBlank : Token → Bool
  | .blank _ => true
  | _ => false

/-- Whether a token may stand between the elements of an array. A comment has its line end after
it. -/
def isGap : Token → Bool
  | .blank _ | .newline | .comment => true
  | _ => false

/-- The tokens from the first that is not blank on. -/
def skip (ts : List Token) : List Token :=
  ts.dropWhile isBlank

theorem length_skip_le (ts : List Token) : (skip ts).length ≤ ts.length :=
  (List.dropWhile_suffix _).length_le

/-- The tokens from the first that is not blank, a comment or a line end on. -/
def skipGaps (ts : List Token) : List Token :=
  ts.dropWhile isGap

theorem length_skipGaps_le (ts : List Token) : (skipGaps ts).length ≤ ts.length :=
  (List.dropWhile_suffix _).length_le

/-- A part of a key: a word, or a string on one line. -/
def key? : List Token → Option (String × List Token)
  | .word cs :: ts => some (String.ofList cs, ts)
  | .string cs multiline joined :: ts =>
    if multiline || joined then none else some (String.ofList cs, ts)
  | _ => none

theorem length_of_key? {ts rest : List Token} {key : String} (h : key? ts = some (key, rest)) :
    rest.length < ts.length := by
  unfold key? at h
  grind

/-- The parts of a key after the first, each after a point. -/
def moreKeys? (ts : List Token) : Option (List String × List Token) :=
  match _start : skip ts with
  | .period :: after =>
    match _found : key? (skip after) with
    | none => none
    | some (key, rest) => (moreKeys? rest).map fun (keys, rest) => (key :: keys, rest)
  | rest => some ([], rest)
  termination_by ts.length
  decreasing_by
    have := length_skip_le ts
    have := length_skip_le after
    have := length_of_key? _found
    grind

theorem length_of_moreKeys? {ts rest : List Token} {keys : List String}
    (h : moreKeys? ts = some (keys, rest)) : rest.length ≤ ts.length := by
  fun_induction moreKeys? ts generalizing keys rest with
  | case1 => simp at h
  | case2 ts after start key left found ih =>
    obtain ⟨⟨_, _⟩, more, e⟩ := Option.map_eq_some_iff.1 h
    simp only [Prod.mk.injEq] at e
    have := ih more
    have := length_skip_le ts
    have := length_skip_le after
    have := length_of_key? found
    rw [start, List.length_cons] at *
    rw [← e.2]
    omega
  | case3 ts =>
    simp only [Option.some.injEq, Prod.mk.injEq] at h
    exact h.2 ▸ length_skip_le ts

/-- A key: its first part, its other parts, and the tokens after it and the blanks that follow. -/
def keys? (ts : List Token) : Option (String × List String × List Token) :=
  match key? ts with
  | none => none
  | some (key, rest) => (moreKeys? rest).map fun (keys, rest) => (key, keys, rest)

theorem length_of_keys? {ts rest : List Token} {key : String} {keys : List String}
    (h : keys? ts = some (key, keys, rest)) : rest.length < ts.length := by
  unfold keys? at h
  split at h
  · simp at h
  · next found =>
    obtain ⟨⟨_, _⟩, more, e⟩ := Option.map_eq_some_iff.1 h
    simp only [Prod.mk.injEq] at e
    have := length_of_key? found
    have := length_of_moreKeys? more
    rw [← e.2.2]
    omega

mutual

/-- A value at the front of the tokens, and what is left. -/
def value? (ts : List Token) : Option (Value × Left ts) :=
  match ts with
  | .string cs _ _ :: rest => some (.text (String.ofList cs), ⟨rest, by simp⟩)
  | .word cs :: rest =>
    if cs = "true".toList then some (.boolean true, ⟨rest, by simp⟩)
    else if cs = "false".toList then some (.boolean false, ⟨rest, by simp⟩)
    else if cs = "inf".toList ∨ cs = "nan".toList ∨ cs.head?.any (fun c => c == '-' || c.isDigit) then
      match found : numberOrDate? cs rest with
      | some (v, last) => some (v, ⟨last, Nat.lt_succ_of_le (length_of_numberOrDate? found)⟩)
      | none => none
    else none
  | .plus :: .word cs :: rest =>
    match found : number? cs rest with
    | some (v, last) =>
      some (v, ⟨last, Nat.lt_succ_of_le (Nat.le_succ_of_le (length_of_number? found))⟩)
    | none => none
  | .leftBrace :: rest =>
    match skip rest, length_skip_le rest with
    | .rightBrace :: last, le => some (.inline [], ⟨last, Nat.lt_succ_of_lt le⟩)
    | next, le =>
      match pairs? [] next with
      | some (pairs, ⟨last, shorter⟩) =>
        some (.inline pairs, ⟨last, Nat.lt_succ_of_lt (Nat.lt_of_lt_of_le shorter le)⟩)
      | none => none
  | .leftBracket :: rest =>
    match elements? rest with
    | some (elements, ⟨last, shorter⟩) => some (.array elements, ⟨last, Nat.lt_succ_of_lt shorter⟩)
    | none => none
  | _ => none
  termination_by (ts.length, 0)
  decreasing_by
    · simp only [List.length_cons]
      grind
    · grind

/-- The pairs of a table in braces up to the closing brace, after those read before. -/
def pairs? (before : List (String × Value)) (ts : List Token) :
    Option (List (String × Value) × Left ts) :=
  match found : keys? ts with
  | some (key, inner, .equals :: afterSign) =>
    have shorter : (skip afterSign).length < ts.length := by
      have := length_of_keys? found
      have := length_skip_le afterSign
      simp only [List.length_cons] at *
      omega
    match value? (skip afterSign) with
    | none => none
    | some (v, ⟨rest, fewer⟩) =>
      match addPair before key inner v with
      | none => none
      | some pairs =>
        match next : skip rest with
        | .rightBrace :: last =>
          some (pairs, ⟨last, by
            have := length_skip_le rest
            rw [next, List.length_cons] at this
            omega⟩)
        | .comma :: afterComma =>
          have bound : (skip afterComma).length < ts.length := by
            have := length_skip_le rest
            have := length_skip_le afterComma
            rw [next, List.length_cons] at *
            omega
          match pairs? pairs (skip afterComma) with
          | none => none
          | some (pairs, ⟨last, fewer⟩) => some (pairs, ⟨last, Nat.lt_trans fewer bound⟩)
        | _ => none
  | _ => none
  termination_by (ts.length, 0)
  decreasing_by
    · grind
    · grind

/-- The elements of an array up to the closing bracket. A comma may stand after the last one. -/
def elements? (ts : List Token) : Option (List Value × Left ts) :=
  match start : skipGaps ts with
  | .rightBracket :: last =>
    some ([], ⟨last, by
      have := length_skipGaps_le ts
      rw [start] at this
      exact this⟩)
  | next =>
    match value? next with
    | none => none
    | some (v, ⟨rest, fewer⟩) =>
      have shorter : rest.length < ts.length := by
        have := length_skipGaps_le ts
        rw [start] at this
        omega
      match after : skipGaps rest with
      | .rightBracket :: last =>
        some ([v], ⟨last, by
          have := length_skipGaps_le rest
          rw [after, List.length_cons] at this
          omega⟩)
      | .comma :: afterComma =>
        have bound : afterComma.length < ts.length := by
          have := length_skipGaps_le rest
          rw [after, List.length_cons] at this
          omega
        match elements? afterComma with
        | none => none
        | some (elements, ⟨last, fewer⟩) => some (v :: elements, ⟨last, Nat.lt_trans fewer bound⟩)
      | _ => none
  termination_by (ts.length, 1)
  decreasing_by
    · have := length_skipGaps_le ts
      rw [start] at this
      grind
    · grind

end

/-- The tokens of the next line, if the line ends here, at most after a comment. -/
def lineEnd? (ts : List Token) : Option (List Token) :=
  match skip ts with
  | [] => some []
  | .newline :: rest => some rest
  | .comment :: .newline :: rest => some rest
  | [.comment] => some []
  | _ => none

theorem length_of_lineEnd? {ts rest : List Token} (h : lineEnd? ts = some rest) :
    rest.length ≤ ts.length := by
  have := length_skip_le ts
  unfold lineEnd? at h
  grind

/-- A line of a document that is not empty. -/
inductive Line where
  | pair (key : String) (inner : List String) (value : Value)
  | header (keys : List String) (element : Bool)

/-- The line at the front of the tokens, which do not begin with a blank line, and what is left. -/
def line? (ts : List Token) : Option (Line × List Token) :=
  match ts with
  | .leftBracket :: rest =>
    let (element, rest) :=
      match rest with
      | .leftBracket :: rest => (true, rest)
      | rest => (false, rest)
    match keys? (skip rest) with
    | some (key, inner, .rightBracket :: rest) =>
      let closed :=
        match element, rest with
        | true, .rightBracket :: rest => some rest
        | true, _ => none
        | false, rest => some rest
      match closed.bind lineEnd? with
      | some rest => some (.header (key :: inner) element, rest)
      | none => none
    | _ => none
  | ts =>
    match keys? ts with
    | some (key, inner, .equals :: afterSign) =>
      match value? (skip afterSign) with
      | some (v, ⟨rest, _⟩) => (lineEnd? rest).map fun rest => (.pair key inner v, rest)
      | none => none
    | _ => none

theorem length_of_line? {ts rest : List Token} {l : Line} (h : line? ts = some (l, rest)) :
    rest.length < ts.length := by
  unfold line? at h
  split at h
  · next after =>
    dsimp only at h
    split at h
    · next found =>
      have keys := length_of_keys? found
      have := length_skip_le after
      split at h
      · next closed =>
        obtain ⟨_, close, ended⟩ := Option.bind_eq_some_iff.1 closed
        have := length_of_lineEnd? ended
        simp only [List.length_cons] at *
        grind [length_skip_le]
      · simp at h
    · simp at h
  · split at h
    · next afterSign found =>
      have := length_of_keys? found
      have := length_skip_le afterSign
      split at h
      · next fewer _ =>
        obtain ⟨_, ended, e⟩ := Option.map_eq_some_iff.1 h
        have := length_of_lineEnd? ended
        simp only [Prod.mk.injEq] at e
        simp only [List.length_cons] at *
        rw [← e.2]
        omega
      · simp at h
    · simp at h

/-- The lines of a document, empty ones left out. -/
def lines? (ts : List Token) : Option (List Line) :=
  match _start : skipGaps ts with
  | [] => some []
  | next =>
    match _found : line? next with
    | none => none
    | some (l, rest) => (lines? rest).map (l :: ·)
  termination_by ts.length
  decreasing_by
    have := length_skipGaps_le ts
    have := length_of_line? _found
    grind

/-- The tables of the lines, after those in `done`, given in reverse, and the one that is being
read. The pairs before the first header make a table only if there are any. -/
def blocksFrom? (done : List Block) (current : Block) : List Line → Option (List Block)
  | [] => some (finish done current).reverse
  | .header keys element :: lines => blocksFrom? (finish done current) ⟨keys, element, []⟩ lines
  | .pair key inner value :: lines => do
    let pairs ← addPair current.pairs key inner value
    blocksFrom? done { current with pairs } lines
where
  /-- The tables with the last one. -/
  finish (done : List Block) (last : Block) : List Block :=
    if last.header.isEmpty && last.pairs.isEmpty then done else last :: done

/-- The tables of a text. -/
def read? (s : String) : Option (List Block) := do
  let ts ← Token.ofText? s
  let lines ← lines? ts
  blocksFrom? [] ⟨[], false, []⟩ lines

end Tabletop.Toml
