/-!
# Tokens of TOML

A text is cut into signs, words, strings, blanks and line ends. Comments are taken away here: what
follows a comment is the end of its line.
-/

namespace Tabletop.Toml

/-- A token. -/
inductive Token where
  | newline
  /-- Blanks and tabs; whether it is a single blank. -/
  | blank (single : Bool)
  | comment
  | equals
  | period
  | comma
  | colon
  | plus
  | leftBrace
  | rightBrace
  | leftBracket
  | rightBracket
  /-- A run of ASCII letters, digits, underscores and hyphens. -/
  | word (cs : List Char)
  /-- A string: its text, whether it has triple quotes, and whether a line ends inside of it
  although it has not. -/
  | string (cs : List Char) (multiline joined : Bool)
  deriving DecidableEq, Repr

namespace Token

/-- The text with each line end a single line feed. -/
def foldLineEnds : List Char → List Char
  | '\r' :: '\n' :: cs => '\n' :: foldLineEnds cs
  | c :: cs => c :: foldLineEnds cs
  | [] => []

/-- Whether a character may stand in a word. -/
def isWordChar (c : Char) : Bool :=
  c.isAlphanum || c == '-' || c == '_'

/-- Whether a character may stand in a string as it is. -/
def isTextChar (c : Char) : Bool :=
  c == '\t' || (0x20 ≤ c.toNat && c.toNat != 0x7F)

/-- Whether a character may stand in a comment. -/
def isCommentChar (c : Char) : Bool :=
  c == '\t' || 0x20 ≤ c.toNat

/-- The value of hexadecimal digits. -/
def hexValue? (digits : List Char) : Option Nat :=
  digits.foldlM (fun n c =>
    if '0' ≤ c ∧ c ≤ '9' then some (n * 16 + (c.toNat - '0'.toNat))
    else if 'a' ≤ c ∧ c ≤ 'f' then some (n * 16 + (c.toNat - 'a'.toNat + 10))
    else if 'A' ≤ c ∧ c ≤ 'F' then some (n * 16 + (c.toNat - 'A'.toNat + 10))
    else none) 0

/-- The character with the number that hexadecimal digits write. -/
def hexChar? (digits : List Char) : Option Char := do
  let n ← hexValue? digits
  if n < 0xD800 ∨ (0xDFFF < n ∧ n < 0x110000) then some (Char.ofNat n) else none

/-- The character that a backslash and a letter write. -/
def escape? : Char → Option Char
  | '"' => some '"'
  | '\\' => some '\\'
  | 'b' => some '\x08'
  | 'f' => some '\x0c'
  | 'n' => some '\n'
  | 'r' => some '\r'
  | 't' => some '\t'
  | _ => none

/-- What a string is read as: its text, whether lines were joined in it, and the text after it. -/
structure Scanned where
  text : List Char
  joined : Bool
  rest : List Char

/-- Puts a character before the text of a string. -/
def Scanned.push (c : Char) (s : Scanned) : Scanned :=
  { s with text := c :: s.text }

/-- The end of a string in triple quotes at one of its quotes, given the text after it: two more
have to follow, and up to two further ones belong to the string. -/
def triple? (quote : Char) (cs : List Char) : Option Scanned :=
  let quotes := (cs.takeWhile (· == quote)).length
  if quotes < 2 then none
  else
    let inside := min (quotes - 2) 2
    some ⟨List.replicate inside quote, false, cs.drop (2 + inside)⟩

/-- Where the reading of a string in double quotes stands with joining lines. -/
inductive Joining where
  /-- Not at it. -/
  | no
  /-- After a backslash and a blank: only blanks may follow before the line end. -/
  | pending
  /-- After the line end: white space is left out. -/
  | skipping
  deriving DecidableEq

/-- The string up to its closing double quotes, one or three. A backslash at the end of a line
joins it with the next. -/
def basic? (multiline : Bool) : Joining → List Char → Option Scanned
  | _, [] => none
  | .pending, c :: cs =>
    if c = ' ' ∨ c = '\t' then basic? multiline .pending cs
    else if c = '\n' then (basic? multiline .skipping cs).map ({ · with joined := true })
    else none
  | _, '"' :: cs =>
    if multiline then
      match triple? '"' cs with
      | some s => some s
      | none => (basic? multiline .no cs).map (Scanned.push '"')
    else some ⟨[], false, cs⟩
  | _, '\\' :: 'u' :: a :: b :: c :: d :: cs => do
    let x ← hexChar? [a, b, c, d]
    let s ← basic? multiline .no cs
    return s.push x
  | _, '\\' :: 'U' :: a :: b :: c :: d :: e :: f :: g :: h :: cs => do
    let x ← hexChar? [a, b, c, d, e, f, g, h]
    let s ← basic? multiline .no cs
    return s.push x
  | _, '\\' :: c :: cs =>
    if c = ' ' ∨ c = '\t' then basic? multiline .pending cs
    else if c = '\n' ∧ multiline then (basic? multiline .skipping cs).map ({ · with joined := true })
    else
      match escape? c with
      | some x => (basic? multiline .no cs).map (Scanned.push x)
      | none => none
  | joining, c :: cs =>
    if joining = .skipping ∧ (c = ' ' ∨ c = '\t' ∨ c = '\n') then basic? multiline .skipping cs
    else if c = '\n' then
      if multiline then (basic? multiline .no cs).map (Scanned.push '\n') else none
    else if isTextChar c ∧ c ≠ '\\' then (basic? multiline .no cs).map (Scanned.push c)
    else none

/-- The string up to its closing single quotes, one or three. -/
def literal? (multiline : Bool) : List Char → Option Scanned
  | [] => none
  | '\'' :: cs =>
    if multiline then
      match triple? '\'' cs with
      | some s => some s
      | none => (literal? multiline cs).map (Scanned.push '\'')
    else some ⟨[], false, cs⟩
  | c :: cs =>
    if c = '\n' then
      if multiline then (literal? multiline cs).map (Scanned.push '\n') else none
    else if isTextChar c then (literal? multiline cs).map (Scanned.push c)
    else none

/-- A text without the line end at its front: it does not count after opening triple quotes. -/
def withoutNewline : List Char → List Char
  | '\n' :: cs => cs
  | cs => cs

/-- The token at the front of a text, and the rest. -/
def first? : List Char → Option (Token × List Char)
  | [] => none
  | '\n' :: cs => some (newline, cs)
  | '#' :: cs => some (comment, cs.dropWhile isCommentChar)
  | '=' :: cs => some (equals, cs)
  | '.' :: cs => some (period, cs)
  | ',' :: cs => some (comma, cs)
  | ':' :: cs => some (colon, cs)
  | '+' :: cs => some (plus, cs)
  | '{' :: cs => some (leftBrace, cs)
  | '}' :: cs => some (rightBrace, cs)
  | '[' :: cs => some (leftBracket, cs)
  | ']' :: cs => some (rightBracket, cs)
  | '"' :: '"' :: '"' :: cs =>
    (basic? true .no (withoutNewline cs)).map fun s => (string s.text true s.joined, s.rest)
  | '"' :: cs => (basic? false .no cs).map fun s => (string s.text false s.joined, s.rest)
  | '\'' :: '\'' :: '\'' :: cs =>
    (literal? true (withoutNewline cs)).map fun s => (string s.text true s.joined, s.rest)
  | '\'' :: cs => (literal? false cs).map fun s => (string s.text false s.joined, s.rest)
  | c :: cs =>
    if c = ' ' ∨ c = '\t' then
      let more := cs.takeWhile fun c => c = ' ' ∨ c = '\t'
      some (blank (c = ' ' ∧ more.isEmpty), cs.dropWhile fun c => c = ' ' ∨ c = '\t')
    else if isWordChar c then some (word (c :: cs.takeWhile isWordChar), cs.dropWhile isWordChar)
    else none

theorem length_of_triple? {quote : Char} {cs : List Char} {s : Scanned}
    (h : triple? quote cs = some s) : s.rest.length ≤ cs.length := by
  unfold triple? at h
  dsimp only at h
  split at h
  · simp at h
  · simp only [← Option.some.inj h, List.length_drop]
    omega

theorem length_of_basic? {multiline : Bool} {joining : Joining} {cs : List Char} {s : Scanned}
    (h : basic? multiline joining cs = some s) : s.rest.length ≤ cs.length := by
  fun_induction basic? multiline joining cs generalizing s <;>
    simp_all [Option.map_eq_some_iff, Option.bind_eq_some_iff, Scanned.push] <;> grind [→ length_of_triple?]

theorem length_of_literal? {multiline : Bool} {cs : List Char} {s : Scanned}
    (h : literal? multiline cs = some s) : s.rest.length ≤ cs.length := by
  fun_induction literal? multiline cs generalizing s <;>
    simp_all [Option.map_eq_some_iff, Scanned.push] <;> grind [→ length_of_triple?]

theorem length_withoutNewline_le (cs : List Char) : (withoutNewline cs).length ≤ cs.length := by
  unfold withoutNewline
  split <;> simp

theorem length_of_first? {cs rest : List Char} {t : Token} (h : first? cs = some (t, rest)) :
    rest.length < cs.length := by
  have drop (p : Char → Bool) (l : List Char) : (l.dropWhile p).length ≤ l.length :=
    (List.dropWhile_suffix p).length_le
  unfold first? at h
  split at h
  case h_1 => simp at h
  case h_13 cs =>
    obtain ⟨s, found, e⟩ := Option.map_eq_some_iff.1 h
    have := length_of_basic? found
    have := length_withoutNewline_le cs
    simp only [Prod.mk.injEq] at e
    simp only [← e.2, List.length_cons]
    omega
  case h_14 cs _ =>
    obtain ⟨s, found, e⟩ := Option.map_eq_some_iff.1 h
    have := length_of_basic? found
    simp only [Prod.mk.injEq] at e
    simp only [← e.2, List.length_cons]
    omega
  case h_15 cs =>
    obtain ⟨s, found, e⟩ := Option.map_eq_some_iff.1 h
    have := length_of_literal? found
    have := length_withoutNewline_le cs
    simp only [Prod.mk.injEq] at e
    simp only [← e.2, List.length_cons]
    omega
  case h_16 cs _ =>
    obtain ⟨s, found, e⟩ := Option.map_eq_some_iff.1 h
    have := length_of_literal? found
    simp only [Prod.mk.injEq] at e
    simp only [← e.2, List.length_cons]
    omega
  all_goals grind

/-- The tokens of a text with folded line ends. -/
def scan? (cs : List Char) : Option (List Token) :=
  if cs.isEmpty then some []
  else
    match _found : first? cs with
    | none => none
    | some (t, rest) => (scan? rest).map (t :: ·)
  termination_by cs.length
  decreasing_by exact length_of_first? _found

/-- The tokens of a text. A mark of the byte order may stand before it. -/
def ofText? (s : String) : Option (List Token) :=
  let cs :=
    match s.toList with
    | '\uFEFF' :: cs => cs
    | cs => cs
  scan? (foldLineEnds cs)

end Token

end Tabletop.Toml
