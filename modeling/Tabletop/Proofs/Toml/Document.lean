import Mathlib.Data.List.Forall2
import Tabletop.Proofs.Toml.Token
import Tabletop.Toml.Read

/-!
# Documents of keys and values

The writer puts every key with its value on a line, and lines below headers.  What is read of such a
document is put together from what is read of its lines: a text `Reads` as certain lines if it does
so whatever follows, and then two texts after one another read as the lines of both.

* `WrittenAs` — a value in its written form, and `front?_toDigits` for the numbers among them;
* `reads_line`, `reads_header`, `Reads.append` — lines, and texts of several lines;
* `read?_of_reads`, `blocksFrom?_pairs` — the tables of a text whose lines are known.

Every natural number can be written, but integers are read only up to 64 bits.  A line with a
greater number spoils the whole document, so that a text reads as an option of lines.

The reader goes from characters to tokens, from tokens to lines, and from lines to tables.  At the
first two steps it looks ahead: a word ends where a character cannot belong to it, and a value where
the line does.  What is said of a line is therefore said with the line end behind it, which is
always written, and then nothing further on matters.
-/

namespace Tabletop.Toml

/-! ## Integers

The digits of an integer pass through three readers: one for the digits, one that asks which base
they are in and whether a word stands there, and one that asks for dates. -/

/-- A digit has its value in base ten.  The reader goes through the value of a hexadecimal digit,
which serves all bases, and asks afterwards whether it is less than the base. -/
theorem digit?_of_isDigit {c : Char} (digit : c.isDigit = true) :
    digit? 10 c = some (c.toNat - '0'.toNat) := by
  obtain ⟨low, high⟩ := Char.isDigit_iff_toNat.1 digit
  have between : '0' ≤ c ∧ c ≤ '9' := ⟨low, high⟩
  have value : Token.hexValue? [c] = some (0 * 16 + (c.toNat - '0'.toNat)) := by
    simp [Token.hexValue?, between]
  have small : c.toNat - '0'.toNat < 10 := by
    have : c.toNat ≤ '9'.toNat := high
    have : '9'.toNat = '0'.toNat + 9 := rfl
    omega
  rw [digit?, value]
  simp only [Option.bind_eq_bind, Option.bind_some, Nat.zero_mul, Nat.zero_add, if_pos small]

/-- All digits are read after one that is not zero. -/
theorem digitsFrom?_of_isDigit {digits : List Char} (are : ∀ c ∈ digits, c.isDigit = true) :
    digitsFrom? 10 false ⟨false, false, false⟩ digits = some (digits, []) := by
  induction digits with
  | nil => rfl
  | cons c digits ih =>
    obtain ⟨first, others⟩ := List.forall_mem_cons.1 are
    rw [digitsFrom?, if_neg (by simp), digit?_of_isDigit first, if_pos (by rfl),
      if_neg (by simp), ih others]
    rfl

/-- The digits of a number are read: the first is a zero only if it is alone.  This is what the
reader asks for: a zero in front of other digits would be an error, since such numbers are kept for
other bases. -/
theorem digitsFrom?_toDigits (n : Nat) :
    digitsFrom? 10 false {} (Nat.toDigits 10 n) = some (Nat.toDigits 10 n, []) := by
  obtain rfl | positive := Nat.eq_zero_or_pos n
  · rfl
  · obtain ⟨c, digits, eq⟩ := List.exists_cons_of_ne_nil (Nat.toDigits_ne_nil (b := 10) (n := n))
    obtain ⟨first, others⟩ := List.forall_mem_cons.1 (eq ▸ Decimal.isDigit_toDigits (n := n))
    have zero : c ≠ '0' := by
      rintro rfl
      exact Decimal.head?_toDigits (Nat.ne_of_gt positive) (by rw [eq]; rfl)
    rw [eq, digitsFrom?, if_neg (by simp [zero]), digit?_of_isDigit first, if_pos (by rfl),
      if_neg (by simp), digitsFrom?_of_isDigit others]
    rfl

/-- The digits of a number have its value, as the reader sums it up: digit by digit, from the front.
-/
theorem foldl_toDigits (n : Nat) :
    (Nat.toDigits 10 n).foldl (fun n c => n * 10 + (digit? 10 c).getD 0) 0 = n := by
  have same (digits : List Char) (are : ∀ c ∈ digits, c.isDigit = true) (m : Nat) :
      digits.foldl (fun n c => n * 10 + (digit? 10 c).getD 0) m = Nat.ofDigitChars 10 digits m := by
    induction digits generalizing m with
    | nil => rfl
    | cons c digits ih =>
      obtain ⟨first, others⟩ := List.forall_mem_cons.1 are
      rw [List.foldl_cons, ih others, digit?_of_isDigit first, Nat.ofDigitChars_cons, Nat.mul_comm]
      rfl
  rw [same _ Decimal.isDigit_toDigits, Nat.ofDigitChars_toDigits (by decide) (by decide)]

/-- A number does not begin with a sign. -/
theorem toDigits_ne_minus (n : Nat) (cs : List Char) : Nat.toDigits 10 n ≠ '-' :: cs := by
  intro same
  have : '-' ∈ Nat.toDigits 10 n := by rw [same]; exact .head _
  exact nomatch Decimal.isDigit_toDigits _ this

/-- The digits of a number are an integer if it fits a word, and otherwise nothing at all: no number
goes on as a float. -/
theorem integer?_toDigits (n : Nat) :
    integer? 10 (Nat.toDigits 10 n) = (Decimal.toInt64? n).map .integer := by
  have digits : digits? 10 true false (Nat.toDigits 10 n) = some (Nat.toDigits 10 n, []) := by
    unfold digits?
    split
    · next minus => exact absurd minus (toDigits_ne_minus n _)
    · exact digitsFrom?_toDigits n
  have value := foldl_toDigits n
  obtain ⟨c, cs, eq⟩ := List.exists_cons_of_ne_nil (Nat.toDigits_ne_nil (b := 10) (n := n))
  have plain : c ≠ '-' := by
    rintro rfl
    exact toDigits_ne_minus n cs eq
  rw [eq] at digits value ⊢
  cases fits : Decimal.toInt64? n <;>
    simp [integer?, digits, plain, value, fits, -List.foldl_cons]

/-- A number is no word for infinity and the like. -/
theorem toDigits_ne_of_mem {n : Nat} {cs : List Char} {c : Char} (mem : c ∈ cs)
    (letter : c.isDigit = false) : Nat.toDigits 10 n ≠ cs := by
  rintro rfl
  exact Bool.false_ne_true (letter.symm.trans (Decimal.isDigit_toDigits c mem))

theorem not_mem_toDigits {n : Nat} {c : Char} (letter : c.isDigit = false) :
    c ∉ Nat.toDigits 10 n :=
  fun mem => toDigits_ne_of_mem mem letter rfl

/-- A number at the end of a line is an integer, not a float or a word.  What might make it a float
is a fraction behind a point, and this is a token of its own; so the next token matters, and it is
known at the end of a line. -/
theorem number?_toDigits (n : Nat) (ts : List Token) :
    number? (Nat.toDigits 10 n) (.newline :: ts) =
      (Decimal.toInt64? n).map fun i => (.integer i, .newline :: ts) := by
  have second {c d : Char} {cs : List Char} (eq : Nat.toDigits 10 n = d :: c :: cs) :
      c.isDigit = true :=
    Decimal.isDigit_toDigits c (by rw [eq]; simp)
  -- The reader asks first for the other bases, which have a letter as their second character.
  unfold number?
  split
  · next eq => exact nomatch second eq
  · next eq => exact nomatch second eq
  · next eq => exact nomatch second eq
  · rw [if_neg (not_or.2 ⟨not_mem_toDigits rfl, not_mem_toDigits rfl⟩)]
    dsimp only
    rw [if_neg (toDigits_ne_of_mem (.head _) rfl), if_neg (toDigits_ne_of_mem (.head _) rfl),
      if_neg (not_or.2 ⟨toDigits_ne_of_mem (.head _) rfl, toDigits_ne_of_mem (.head _) rfl⟩),
      integer?_toDigits]
    cases Decimal.toInt64? n <;> rfl

/-- Nor is it a date, which would have a sign or a colon in it. -/
theorem numberOrDate?_toDigits (n : Nat) (ts : List Token) :
    numberOrDate? (Nat.toDigits 10 n) (.newline :: ts) =
      (Decimal.toInt64? n).map fun i => (.integer i, .newline :: ts) := by
  have noDate : isDate (Nat.toDigits 10 n) = false := by
    have inner : '-' ∉ (Nat.toDigits 10 n).tail := fun mem =>
      not_mem_toDigits rfl (List.mem_of_mem_tail mem)
    simp [isDate, inner, not_mem_toDigits]
  unfold numberOrDate?
  rw [noDate, if_neg Bool.false_ne_true]
  exact number?_toDigits n ts

/-! ## Values

A value is read from the tokens at the front. -/

/-- What is read at the front of the tokens, and what is left.  The value reader comes with a proof
that less is left, which no equation about what it reads can carry along. -/
def front? (ts : List Token) : Option (Value × List Token) :=
  (value? ts).map fun (v, left) => (v, left.1)

theorem front?_string (cs : List Char) (ts : List Token) :
    front? (.string cs false false :: ts) = some (.text (String.ofList cs), ts) := by
  rw [front?, value?]
  rfl

theorem front?_boolean (b : Bool) (ts : List Token) :
    front? (.word (toString b).toList :: ts) = some (.boolean b, ts) := by
  cases b <;> rw [front?, value?] <;> rfl

/-- A number that fits is an integer; one that does not fit is no value, and the line is lost. -/
theorem front?_toDigits (n : Nat) (ts : List Token) :
    front? (.word (Nat.toDigits 10 n) :: .newline :: ts) =
      (Decimal.toInt64? n).map fun i => (.integer i, .newline :: ts) := by
  have starts : (Nat.toDigits 10 n).head?.any (fun c => c == '-' || c.isDigit) = true := by
    obtain ⟨c, cs, eq⟩ := List.exists_cons_of_ne_nil (Nat.toDigits_ne_nil (b := 10) (n := n))
    have first : c.isDigit = true := Decimal.isDigit_toDigits (n := n) c (by rw [eq]; exact .head _)
    simp [eq, first]
  have yes : Nat.toDigits 10 n ≠ "true".toList := toDigits_ne_of_mem (c := 't') (by decide) rfl
  have no : Nat.toDigits 10 n ≠ "false".toList := toDigits_ne_of_mem (c := 'f') (by decide) rfl
  rw [front?, value?, if_neg yes, if_neg no, if_pos (.inr (.inr starts)), ← numberOrDate?_toDigits]
  split
  · next found => exact found.symm
  · next found => exact found.symm

/-! ## Lines

A line is a key, an equals sign and a value, with single blanks between them. -/

/-- The token of a key.  A bare key is a word, and any other is written in quotes. -/
def keyToken (s : String) : Token :=
  if isBare s then .word s.toList else .string s.toList false false

/-- A bare key is read as a word, up to a character that cannot belong to one. -/
theorem first?_bare {s : String} (bare : isBare s = true) {rest : List Char}
    (ends : ∀ c ∈ rest.head?, Token.isWordChar c = false) :
    Token.first? (s.toList ++ rest) = some (.word s.toList, rest) := by
  obtain ⟨some, word⟩ := Bool.and_eq_true_iff.1 bare
  refine Token.first?_word (fun none => ?_) (List.all_eq_true.1 word) ends
  rw [String.toList_eq_nil_iff.1 none] at some
  exact absurd some (by decide)

/-- A key is read as its token.  The blank behind it ends a word, and it is no third quote behind an
empty string. -/
theorem first?_key (s : String) (rest : List Char) :
    Token.first? ((key s).toList ++ ' ' :: rest) = some (keyToken s, ' ' :: rest) := by
  unfold key keyToken
  split
  · next bare => exact first?_bare bare (by rintro c ⟨⟩; rfl)
  · exact Token.first?_quoted s (by simp)

theorem isGap_keyToken (s : String) : isGap (keyToken s) = false := by
  unfold keyToken
  split <;> rfl

/-- No key has a carriage return in it: bare ones have none, and in quotes it is escaped. -/
theorem not_mem_key (s : String) : '\r' ∉ (key s).toList := by
  unfold key
  split
  · next bare =>
    intro mem
    exact nomatch List.all_eq_true.1 (Bool.and_eq_true_iff.1 bare).2 _ mem
  · exact Token.not_mem_quoted s

/-- From its token a key comes back, whichever way it was written. -/
theorem key?_keyToken (s : String) (ts : List Token) : key? (keyToken s :: ts) = some (s, ts) := by
  unfold keyToken
  split
  · rw [key?, String.ofList_toList]
  · simp [key?]

/-- The first line and those after it.  A line that cannot be read spoils the others. -/
theorem lines?_of_line? {ts rest : List Token} {t : Token} {next : List Token} {l : Option Line}
    (starts : skipGaps ts = t :: next) (found : line? (t :: next) = l.map (·, rest)) :
    lines? ts = l.bind fun l => (lines? rest).map (l :: ·) := by
  rw [← starts] at found
  -- The cases are those of the reader: no line, a line that cannot be read, and a line.
  fun_cases lines? ts with
  | case1 none => exact nomatch none.symm.trans starts
  | case2 _ none =>
    obtain rfl := Option.map_eq_none_iff.1 (found.symm.trans none)
    rfl
  | case3 _ _ _ read =>
    obtain ⟨l, rfl, eq⟩ := Option.map_eq_some_iff.1 (found.symm.trans read)
    obtain ⟨rfl, rfl⟩ := Prod.mk.inj eq
    rfl

/-- A key is a single part if no point follows it. -/
theorem keys?_keyToken (name : String) {ts next : List Token} (starts : skip ts = next)
    (ends : ∀ after, next ≠ .period :: after) : keys? (keyToken name :: ts) = some (name, [], next) := by
  subst starts
  rw [keys?, key?_keyToken]
  dsimp only
  rw [moreKeys?]
  split
  · next point => exact absurd point (ends _)
  · rfl

/-- A line with a key and a value. -/
theorem line?_pair (name : String) {t : Token} {v : Option Value} {ts : List Token}
    (solid : isBlank t = false)
    (value : front? (t :: .newline :: ts) = v.map (·, .newline :: ts)) :
    line? (keyToken name :: .blank true :: .equals :: .blank true :: t :: .newline :: ts) =
      v.map fun v => (.pair name [] v, ts) := by
  have trimmed : skip (.blank true :: t :: .newline :: ts) = t :: .newline :: ts := by
    rw [skip, List.dropWhile_cons_of_pos rfl, List.dropWhile_cons_of_neg (by simp [solid])]
  unfold line?
  split
  · next bracket =>
    unfold keyToken at bracket
    split at bracket <;> cases bracket
  · have sign : skip (.blank true :: .equals :: .blank true :: t :: .newline :: ts) =
        .equals :: .blank true :: t :: .newline :: ts := rfl
    rw [keys?_keyToken name sign nofun]
    dsimp only
    rw [← trimmed] at value
    split
    · next found =>
      rw [front?, found] at value
      obtain ⟨v, rfl, eq⟩ := Option.map_eq_some_iff.1 value.symm
      obtain ⟨rfl, rfl⟩ := Prod.mk.inj eq
      rfl
    · next none =>
      rw [front?, none] at value
      rw [Option.map_eq_none_iff.1 value.symm]
      rfl

/-! ## Documents

Texts whose lines are known can be put together.  Carriage returns come in because the reader folds
line ends before it does anything else: a text without them is not changed by that, and neither is
one put together from such texts. -/

/-- A value in its written form: a single token, and what it is read as at the end of a line.  The
last two fields are said of the line end that always follows: the first token must stop there, and
the value must not reach beyond it. -/
structure WrittenAs (written : String) (t : Token) (v : Option Value) : Prop where
  folded : '\r' ∉ written.toList
  solid : isBlank t = false
  first : ∀ rest, Token.first? (written.toList ++ '\n' :: rest) = some (t, '\n' :: rest)
  value : ∀ ts, front? (t :: .newline :: ts) = v.map (·, .newline :: ts)

theorem writtenAs_quoted (s : String) :
    WrittenAs (quoted s) (.string s.toList false false) (some (.text s)) where
  folded := Token.not_mem_quoted s
  solid := rfl
  first rest := Token.first?_quoted s (by simp)
  value ts := by
    rw [front?_string, String.ofList_toList]
    rfl

theorem writtenAs_boolean (b : Bool) :
    WrittenAs (toString b) (.word (toString b).toList) (some (.boolean b)) where
  folded := by cases b <;> decide
  solid := rfl
  first rest := by
    have all : (toString b).toList.all Token.isWordChar = true := by cases b <;> rfl
    refine Token.first?_word ?_ (List.all_eq_true.1 all) (by rintro c ⟨⟩; rfl)
    cases b <;> exact List.cons_ne_nil _ _
  value ts := front?_boolean b _

/-- Numbers are written by their digits, whether they can be read or not.  This is where the option
comes in: a number that is too great has a written form and no value. -/
theorem writtenAs_number (n : Nat) :
    WrittenAs (toString n) (.word (Nat.toDigits 10 n))
      ((Decimal.toInt64? n).map .integer) where
  folded := by
    rw [show (toString n).toList = Nat.toDigits 10 n from Nat.toList_repr]
    exact not_mem_toDigits rfl
  solid := rfl
  first rest := by
    rw [show (toString n).toList = Nat.toDigits 10 n from Nat.toList_repr]
    refine Token.first?_word Nat.toDigits_ne_nil (fun c mem => ?_) (by rintro c ⟨⟩; rfl)
    have digit := Decimal.isDigit_toDigits c mem
    simp [Token.isWordChar, Char.isAlphanum, digit]
  value ts := by
    rw [front?_toDigits, Option.map_map]
    rfl

theorem toList_line_append (name written : String) (rest : List Char) :
    (line name written).toList ++ rest =
      (key name).toList ++ ' ' :: '=' :: ' ' :: (written.toList ++ '\n' :: rest) := by
  simp [line]

/-- The tokens of a line.  There are six, and blanks are tokens too: whether one is single tells a
key from a value that is indented. -/
theorem scan?_line (name : String) {written : String} {t : Token} {v : Option Value}
    (value : WrittenAs written t v) (rest : List Char) :
    Token.scan? ((line name written).toList ++ rest) =
      (Token.scan? rest).map
        ([keyToken name, .blank true, .equals, .blank true, t, .newline] ++ ·) := by
  obtain ⟨c, cs, eq⟩ : ∃ c cs, written.toList ++ '\n' :: rest = c :: cs :=
    List.exists_cons_of_ne_nil (by simp)
  -- The blank before a value is a single one, since no value begins with a blank: its first token
  -- would be one.
  have stops : ¬ (c = ' ' ∨ c = '\t') := by
    intro blank
    obtain ⟨single, _, first⟩ := Token.exists_blank_of_first? blank cs
    obtain ⟨rfl, -⟩ := Prod.mk.inj (Option.some.inj (first.symm.trans (eq ▸ value.first rest)))
    exact nomatch value.solid
  have gap : Token.first? (' ' :: (written.toList ++ '\n' :: rest)) =
      some (.blank true, written.toList ++ '\n' :: rest) := by
    rw [eq]
    exact Token.first?_blank stops cs
  rw [toList_line_append, Token.scan?_of_first? (first?_key name _),
    Token.scan?_of_first? (Token.first?_blank (by decide) _), Token.scan?_equals,
    Token.scan?_of_first? gap, Token.scan?_of_first? (value.first rest), Token.scan?_newline]
  simp only [Option.map_map]
  rfl

/-- A text that is read as some lines whatever follows it, or that spoils a whole document.  The
tokens are the same whatever follows, and so is what they say: this is what lets texts be put
together without looking into them again. -/
def Reads (text : String) (lines : Option (List Line)) : Prop :=
  '\r' ∉ text.toList ∧ ∃ tokens,
    (∀ rest, Token.scan? (text.toList ++ rest) = (Token.scan? rest).map (tokens ++ ·)) ∧
    ∀ ts, lines? (tokens ++ ts) = lines.bind fun ls => (lines? ts).map (ls ++ ·)

theorem reads_empty : Reads "" (some []) :=
  ⟨by decide, [], fun rest => by simp, fun ts => by simp⟩

/-- **Texts one after the other** read as the lines of both, and either of them spoils both. -/
theorem Reads.append {first second : String} {ls ls' : Option (List Line)} (h : Reads first ls)
    (h' : Reads second ls') :
    Reads (first ++ second) (ls.bind fun ls => ls'.map (ls ++ ·)) := by
  obtain ⟨folded, tokens, scanned, read⟩ := h
  obtain ⟨folded', tokens', scanned', read'⟩ := h'
  refine ⟨?_, tokens ++ tokens', fun rest => ?_, fun ts => ?_⟩
  · rw [String.toList_append, List.mem_append]
    exact not_or.2 ⟨folded, folded'⟩
  · rw [String.toList_append, List.append_assoc, scanned, scanned', Option.map_map]
    simp only [Function.comp_def, List.append_assoc]
  · rw [List.append_assoc, read, read']
    cases ls <;> cases ls' <;> simp [Function.comp_def]

/-- A line with a value in its written form is read, or spoils the document if the value cannot be.
-/
theorem reads_line (name : String) {written : String} {t : Token} {v : Option Value}
    (value : WrittenAs written t v) :
    Reads (line name written) (v.map fun v => [.pair name [] v]) := by
  refine ⟨?_, _, scan?_line name value, fun ts => ?_⟩
  · have text := toList_line_append name written []
    rw [List.append_nil] at text
    simp [text, not_mem_key, value.folded]
  · have solid : ¬ isGap (keyToken name) = true := by simp [isGap_keyToken]
    have found : line? (keyToken name :: .blank true :: .equals :: .blank true :: t ::
        .newline :: ts) = (v.map fun v => Line.pair name [] v).map (·, ts) := by
      rw [line?_pair name value.solid (value.value ts), Option.map_map]
      rfl
    refine (lines?_of_line? (List.dropWhile_cons_of_neg solid) found).trans ?_
    cases v <;> rfl

/-- A line with a key and a value, and what it is read as.  These are the three sorts of values that
settings have.  An integer must be less than half the words of 64 bits. -/
inductive LineOf : String × Value → String → Prop
  | text (name s : String) : LineOf (name, .text s) (line name (quoted s))
  | boolean (name : String) (b : Bool) : LineOf (name, .boolean b) (line name (toString b))
  | integer (name : String) {n : Nat} (small : n < 0x8000000000000000) :
      LineOf (name, .integer (Int64.ofNat n)) (line name (toString n))

/-- A word of 32 bits always fits. -/
theorem LineOf.word32 (name : String) (n : UInt32) :
    LineOf (name, .integer (Int64.ofNat n.toNat)) (line name (toString n.toNat)) :=
  .integer name (Nat.lt_trans n.toNat_lt (by decide))

theorem LineOf.reads {pair : String × Value} {text : String} (h : LineOf pair text) :
    Reads text (some [.pair pair.1 [] pair.2]) := by
  cases h with
  | text name s => exact reads_line name (writtenAs_quoted s)
  | boolean name b => exact reads_line name (writtenAs_boolean b)
  | @integer name n small =>
    have value := writtenAs_number n
    rw [Decimal.toInt64?_natCast small] at value
    exact reads_line name value

/-- Several lines with keys and values. -/
theorem reads_join {pairs : List (String × Value)} {texts : List String}
    (each : List.Forall₂ LineOf pairs texts) :
    Reads (String.join texts) (some (pairs.map fun (name, v) => .pair name [] v)) := by
  induction each with
  | nil => exact reads_empty
  | cons one _ ih =>
    rw [String.join_cons]
    exact one.reads.append ih

/-- The header of a table.  A line feed stands before it, and so no header is the first line. -/
theorem reads_header {name : String} (bare : isBare name = true) :
    Reads ("\n[" ++ name ++ "]\n") (some [.header [name] false]) := by
  have text (rest : List Char) : ("\n[" ++ name ++ "]\n").toList ++ rest =
      '\n' :: '[' :: (name.toList ++ ']' :: '\n' :: rest) := by
    simp
  refine ⟨?_, [.newline, .leftBracket, .word name.toList, .rightBracket, .newline], fun rest => ?_,
    fun ts => ?_⟩
  · have folded := not_mem_key name
    rw [key, if_pos bare] at folded
    simp [folded]
  · rw [text, Token.scan?_newline, Token.scan?_leftBracket,
      Token.scan?_of_first? (first?_bare bare (by rintro c ⟨⟩; rfl)), Token.scan?_rightBracket,
      Token.scan?_newline]
    simp only [Option.map_map]
    rfl
  · have keys : keys? (skip (.word name.toList :: .rightBracket :: .newline :: ts)) =
        some (name, [], .rightBracket :: .newline :: ts) := by
      have token : .word name.toList = keyToken name := (if_pos bare).symm
      rw [skip, List.dropWhile_cons_of_neg Bool.false_ne_true, token]
      exact keys?_keyToken name rfl nofun
    have found : line? (.leftBracket :: .word name.toList :: .rightBracket :: .newline :: ts) =
        (some (.header [name] false)).map (·, ts) := by
      unfold line?
      dsimp only
      rw [keys]
      rfl
    exact lines?_of_line? rfl found

/-- The tables of a text whose lines are known: they are sorted into blocks, each with the lines
below its header.  A mark for the order of bytes at the front would be dropped, so there must be
none. -/
theorem read?_of_reads {text : String} {lines : Option (List Line)} (h : Reads text lines)
    (unmarked : text.toList.head? ≠ some '\uFEFF') :
    read? text = lines.bind (blocksFrom? [] ⟨[], false, []⟩) := by
  obtain ⟨folded, tokens, scanned, read⟩ := h
  have nothing : Token.scan? [] = some [] := by
    rw [Token.scan?]
    rfl
  have whole := scanned []
  rw [List.append_nil, nothing] at whole
  have found : Token.ofText? text = some tokens := by
    unfold Token.ofText?
    split
    · next marked => exact absurd (by rw [marked]; rfl) unmarked
    · dsimp only
      rw [Token.foldLineEnds_of_not_mem folded, whole]
      simp
  have all : lines? tokens = lines := by
    have none : lines? [] = some [] := by
      rw [lines?]
      rfl
    have := read []
    rw [List.append_nil, none] at this
    rw [this]
    cases lines <;> simp
  rw [read?, found, Option.bind_eq_bind, Option.bind_some, all]
  rfl

/-- Pairs belong to the table that is being read. -/
theorem blocksFrom?_pairs (done : List Block) (current : Block) (pairs : List (String × Value))
    (lines : List Line) :
    blocksFrom? done current (pairs.map (fun (name, v) => .pair name [] v) ++ lines) =
      blocksFrom? done { current with pairs := current.pairs ++ pairs } lines := by
  induction pairs generalizing current with
  | nil => rw [List.append_nil]; rfl
  | cons pair pairs ih =>
    rw [List.map_cons, List.cons_append, blocksFrom?, addPair, Option.bind_eq_bind, Option.bind_some,
      ih, List.append_assoc]
    rfl

end Tabletop.Toml
