import Tabletop.Json.Write
import Tabletop.Proofs.Json.Numeral

/-!
# Reading what was written

The text of a value is read as the value itself (`read?_compact`).  The values in question are those
that are put together from numbers in their written form, from texts, and from objects whose names
are texts (`WellFormed`).  Strings may be written in many ways, and only one of them is the
writer's.

A value is read up to the end of its text and no further, whatever follows.  This is what the
induction is about (`WellFormed.readsBack`), and it needs one thing of what follows: a number must
not go on there.  In an array or object the next character is a comma or the closing bracket.

The reader checks after each step that the text got shorter, since its recursion is on the length.
What it finds is therefore paired with a proof, and equations between results are hard to rewrite.
`Yields` speaks of the value and of the rest and leaves the proof aside.  For each branch of the
reader there is one lemma that says so, and none of the later proofs opens the reader.
-/

namespace Tabletop.Json

/-- What has been read, and the text that is left.  All equations about the reader are put in this
form, and it is the only place where the proof that less is left is named. -/
def Yields {cs : List Char} (found : Option (α × Left cs)) (a : α) (rest : List Char) : Prop :=
  ∃ shorter, found = some (a, ⟨rest, shorter⟩)

/-! ## Strings

A string is read in pieces and the pieces are then put together to a text.  The writer has one piece
for each character, and it is never half of one. -/

theorem pieces?_letter {e c : Char} (letter : escape? e = some c) (cs : List Char) :
    pieces? ('\\' :: e :: cs) =
      (pieces? cs).map fun (pieces, rest) => (.escaped c :: pieces, rest) := by
  have number : e ≠ 'u' := by
    rintro rfl
    exact nomatch letter
  rw [pieces?, letter]
  · cases pieces? cs <;> rfl
  · intro _ _ _ _ _ same _
    exact number same

/-- Controls are written by two zeros and two digits.  There are 32 of them, and both halves of the
statement are computed for each. -/
theorem hexUnit?_of_lt {n : Nat} (control : n < 0x20) :
    Piece.text (.unit n) = ['\\', 'u', '0', '0', Nat.digitChar (n / 16), Nat.digitChar (n % 16)] ∧
      hexUnit? '0' '0' (Nat.digitChar (n / 16)) (Nat.digitChar (n % 16)) = some n := by
  decide +revert

theorem pieces?_control {n : Nat} (control : n < 0x20) (cs : List Char) :
    pieces? ((Piece.unit n).text ++ cs) =
      (pieces? cs).map fun (pieces, rest) => (.unit n :: pieces, rest) := by
  obtain ⟨text, value⟩ := hexUnit?_of_lt control
  rw [text]
  simp only [List.cons_append, List.nil_append]
  rw [pieces?, value]
  cases pieces? cs <;> rfl

theorem pieces?_plain {c : Char} (visible : ¬ c.toNat < 0x20) (quote : c ≠ '"')
    (backslash : c ≠ '\\') (cs : List Char) :
    pieces? (c :: cs) = (pieces? cs).map fun (pieces, rest) => (.plain c :: pieces, rest) := by
  have allowed : ¬ (c.toNat < 0x20 ∨ c = '\\') := fun h => h.elim visible backslash
  rw [pieces?, if_neg allowed]
  · cases pieces? cs <;> rfl
  · exact quote
  · intro _ _ _ _ _ same _
    exact backslash same
  · intro _ _ same _
    exact backslash same

/-- The piece that is written for a character is read as that piece.  The cases are those of the
writer: a letter behind a backslash, a number, or the character itself. -/
theorem pieces?_pieceOf (c : Char) (cs : List Char) :
    pieces? ((pieceOf c).text ++ cs) =
      (pieces? cs).map fun (pieces, rest) => (pieceOf c :: pieces, rest) := by
  unfold pieceOf
  split
  · next letter =>
    rcases letter with rfl | rfl | rfl | rfl | rfl | rfl | rfl <;> exact pieces?_letter rfl cs
  · next other =>
    split
    · next control => exact pieces?_control control cs
    · next visible =>
      refine pieces?_plain visible (fun quote => other (.inl quote)) ?_ cs
      exact fun backslash => other (.inr (.inl backslash))

/-- A string is read up to its closing quote, and every quote in it is written with a backslash. -/
theorem pieces?_flatMap (text rest : List Char) :
    pieces? ((text.map pieceOf).flatMap Piece.text ++ '"' :: rest) =
      some (text.map pieceOf, rest) := by
  -- The induction is on the text that was written, not on what is read: one character at a time.
  induction text with
  | nil => rw [List.map_nil, List.flatMap_nil, List.nil_append, pieces?]
  | cons c text ih =>
    rw [List.map_cons, List.flatMap_cons, List.append_assoc, pieces?_pieceOf, ih]
    rfl

/-- The piece that is written for a character stands for it.  Numbers are what makes this a matter:
two of them may be the halves of one character, so the reader looks at the piece behind. -/
theorem text?_pieceOf (c : Char) (pieces : List Piece) :
    text? (pieceOf c :: pieces) = (text? pieces).map (c :: ·) := by
  unfold pieceOf
  split
  · rw [text?]
  · split
    · next control =>
      -- a control is never half of a character
      have character : c.toNat < 0xD800 ∨ 0xDFFF < c.toNat := .inl (by omega)
      rw [text?.eq_def]
      simp only [if_pos character, Char.ofNat_toNat]
    · rw [text?]

theorem text?_map_pieceOf (text : List Char) : text? (text.map pieceOf) = some text := by
  induction text with
  | nil => rfl
  | cons c text ih =>
    rw [List.map_cons, text?_pieceOf, ih]
    rfl

/-! ## Values

How values begin, and what the reader does at each beginning. -/

/-- A value whose text is read as itself.  Strings and names of fields come from texts, since a
string in general may have half of a character in it, which the writer could not tell from a
character. -/
inductive WellFormed : Json → Prop where
  | null : WellFormed null
  | bool (b : Bool) : WellFormed (bool b)
  | number {n : Numeral} (valid : n.WellFormed) : WellFormed (number n)
  | ofString (s : String) : WellFormed (ofString s)
  | array {elements : List Json} (each : ∀ x ∈ elements, WellFormed x) :
      WellFormed (array elements)
  | record {fields : List (String × Json)} (each : ∀ field ∈ fields, WellFormed field.2) :
      WellFormed (record fields)

theorem wellFormed_ofInt (n : Int) : (ofInt n).WellFormed :=
  .number (Numeral.wellFormed_ofInt n)

/-- An array is well-formed if its elements are, which are given by what they are made from. -/
theorem wellFormed_array {value : α → Json} {as : List α}
    (each : ∀ a ∈ as, (value a).WellFormed) : (array (as.map value)).WellFormed := by
  refine .array fun x mem => ?_
  obtain ⟨a, member, rfl⟩ := List.mem_map.1 mem
  exact each a member

/-- Where a value may start: not in white space, and not at the end of an array.  The second is
asked for since an array without elements is told from others by this character. -/
def Starts (text : List Char) : Prop :=
  ∃ c cs, text = c :: cs ∧ isSpace c = false ∧ c ≠ ']'

theorem skip_of_starts {text : List Char} (starts : Starts text) (rest : List Char) :
    skip (text ++ rest) = text ++ rest := by
  obtain ⟨c, cs, rfl, visible, -⟩ := starts
  exact List.dropWhile_cons_of_neg (by simp [visible])

/-- A numeral without its sign begins with a digit. -/
theorem starts_unsigned {n : Numeral} (valid : n.WellFormed) :
    ∃ c cs, n.unsigned = c :: cs ∧ c.isDigit = true := by
  unfold Numeral.unsigned
  cases whole : n.whole with
  | nil => exact absurd whole valid.whole.ne_nil
  | cons c digits =>
    exact ⟨c, _, rfl, valid.whole.isDigit c (whole ▸ List.mem_cons_self)⟩

theorem starts_text {n : Numeral} (valid : n.WellFormed) : Starts n.text := by
  rw [Numeral.text_eq]
  cases n.negative with
  | true => exact ⟨'-', _, rfl, rfl, by decide⟩
  | false =>
    obtain ⟨c, cs, eq, digit⟩ := starts_unsigned valid
    refine ⟨c, cs, eq, ?_, ?_⟩
    · simp only [isSpace, Bool.or_eq_false_iff, beq_eq_false_iff_ne]
      refine ⟨⟨⟨?_, ?_⟩, ?_⟩, ?_⟩ <;>
      · rintro rfl
        exact nomatch digit
    · rintro rfl
      exact nomatch digit

/-- Every well-formed value begins where a value may start.  So no white space is skipped before it,
and an array does not end there. -/
theorem WellFormed.starts {j : Json} (valid : j.WellFormed) : Starts j.write := by
  cases valid with
  | null => exact ⟨'n', _, rfl, rfl, by decide⟩
  | bool b => cases b <;> exact ⟨_, _, rfl, rfl, by decide⟩
  | number valid => exact starts_text valid
  | ofString s => exact ⟨'"', _, rfl, rfl, by decide⟩
  | array each => exact ⟨'[', _, rfl, rfl, by decide⟩
  | record each => exact ⟨'{', _, rfl, rfl, by decide⟩

/-! ### One branch at a time

Of each branch of the reader it is said what it reads at the front of a text.  What it leaves is any
text that fits the branch. -/

section Readers

variable {cs rest : List Char}

theorem value?_minus {n : Numeral} (read : numeral? true cs = some (n, rest)) :
    Yields (value? ('-' :: cs)) (number n) rest := by
  refine ⟨Nat.lt_succ_of_lt (length_of_numeral? read), ?_⟩
  rw [value?]
  split
  case h_1 found =>
    cases read.symm.trans found
    rfl
  case h_2 found => cases read.symm.trans found

/-- At a digit a numeral is read, from that digit on.  All readers of single values go the same way:
the case of the reader is chosen by the first character, what is read inside is given, and the
length of what is left is its only other obligation. -/
theorem value?_digit {c : Char} (digit : c.isDigit = true) {n : Numeral}
    (read : numeral? false (c :: cs) = some (n, rest)) :
    Yields (value? (c :: cs)) (number n) rest := by
  refine ⟨length_of_numeral? read, ?_⟩
  rw [value?]
  · split
    case h_1 found =>
      cases read.symm.trans found
      rfl
    case h_2 found => cases read.symm.trans found
  -- no digit starts any of the other values
  all_goals
    intro _ same
    obtain rfl := (List.cons.inj same).1
    exact absurd digit (by decide)

theorem value?_quote {pieces : List Piece} (read : pieces? cs = some (pieces, rest)) :
    Yields (value? ('"' :: cs)) (string pieces) rest := by
  refine ⟨Nat.lt_succ_of_lt (length_of_pieces? read), ?_⟩
  rw [value?]
  split
  case h_1 found =>
    cases read.symm.trans found
    rfl
  case h_2 found => cases read.symm.trans found

/-- At a bracket the elements of an array are read. -/
theorem value?_bracket {elements : List Json} (read : Yields (elements? true cs) elements rest) :
    Yields (value? ('[' :: cs)) (array elements) rest := by
  obtain ⟨shorter, read⟩ := read
  refine ⟨Nat.lt_succ_of_lt shorter, ?_⟩
  rw [value?, read]

theorem value?_brace {fields : List (List Piece × Json)}
    (read : Yields (fields? true cs) fields rest) :
    Yields (value? ('{' :: cs)) (object fields) rest := by
  obtain ⟨shorter, read⟩ := read
  refine ⟨Nat.lt_succ_of_lt shorter, ?_⟩
  rw [value?, read]

theorem elements?_bracket (first : Bool) (rest : List Char) :
    Yields (elements? first (']' :: rest)) [] rest := by
  have start : skip (']' :: rest) = ']' :: rest := rfl
  refine ⟨Nat.lt_succ_self _, ?_⟩
  rw [elements?]
  split
  case h_1 found =>
    cases start.symm.trans found
    rfl
  case h_2 no found =>
    cases start.symm.trans found
    exact absurd rfl no
  case h_3 found => cases start.symm.trans found

/-- What the reader goes on with is no longer than what it was given, with or without the comma. -/
theorem length_next_le (first : Bool) (c : Char) (cs : List Char) :
    (if first then c :: cs else cs).length ≤ (c :: cs).length := by
  split
  · exact Nat.le_refl _
  · exact Nat.le_succ _

/-- The test for a comma: it asks for one except before the first element. -/
theorem not_missing_comma {first : Bool} {c : Char} (comma : first = false → c = ',') :
    ¬ (!first && c != ',') = true := by
  cases first with
  | true => exact Bool.false_ne_true
  | false =>
    rw [comma rfl]
    exact Bool.false_ne_true

/-- The elements from one on: it is read without the comma before it if it is the first.  This is
the step of the reader, and its premises follow the order in which it looks: white space, the comma,
the element, the others.  What is left at the end is shorter than what was given because it is
shorter after each of these. -/
theorem elements?_cons {first : Bool} {x : Json} {elements : List Json} {c : Char}
    {last : List Char} (visible : skip (c :: cs) = c :: cs) (more : c ≠ ']')
    (comma : first = false → c = ',')
    (read : Yields (value? (skip (if first then c :: cs else cs))) x rest)
    (others : Yields (elements? false rest) elements last) :
    Yields (elements? first (c :: cs)) (x :: elements) last := by
  obtain ⟨shorter, read⟩ := read
  obtain ⟨shorter', others⟩ := others
  have bound : last.length < (c :: cs).length := by
    have := length_skip_le (if first then c :: cs else cs)
    have := length_next_le first c cs
    omega
  refine ⟨bound, ?_⟩
  rw [elements?]
  split
  case h_1 found =>
    cases visible.symm.trans found
    exact absurd rfl more
  case h_2 found =>
    cases visible.symm.trans found
    extract_lets next
    rw [if_neg (not_missing_comma comma), read]
    dsimp only
    rw [others]
  case h_3 found => cases visible.symm.trans found

theorem fields?_brace (first : Bool) (rest : List Char) :
    Yields (fields? first ('}' :: rest)) [] rest := by
  have start : skip ('}' :: rest) = '}' :: rest := rfl
  refine ⟨Nat.lt_succ_self _, ?_⟩
  rw [fields?]
  split
  case h_1 found =>
    cases start.symm.trans found
    rfl
  case h_2 no found =>
    cases start.symm.trans found
    exact absurd rfl no
  case h_3 found => cases start.symm.trans found

/-- The fields from one on: it is read without the comma before it if it is the first.  Apart from
the name and the colon it is the step for elements. -/
theorem fields?_cons {first : Bool} {pieces : List Piece} {x : Json}
    {fields : List (List Piece × Json)} {c : Char} {name value last : List Char}
    (visible : skip (c :: cs) = c :: cs) (more : c ≠ '}') (comma : first = false → c = ',')
    (quote : skip (if first then c :: cs else cs) = '"' :: name)
    (named : pieces? name = some (pieces, ':' :: value))
    (read : Yields (value? (skip value)) x rest)
    (others : Yields (fields? false rest) fields last) :
    Yields (fields? first (c :: cs)) ((pieces, x) :: fields) last := by
  obtain ⟨shorter, read⟩ := read
  obtain ⟨shorter', others⟩ := others
  have bound : last.length < (c :: cs).length := by
    have := length_skip_le (if first then c :: cs else cs)
    have := length_next_le first c cs
    have := length_of_pieces? named
    have := length_skip_le value
    rw [quote] at *
    simp only [List.length_cons] at *
    omega
  refine ⟨bound, ?_⟩
  rw [fields?]
  split
  case h_1 found =>
    cases visible.symm.trans found
    exact absurd rfl more
  case h_2 found =>
    cases visible.symm.trans found
    extract_lets next
    rw [if_neg (not_missing_comma comma)]
    -- the reader asks for a quote, for the end of the name, and for a colon
    split
    case h_1 found =>
      cases quote.symm.trans found
      split
      case h_1 found => cases named.symm.trans found
      case h_2 found =>
        cases named.symm.trans found
        have colon : skip (':' :: value) = ':' :: value := rfl
        split
        case h_1 found =>
          cases colon.symm.trans found
          extract_lets
          rw [read]
          dsimp only
          rw [others]
        case h_2 no => exact absurd colon (no value)
    case h_2 no => exact absurd quote (no name)
  case h_3 found => cases visible.symm.trans found

/-- A numeral is read before any text that can not belong to it. -/
theorem value?_number {n : Numeral} (valid : n.WellFormed) {rest : List Char}
    (ends : Ends rest) : Yields (value? (n.text ++ rest)) (number n) rest := by
  have read := Numeral.numeral?_unsigned valid ends
  rw [Numeral.text_eq]
  cases sign : n.negative with
  | true => exact value?_minus (sign ▸ read)
  | false =>
    obtain ⟨c, cs, eq, digit⟩ := starts_unsigned valid
    rw [sign, eq] at read
    rw [eq]
    exact value?_digit digit read

end Readers

/-- A text is read up to its closing quote, whatever follows. -/
theorem value?_ofString (s : String) (rest : List Char) :
    Yields (value? ((ofString s).write ++ rest)) (ofString s) rest := by
  have text : (ofString s).write ++ rest =
      '"' :: ((s.toList.map pieceOf).flatMap Piece.text ++ '"' :: rest) := by
    simp [ofString, write, quotedPieces]
  rw [text]
  exact value?_quote (pieces?_flatMap s.toList rest)

/-! ### Arrays and objects

The writer puts commas between the elements, the reader asks for one before each element but the
first.  The induction is therefore on the elements after the first, with their commas before them.
-/

/-- A value that is read as itself whatever follows it.  What follows may only not go on with a
number; a string or an object would allow anything. -/
structure ReadsBack (j : Json) : Prop where
  starts : Starts j.write
  value? : ∀ {rest : List Char}, Ends rest → Yields (value? (j.write ++ rest)) j rest

/-- The elements of an array with the commas before them. -/
theorem writeElements_cons (x : Json) (elements : List Json) :
    writeElements (x :: elements) = x.write ++ elements.flatMap fun y => ',' :: y.write := by
  induction elements generalizing x with
  | nil => rw [writeElements, List.flatMap_nil, List.append_nil]
  | cons y elements ih =>
    rw [writeElements, ih, List.flatMap_cons]
    rfl

/-- What follows an element is a comma or the closing bracket. -/
theorem ends_elements (elements : List Json) (rest : List Char) :
    Ends ((elements.flatMap fun y => ',' :: y.write) ++ ']' :: rest) := by
  cases elements <;>
  · rintro c ⟨rfl⟩
    decide

/-- The elements after the first are read.  The induction is on the elements, and what follows each
of them is the comma of the next or the closing bracket. -/
theorem elements?_flatMap {elements : List Json} (each : ∀ x ∈ elements, ReadsBack x)
    (rest : List Char) :
    Yields (elements? false ((elements.flatMap fun y => ',' :: y.write) ++ ']' :: rest))
      elements rest := by
  induction elements with
  | nil => exact elements?_bracket false rest
  | cons x elements ih =>
    have first := each x List.mem_cons_self
    have others := ih fun y mem => each y (List.mem_cons_of_mem x mem)
    rw [List.flatMap_cons, List.append_assoc, List.cons_append]
    refine elements?_cons rfl (by decide) (fun _ => rfl) ?_ others
    rw [if_neg Bool.false_ne_true, skip_of_starts first.starts]
    exact first.value? (ends_elements elements rest)

/-- All elements are read: the first without a comma, the others as above.  That the first is not
taken for the end of the array is what `Starts` is for. -/
theorem elements?_writeElements {elements : List Json} (each : ∀ x ∈ elements, ReadsBack x)
    (rest : List Char) :
    Yields (elements? true (writeElements elements ++ ']' :: rest)) elements rest := by
  cases elements with
  | nil => exact elements?_bracket true rest
  | cons x elements =>
    have first := each x List.mem_cons_self
    have others := elements?_flatMap (fun y mem => each y (List.mem_cons_of_mem x mem)) rest
    rw [writeElements_cons, List.append_assoc]
    have read := first.value? (ends_elements elements rest)
    have visible := skip_of_starts first.starts
      ((elements.flatMap fun y => ',' :: y.write) ++ ']' :: rest)
    obtain ⟨c, cs, text, -, more⟩ := first.starts
    rw [text, List.cons_append] at read visible ⊢
    refine elements?_cons visible more nofun ?_ others
    rw [if_pos rfl, visible]
    exact read

/-- A field with its name as it is written.  The writer takes names as pieces and the reader returns
them so; a text is made of them only when fields are looked up. -/
def quoted (field : String × Json) : List Piece × Json :=
  (field.1.toList.map pieceOf, field.2)

/-- The text of a field. -/
def fieldText (field : String × Json) : List Char :=
  quotedPieces (field.1.toList.map pieceOf) ++ ':' :: field.2.write

theorem fieldText_append (field : String × Json) (rest : List Char) :
    fieldText field ++ rest =
      '"' :: ((field.1.toList.map pieceOf).flatMap Piece.text ++
        '"' :: ':' :: (field.2.write ++ rest)) := by
  simp [fieldText, quotedPieces]

/-- The fields of an object with the commas before them. -/
theorem writeFields_cons (field : String × Json) (fields : List (String × Json)) :
    writeFields ((field :: fields).map quoted) =
      fieldText field ++ fields.flatMap fun f => ',' :: fieldText f := by
  induction fields generalizing field with
  | nil =>
    rw [List.flatMap_nil, List.append_nil]
    rfl
  | cons f fields ih =>
    show fieldText field ++ ',' :: writeFields ((f :: fields).map quoted) = _
    rw [ih, List.flatMap_cons]
    rfl

/-- What follows a field is a comma or the closing brace. -/
theorem ends_fields (fields : List (String × Json)) (rest : List Char) :
    Ends ((fields.flatMap fun f => ',' :: fieldText f) ++ '}' :: rest) := by
  cases fields <;>
  · rintro c ⟨rfl⟩
    decide

/-- The fields after the first are read, as the elements of an array are. -/
theorem fields?_flatMap {fields : List (String × Json)} (each : ∀ f ∈ fields, ReadsBack f.2)
    (rest : List Char) :
    Yields (fields? false ((fields.flatMap fun f => ',' :: fieldText f) ++ '}' :: rest))
      (fields.map quoted) rest := by
  induction fields with
  | nil => exact fields?_brace false rest
  | cons f fields ih =>
    have first := each f List.mem_cons_self
    have others := ih fun g mem => each g (List.mem_cons_of_mem f mem)
    have read := first.value? (ends_fields fields rest)
    rw [← skip_of_starts first.starts] at read
    rw [List.flatMap_cons, List.append_assoc, List.cons_append, fieldText_append]
    exact fields?_cons rfl (by decide) (fun _ => rfl) rfl (pieces?_flatMap f.1.toList _) read others

theorem fields?_writeFields {fields : List (String × Json)} (each : ∀ f ∈ fields, ReadsBack f.2)
    (rest : List Char) :
    Yields (fields? true (writeFields (fields.map quoted) ++ '}' :: rest))
      (fields.map quoted) rest := by
  cases fields with
  | nil => exact fields?_brace true rest
  | cons f fields =>
    have first := each f List.mem_cons_self
    have others := fields?_flatMap (fun g mem => each g (List.mem_cons_of_mem f mem)) rest
    have read := first.value? (ends_fields fields rest)
    rw [← skip_of_starts first.starts] at read
    rw [writeFields_cons, List.append_assoc, fieldText_append]
    exact fields?_cons rfl (by decide) nofun rfl (pieces?_flatMap f.1.toList _) read others

/-- What is well-formed is read up to its end, whatever follows. -/
theorem WellFormed.readsBack {j : Json} (valid : j.WellFormed) : j.ReadsBack := by
  refine ⟨valid.starts, ?_⟩
  -- on what the value is put together from; the text that follows stays arbitrary
  induction valid with
  | null =>
    intro rest _
    show Yields (value? ('n' :: 'u' :: 'l' :: 'l' :: rest)) _ rest
    rw [value?]
    exact ⟨_, rfl⟩
  | bool b =>
    intro rest _
    cases b with
    | true =>
      show Yields (value? ('t' :: 'r' :: 'u' :: 'e' :: rest)) _ rest
      rw [value?]
      exact ⟨_, rfl⟩
    | false =>
      show Yields (value? ('f' :: 'a' :: 'l' :: 's' :: 'e' :: rest)) _ rest
      rw [value?]
      exact ⟨_, rfl⟩
  | number valid => exact value?_number valid
  | ofString s => exact fun {rest} _ => value?_ofString s rest
  | @array elements each ih =>
    intro rest _
    have read := elements?_writeElements (fun x mem => ⟨(each x mem).starts, ih x mem⟩) rest
    have text : (Json.array elements).write ++ rest =
        '[' :: (writeElements elements ++ ']' :: rest) := by
      simp [write]
    rw [text]
    exact value?_bracket read
  | @record fields each ih =>
    intro rest _
    have read := fields?_writeFields (fun f mem => ⟨(each f mem).starts, ih f mem⟩) rest
    have text : (Json.object (fields.map quoted)).write ++ rest =
        '{' :: (writeFields (fields.map quoted) ++ '}' :: rest) := by
      simp [write]
    show Yields (Json.value? ((Json.object (fields.map quoted)).write ++ rest)) _ rest
    rw [text]
    exact value?_brace read

/-- **The text of a value is read as the value.** Nothing follows it, so nothing is left, as the
reader of whole texts asks. -/
theorem read?_compact {j : Json} (valid : j.WellFormed) : read? j.compact = some j := by
  have ends : Ends [] := nofun
  have read := valid.readsBack.value? ends
  have text : skip j.compact.toList = j.write ++ [] := by
    rw [compact, String.toList_ofList, ← skip_of_starts valid.starts [], List.append_nil]
  rw [← text] at read
  obtain ⟨shorter, read⟩ := read
  rw [read?, read]
  rfl

end Tabletop.Json
