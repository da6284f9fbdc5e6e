import Tabletop.Proofs.Decimal.Integer
import Tabletop.Proofs.Lexeme.Covering
import Tabletop.Reference

/-!
# What the lexer captures of a reference

A reference is read twice.  A rule of the lexer reads it at the front of all the text that is left
and cuts it out, and then the cut-out text is read again, to find out what is to be drawn.

* `Written.Stable` — a reader reads the same where an end of the text that it leaves is missing;
* `Written.stable_bracketed?`, `Written.stable_tagged?` — the readers of references are stable;
* `Rule.Captures` — what the rules capture, by kind of reference;
* `Rule.captures_of_firstMatch` — no other rule makes a reference;
* `Lexeme.CapturedIn` and `capturedIn_of_tokenize` — every reference that the lexer returns was
  captured at its place in the text.

### Why stability is stated with a text that is kept

The readers are composed of others that read one part each.  A part is followed by the next one and
not by the end of the text, so for the parts it would not be enough to know that all they leave can
be cut off.  It has to be any end of what they leave, and this is what the parts hand on to each
other.

Each part of a reference has a reader of its own, and each of them is opened once, for an
equivalence between its answer and what stands at the front of the text (`count_eq_some_iff` and the
lemmas like it).  Stability is then proved from these.  Three of the parts may be missing.  For them
it also matters that a reader which finds nothing in a text finds nothing in a shorter one
(`stable_of_optional`).
-/

namespace Tabletop

/-! ## Readers on the cut-out text

All readers are made of one step, to take characters as long as a test holds.  It is stable because
the character that stops it stays in the text. -/

namespace Written

open Text (isDigit isTagChar)

variable {α : Type}

/-- A reader that leaves a text reads the same where an end of that text is missing.  What is kept
need not be read by the same reader, and mostly it is not. -/
def Stable (reads : List Char → α → List Char → Prop) : Prop :=
  ∀ {cs rest : List Char} {a : α} (kept : List Char), reads cs a (kept ++ rest) →
    ∃ front, cs = front ++ (kept ++ rest) ∧ reads (front ++ kept) a kept

/-- All that a stable reader leaves can be cut off.  This is the form in which stability is used in
the end: nothing is kept. -/
theorem Stable.of_append {reads : List Char → α → List Char → Prop} (stable : Stable reads)
    {cs rest : List Char} {a : α} (h : reads (cs ++ rest) a rest) : reads cs a [] := by
  obtain ⟨front, whole, again⟩ := stable [] h
  rw [List.nil_append] at whole
  rwa [List.append_nil, ← List.append_cancel_right whole] at again

/-- What a test takes from the front is taken again, from any text that ends where an end of the
rest was.  If nothing of the rest is kept the text ends there, which stops the test as well. -/
theorem stable_span (p : Char → Bool) :
    Stable fun cs a rest => cs.takeWhile p = a ∧ cs.dropWhile p = rest := by
  rintro cs rest _ kept ⟨rfl, left⟩
  have all : ∀ c ∈ cs.takeWhile p, p c := fun c mem => List.mem_takeWhile_imp mem
  have stops : ∀ c ∈ kept.head?, p c = false := by
    have := List.head?_dropWhile_not p cs
    rw [left] at this
    cases kept with
    | nil => exact nofun
    | cons c kept =>
      rintro _ ⟨⟩
      simpa using this
  refine ⟨cs.takeWhile p, by rw [← left, List.takeWhile_append_dropWhile], ?_, ?_⟩
  · exact Text.takeWhile_append_of_stops all stops
  · exact Text.dropWhile_append_of_stops all stops

/-- A longer text does not change what a test takes, if a character has stopped it.  That is why a
part which ends with a character of its own may be read in front of anything. -/
theorem span_append {p : Char → Bool} {cs after : List Char} {c : Char} (rest : List Char)
    (left : cs.dropWhile p = c :: after) :
    (cs ++ rest).takeWhile p = cs.takeWhile p ∧
      (cs ++ rest).dropWhile p = c :: (after ++ rest) := by
  have whole := List.takeWhile_append_dropWhile (p := p) (l := cs)
  have short : (cs.takeWhile p).length ≠ cs.length := by
    have := congrArg List.length whole
    rw [left, List.length_append, List.length_cons] at this
    omega
  rw [List.takeWhile_append, if_neg short, List.dropWhile_append, left]
  exact ⟨rfl, rfl⟩

/-- A reader of something that may be missing is stable, if it leaves a text as it is where it reads
nothing, and reads something of every text that begins with one of which it reads something.  A
reader of three parts is such a one.  The second condition is what the third cannot say: where
nothing is found, the shorter text must not be one in which something is. -/
theorem stable_of_optional {f : List Char → Option α × List Char}
    (nothing : ∀ {cs rest}, f cs = (none, rest) → rest = cs)
    (more : ∀ {cs a after} rest, f cs = (some a, after) →
      ∃ a' after', f (cs ++ rest) = (some a', after'))
    (something : Stable fun cs a rest => f cs = (some a, rest)) :
    Stable fun cs a rest => f cs = (a, rest) := by
  intro cs rest a kept h
  cases a with
  | some a => exact something kept h
  | none =>
    obtain rfl := nothing h
    refine ⟨[], rfl, ?_⟩
    -- If a part were found in the shorter text, one would be found in the longer, by the second
    -- condition.
    cases missing : f kept with
    | mk a after =>
      cases a with
      | none => exact missing.trans (congrArg _ (nothing missing))
      | some a =>
        obtain ⟨a', after', found⟩ := more rest missing
        rw [h] at found
        cases found

/-! ### The parts of a reference -/

/-- A count is at least one digit with the letter of dice behind.  Digits alone are none, and are
left for the brackets, which then find no bracket. -/
theorem count_eq_some_iff {cs digits rest : List Char} :
    count cs = (some digits, rest) ↔ digits ≠ [] ∧ ∃ d, (d == 'd' || d == 'D') = true ∧
      cs.takeWhile isDigit = digits ∧ cs.dropWhile isDigit = d :: rest := by
  constructor
  · intro h
    unfold count at h
    split at h
    · next digit others d after taken left =>
      split at h
      · next letter =>
        obtain ⟨same, rfl⟩ := Prod.mk.inj h
        obtain rfl := Option.some.inj same
        exact ⟨List.cons_ne_nil _ _, d, letter, taken, left⟩
      · cases h
    · cases h
  · rintro ⟨some, d, letter, taken, left⟩
    obtain ⟨digit, others, rfl⟩ := List.exists_cons_of_ne_nil some
    unfold count
    rw [taken, left]
    exact if_pos letter

theorem stable_count : Stable fun cs digits rest => count cs = (digits, rest) := by
  refine stable_of_optional (fun none => ?_) (fun rest h => ?_) fun kept h => ?_
  · unfold count at none
    split at none
    · split at none
      · cases none
      · exact (Prod.mk.inj none).2.symm
    · exact (Prod.mk.inj none).2.symm
  · obtain ⟨some, d, letter, taken, left⟩ := count_eq_some_iff.1 h
    obtain ⟨taken', left'⟩ := span_append rest left
    exact ⟨_, _, count_eq_some_iff.2 ⟨some, d, letter, taken'.trans taken, left'⟩⟩
  · obtain ⟨some, d, letter, taken, left⟩ := count_eq_some_iff.1 h
    -- The letter behind the digits is kept with the rest, and is a part of the count.
    obtain ⟨front, whole, taken', left'⟩ := stable_span isDigit (d :: kept) ⟨taken, left⟩
    refine ⟨front ++ [d], by simp [whole], ?_⟩
    rw [List.append_assoc]
    exact count_eq_some_iff.2 ⟨some, d, letter, taken', left'⟩

/-- Brackets hold at least one character, and none of them closes a bracket.  One closing bracket
ends what is inside, and a second one must follow it. -/
theorem brackets?_eq_some_iff {cs inner rest : List Char} :
    brackets? cs = some (inner, rest) ↔ inner ≠ [] ∧ ∃ after, cs = '[' :: '[' :: after ∧
      after.takeWhile (· != ']') = inner ∧ after.dropWhile (· != ']') = ']' :: ']' :: rest := by
  constructor
  · intro h
    unfold brackets? at h
    split at h
    · next after =>
      split at h
      · next c inner rest taken left =>
        obtain ⟨rfl, rfl⟩ := Prod.mk.inj (Option.some.inj h)
        exact ⟨List.cons_ne_nil _ _, after, rfl, taken, left⟩
      · cases h
    · cases h
  · rintro ⟨some, after, rfl, taken, left⟩
    obtain ⟨c, inner, rfl⟩ := List.exists_cons_of_ne_nil some
    simp only [brackets?, taken, left]

/-- The brackets are read from the text they take: both closing ones belong to it. -/
theorem stable_brackets? : Stable fun cs inner rest => brackets? cs = some (inner, rest) := by
  intro cs rest inner kept h
  obtain ⟨some, after, rfl, taken, left⟩ := brackets?_eq_some_iff.1 h
  obtain ⟨front, rfl, taken', left'⟩ :=
    stable_span (· != ']') (']' :: ']' :: kept) ⟨taken, left⟩
  refine ⟨'[' :: '[' :: (front ++ [']', ']']), by simp, ?_⟩
  refine brackets?_eq_some_iff.2 ⟨some, front ++ ']' :: ']' :: kept, by simp, taken', left'⟩

/-- A modifier goes from its bar to the next brace or the end of the text, and holds something.  An
empty one is none, and its bar is left. -/
theorem modifier_eq_some_iff {cs m rest : List Char} :
    modifier cs = (some m, rest) ↔ ∃ c after, cs = '|' :: c :: after ∧ isBrace c = false ∧
      c :: after.takeWhile (!isBrace ·) = m ∧ after.dropWhile (!isBrace ·) = rest := by
  constructor
  · intro h
    unfold modifier at h
    split at h
    · next c after =>
      split at h
      · cases h
      · next text =>
        obtain ⟨same, left⟩ := Prod.mk.inj h
        exact ⟨c, after, rfl, Bool.eq_false_iff.2 text, Option.some.inj same, left⟩
    · cases h
  · rintro ⟨c, after, rfl, text, rfl, rfl⟩
    exact if_neg (Bool.eq_false_iff.1 text)

theorem rest_of_modifier {cs rest : List Char} (none : modifier cs = (.none, rest)) :
    rest = cs := by
  unfold modifier at none
  split at none
  · split at none
    · exact (Prod.mk.inj none).2.symm
    · cases none
  · exact (Prod.mk.inj none).2.symm

/-- A bar with something behind it stays one in a longer text. -/
theorem modifier_append {cs m after : List Char} (rest : List Char)
    (h : modifier cs = (some m, after)) :
    ∃ m' after', modifier (cs ++ rest) = (some m', after') := by
  obtain ⟨c, after, rfl, text, -, -⟩ := modifier_eq_some_iff.1 h
  exact ⟨_, _, modifier_eq_some_iff.2 ⟨c, after ++ rest, rfl, text, rfl, rfl⟩⟩

/-- The modifier is read from the text it takes.  It is the one part that may end with the text.
Nothing has to be kept for it to stop. -/
theorem stable_modifier : Stable fun cs m rest => modifier cs = (m, rest) := by
  refine stable_of_optional rest_of_modifier modifier_append fun kept h => ?_
  obtain ⟨c, after, rfl, text, taken, left⟩ := modifier_eq_some_iff.1 h
  obtain ⟨front, rfl, taken', left'⟩ := stable_span (!isBrace ·) kept ⟨rfl, left⟩
  refine ⟨'|' :: c :: front, rfl, modifier_eq_some_iff.2 ⟨c, _, rfl, text, ?_, left'⟩⟩
  exact (congrArg (c :: ·) taken').trans taken

theorem selector_eq_some_iff {cs rest : List Char} {c : Char} :
    selector cs = (some c, rest) ↔ (c == '+' || c == '-') = true ∧ cs = '|' :: c :: rest := by
  constructor
  · intro h
    unfold selector at h
    split at h
    · split at h
      · next sign =>
        obtain ⟨same, rfl⟩ := Prod.mk.inj h
        obtain rfl := Option.some.inj same
        exact ⟨sign, rfl⟩
      · cases h
    · cases h
  · rintro ⟨sign, rfl⟩
    exact if_pos sign

theorem stable_selector : Stable fun cs c rest => selector cs = (c, rest) := by
  refine stable_of_optional (fun none => ?_) (fun rest h => ?_) fun kept h => ?_
  · unfold selector at none
    split at none
    · split at none
      · cases none
      · exact (Prod.mk.inj none).2.symm
    · exact (Prod.mk.inj none).2.symm
  · obtain ⟨sign, rfl⟩ := selector_eq_some_iff.1 h
    exact ⟨_, _, selector_eq_some_iff.2 ⟨sign, rfl⟩⟩
  · obtain ⟨sign, rfl⟩ := selector_eq_some_iff.1 h
    exact ⟨['|', _], rfl, selector_eq_some_iff.2 ⟨sign, rfl⟩⟩

/-- The kinds of a tag are a modifier, unless a selector stands there.  They are asked for behind
the selector, so a second selector there ends the reference. -/
theorem kinds_eq_some_iff {cs k rest : List Char} :
    kinds cs = (some k, rest) ↔ (∃ c after, cs = '|' :: c :: after ∧
      (c == '+' || c == '-') = false) ∧ modifier cs = (some k, rest) := by
  constructor
  · intro h
    unfold kinds at h
    split at h
    · next c after =>
      split at h
      · cases h
      · next noSign => exact ⟨⟨c, after, rfl, Bool.eq_false_iff.2 noSign⟩, h⟩
    · cases h
  · rintro ⟨⟨c, after, rfl, noSign⟩, h⟩
    exact (if_neg (Bool.eq_false_iff.1 noSign)).trans h

/-- The kinds are read from the text they take: the character behind the bar, which is asked for its
sign, belongs to it. -/
theorem stable_kinds : Stable fun cs k rest => kinds cs = (k, rest) := by
  refine stable_of_optional (fun none => ?_) (fun rest h => ?_) fun kept h => ?_
  · unfold kinds at none
    split at none
    · split at none
      · exact (Prod.mk.inj none).2.symm
      · exact rest_of_modifier none
    · exact (Prod.mk.inj none).2.symm
  · obtain ⟨⟨c, after, rfl, noSign⟩, found⟩ := kinds_eq_some_iff.1 h
    obtain ⟨k, left, more⟩ := modifier_append rest found
    exact ⟨k, left, kinds_eq_some_iff.2 ⟨⟨c, after ++ rest, rfl, noSign⟩, more⟩⟩
  · obtain ⟨⟨c, after, whole, noSign⟩, found⟩ := kinds_eq_some_iff.1 h
    obtain ⟨front, rfl, found'⟩ := stable_modifier kept found
    refine ⟨front, rfl, kinds_eq_some_iff.2 ⟨?_, found'⟩⟩
    -- The shorter text has the same character behind the bar, so it is no selector either.
    obtain ⟨d, after', whole', -⟩ := modifier_eq_some_iff.1 found'
    rw [← List.append_assoc, whole'] at whole
    obtain ⟨rfl, -⟩ : d = c ∧ _ := by simpa using whole
    exact ⟨d, after', whole', noSign⟩

/-! ### References

The parts follow one another.  Their proofs are put together from the last part to the first: each
keeps what the parts behind it have kept. -/

/-- A reference in brackets is a count, brackets and a modifier. -/
theorem bracketed?_eq_some_iff {cs rest : List Char} {b : Bracketed} :
    bracketed? cs = some (b, rest) ↔ ∃ afterCount afterBrackets,
      count cs = (b.count, afterCount) ∧ brackets? afterCount = some (b.inner, afterBrackets) ∧
        modifier afterBrackets = (b.modifier, rest) := by
  constructor
  · intro h
    unfold bracketed? at h
    dsimp only at h
    split at h
    · cases h
    · next found =>
      obtain ⟨rfl, left⟩ := Prod.mk.inj (Option.some.inj h)
      exact ⟨_, _, rfl, found, Prod.ext rfl left⟩
  · rintro ⟨afterCount, afterBrackets, counted, found, modified⟩
    simp only [bracketed?, counted, found, modified]

/-- **A reference in brackets is read whole from the text it takes.** The modifier is looked at
first, since what it keeps is part of what the brackets have to keep. -/
theorem stable_bracketed? : Stable fun cs b rest => bracketed? cs = some (b, rest) := by
  intro cs rest b kept h
  obtain ⟨afterCount, afterBrackets, counted, found, modified⟩ := bracketed?_eq_some_iff.1 h
  obtain ⟨third, rfl, modified'⟩ := stable_modifier _ modified
  rw [← List.append_assoc] at found
  obtain ⟨second, rfl, found'⟩ := stable_brackets? _ found
  rw [← List.append_assoc] at counted
  obtain ⟨first, rfl, counted'⟩ := stable_count _ counted
  refine ⟨first ++ second ++ third, by simp, bracketed?_eq_some_iff.2 ?_⟩
  exact ⟨_, _, by simpa using counted', found', modified'⟩

/-- A tag is a count, a sign with a name, a selector and kinds. -/
theorem tagged?_eq_some_iff {cs rest : List Char} {t : Tagged} :
    tagged? cs = some (t, rest) ↔ ∃ name afterSign afterName afterSelector,
      name ≠ [] ∧ t.tag = '#' :: name ∧ count cs = (t.count, '#' :: afterSign) ∧
        (afterSign.takeWhile isTagChar = name ∧ afterSign.dropWhile isTagChar = afterName) ∧
          selector afterName = (t.selector, afterSelector) ∧
            kinds afterSelector = (t.kinds, rest) := by
  constructor
  · intro h
    unfold tagged? at h
    dsimp only at h
    split at h
    · next afterSign found =>
      split at h
      · cases h
      · next some =>
        obtain ⟨rfl, left⟩ := Prod.mk.inj (Option.some.inj h)
        rw [List.isEmpty_iff] at some
        exact ⟨_, afterSign, _, _, some, rfl, Prod.ext rfl found, ⟨rfl, rfl⟩, rfl,
          Prod.ext rfl left⟩
    · cases h
  · rintro ⟨name, afterSign, afterName, afterSelector, some, tag, counted, ⟨rfl, rfl⟩, selected,
      asked⟩
    have named := mt List.isEmpty_iff.1 some
    simp only [tagged?, counted, selected, asked, if_neg named, ← tag]

/-- **A tag is read whole from the text it takes.** -/
theorem stable_tagged? : Stable fun cs t rest => tagged? cs = some (t, rest) := by
  intro cs rest t kept h
  obtain ⟨name, afterSign, afterName, afterSelector, some, tag, counted, named, selected, asked⟩ :=
    tagged?_eq_some_iff.1 h
  obtain ⟨fourth, rfl, asked'⟩ := stable_kinds _ asked
  rw [← List.append_assoc] at selected
  obtain ⟨third, rfl, selected'⟩ := stable_selector _ selected
  rw [← List.append_assoc] at named
  obtain ⟨second, rfl, named'⟩ := stable_span isTagChar _ named
  rw [← List.append_assoc, ← List.cons_append] at counted
  obtain ⟨first, rfl, counted'⟩ := stable_count _ counted
  refine ⟨first ++ '#' :: (second ++ (third ++ fourth)), by simp, tagged?_eq_some_iff.2 ?_⟩
  refine ⟨name, _, _, _, some, tag, ?_, named', selected', asked'⟩
  simpa using counted'

end Written

/-! ## What the rules capture

The rules for references come first among the rules, in the order of `Captures`, and a rule only
sees a text that the rules before it have refused. -/

/-- Whether a tag asks for links: with its sign, or without one if the settings say so.  A minus
asks for sections whatever the settings say. -/
def Written.Tagged.AsksLinks (settings : Settings) (t : Written.Tagged) : Prop :=
  t.selector = some '+' ∨ t.selector = none ∧ settings.rollLinksForTags = true

namespace Rule

variable {context : LexContext} {settings : Settings} {cs rest data : List Char}
  {kind : ReferenceKind} {conditionals : Option (List Conditional)}

/-- The digits of the count and what is named, as a rule captures them at the front of a text that
it takes up to a rest.  The kind of the reference is decided by what is captured.  The texts are
kept as they are written, but for the column and the kinds, which are trimmed. -/
inductive Captures (settings : Settings) (cs rest : List Char) :
    ReferenceKind → Option (List Char) → Target → Prop
  | table {b : Written.Bracketed} {note block : List Char}
      (read : Written.bracketed? cs = some (b, rest))
      (named : Written.block? b.inner = some (note, block)) :
      Captures settings cs rest .table b.count
        (.table (String.ofList note) (String.ofList block)
          (b.modifier.map fun name => String.ofList (Text.trim name)))
  | sections {b : Written.Bracketed} (read : Written.bracketed? cs = some (b, rest))
      (whole : Written.block? b.inner = none)
      (other : b.modifier.map Text.trim ≠ some ['l', 'i', 'n', 'e']) :
      Captures settings cs rest .sections b.count
        (.sections (String.ofList b.inner) ((b.modifier.map Section.kinds).getD []))
  | line {b : Written.Bracketed} (read : Written.bracketed? cs = some (b, rest))
      (whole : Written.block? b.inner = none)
      (asked : b.modifier.map Text.trim = some ['l', 'i', 'n', 'e']) :
      Captures settings cs rest .line b.count (.lines (String.ofList b.inner))
  | tag {t : Written.Tagged} (read : Written.tagged? cs = some (t, rest))
      (other : ¬ t.AsksLinks settings) :
      Captures settings cs rest .tag t.count
        (.tag (String.ofList t.tag) ((t.kinds.map Section.kinds).getD []))
  | link {t : Written.Tagged} (read : Written.tagged? cs = some (t, rest))
      (asked : t.AsksLinks settings) :
      Captures settings cs rest .link t.count (.links (String.ofList t.tag))

/-- The rule of tables takes brackets that name a block.  What it takes is the text of the lexeme,
and it is what the roller gets. -/
theorem captures_of_table
    (found : table context cs = some (.lexeme (.reference kind) data conditionals, rest)) :
    data = part cs rest ∧ ∃ count target, Captures settings cs rest kind count target := by
  unfold table at found
  split at found
  · next b left read =>
    split at found
    · next isBlock =>
      obtain ⟨⟨note, block⟩, named⟩ := Option.isSome_iff_exists.1 isBlock
      simp only [Option.some.injEq, Prod.mk.injEq, Take.lexeme.injEq, LexemeKind.reference.injEq]
        at found
      obtain ⟨⟨rfl, rfl, rfl⟩, rfl⟩ := found
      exact ⟨rfl, _, _, .table read named⟩
    · cases found
  · cases found

/-- The rule of notes takes the other brackets.  It does not look for a block itself.  That there is
none is known from the rule of tables, which has refused the same text; without this the kind of the
reference would not determine what it names. -/
theorem captures_of_note (refused : table context cs = none)
    (found : note context cs = some (.lexeme (.reference kind) data conditionals, rest)) :
    data = part cs rest ∧ ∃ count target, Captures settings cs rest kind count target := by
  unfold note at found
  split at found
  · next b left read =>
    have whole : Written.block? b.inner = none := by
      unfold table at refused
      rw [read] at refused
      simpa using refused
    simp only [Option.some.injEq, Prod.mk.injEq, Take.lexeme.injEq, LexemeKind.reference.injEq]
      at found
    obtain ⟨⟨rfl, rfl, rfl⟩, rfl⟩ := found
    refine ⟨rfl, ?_⟩
    split
    · next asked => exact ⟨_, _, .line read whole asked⟩
    · next other => exact ⟨_, _, .sections read whole other⟩
  · cases found

/-- The rule of tags asks for links or for sections.  With a selector this is decided by its sign,
without one by the settings. -/
theorem captures_of_tag
    (found : tag context cs = some (.lexeme (.reference kind) data conditionals, rest)) :
    data = part cs rest ∧ ∃ count target, Captures context.settings cs rest kind count target := by
  unfold tag at found
  split at found
  · next t left read =>
    simp only [Option.some.injEq, Prod.mk.injEq, Take.lexeme.injEq, LexemeKind.reference.injEq]
      at found
    obtain ⟨⟨rfl, rfl, rfl⟩, rfl⟩ := found
    refine ⟨rfl, ?_⟩
    split
    · next asked => exact ⟨_, _, .link read (.inl asked)⟩
    · next none =>
      split
      · next asked => exact ⟨_, _, .link read (.inr ⟨none, asked⟩)⟩
      · next other => exact ⟨_, _, .tag read (by simp [Written.Tagged.AsksLinks, none, other])⟩
    · next c plain sign =>
      exact ⟨_, _, .tag read (by simp_all [Written.Tagged.AsksLinks])⟩
  · cases found

/-- The rule makes no references.  This is said for any context and any text, so that it is a
property of the rule. -/
def Plain (rule : Rule) : Prop :=
  ∀ {context : LexContext} {cs rest data : List Char} {kind : LexemeKind}
    {conditionals : Option (List Conditional)},
    rule context cs = some (.lexeme kind data conditionals, rest) →
      ∀ document, kind ≠ .reference document

/-- A rule for a modifier with a count makes that modifier. -/
theorem plain_counted {modifier : ModifierKind} {letters after rest data : List Char}
    {barred : Option Char} {kind : LexemeKind} {conditionals : Option (List Conditional)}
    (h : counted modifier letters barred context after =
      some (.lexeme kind data conditionals, rest)) : kind = .modifier modifier := by
  unfold counted at h
  grind

/-- The rules behind those of references make none.  Each of them makes lexemes of its own kind,
which is seen from its definition. -/
theorem plain_of_mem {rule : Rule} (mem : rule ∈ all.drop 4) : Plain rule := by
  simp only [all, List.drop_succ_cons, List.drop_zero, List.mem_cons, List.not_mem_nil, or_false]
    at mem
  intro context cs rest data kind conditionals h document
  rcases mem with rfl | rfl | rfl | rfl | rfl | rfl | rfl | rfl | rfl | rfl | rfl | rfl
  · grind [dice]
  · grind [integer]
  · unfold math at h
    grind
  · unfold stunt at h
    grind
  · unfold keepHigh at h
    grind [→ plain_counted]
  · unfold dropLow at h
    grind [→ plain_counted]
  · unfold keepLow at h
    grind [→ plain_counted]
  · unfold dropHigh at h
    grind [→ plain_counted]
  · unfold explodeCombine at h
    grind [repeated]
  · unfold explode at h
    grind [repeated]
  · unfold reroll at h
    grind [repeated]
  · unfold name at h
    grind

/-- **No other rule makes a reference**, so what a reference was read from is what one of them
captured.  The search for a rule is unfolded one rule after the other, since the rule of notes needs
to know that the one before it refused. -/
theorem captures_of_firstMatch
    (found : firstMatch context cs = some (.lexeme (.reference kind) data conditionals, rest)) :
    data = part cs rest ∧ ∃ count target, Captures context.settings cs rest kind count target := by
  have rules : all = gap :: table :: note :: tag :: all.drop 4 := rfl
  unfold firstMatch at found
  rw [rules] at found
  simp only [List.findSome?_cons] at found
  split at found
  · next skipped =>
    obtain rfl := Option.some.inj found
    unfold gap at skipped
    grind
  · split at found
    · next taken =>
      obtain rfl := Option.some.inj found
      exact captures_of_table taken
    · next refused =>
      split at found
      · next taken =>
        obtain rfl := Option.some.inj found
        exact captures_of_note refused taken
      · split at found
        · next taken =>
          obtain rfl := Option.some.inj found
          exact captures_of_tag taken
        · obtain ⟨rule, mem, taken⟩ := List.exists_of_findSome?_eq_some found
          exact (plain_of_mem mem taken kind rfl).elim

end Rule

/-! ## References in a text

The loop takes each lexeme at some place, with all of the text behind it.  What was captured there
does not depend on the text behind, which is what the readers' stability is for. -/

/-- Every lexeme was taken by the first rule that takes something, at the place where it stands.
The induction is on the scan, and what has been taken before is put in front each time, with its
bytes. -/
theorem Scans.exists_firstMatch {context : LexContext} {position stop : Nat} {cs rest : List Char}
    {lexemes : List Lexeme} (h : Scans context position cs lexemes stop rest) :
    ∀ l ∈ lexemes, ∃ before here after,
      cs = before ++ here ∧ position + Text.utf8Length before = l.span.start ∧
        Rule.firstMatch context here =
          some (.lexeme l.kind l.data.toList l.conditionals, after) ∧
        l.span.start + Text.utf8Length (Rule.part here after) = l.span.stop := by
  induction h with
  | refl => exact List.forall_mem_nil _
  | @skip position stop cs after rest lexemes found _ ih =>
    intro l mem
    obtain ⟨before, here, left, whole, start, more⟩ := ih l mem
    refine ⟨Rule.part cs after ++ before, here, left, ?_, ?_, more⟩
    · rw [List.append_assoc, ← whole, (Rule.part_of_firstMatch found).1]
    · rw [Text.utf8Length_append, ← Nat.add_assoc, start]
  | @lexeme position stop cs after rest data lexemes kind conditionals found _ ih =>
    refine List.forall_mem_cons.2 ⟨⟨[], cs, after, rfl, rfl, ?_, rfl⟩, fun l mem => ?_⟩
    · rw [String.toList_ofList]
      exact found
    · obtain ⟨before, here, left, whole, start, more⟩ := ih l mem
      refine ⟨Rule.part cs after ++ before, here, left, ?_, ?_, more⟩
      · rw [List.append_assoc, ← whole, (Rule.part_of_firstMatch found).1]
      · rw [Text.utf8Length_append, ← Nat.add_assoc, start]

/-- The lexeme is a reference that stands in a text, and there a rule of the lexer has captured a
count and what is named. -/
def Lexeme.CapturedIn (settings : Settings) (text : String) (l : Lexeme) (kind : ReferenceKind)
    (count : Option (List Char)) (target : Target) : Prop :=
  ∃ before after : String,
    text = before ++ l.data ++ after ∧ before.utf8ByteSize = l.span.start ∧
      l.span.start + l.data.utf8ByteSize = l.span.stop ∧
      Rule.Captures settings (l.data ++ after).toList after.toList kind count target

/-- **Every reference was captured at its place in the text.** The text behind it is still there, as
the rule saw it; that it makes no difference is for the roller to say. -/
theorem capturedIn_of_tokenize {context : LexContext} {text : String} {lexemes : List Lexeme}
    (h : tokenize context text = .ok lexemes) {l : Lexeme} (mem : l ∈ lexemes)
    {kind : ReferenceKind} (is : l.kind = .reference kind) :
    ∃ count target, l.CapturedIn context.settings text kind count target := by
  obtain ⟨stop, scans⟩ := scans_of_scan_ok h
  obtain ⟨before, here, after, whole, start, found, length⟩ := scans.exists_firstMatch l mem
  rw [is] at found
  obtain ⟨data, count, target, captured⟩ := Rule.captures_of_firstMatch found
  have cut : here = l.data.toList ++ after := by
    rw [data]
    exact (Rule.part_of_firstMatch found).1.symm
  refine ⟨count, target, String.ofList before, String.ofList after, ?_, ?_, ?_, ?_⟩
  · calc text = String.ofList (before ++ (l.data.toList ++ after)) := by
          rw [← cut, ← whole, String.ofList_toList]
      _ = String.ofList before ++ l.data ++ String.ofList after := by
          rw [String.ofList_append, String.ofList_append, String.ofList_toList, String.append_assoc]
  · rw [Text.utf8ByteSize_ofList, ← start, Nat.zero_add]
  · rw [← String.ofList_toList (s := l.data), Text.utf8ByteSize_ofList, data]
    exact length
  · rw [String.toList_append, String.toList_ofList, ← cut]
    exact captured

end Tabletop
