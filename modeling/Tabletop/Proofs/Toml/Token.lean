import Tabletop.Proofs.Decimal.Integer
import Tabletop.Toml.Token
import Tabletop.Toml.Write

/-!
# Tokens of what was written

A text in quotes is read as one token up to its closing quotes, and a word up to the first character
that cannot belong to it.  Every lemma is about a text with any rest behind it, so tokens follow
each other as they were written (`Token.scan?_of_first?`).

* `Token.basic?_escape` — each character comes back from the way it is written in a string;
* `Token.first?_quoted`, `Token.first?_word` — strings and words.

One thing must not follow a string: an empty one is written as two quotes, and with a third they
would begin a string in triple quotes.

The reader of strings serves four sorts of them, of which only one is written here: a single line
with escapes.  Its other arguments stay the same throughout, and each lemma about it takes one
character off the front.
-/

namespace Tabletop.Toml

namespace Token

/-! ## Strings

Characters are written in three ways: by a letter behind a backslash, by a number, or as they are.
-/

/-- One of the seven characters with a letter of their own. -/
theorem basic?_letter {e c : Char} (letter : escape? e = some c) (cs : List Char) :
    basic? false .no ('\\' :: e :: cs) = (basic? false .no cs).map (Scanned.push c) := by
  have blank : ¬ (e = ' ' ∨ e = '\t') := by
    rintro (rfl | rfl) <;> exact nomatch letter
  rw [basic?, if_neg blank, if_neg fun h => Bool.false_ne_true h.2, letter]
  · rintro _ _ _ _ _ rfl _
    exact nomatch letter
  · rintro _ _ _ _ _ _ _ _ _ rfl _
    exact nomatch letter
  · exact nofun

/-- Controls are written by two zeros and two digits.  All of them are among the first 128
characters, so the digits of each can be computed. -/
theorem hexChar?_of_lt {n : Nat} (small : n < 0x80) :
    hexChar? ['0', '0', hexDigit (n / 16), hexDigit (n % 16)] = some (Char.ofNat n) := by
  decide +revert

/-- Any other control, by its number. -/
theorem basic?_control {c : Char} (control : c.toNat < 0x20 ∨ c.toNat = 0x7F) (cs : List Char) :
    basic? false .no
        ('\\' :: 'u' :: '0' :: '0' :: hexDigit (c.toNat / 16) :: hexDigit (c.toNat % 16) :: cs) =
      (basic? false .no cs).map (Scanned.push c) := by
  rw [basic?, hexChar?_of_lt (by omega), Char.ofNat_toNat]
  · cases basic? false .no cs <;> rfl
  · exact nofun

/-- A character that stands for itself: not a control, a quote or a backslash.  The last test of the
reader is the one that admits it, and each of the earlier ones asks for one of the characters that
are excluded here. -/
theorem basic?_plain {c : Char} (visible : ¬ (c.toNat < 0x20 ∨ c.toNat = 0x7F)) (quote : c ≠ '"')
    (backslash : c ≠ '\\') (cs : List Char) :
    basic? false .no (c :: cs) = (basic? false .no cs).map (Scanned.push c) := by
  have lineEnd : c ≠ '\n' := by
    rintro rfl
    exact visible (.inl (by decide))
  have allowed : isTextChar c = true := by
    simp only [isTextChar, Bool.or_eq_true, beq_iff_eq, Bool.and_eq_true, decide_eq_true_eq,
      bne_iff_ne]
    omega
  have still : ¬ (Joining.no = .skipping ∧ (c = ' ' ∨ c = '\t' ∨ c = '\n')) := fun h => nomatch h.1
  rw [basic?, if_neg still, if_neg lineEnd, if_pos ⟨allowed, backslash⟩]
  · exact quote
  · exact fun _ _ _ _ _ same _ => backslash same
  · exact fun _ _ _ _ _ _ _ _ _ same _ => backslash same
  · exact fun _ _ same _ => backslash same
  · exact nofun

/-- **Each character comes back** from the way it is written.  The cases are those of the writer,
and there is one lemma for each way of writing. -/
theorem basic?_escape (c : Char) (cs : List Char) :
    basic? false .no (escape c ++ cs) = (basic? false .no cs).map (Scanned.push c) := by
  unfold escape
  split
  case h_8 =>
    split
    · next control => exact basic?_control control cs
    · next visible => exact basic?_plain visible ‹_› ‹_› cs
  all_goals exact basic?_letter rfl cs

/-- A text comes back up to the closing quote; every quote in it is written with a backslash. -/
theorem basic?_flatMap (text rest : List Char) :
    basic? false .no (text.flatMap escape ++ '"' :: rest) = some ⟨text, false, rest⟩ := by
  induction text with
  | nil => rw [List.flatMap_nil, List.nil_append, basic?]; rfl; exact nofun
  | cons c text ih =>
    rw [List.flatMap_cons, List.append_assoc, basic?_escape, ih]
    rfl

/-- No character is written with a quote at the front, the quote itself included. -/
theorem exists_escape_eq_cons (c : Char) : ∃ d ds, escape c = d :: ds ∧ d ≠ '"' := by
  unfold escape
  split
  case h_8 =>
    split
    · exact ⟨_, _, rfl, by decide⟩
    · exact ⟨c, [], rfl, ‹_›⟩
  all_goals exact ⟨_, _, rfl, by decide⟩

theorem toList_quoted_append (s : String) (rest : List Char) :
    (quoted s).toList ++ rest = '"' :: (s.toList.flatMap escape ++ '"' :: rest) := by
  simp [quoted]

/-- A text is read up to its closing quotes.  They are not three in a row, not even if it is empty.
-/
theorem first?_quoted (s : String) {rest : List Char} (ends : rest.head? ≠ some '"') :
    first? ((quoted s).toList ++ rest) = some (.string s.toList false false, rest) := by
  have single (cs : List Char) : s.toList.flatMap escape ++ '"' :: rest ≠ '"' :: '"' :: cs := by
    intro quotes
    cases text : s.toList with
    | nil =>
      rw [text] at quotes
      obtain rfl := (List.cons.inj quotes).2
      exact ends rfl
    | cons c text =>
      obtain ⟨d, ds, eq, other⟩ := exists_escape_eq_cons c
      rw [text, List.flatMap_cons, eq] at quotes
      exact other (List.cons.inj quotes).1
  rw [toList_quoted_append, first?, basic?_flatMap]
  · rfl
  · exact single

theorem hexDigit_ne_return {n : Nat} (small : n < 0x10) : hexDigit n ≠ '\r' := by
  decide +revert

/-- The written form of a character has no carriage return in it: this one has a letter of its own.
-/
theorem not_mem_escape (c : Char) : '\r' ∉ escape c := by
  unfold escape
  split
  case h_8 =>
    split
    · next control =>
      have high := hexDigit_ne_return (n := c.toNat / 16) (by omega)
      have low := hexDigit_ne_return (n := c.toNat % 16) (by omega)
      simp [high.symm, low.symm]
    · next visible =>
      intro mem
      obtain rfl := List.mem_singleton.1 mem
      exact visible (.inl (by decide))
  all_goals decide

/-- So there is none in a text in quotes, and folding line ends leaves it alone. -/
theorem not_mem_quoted (s : String) : '\r' ∉ (quoted s).toList := by
  simp [quoted, not_mem_escape]

/-! ## Words and signs

The first token of a text, and from it the tokens of the whole (`scan?_of_first?`). -/

/-- A word is read up to the first character that cannot belong to it.  Words are made of letters,
digits, underscores and hyphens, and none of these is the first character of any other token. -/
theorem first?_word {cs rest : List Char} (some : cs ≠ []) (word : ∀ c ∈ cs, isWordChar c)
    (ends : ∀ c ∈ rest.head?, isWordChar c = false) :
    first? (cs ++ rest) = .some (.word cs, rest) := by
  obtain ⟨c, cs, rfl⟩ := List.exists_cons_of_ne_nil some
  obtain ⟨first, others⟩ := List.forall_mem_cons.1 word
  have other {d : Char} (sign : isWordChar d = false) : c ≠ d := by
    rintro rfl
    exact Bool.false_ne_true (sign.symm.trans first)
  have blank : ¬ (c = ' ' ∨ c = '\t') := not_or.2 ⟨other rfl, other rfl⟩
  rw [List.cons_append, first?, if_neg blank, if_pos first,
    Text.takeWhile_append_of_stops others ends, Text.dropWhile_append_of_stops others ends]
  all_goals
    intros
    exact other rfl ‹_›

/-- A single blank is read as such if none follows. -/
theorem first?_blank {c : Char} (stops : ¬ (c = ' ' ∨ c = '\t')) (rest : List Char) :
    first? (' ' :: c :: rest) = some (.blank true, c :: rest) := by
  have none : (c :: rest).takeWhile (fun c => decide (c = ' ' ∨ c = '\t')) = [] :=
    List.takeWhile_cons_of_neg (by simpa using stops)
  have all : (c :: rest).dropWhile (fun c => decide (c = ' ' ∨ c = '\t')) = c :: rest :=
    List.dropWhile_cons_of_neg (by simpa using stops)
  rw [first?, if_pos (.inl rfl), none, all]
  · rfl
  all_goals exact nofun

theorem exists_blank_of_first? {c : Char} (blank : c = ' ' ∨ c = '\t') (cs : List Char) :
    ∃ single rest, first? (c :: cs) = some (.blank single, rest) := by
  rcases blank with rfl | rfl <;> exact ⟨_, _, rfl⟩

/-- **One token and the others**: the reader of tokens has no state but the text that is left.  The
reader is by recursion on what is left, so an equation for it would have to name the proof that less
is left.  This lemma takes its place: all later proofs go from one token to the next by it. -/
theorem scan?_of_first? {cs rest : List Char} {t : Token} (first : first? cs = some (t, rest)) :
    scan? cs = (scan? rest).map (t :: ·) := by
  fun_cases scan? cs with
  | case1 empty =>
    rw [List.isEmpty_iff.1 empty] at first
    cases first
  | case2 _ none => exact nomatch none.symm.trans first
  | case3 _ _ _ found =>
    obtain ⟨rfl, rfl⟩ := Prod.mk.inj (Option.some.inj (found.symm.trans first))
    rfl

theorem scan?_newline (rest : List Char) :
    scan? ('\n' :: rest) = (scan? rest).map (.newline :: ·) :=
  scan?_of_first? rfl

theorem scan?_equals (rest : List Char) : scan? ('=' :: rest) = (scan? rest).map (.equals :: ·) :=
  scan?_of_first? rfl

theorem scan?_leftBracket (rest : List Char) :
    scan? ('[' :: rest) = (scan? rest).map (.leftBracket :: ·) :=
  scan?_of_first? rfl

theorem scan?_rightBracket (rest : List Char) :
    scan? (']' :: rest) = (scan? rest).map (.rightBracket :: ·) :=
  scan?_of_first? rfl

/-- Line ends that are line feeds already. -/
theorem foldLineEnds_of_not_mem {cs : List Char} (none : '\r' ∉ cs) : foldLineEnds cs = cs := by
  induction cs with
  | nil => rfl
  | cons c cs ih =>
    obtain ⟨first, others⟩ := not_or.1 (mt List.mem_cons.2 none)
    rw [foldLineEnds, ih others]
    rintro _ rfl _
    exact first rfl

end Token

end Tabletop.Toml
