import Mathlib
import Tabletop.Lexeme.Scan
import Tabletop.Proofs.Lexeme.Part

/-!
# The lexemes of a text cover it

The lexemes that the lexer returns, and the gaps that it leaves out, make up the text.  `Scans` is
the loop of the lexer as a relation: it says which lexemes are read from a text before a certain
rest is reached, and where this rest starts.  It is the same relation whether the loop goes on to
the end of the text or stops where no rule takes anything, so that one invariant serves both.

* `scans_of_scan_ok`, `scans_of_scan_error` — the lexer runs the loop to the end, or to a text that
  all rules refuse;
* `Tiles` — lexemes with gaps before, between and after them make up a text; `Scans.tiles` is the
  invariant of the loop;
* `Covers` — what this means for the spans, and `tokenize_covers` the result about whole texts.

Spans count bytes and the loop takes characters.  The invariant `Tiles` therefore measures each part
as it is taken; that a span starts and stops between characters is not a separate fact but comes
from the parts.  A gap is only known where it is left out, and it may be followed by another one.
Both are taken care of by `Tiles.skip`, which puts a gap before lexemes that are tiled already.
-/

namespace Tabletop

open Text (utf8Length isBlank)

variable {context : LexContext} {fields : String → Option Float}

theorem Text.utf8Length_append (cs ds : List Char) :
    utf8Length (cs ++ ds) = utf8Length cs + utf8Length ds := by
  induction cs with
  | nil => rw [List.nil_append, utf8Length, Nat.zero_add]
  | cons c cs ih => rw [List.cons_append, utf8Length, utf8Length, ih, Nat.add_assoc]

/-- The bytes of a string are counted character by character. -/
theorem Text.utf8ByteSize_ofList (cs : List Char) :
    (String.ofList cs).utf8ByteSize = utf8Length cs := by
  induction cs with
  | nil => rfl
  | cons c cs ih =>
    rw [String.ofList_cons, String.utf8ByteSize_append, String.utf8ByteSize_singleton, ih]
    rfl

/-- Every character has at least one byte, so that no part of a text that was taken has an empty
span. -/
theorem Text.utf8Length_pos {cs : List Char} (h : cs ≠ []) : 0 < utf8Length cs := by
  cases cs with
  | nil => exact (h rfl).elim
  | cons c cs => exact Nat.add_pos_left c.utf8Size_pos _

/-! ## The loop

The loop has three ends: the end of the text, a refusal, and a lexeme or gap with more of the text
behind.  The relation has no error in it, since where the loop fails it is in a state that it could
have gone on from. -/

/-- From a text at a byte the loop reads lexemes and gets to a rest of the text at another byte. -/
inductive Scans (context : LexContext) :
    (position : Nat) → (cs : List Char) → List Lexeme → (stop : Nat) → (rest : List Char) → Prop
  | refl {position : Nat} {cs : List Char} : Scans context position cs [] position cs
  | skip {position stop : Nat} {cs after rest : List Char} {lexemes : List Lexeme}
      (found : Rule.firstMatch context cs = some (.skip, after))
      (more : Scans context (position + utf8Length (Rule.part cs after)) after lexemes stop rest) :
      Scans context position cs lexemes stop rest
  | lexeme {position stop : Nat} {cs after rest data : List Char} {lexemes : List Lexeme}
      {kind : LexemeKind} {conditionals : Option (List Conditional)}
      (found : Rule.firstMatch context cs = some (.lexeme kind data conditionals, after))
      (more : Scans context (position + utf8Length (Rule.part cs after)) after lexemes stop rest) :
      Scans context position cs
        (⟨kind, String.ofList data, String.ofList (Rule.part cs after), conditionals,
          ⟨position, position + utf8Length (Rule.part cs after)⟩⟩ :: lexemes) stop rest

/-- Where the lexer succeeds, the loop has got to the end of the text. -/
theorem scans_of_scan_ok {position : Nat} {cs : List Char} {lexemes : List Lexeme}
    (h : scan context position cs = .ok lexemes) :
    ∃ stop, Scans context position cs lexemes stop [] := by
  fun_induction scan context position cs generalizing lexemes with
  | case1 position cs empty =>
    obtain rfl := Except.ok.inj h
    obtain rfl := List.isEmpty_iff.1 empty
    exact ⟨position, .refl⟩
  | case2 | case3 => cases h
  | case4 position cs _ after written stop lexemes more found _ =>
    rename_i ih
    obtain rfl := Except.ok.inj h
    obtain ⟨stop, scans⟩ := ih more
    exact ⟨stop, .skip found scans⟩
  | case5 position cs _ after written stop lexemes more kind data conditionals found _ =>
    rename_i ih
    obtain rfl := Except.ok.inj h
    obtain ⟨stop, scans⟩ := ih more
    exact ⟨stop, .lexeme found scans⟩

/-- Where the lexer fails, the loop has got to a text that all rules refuse. -/
theorem scans_of_scan_error {position : Nat} {cs : List Char} {e : LexError}
    (h : scan context position cs = .error e) :
    ∃ lexemes rest, Scans context position cs lexemes e.position rest ∧ rest ≠ [] ∧
      Rule.firstMatch context rest = none ∧
      e.slice = String.ofList (rest.takeWhile (!isBlank ·)) := by
  fun_induction scan context position cs with
  | case1 => cases h
  | case2 position cs nonempty refused =>
    obtain rfl := Except.error.inj h
    exact ⟨[], cs, .refl, fun none => nonempty (List.isEmpty_iff.2 none), refused, rfl⟩
  | case3 position cs _ take after found written stop e' more ih =>
    obtain rfl := Except.error.inj h
    obtain ⟨lexemes, rest, scans, refused⟩ := ih more
    cases take with
    | skip => exact ⟨lexemes, rest, .skip found scans, refused⟩
    | lexeme => exact ⟨_, rest, .lexeme found scans, refused⟩
  | case4 | case5 => cases h

/-! ## Lexemes with gaps between them

The invariant of the loop.  It says nothing about rules, only about texts. -/

/-- A text that starts at a byte is made up of lexemes, each at its span, and of gaps before,
between and after them. -/
inductive Tiles (fields : String → Option Float) :
    (position : Nat) → (cs : List Char) → List Lexeme → Prop
  | gap {position : Nat} {cs : List Char} (gap : Gap fields cs) : Tiles fields position cs []
  | lexeme {position : Nat} {between written cs : List Char} {l : Lexeme} {lexemes : List Lexeme}
      (gap : Gap fields between) (nonempty : written ≠ [])
      (reads : l.written = String.ofList written)
      (start : l.span.start = position + utf8Length between)
      (stop : l.span.stop = l.span.start + utf8Length written)
      (more : Tiles fields l.span.stop cs lexemes) :
      Tiles fields position (between ++ written ++ cs) (l :: lexemes)

/-- A gap at the front makes the first gap longer. -/
theorem Tiles.skip {position : Nat} {front cs : List Char} {lexemes : List Lexeme}
    (gap : Gap fields front) (h : Tiles fields (position + utf8Length front) cs lexemes) :
    Tiles fields position (front ++ cs) lexemes := by
  cases h with
  | gap more => exact .gap (gap.append more)
  | lexeme between nonempty reads start stop more =>
    rw [← List.append_assoc, ← List.append_assoc]
    refine .lexeme (gap.append between) nonempty reads ?_ stop more
    rw [start, Text.utf8Length_append, Nat.add_assoc]

/-- **The invariant of the loop.**  The lexemes read so far and the gaps left out make up the text
up to the place that the loop has got to. -/
theorem Scans.tiles {position stop : Nat} {cs rest : List Char} {lexemes : List Lexeme}
    (h : Scans context position cs lexemes stop rest) :
    ∃ front, cs = front ++ rest ∧ stop = position + utf8Length front ∧
      Tiles context.fields position front lexemes := by
  induction h with
  | refl => exact ⟨[], rfl, rfl, .gap .nil⟩
  | @skip position stop cs after rest lexemes found _ ih =>
    obtain ⟨front, rfl, length, tiles⟩ := ih
    obtain ⟨whole, -⟩ := Rule.part_of_firstMatch found
    refine ⟨Rule.part cs (front ++ rest) ++ front, ?_, ?_, ?_⟩
    · rw [List.append_assoc, whole]
    · rw [length, Text.utf8Length_append, Nat.add_assoc]
    · exact tiles.skip (Rule.gap_of_firstMatch found)
  | @lexeme position stop cs after rest data lexemes kind conditionals found _ ih =>
    -- The gap before this lexeme is empty; `Tiles.skip` makes it longer where one was left out.
    obtain ⟨front, rfl, length, tiles⟩ := ih
    obtain ⟨whole, nonempty⟩ := Rule.part_of_firstMatch found
    refine ⟨[] ++ Rule.part cs (front ++ rest) ++ front, ?_, ?_, ?_⟩
    · rw [List.nil_append, List.append_assoc, whole]
    · rw [length, List.nil_append, Text.utf8Length_append, Nat.add_assoc]
    · exact .lexeme .nil nonempty rfl rfl rfl tiles

/-! ## Spans

What a reader of the lexemes can check: the text at each span, and what stands between. -/

/-- A part of a text stands at a span: it starts and stops between characters of the text, at the
bytes of the span. -/
def Span.Reads (span : Span) (text part : String) : Prop :=
  ∃ before after, text = before ++ part ++ after ∧ before.utf8ByteSize = span.start ∧
    span.start + part.utf8ByteSize = span.stop

/-- A part reads at its span if the text before it ends there. -/
theorem Span.reads_ofList {span : Span} {before part : List Char} (after : List Char)
    (start : utf8Length before = span.start) (stop : span.start + utf8Length part = span.stop) :
    span.Reads (String.ofList (before ++ part ++ after)) (String.ofList part) := by
  refine ⟨String.ofList before, String.ofList after, ?_, ?_, ?_⟩
  · rw [String.ofList_append, String.ofList_append]
  · rw [Text.utf8ByteSize_ofList, start]
  · rw [Text.utf8ByteSize_ofList, stop]

/-- The spans before, between and after lexemes, from one byte to another. -/
def stretches (start : Nat) (lexemes : List Lexeme) (stop : Nat) : List Span :=
  match lexemes with
  | [] => [⟨start, stop⟩]
  | l :: lexemes => ⟨start, l.span.start⟩ :: stretches l.span.stop lexemes stop

/-- Lexemes cover a text from a byte on: their spans are not empty and follow one another, each
reads the text at its span, and all other text is gaps. -/
structure Covers (fields : String → Option Float) (text : String) (start : Nat)
    (lexemes : List Lexeme) : Prop where
  nonempty : ∀ l ∈ lexemes, l.span.start < l.span.stop
  inside : ∀ l ∈ lexemes, start ≤ l.span.start ∧ l.span.stop ≤ text.utf8ByteSize
  disjoint : lexemes.Pairwise fun a b => a.span.stop ≤ b.span.start
  reads : ∀ l ∈ lexemes, l.span.Reads text l.written
  gaps : ∀ span ∈ stretches start lexemes text.utf8ByteSize,
    ∃ gap, span.Reads text (String.ofList gap) ∧ Gap fields gap

/-- What tiles a text covers it.  The induction is on the lexemes, with the text before the first of
them as a parameter, since the spans count from the beginning of the whole text. -/
theorem Tiles.covers {position : Nat} {cs : List Char} {lexemes : List Lexeme}
    (h : Tiles fields position cs lexemes) (before : List Char)
    (start : utf8Length before = position) :
    Covers fields (String.ofList (before ++ cs)) position lexemes := by
  induction h generalizing before with
  | @gap position cs gap =>
    refine ⟨List.forall_mem_nil _, List.forall_mem_nil _, .nil, List.forall_mem_nil _, ?_⟩
    rw [stretches, List.forall_mem_singleton, Text.utf8ByteSize_ofList, Text.utf8Length_append]
    refine ⟨cs, ?_, gap⟩
    rw [← List.append_nil (before ++ cs), start]
    exact Span.reads_ofList [] start rfl
  | @lexeme position between written cs l lexemes gap nonempty reads starts stops more ih =>
    have whole : before ++ (between ++ written ++ cs) = before ++ between ++ written ++ cs := by
      rw [List.append_assoc, List.append_assoc, List.append_assoc]
    have startsAt : utf8Length (before ++ between) = l.span.start := by
      rw [Text.utf8Length_append, start, starts]
    have stopsAt : utf8Length (before ++ between ++ written) = l.span.stop := by
      rw [Text.utf8Length_append, startsAt, stops]
    have rest := ih _ stopsAt
    rw [whole]
    have length :
        l.span.stop ≤ (String.ofList (before ++ between ++ written ++ cs)).utf8ByteSize := by
      rw [Text.utf8ByteSize_ofList, Text.utf8Length_append, stopsAt]
      exact Nat.le_add_right _ _
    have long : l.span.start < l.span.stop := by
      have := Text.utf8Length_pos nonempty
      omega
    refine ⟨?_, ?_, ?_, ?_, ?_⟩
    · exact List.forall_mem_cons.2 ⟨long, rest.nonempty⟩
    · refine List.forall_mem_cons.2 ⟨⟨by omega, length⟩, fun l' mem => ?_⟩
      obtain ⟨after, inside⟩ := rest.inside l' mem
      exact ⟨by omega, inside⟩
    · exact List.pairwise_cons.2 ⟨fun l' mem => (rest.inside l' mem).1, rest.disjoint⟩
    · refine List.forall_mem_cons.2 ⟨?_, rest.reads⟩
      rw [reads]
      exact Span.reads_ofList cs startsAt stops.symm
    · rw [stretches, List.forall_mem_cons]
      refine ⟨⟨between, ?_, gap⟩, rest.gaps⟩
      rw [List.append_assoc (before ++ between)]
      exact Span.reads_ofList (written ++ cs) start starts.symm

/-! ## Whole texts

The loop from the first byte on. -/

theorem Rule.isBlank_eq_false_of_gap {c : Char} {cs : List Char}
    (h : gap context (c :: cs) = none) : isBlank c = false := by
  rw [Bool.eq_false_iff]
  intro blank
  rw [gap, if_pos blank] at h
  cases h

/-- **The lexemes of a text cover it.**  Every rule that takes something takes a part at the front
of the text that is not empty, so that the lexer comes to an end.  If it returns lexemes, they cover
the text.  If it fails, the lexemes read so far cover the text before the error; there all rules
refuse the text, and the error shows it up to the next blank. -/
theorem tokenize_covers (context : LexContext) (text : String) :
    (∀ cs take rest, Rule.firstMatch context cs = some (take, rest) →
      Rule.part cs rest ++ rest = cs ∧ Rule.part cs rest ≠ []) ∧
    (∀ lexemes, tokenize context text = .ok lexemes → Covers context.fields text 0 lexemes) ∧
    (∀ e, tokenize context text = .error e →
      ∃ before after lexemes, text = before ++ after ∧ before.utf8ByteSize = e.position ∧
        Scans context 0 text.toList lexemes e.position after.toList ∧
        Covers context.fields before 0 lexemes ∧
        (∀ rule ∈ Rule.all, rule context after.toList = none) ∧
        e.slice ≠ "" ∧ (∀ c ∈ e.slice.toList, isBlank c = false) ∧
        ∃ more, after = e.slice ++ more ∧ ∀ c, more.toList.head? = some c → isBlank c = true) := by
  refine ⟨fun _ _ _ found => Rule.part_of_firstMatch found, fun lexemes h => ?_, fun e h => ?_⟩
  · obtain ⟨stop, scans⟩ := scans_of_scan_ok h
    obtain ⟨front, whole, -, tiles⟩ := scans.tiles
    have covers := tiles.covers [] rfl
    rw [List.append_nil] at whole
    rw [List.nil_append, ← whole, String.ofList_toList] at covers
    exact covers
  · obtain ⟨lexemes, rest, scans, nonempty, refused, slice⟩ := scans_of_scan_error h
    obtain ⟨front, whole, stop, tiles⟩ := scans.tiles
    have covers := tiles.covers [] rfl
    have refusedAll := Rule.firstMatch_eq_none_iff.1 refused
    -- The gap rule is one of those that refuse, so the word at the error is not empty.
    obtain ⟨c, cs, rfl⟩ := List.exists_cons_of_ne_nil nonempty
    have word : isBlank c = false := Rule.isBlank_eq_false_of_gap (refusedAll _ (.head _))
    refine ⟨String.ofList front, String.ofList (c :: cs), lexemes, ?_, ?_, ?_, covers, ?_, ?_, ?_,
      String.ofList ((c :: cs).dropWhile (!isBlank ·)), ?_, ?_⟩
    · rw [← String.ofList_append, ← whole, String.ofList_toList]
    · rw [Text.utf8ByteSize_ofList, stop, Nat.zero_add]
    · rwa [String.toList_ofList]
    · rwa [String.toList_ofList]
    · rw [slice, List.takeWhile_cons_of_pos (by rw [word]; rfl), ← String.ofList_nil]
      exact fun empty => List.cons_ne_nil _ _ (String.ofList_injective empty)
    · intro d mem
      rw [slice, String.toList_ofList] at mem
      simpa using List.mem_takeWhile_imp mem
    · rw [slice, ← String.ofList_append, List.takeWhile_append_dropWhile]
    · intro d first
      rw [String.toList_ofList] at first
      have ends := List.head?_dropWhile_not (!isBlank ·) (c :: cs)
      rw [first] at ends
      simpa using ends

/-- A name in braces is a gap before the number, and a letter that no rule takes stops the lexer. -/
theorem tokenize_covers_name :
    let context : LexContext := ⟨{}, fun _ => none⟩
    let two : Lexeme := ⟨.dice, "2", "2", some [], ⟨5, 6⟩⟩
    tokenize context "{ab} 2" = .ok [two] ∧ Covers context.fields "{ab} 2" 0 [two] ∧
      tokenize context "é$ 2" = .error ⟨0, "é$"⟩ ∧
      ∀ rule ∈ Rule.all, rule context ['é', '$', ' ', '2'] = none := by
  intro context two
  have read : tokenize context "{ab} 2" = .ok [two] := by cbv
  have failed : tokenize context "é$ 2" = .error ⟨0, "é$"⟩ := by cbv
  obtain ⟨-, covers, -⟩ := tokenize_covers context "{ab} 2"
  obtain ⟨-, -, stops⟩ := tokenize_covers context "é$ 2"
  obtain ⟨before, after, lexemes, whole, position, -, -, refused, -⟩ := stops _ failed
  obtain rfl := String.utf8ByteSize_eq_zero_iff.1 position
  rw [String.empty_append] at whole
  rw [← whole] at refused
  exact ⟨read, covers _ read, failed, refused⟩

end Tabletop
