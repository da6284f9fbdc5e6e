import Tabletop.Engine
import Tabletop.Proofs.Text.Blank
import Tabletop.Proofs.Text.Entities

/-!
# Notations in documents

A notation may be written in a document in many ways: with a marker before it and a flag behind it,
with white space around both, with backslashes before its bars, and with entities for some of its
characters.  Whichever way is taken, the notation is found again (`Engine.prepare_of_writes`).

The parts are removed one kind after the other, each from the whole text that the removal before it
has left, and so it has to be seen that they cannot be confused.

* Ampersands come in entities only, so that decoding is done in the order of the text and leaves
  nothing to be decoded (`Document.Spelled.decode`).
* The notation itself has no backslash, so that every one of them stands before a bar
  (`Document.Escaped.unescape`).
* The flag begins with its only bar.  It does not occur in the notation, and then it does not occur
  across its end either (`Text.replaceAll_append_word`).

How the proof goes.  The text is followed through the removals in the order of the code: decoding
turns it into the notation with backslashes before some bars, and the flag and the marker as they
are (`Spelled.decode`, `decode_ending`); trimming takes the white space at both ends; and what
remains after the marker is taken off is brought back to the notation (`unflag`).  At each step the
question is the same, whether what is to be removed could also lie across the border of two parts,
and it is answered by a character that only one of them has.
-/

namespace Tabletop

open Text (Blank isBlank replaceAll decodeEntities)

namespace Text

variable {word cs rest : List Char}

theorem dropWord?_append (word rest : List Char) : dropWord? word (word ++ rest) = some rest := by
  induction word with
  | nil => rfl
  | cons c word ih => exact (if_pos (beq_self_eq_true c)).trans ih

theorem dropWord?_eq_none (absent : ¬ word <+: cs) : dropWord? word cs = none := by
  induction word generalizing cs with
  | nil => exact absurd List.nil_prefix absent
  | cons w word ih =>
    cases cs with
    | nil => rfl
    | cons c cs =>
      unfold dropWord?
      split
      · next same =>
        obtain rfl := eq_of_beq same
        exact ih fun more => absent (List.cons_prefix_cons.2 ⟨rfl, more⟩)
      · rfl

end Text

namespace Document

/-- The text that may stand before a notation. -/
def marker : List Char :=
  "dice:".toList

/-- The text that may stand behind a notation. -/
def flag : List Char :=
  "|nodice".toList

/-- The ways in which a character of a notation may be written. -/
def spellings : Char → List (List Char)
  | '&' => ["&amp;".toList]
  | '>' => [['>'], "&gt;".toList]
  | '<' => [['<'], "&lt;".toList]
  | '"' => [['"'], "&quot;".toList]
  | '\'' => [['\''], "&#39;".toList, "&apos;".toList]
  | '|' => [['|'], ['\\', '|']]
  | c => [[c]]

/-- The second text is the first with each of its characters written in some way. -/
inductive Spelled : List Char → List Char → Prop
  | nil : Spelled [] []
  | cons {c : Char} {n part cs : List Char} (spelling : part ∈ spellings c) (others : Spelled n cs) :
    Spelled (c :: n) (part ++ cs)

/-- What may stand behind a notation: the flag, also with a backslash before its bar, or nothing. -/
def flags : List (List Char) :=
  [[], flag, '\\' :: flag]

theorem mem_flags {ending : List Char} :
    ending ∈ flags ↔ ending = [] ∨ ending = flag ∨ ending = '\\' :: flag := by
  simp only [flags, List.mem_cons, List.not_mem_nil, or_false]

/-- The ways in which a notation may be written. -/
inductive Writes (n : List Char) : List Char → Prop
  | unmarked {before cs ending after : List Char} (outer : Blank before) (outer' : Blank after)
      (noMarker : ¬ marker <+: n) (spelled : Spelled n cs) (isFlag : ending ∈ flags) :
      Writes n (before ++ (cs ++ (ending ++ after)))
  | marked {before gap cs ending after : List Char} (outer : Blank before) (outer' : Blank after)
      (inner : Blank gap) (spelled : Spelled n cs) (isFlag : ending ∈ flags) :
      Writes n (before ++ (marker ++ (gap ++ (cs ++ (ending ++ after)))))

/-- A notation that can be told from what is written around it: it has no white space around it, no
backslash, and no flag. -/
structure IsPlain (n : List Char) : Prop where
  trimmed : Text.trim n = n
  noBackslash : '\\' ∉ n
  noFlag : ¬ flag <:+: n

/-! ## Entities -/

/-- The second text is the first with backslashes before some of its bars. -/
inductive Escaped : List Char → List Char → Prop
  | nil : Escaped [] []
  | cons (c : Char) {n m : List Char} (others : Escaped n m) : Escaped (c :: n) (c :: m)
  | bar {n m : List Char} (others : Escaped n m) : Escaped ('|' :: n) ('\\' :: '|' :: m)

variable {n m cs part ending gap rest : List Char} {c : Char}

/-- A character is written as itself, as an entity, or behind a backslash.  The cases are the
characters that have a spelling of their own, and all others together. -/
theorem spelling_cases (spelling : part ∈ spellings c) :
    part = [c] ∧ c ≠ '&' ∨ (part, c) ∈ Text.entityTable ∨ part = ['\\', '|'] ∧ c = '|' := by
  unfold spellings at spelling
  split at spelling
  case h_1 => exact .inr (.inl (List.mem_singleton.1 spelling ▸ by decide +kernel))
  case h_6 =>
    rcases List.mem_cons.1 spelling with rfl | escaped
    · exact .inl ⟨rfl, by decide⟩
    · exact .inr (.inr ⟨List.mem_singleton.1 escaped, rfl⟩)
  case h_7 other _ _ _ _ _ => exact .inl ⟨List.mem_singleton.1 spelling, other⟩
  -- The characters that may be written as themselves or as entities.
  all_goals
    rcases List.mem_cons.1 spelling with rfl | entity
    · exact .inl ⟨rfl, by decide⟩
    · refine .inr (.inl ?_)
      revert part
      decide +kernel

/-- **Decoding leaves the backslashes.** What stands behind the notation is decoded by itself.  The
induction is on the characters of the notation. -/
theorem Spelled.decode (spelled : Spelled n cs) :
    ∃ m, Escaped n m ∧ ∀ rest, decodeEntities (cs ++ rest) = m ++ decodeEntities rest := by
  induction spelled with
  | nil => exact ⟨[], .nil, fun _ => rfl⟩
  | @cons c n part cs spelling _ ih =>
    obtain ⟨m, escaped, decoded⟩ := ih
    rcases spelling_cases spelling with ⟨rfl, other⟩ | entity | ⟨rfl, rfl⟩
    · refine ⟨c :: m, .cons c escaped, fun rest => ?_⟩
      -- A character that stands for itself is no ampersand, so decoding passes over it.
      have absent : '&' ∉ [c] := by simpa using other.symm
      rw [List.append_assoc, Text.decodeEntities_append absent, decoded]
      rfl
    · refine ⟨c :: m, .cons c escaped, fun rest => ?_⟩
      rw [List.append_assoc, Text.decodeEntities_entity entity, decoded]
      rfl
    · refine ⟨'\\' :: '|' :: m, .bar escaped, fun rest => ?_⟩
      rw [List.append_assoc, Text.decodeEntities_append (by decide), decoded]
      rfl

/-! ## Backslashes -/

namespace Escaped

/-- Backslashes before bars are taken away, and there are no others. -/
theorem unescape (escaped : Escaped n m) (noBackslash : '\\' ∉ n) (rest : List Char) :
    replaceAll ['\\', '|'] ['|'] (m ++ rest) = n ++ replaceAll ['\\', '|'] ['|'] rest := by
  induction escaped with
  | nil => rfl
  | @cons c n m _ ih =>
    obtain ⟨other, noBackslash⟩ := not_or.1 (mt List.mem_cons.2 noBackslash)
    have notHere : ¬ ['\\', '|'] <+: c :: (m ++ rest) := fun here =>
      other (List.cons_prefix_cons.1 here).1
    rw [List.cons_append, Text.replaceAll_cons notHere, ih noBackslash, List.cons_append]
  -- The backslash and the bar are the word, and a bar takes their place.
  | @bar n m _ ih =>
    have word := Text.replaceAll_word '\\' ['|'] ['|'] (m ++ rest)
    rw [ih (List.not_mem_of_not_mem_cons noBackslash)] at word
    exact word

/-- A text does not begin otherwise than the notation, but for a backslash. -/
theorem head (escaped : Escaped n m) : ∀ c ∈ m.head?, c ∈ n.head? ∨ c = '\\' := by
  intro c mem
  cases escaped with
  | nil => cases mem
  | cons => exact .inl mem
  | bar => exact .inr (Option.some.inj mem).symm

/-- Nor does it end otherwise, since a backslash is before a bar. -/
theorem getLast (escaped : Escaped n m) : m.getLast? = n.getLast? := by
  induction escaped with
  | nil => rfl
  | cons c _ ih => rw [List.getLast?_cons, List.getLast?_cons, ih]
  | bar _ ih => rw [List.getLast?_cons, List.getLast?_cons, List.getLast?_cons, ih]; rfl

/-- A word without bars and backslashes is at the front of the notation if it is at the front of the
text.  The induction is on the notation; where it ends, the word would have to go on in the flag. -/
theorem prefix_of_prefix (escaped : Escaped n m) (isFlag : ending ∈ flags) {word : List Char}
    (noBar : '|' ∉ word) (noBackslash : '\\' ∉ word) (front : word <+: m ++ ending) : word <+: n := by
  induction escaped generalizing word with
  | nil =>
    cases word with
    | nil => exact List.nil_prefix
    | cons w word =>
      have first : ending.head? = some w := by
        obtain ⟨_, rfl⟩ := front
        rfl
      rcases mem_flags.1 isFlag with rfl | rfl | rfl
      · cases first
      · exact absurd (Option.some.inj first ▸ .head _) noBar
      · exact absurd (Option.some.inj first ▸ .head _) noBackslash
  | cons c _ ih =>
    cases word with
    | nil => exact List.nil_prefix
    | cons w word =>
      obtain ⟨rfl, more⟩ := List.cons_prefix_cons.1 front
      exact List.cons_prefix_cons.2 ⟨rfl, ih (List.not_mem_of_not_mem_cons noBar)
        (List.not_mem_of_not_mem_cons noBackslash) more⟩
  | bar _ ih =>
    cases word with
    | nil => exact List.nil_prefix
    | cons w word => exact absurd ((List.cons_prefix_cons.1 front).1 ▸ .head _) noBackslash

/-! ## White space

Trimming stops at the notation, at its front and at its end, since the notation is trimmed itself
and the flag has no white space. -/

/-- The first character that is left is not white space. -/
theorem isBlank_head (escaped : Escaped n m) (isFlag : ending ∈ flags) (trimmed : Text.trim n = n) :
    ∀ c ∈ (m ++ ending).head?, isBlank c = false := by
  intro c mem
  rw [List.head?_append, Option.mem_def, Option.or_eq_some_iff] at mem
  rcases mem with first | ⟨-, first⟩
  · rcases escaped.head c first with mem | rfl
    · exact Text.head_of_trim_eq_self trimmed c mem
    · rfl
  · rcases mem_flags.1 isFlag with rfl | rfl | rfl
    · cases first
    · obtain rfl := Option.some.inj first
      rfl
    · obtain rfl := Option.some.inj first
      rfl

theorem isBlank_getLast (escaped : Escaped n m) (isFlag : ending ∈ flags)
    (trimmed : Text.trim n = n) : ∀ c ∈ (m ++ ending).getLast?, isBlank c = false := by
  intro c mem
  rw [List.getLast?_append, Option.mem_def, Option.or_eq_some_iff] at mem
  rcases mem with last | ⟨-, last⟩
  · rcases mem_flags.1 isFlag with rfl | rfl | rfl
    · cases last
    · obtain rfl := Option.some.inj last
      rfl
    · obtain rfl := Option.some.inj last
      rfl
  · exact Text.getLast_of_trim_eq_self trimmed c (escaped.getLast ▸ last)

end Escaped

/-! ## The marker and the flag

Here the parts are put together. -/

/-- What is left of a text behind its marker is the notation, with the flag and white space. -/
theorem unflag (plain : IsPlain n) (escaped : Escaped n m) (isFlag : ending ∈ flags)
    (blank : Blank gap) :
    Text.trim (replaceAll flag [] (replaceAll ['\\', '|'] ['|'] (gap ++ (m ++ ending)))) = n := by
  -- Without the backslashes there is the flag as it is, or nothing.
  have unescaped : ∃ ending' ∈ [[], flag],
      replaceAll ['\\', '|'] ['|'] (gap ++ (m ++ ending)) = gap ++ (n ++ ending') := by
    rw [Text.replaceAll_append (blank.not_mem rfl), escaped.unescape plain.noBackslash]
    rcases mem_flags.1 isFlag with rfl | rfl | rfl
    · exact ⟨[], .head _, rfl⟩
    · exact ⟨flag, .tail _ (.head _), rfl⟩
    · exact ⟨flag, .tail _ (.head _), rfl⟩
  obtain ⟨ending', either, eq⟩ := unescaped
  have shape : flag = '|' :: "nodice".toList := rfl
  -- The flag is found behind the notation, and nowhere else.
  have unflagged : replaceAll flag [] (n ++ ending') = n := by
    have absent := plain.noFlag
    simp only [List.mem_cons, List.not_mem_nil, or_false] at either
    rcases either with rfl | rfl
    · rw [List.append_nil, Text.replaceAll_eq_self absent]
    · rw [shape] at absent ⊢
      rw [Text.replaceAll_append_word (by decide) absent, List.append_nil]
  have whole : replaceAll flag [] (gap ++ (n ++ ending')) = gap ++ n ++ [] := by
    rw [shape, Text.replaceAll_append (blank.not_mem rfl), ← shape, unflagged, List.append_nil]
  rw [eq, whole, Text.trim_append blank Text.blank_nil, plain.trimmed]

/-- The marker and the white space behind it are told from the notation. -/
theorem trim_marked (plain : IsPlain n) (escaped : Escaped n m) (isFlag : ending ∈ flags)
    {before after : List Char} (outer : Blank before) (outer' : Blank after) (inner : Blank gap) :
    ∃ gap', Blank gap' ∧
      Text.trim (before ++ (marker ++ (gap ++ (m ++ ending))) ++ after) =
        marker ++ (gap' ++ (m ++ ending)) := by
  have first : ∀ c ∈ marker.head?, isBlank c = false := by
    intro c mem
    obtain rfl := Option.some.inj mem
    rfl
  by_cases empty : m ++ ending = []
  · -- The white space behind the marker is at the end, and is trimmed with the rest.
    have last : ∀ c ∈ marker.getLast?, isBlank c = false := by
      intro c mem
      obtain rfl := Option.some.inj mem
      rfl
    have behind : Blank (gap ++ after) := List.forall_mem_append.2 ⟨inner, outer'⟩
    have shape : before ++ (marker ++ (gap ++ (m ++ ending))) ++ after =
        before ++ marker ++ (gap ++ after) := by
      simp [empty]
    refine ⟨[], Text.blank_nil, ?_⟩
    rw [shape, Text.trim_append_eq_self outer behind first last, empty]
    rfl
  · refine ⟨gap, inner, Text.trim_append_eq_self outer outer' first ?_⟩
    rw [← List.append_assoc, List.getLast?_append_of_ne_nil _ empty]
    exact escaped.isBlank_getLast isFlag plain.trimmed

/-- White space has no entities. -/
theorem decode_blank (blank : Blank gap) (rest : List Char) :
    decodeEntities (gap ++ rest) = gap ++ decodeEntities rest :=
  Text.decodeEntities_append (blank.not_mem rfl)

/-- The end of a text has no entities. -/
theorem decode_ending {after : List Char} (isFlag : ending ∈ flags) (blank : Blank after) :
    decodeEntities (ending ++ after) = ending ++ after := by
  have noEntity : '&' ∉ ending := by
    rcases mem_flags.1 isFlag with rfl | rfl | rfl <;> decide
  have alone := decode_blank blank []
  rw [List.append_nil] at alone
  rw [Text.decodeEntities_append noEntity, alone]
  exact congrArg (ending ++ ·) (List.append_nil after)

/-- Trimmed and without its marker, a decoded text is brought back to the notation. -/
theorem bare_of_unmarked (plain : IsPlain n) (escaped : Escaped n m) (isFlag : ending ∈ flags)
    (blank : Blank gap) {trimmed : List Char} (decoded : Text.trim (decodeEntities cs) = trimmed)
    (unmarked : (Text.dropWord? marker trimmed).getD trimmed = gap ++ (m ++ ending)) :
    Engine.bare cs = n := by
  have steps : Engine.bare cs = Text.trim (replaceAll flag [] (replaceAll ['\\', '|'] ['|']
      ((Text.dropWord? marker (Text.trim (decodeEntities cs))).getD
        (Text.trim (decodeEntities cs))))) := rfl
  rw [steps, decoded, unmarked, unflag plain escaped isFlag blank]

/-- **Every way of writing a notation is undone.** -/
theorem bare_of_writes (plain : IsPlain n) (writes : Writes n cs) : Engine.bare cs = n := by
  cases writes with
  | @unmarked before cs ending after outer outer' noMarker spelled isFlag =>
    obtain ⟨m, escaped, decoded⟩ := spelled.decode
    have trimmed : Text.trim (decodeEntities (before ++ (cs ++ (ending ++ after)))) = m ++ ending := by
      rw [decode_blank outer, decoded, decode_ending isFlag outer', ← List.append_assoc m,
        ← List.append_assoc]
      exact Text.trim_append_eq_self outer outer' (escaped.isBlank_head isFlag plain.trimmed)
        (escaped.isBlank_getLast isFlag plain.trimmed)
    have noMarker' : Text.dropWord? marker (m ++ ending) = none :=
      Text.dropWord?_eq_none fun front =>
        noMarker (escaped.prefix_of_prefix isFlag (by decide) (by decide) front)
    refine bare_of_unmarked plain escaped isFlag Text.blank_nil trimmed ?_
    rw [noMarker']
    rfl
  | @marked before gap cs ending after outer outer' inner spelled isFlag =>
    obtain ⟨m, escaped, decoded⟩ := spelled.decode
    obtain ⟨gap', blank, trimmed⟩ := trim_marked plain escaped isFlag outer outer' inner
    have noEntity : '&' ∉ marker := by decide
    have shape : decodeEntities (before ++ (marker ++ (gap ++ (cs ++ (ending ++ after))))) =
        before ++ (marker ++ (gap ++ (m ++ ending))) ++ after := by
      rw [decode_blank outer, Text.decodeEntities_append noEntity, decode_blank inner, decoded,
        decode_ending isFlag outer']
      simp
    refine bare_of_unmarked plain escaped isFlag blank (shape ▸ trimmed) ?_
    rw [Text.dropWord?_append]
    rfl

end Document

namespace Engine

/-- **Every way of writing a notation in a document gives the notation back**, or the formula that
the settings have under this name. -/
theorem prepare_of_writes (engine : Engine) {n cs : List Char} (plain : Document.IsPlain n)
    (writes : Document.Writes n cs) :
    engine.prepare (String.ofList cs) =
      (engine.settings.formulas.get? (String.ofList n)).elim (String.ofList n) fun formula =>
        String.ofList (Text.trim formula.toList) := by
  rw [prepare, String.toList_ofList, Document.bare_of_writes plain writes]
  cases engine.settings.formulas.get? (String.ofList n) <;> rfl

/-- Everything that may be written around a notation, and in place of its characters. -/
theorem prepare_of_writes_tag :
    Document.IsPlain "#q&a|+".toList ∧
      Document.Writes "#q&a|+".toList " dice: #q&amp;a\\|+\\|nodice\n".toList ∧
      ({} : Engine).prepare " dice: #q&amp;a\\|+\\|nodice\n" = "#q&a|+" := by
  have plain : Document.IsPlain "#q&a|+".toList :=
    ⟨by decide +kernel, by decide +kernel, by decide +kernel⟩
  have blank : Blank [' '] := List.forall_mem_singleton.2 rfl
  have lineEnd : Blank ['\n'] := List.forall_mem_singleton.2 rfl
  have spelled : Document.Spelled "#q&a|+".toList
      (['#'] ++ (['q'] ++ ("&amp;".toList ++ (['a'] ++ (['\\', '|'] ++ (['+'] ++ [])))))) :=
    .cons (.head _) (.cons (.head _) (.cons (.head _) (.cons (.head _)
      (.cons (.tail _ (.head _)) (.cons (.head _) .nil)))))
  have isFlag : '\\' :: Document.flag ∈ Document.flags := .tail _ (.tail _ (.head _))
  have writes := Document.Writes.marked blank lineEnd blank spelled isFlag
  have text : [' '] ++ (Document.marker ++ ([' '] ++ (['#'] ++ (['q'] ++ ("&amp;".toList ++
      (['a'] ++ (['\\', '|'] ++ (['+'] ++ []))))) ++ ('\\' :: Document.flag ++ ['\n'])))) =
      " dice: #q&amp;a\\|+\\|nodice\n".toList := by
    cbv
  have prepared := prepare_of_writes {} plain (text ▸ writes)
  rw [String.ofList_toList, String.ofList_toList] at prepared
  exact ⟨plain, text ▸ writes, prepared⟩

end Engine

end Tabletop
