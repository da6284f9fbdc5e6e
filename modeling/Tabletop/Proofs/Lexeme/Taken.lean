import Tabletop.Proofs.Lexeme.Covering
import Tabletop.Proofs.Lexeme.Reading

/-!
# Where a lexeme was taken

Every lexeme that the loop of the lexer reads was taken at the front of a text that begins with its
own text.  This module says so of one lexeme and of a whole sequence, with the gaps before each of
them.  What the lexeme says then follows from its text (`Lexeme.TakenBefore.reads`).

The invariant of the loop in `Covering` forgets the rules and keeps the spans.  This one forgets the
spans and keeps the rules: which text each lexeme was taken from, with the text behind it.  It is
what any statement about single lexemes begins with.
-/

namespace Tabletop

open Text (utf8Length)

/-- The first rule that takes something of a text takes this lexeme, and leaves the rest. -/
def Lexeme.TakenBefore (context : LexContext) (l : Lexeme) (rest : List Char) : Prop :=
  Rule.firstMatch context (l.written.toList ++ rest) =
    some (.lexeme l.kind l.data.toList l.conditionals, rest)

/-- What a lexeme says and how it is written, without its place. -/
def Lexeme.content (l : Lexeme) : LexemeKind × String × String × Option (List Conditional) :=
  (l.kind, l.data, l.written, l.conditionals)

variable {context : LexContext} {position stop : Nat} {cs rest : List Char} {l : Lexeme}
  {ls lexemes : List Lexeme}

/-- A lexeme that is no reference is written in one of the ways in which lexemes are. -/
theorem Lexeme.TakenBefore.reads (taken : l.TakenBefore context rest)
    (plain : ∀ document, l.kind ≠ .reference document) :
    Rule.Reads context l.written.toList rest l.kind l.data.toList l.conditionals := by
  obtain ⟨w, whole, reads⟩ := Rule.reads_of_firstMatch plain taken
  rwa [List.append_cancel_right whole]

/-- No rule takes nothing, so that every lexeme has a text. -/
theorem Lexeme.TakenBefore.written_ne_nil (taken : l.TakenBefore context rest) :
    l.written.toList ≠ [] := by
  intro empty
  have short := Rule.length_of_firstMatch taken
  rw [empty] at short
  exact Nat.lt_irrefl _ short

namespace Scans

/-! ## Scans

A scan is followed from lexeme to lexeme.  What is left of the text after some of them is what the
next one was read from. -/

/-- The first lexeme of a sequence stands behind a gap, and the loop goes on behind it. -/
theorem exists_cons (h : Scans context position cs (l :: ls) stop rest) :
    ∃ between after, cs = between ++ (l.written.toList ++ after) ∧
      l.span.start = position + utf8Length between ∧
      l.TakenBefore context after ∧ Scans context l.span.stop after ls stop rest := by
  generalize all : l :: ls = lexemes at h
  induction h with
  | refl => cases all
  | @skip position stop cs after rest lexemes found _ ih =>
    obtain ⟨between, left, eq, start, taken, more⟩ := ih all
    obtain ⟨whole, -⟩ := Rule.part_of_firstMatch found
    refine ⟨Rule.part cs after ++ between, left, ?_, ?_, taken, more⟩
    · rw [List.append_assoc, ← eq, whole]
    · rw [start, Text.utf8Length_append, Nat.add_assoc]
  | @lexeme position stop cs after rest data lexemes kind conditionals found more _ =>
    obtain ⟨rfl, rfl⟩ := List.cons.inj all
    obtain ⟨whole, -⟩ := Rule.part_of_firstMatch found
    refine ⟨[], after, ?_, rfl, ?_, more⟩
    · rw [List.nil_append, String.toList_ofList, whole]
    · rwa [Lexeme.TakenBefore, String.toList_ofList, String.toList_ofList, whole]

/-- Every lexeme was taken somewhere. -/
theorem taken (h : Scans context position cs lexemes stop rest) :
    ∀ l ∈ lexemes, ∃ after, l.TakenBefore context after := by
  induction lexemes generalizing position cs with
  | nil => exact List.forall_mem_nil _
  | cons l ls ih =>
    obtain ⟨_, after, -, -, taken, more⟩ := h.exists_cons
    exact List.forall_mem_cons.2 ⟨⟨after, taken⟩, ih more⟩

/-- The loop gets to every lexeme, and from there reads the others. -/
theorem drop (before : List Lexeme) (h : Scans context position cs (before ++ lexemes) stop rest) :
    ∃ position' cs', Scans context position' cs' lexemes stop rest := by
  induction before generalizing position cs with
  | nil => exact ⟨position, cs, h⟩
  | cons l before ih =>
    obtain ⟨_, _, -, -, -, more⟩ := h.exists_cons
    exact ih more

end Scans

/-- Every lexeme of a text was taken somewhere. -/
theorem exists_takenBefore_of_tokenize {text : String} (h : tokenize context text = .ok lexemes)
    (mem : l ∈ lexemes) : ∃ rest, l.TakenBefore context rest := by
  obtain ⟨_, scans⟩ := scans_of_scan_ok h
  exact scans.taken l mem

/-! ## The loop from the front

Where the first rule that takes something is known, one step of the loop can be made.  Texts that
are put together from lexemes are read by as many steps. -/

/-- The lexer takes a part at the front and goes on behind it. -/
theorem scan_append {front : List Char} {take : Take}
    (found : Rule.firstMatch context (front ++ rest) = some (take, rest)) :
    scan context position (front ++ rest) =
      (scan context (position + utf8Length front) rest).map fun lexemes =>
        match take with
        | .skip => lexemes
        | .lexeme kind data conditionals =>
          ⟨kind, String.ofList data, String.ofList front, conditionals,
            ⟨position, position + utf8Length front⟩⟩ :: lexemes := by
  have nonempty : ¬ (front ++ rest).isEmpty := by
    intro empty
    rw [List.isEmpty_iff.1 empty] at found
    exact absurd (Rule.length_of_firstMatch found) (Nat.not_lt_zero _)
  rw [scan, if_neg nonempty]
  split
  · next refused => cases found.symm.trans refused
  · next found' =>
    cases found.symm.trans found'
    simp only [Rule.part_of_append]
    cases scan context (position + utf8Length front) rest with
    | error e => rfl
    | ok lexemes => cases take <;> rfl

theorem scan_lexeme {written data : List Char} {kind : LexemeKind}
    {conditionals : Option (List Conditional)}
    (found : Rule.firstMatch context (written ++ rest) =
      some (.lexeme kind data conditionals, rest))
    (more : scan context (position + utf8Length written) rest = .ok lexemes) :
    scan context position (written ++ rest) =
      .ok (⟨kind, String.ofList data, String.ofList written, conditionals,
        ⟨position, position + utf8Length written⟩⟩ :: lexemes) := by
  rw [scan_append found, more]
  rfl

theorem scan_skip {front : List Char}
    (found : Rule.firstMatch context (front ++ rest) = some (.skip, rest))
    (more : scan context (position + utf8Length front) rest = .ok lexemes) :
    scan context position (front ++ rest) = .ok lexemes := by
  rw [scan_append found, more]
  rfl

/-! ## Notations of one lexeme

Such a notation is decided by the rules alone. -/

/-- A notation is one lexeme from its front to its end if the first rule that takes something takes
all of it. -/
theorem tokenize_eq_singleton_iff {text : String} (whole : l.written = text)
    (span : l.span = ⟨0, utf8Length text.toList⟩) :
    tokenize context text = .ok [l] ↔ l.TakenBefore context [] := by
  subst whole
  constructor
  · intro read
    obtain ⟨stop, scans⟩ := scans_of_scan_ok read
    obtain ⟨between, after, eq, -, taken, -⟩ := scans.exists_cons
    have size := congrArg List.length eq
    rw [List.length_append, List.length_append] at size
    obtain rfl : after = [] := List.length_eq_zero_iff.1 (by omega)
    exact taken
  · intro taken
    have more : scan context (0 + utf8Length l.written.toList) [] = .ok [] := by
      rw [scan]
      rfl
    have read := scan_lexeme taken more
    rw [List.append_nil, Nat.zero_add, String.ofList_toList, String.ofList_toList, ← span] at read
    exact read

end Tabletop
