import Mathlib
import Tabletop.Engine
import Tabletop.Proofs.Expression.Fault
import Tabletop.Proofs.Lexeme.Covering

/-!
# Where parse errors lie

A parse error names a place by bytes, shows what stands there, and has the whole text.  The place is
that of a lexeme in the text from which the lexemes were read.  An engine gives this text to the
error.  Lexemes alone do not know it: the text of the error is then put together from them, and it
lacks the gaps between them, which the place still counts.

* `ParseError.LiesIn.reads` — in the text that the lexemes cover, what stands at the place of an
  error is what the error shows.
* `Engine.reads_of_parse_error` — so it is with the errors of an engine.
* `Covers.bytesBefore_add` — the bytes before a lexeme are those of lexemes and those of gaps.
* `ParseError.LiesIn.exists_split` — in the text of the lexemes, what an error shows stands behind
  the lexemes before it.
* `Expression.reads_of_joined_error` — so the place is too late there by the bytes of the gaps.

How the proof goes.  Where an error lies was settled in the module on faults: at a lexeme, or where
the last one ends.  Here the lexemes are put back into their text, which they cover with gaps
between them.  For the text that is put together from the lexemes the bytes have to be counted, and
the count is an induction over the covering that goes from the front, dropping one lexeme and the
gap before it at a time.
-/

namespace Tabletop

/-! ## The place in the text

In the text that was read nothing has to be counted, since every lexeme is where its span says. -/

namespace Span

variable {span : Span} {text part : String}

theorem Reads.stop_le (h : span.Reads text part) : span.stop ≤ text.utf8ByteSize := by
  obtain ⟨before, after, rfl, start, stop⟩ := h
  rw [String.utf8ByteSize_append, String.utf8ByteSize_append, start, stop]
  exact Nat.le_add_right _ _

/-- The empty text stands behind every part. -/
theorem Reads.behind (h : span.Reads text part) : Span.Reads ⟨span.stop, span.stop⟩ text "" := by
  obtain ⟨before, after, rfl, start, stop⟩ := h
  refine ⟨before ++ part, after, ?_, ?_, ?_⟩
  · rw [String.append_empty]
  · rw [String.utf8ByteSize_append, start, stop]
  · rw [String.utf8ByteSize_empty, Nat.add_zero]

end Span

variable {fields : String → Option Float} {text : String} {lexemes : List Lexeme} {e : ParseError}

theorem covers_of_tokenize {context : LexContext} (read : tokenize context text = .ok lexemes) :
    Covers context.fields text 0 lexemes := by
  obtain ⟨stop, scans⟩ := scans_of_scan_ok read
  obtain ⟨front, whole, -, tiles⟩ := scans.tiles
  have covers := tiles.covers [] rfl
  rw [List.append_nil] at whole
  rw [List.nil_append, ← whole, String.ofList_toList] at covers
  exact covers

/-- What stands at the place of an error is what the error shows, in the text that the lexemes
cover. -/
theorem ParseError.LiesIn.reads (h : e.LiesIn lexemes) (covers : Covers fields text 0 lexemes) :
    e.span.Reads text e.slice := by
  cases h with
  | on mem _ span slice =>
    rw [span, slice]
    exact covers.reads _ mem
  | atEnd _ span slice =>
    rw [span, slice, lastStop]
    cases last : lexemes.getLast? with
    -- Without lexemes the end of the last one is the front of the text.
    | none => exact ⟨"", text, by rw [String.append_empty, String.empty_append], rfl, rfl⟩
    | some l => exact (covers.reads l (List.mem_of_getLast? last)).behind

/-- **A parse error of an engine points at what it shows.**  It has the prepared text, its place is
between characters of this text, and there stands what it shows.  This is one of the lexemes of the
text, or nothing where the last of them ends. -/
theorem Engine.reads_of_parse_error (engine : Engine) (text : String) (e : ParseError)
    (failed : engine.parse text = .error (.parse e)) :
    e.written = engine.prepare text ∧ e.span.Reads e.written e.slice ∧
      ∃ lexemes, engine.lex e.written = .ok lexemes ∧ e.LiesIn lexemes := by
  unfold parse at failed
  rcases Except.bind_eq_error_iff.1 failed with lexed | ⟨lexemes, lexed, parsed⟩
  · obtain ⟨_, -, other⟩ := Except.mapError_eq_error_iff.1 lexed
    cases other
  · obtain ⟨e', within, same⟩ := Except.mapError_eq_error_iff.1 parsed
    obtain rfl := RollError.parse.inj same
    obtain ⟨written, lies⟩ := Expression.liesIn_of_ofLexemes within
    have read := Except.mapError_eq_ok_iff.1 lexed
    rw [written]
    exact ⟨rfl, lies.reads (covers_of_tokenize read), lexemes, read, lies⟩

/-- The text comes from a document, and its digits from two scripts.  The dice at its front take
eight bytes and seven characters. -/
theorem Engine.reads_of_parse_error_two_scripts :
    let e : ParseError := ⟨.modifierWithoutDice .keepHigh, ⟨11, 14⟩, "kh2", "1d6>=1٣ + kh2"⟩
    let last : ParseError := ⟨.unexpectedEnd, ⟨10, 10⟩, "", "1d6>=1٣ +"⟩
    (({} : Engine).parse "dice: 1d6&gt;=1٣ + kh2" = .error (.parse e) ∧
      e.span.Reads e.written e.slice) ∧
    (({} : Engine).parse "dice: 1d6&gt;=1٣ + " = .error (.parse last) ∧
      last.span.Reads last.written last.slice) := by
  intro e last
  have failed : ({} : Engine).parse "dice: 1d6&gt;=1٣ + kh2" = .error (.parse e) := by cbv
  have failedLast : ({} : Engine).parse "dice: 1d6&gt;=1٣ + " = .error (.parse last) := by cbv
  exact ⟨⟨failed, (reads_of_parse_error {} _ e failed).2.1⟩,
    failedLast, (reads_of_parse_error {} _ last failedLast).2.1⟩

/-! ## The place in the text of the lexemes

Without the gaps every lexeme moves to the front, by as many bytes as there are gaps before it. -/

/-- The bytes of the spans that end at a byte or before it. -/
def bytesBefore (spans : List Span) (position : Nat) : Nat :=
  ((spans.filter (·.stop ≤ position)).map fun span => span.stop - span.start).sum

section Bytes

variable {position start : Nat} {spans : List Span}

theorem bytesBefore_cons_of_le {span : Span} (before : span.stop ≤ position) :
    bytesBefore (span :: spans) position =
      span.stop - span.start + bytesBefore spans position := by
  have first : decide (span.stop ≤ position) = true := decide_eq_true before
  simp only [bytesBefore, List.filter_cons, first, ↓reduceIte, List.map_cons, List.sum_cons]

theorem bytesBefore_append {others : List Span} :
    bytesBefore (spans ++ others) position =
      bytesBefore spans position + bytesBefore others position := by
  simp only [bytesBefore, List.filter_append, List.map_append, List.sum_append]

theorem bytesBefore_eq_zero (behind : ∀ span ∈ spans, position < span.stop) :
    bytesBefore spans position = 0 := by
  have none : spans.filter (·.stop ≤ position) = [] := by
    rw [List.filter_eq_nil_iff]
    intro span mem before
    exact Nat.not_le_of_lt (behind span mem) (of_decide_eq_true before)
  rw [bytesBefore, none]
  rfl

/-- Without its first lexeme the text is covered from where that one ends. -/
theorem Covers.tail {l : Lexeme} (h : Covers fields text start (l :: lexemes)) :
    Covers fields text l.span.stop lexemes where
  nonempty l' mem := h.nonempty l' (.tail _ mem)
  inside l' mem := ⟨List.rel_of_pairwise_cons h.disjoint mem, (h.inside l' (.tail _ mem)).2⟩
  disjoint := h.disjoint.of_cons
  reads l' mem := h.reads l' (.tail _ mem)
  gaps span mem := h.gaps span (.tail _ mem)

/-- The same for any number of lexemes at the front. -/
theorem Covers.exists_covers_of_append {before others : List Lexeme}
    (h : Covers fields text start (before ++ others)) : ∃ start, Covers fields text start others := by
  induction before generalizing start with
  | nil => exact ⟨start, h⟩
  | cons l before ih => exact ih h.tail

/-- No lexeme stops before the first one starts. -/
theorem Covers.start_lt_stop {l : Lexeme} (h : Covers fields text start (l :: lexemes)) :
    ∀ l' ∈ l :: lexemes, l.span.start < l'.span.stop := by
  have long := h.nonempty l (.head _)
  refine List.forall_mem_cons.2 ⟨long, fun l' mem => ?_⟩
  have behind := (h.tail.inside l' mem).1
  have := h.tail.nonempty l' mem
  omega

theorem Covers.start_le (h : Covers fields text start []) : start ≤ text.utf8ByteSize := by
  obtain ⟨_, ⟨_, _, -, -, stop⟩, -⟩ := h.gaps _ (.head _)
  exact Nat.le.intro stop

theorem Covers.le_stop_of_mem_stretches (h : Covers fields text start lexemes) :
    ∀ span ∈ stretches start lexemes text.utf8ByteSize, start ≤ span.stop := by
  induction lexemes generalizing start with
  | nil => exact List.forall_mem_singleton.2 h.start_le
  | cons l lexemes ih =>
    have first := (h.inside l (.head _)).1
    have long := h.nonempty l (.head _)
    refine List.forall_mem_cons.2 ⟨first, fun span mem => ?_⟩
    have := ih h.tail span mem
    omega

/-- **The bytes up to a lexeme are those of the lexemes and of the gaps before it.**  The induction
drops the first lexeme, and counts from where that one ends. -/
theorem Covers.bytesBefore_add (h : Covers fields text start lexemes)
    (place : (∃ l ∈ lexemes, position = l.span.start) ∨ position = lastStop start lexemes) :
    start + bytesBefore (lexemes.map (·.span)) position +
      bytesBefore (stretches start lexemes text.utf8ByteSize) position = position := by
  induction lexemes generalizing start with
  | nil =>
    obtain rfl : position = start := place.resolve_left (by simp)
    have length := h.start_le
    by_cases none : text.utf8ByteSize ≤ position
    · rw [stretches, bytesBefore_cons_of_le none]
      simp only [List.map_nil, bytesBefore, List.filter_nil, List.sum_nil]
      omega
    · rw [stretches, bytesBefore_eq_zero (List.forall_mem_singleton.2 (Nat.lt_of_not_le none))]
      rfl
  | cons l lexemes ih =>
    have first := (h.inside l (.head _)).1
    have long := h.nonempty l (.head _)
    -- Either nothing stops before the byte but the first gap, or the first lexeme does as well.
    have which : position = l.span.start ∨
        (∃ l' ∈ lexemes, position = l'.span.start) ∨ position = lastStop l.span.stop lexemes := by
      rcases place with ⟨l', mem, at'⟩ | last
      · rcases List.mem_cons.1 mem with rfl | mem
        · exact .inl at'
        · exact .inr (.inl ⟨l', mem, at'⟩)
      · exact .inr (.inr (last.trans (lastStop_cons _ _ _)))
    rw [stretches]
    rcases which with rfl | later
    -- The place is that of the first lexeme, and only the gap before it counts.
    · have none : bytesBefore ((l :: lexemes).map (·.span)) l.span.start = 0 :=
        bytesBefore_eq_zero (List.forall_mem_map.2 h.start_lt_stop)
      have noGap : bytesBefore (stretches l.span.stop lexemes text.utf8ByteSize) l.span.start = 0 :=
        bytesBefore_eq_zero fun span mem =>
          Nat.lt_of_lt_of_le long (h.tail.le_stop_of_mem_stretches span mem)
      rw [none, bytesBefore_cons_of_le (Nat.le_refl _), noGap]
      dsimp only
      omega
    -- The place is further behind, and the first lexeme counts with its gap.
    · have sum := ih h.tail later
      rw [List.map_cons, bytesBefore_cons_of_le (by omega),
        bytesBefore_cons_of_le (by dsimp only; omega)]
      dsimp only
      omega

/-- The bytes of lexemes are the length of their texts. -/
theorem utf8ByteSize_join_written
    (reads : ∀ l ∈ lexemes, l.span.Reads text l.written)
    (before : ∀ l ∈ lexemes, l.span.stop ≤ position) :
    (String.join (lexemes.map (·.written))).utf8ByteSize =
      bytesBefore (lexemes.map (·.span)) position := by
  induction lexemes with
  | nil => rfl
  | cons l lexemes ih =>
    obtain ⟨_, _, -, -, length⟩ := reads l (.head _)
    rw [List.map_cons, List.map_cons, String.join_cons, String.utf8ByteSize_append,
      bytesBefore_cons_of_le (before l (.head _)),
      ih (fun l' mem => reads l' (.tail _ mem)) fun l' mem => before l' (.tail _ mem)]
    omega

end Bytes

theorem Covers.stop_le_lastStop {start : Nat} (h : Covers fields text start lexemes) :
    ∀ l ∈ lexemes, l.span.stop ≤ lastStop start lexemes := by
  induction lexemes generalizing start with
  | nil => exact List.forall_mem_nil _
  | cons l lexemes ih =>
    rw [lastStop_cons]
    refine List.forall_mem_cons.2 ⟨?_, ih h.tail⟩
    have sum := h.tail.bytesBefore_add (.inr rfl)
    omega

namespace ParseError

/-- The lexemes are split at the place of an error.  Those before it end before its place, and the
text of the others begins with what the error shows.  If something is missing at the end, there are
no others. -/
theorem LiesIn.exists_split (h : e.LiesIn lexemes) (covers : Covers fields text 0 lexemes) :
    ∃ before others more, lexemes = before ++ others ∧
      (∀ l ∈ before, l.span.stop ≤ e.span.start) ∧ (∀ l ∈ others, e.span.start < l.span.stop) ∧
      String.join (others.map (·.written)) = e.slice ++ more ∧ (e.kind.IsAtEnd → others = []) := by
  cases h with
  | @on l mem present span slice =>
    obtain ⟨before, after, rfl⟩ := List.append_of_mem mem
    obtain ⟨-, -, earlier⟩ := List.pairwise_append.1 covers.disjoint
    obtain ⟨_, behind⟩ := covers.exists_covers_of_append
    rw [span, slice]
    refine ⟨before, l :: after, String.join (after.map (·.written)), rfl, ?_, behind.start_lt_stop,
      ?_, fun missing => absurd missing present⟩
    · exact fun l' mem' => earlier l' mem' l (.head _)
    · rw [List.map_cons, String.join_cons]
  | atEnd _ span slice =>
    rw [span, slice]
    exact ⟨lexemes, [], "", (List.append_nil _).symm, covers.stop_le_lastStop,
      List.forall_mem_nil _, rfl, fun _ => rfl⟩

/-- The place of an error is one up to which bytes can be counted. -/
theorem LiesIn.place (h : e.LiesIn lexemes) :
    (∃ l ∈ lexemes, e.span.start = l.span.start) ∨ e.span.start = lastStop 0 lexemes := by
  cases h with
  | on mem _ span _ => exact .inl ⟨_, mem, by rw [span]⟩
  | atEnd _ span _ => exact .inr (by rw [span])

/-- In the text of the lexemes, what an error shows stands behind the lexemes before it. -/
theorem LiesIn.reads_joined (h : e.LiesIn lexemes) (covers : Covers fields text 0 lexemes) :
    let joined := bytesBefore (lexemes.map (·.span)) e.span.start
    Span.Reads ⟨joined, joined + e.slice.utf8ByteSize⟩ (String.join (lexemes.map (·.written)))
        e.slice ∧
      (e.kind.IsAtEnd → (String.join (lexemes.map (·.written))).utf8ByteSize = joined) := by
  intro joined
  obtain ⟨before, others, more, rfl, earlier, later, begins, ends⟩ := h.exists_split covers
  have reads := fun l mem => covers.reads l (List.mem_append_left others mem)
  have size : (String.join (before.map (·.written))).utf8ByteSize = joined := by
    dsimp only [joined]
    rw [utf8ByteSize_join_written reads earlier, List.map_append, bytesBefore_append,
      bytesBefore_eq_zero (List.forall_mem_map.2 later), Nat.add_zero]
  rw [List.map_append, String.join_append, begins]
  refine ⟨⟨String.join (before.map (·.written)), more, ?_, size, rfl⟩, fun missing => ?_⟩
  · rw [String.append_assoc]
  · obtain rfl := ends missing
    rw [← begins, ← size, List.map_nil, String.join_nil, String.append_empty]

end ParseError

/-- **A parse error of lexemes alone points behind what it shows.**  Its text is that of the
lexemes.  What it shows stands there behind the lexemes before it, and its place is that in the text
from which the lexemes were read, which is later by the bytes of the gaps before it.  So it points
at what it shows if there are none, and where something is missing at the end, only then. -/
theorem Expression.reads_of_joined_error {context : LexContext} {text : String}
    {lexemes : List Lexeme} {table : PrecedenceTable} {e : ParseError}
    (read : tokenize context text = .ok lexemes) (failed : parse table lexemes = .error e) :
    let joined := bytesBefore (lexemes.map (·.span)) e.span.start
    let gaps := bytesBefore (stretches 0 lexemes text.utf8ByteSize) e.span.start
    e.LiesIn lexemes ∧ e.span.Reads text e.slice ∧
      e.written = String.join (lexemes.map (·.written)) ∧
      Span.Reads ⟨joined, joined + e.slice.utf8ByteSize⟩ e.written e.slice ∧
      e.span.start = joined + gaps ∧
      (gaps = 0 → e.span.Reads e.written e.slice) ∧
      (e.kind.IsAtEnd → (e.span.Reads e.written e.slice ↔ gaps = 0)) := by
  intro joined gaps
  obtain ⟨written, lies⟩ := liesIn_of_ofLexemes failed
  have covers := covers_of_tokenize read
  have inText := lies.reads covers
  obtain ⟨inJoined, size⟩ := lies.reads_joined covers
  have sum : e.span.start = joined + gaps := by
    have := covers.bytesBefore_add lies.place
    omega
  rw [← written] at inJoined size
  -- Without gaps both texts have the same bytes up to the place.
  have same (none : gaps = 0) : e.span.Reads e.written e.slice := by
    obtain ⟨_, _, -, -, stop⟩ := inText
    have place : e.span = ⟨joined, joined + e.slice.utf8ByteSize⟩ := by
      rw [none, Nat.add_zero] at sum
      rw [← sum, stop]
    rw [place]
    exact inJoined
  refine ⟨lies, inText, written, inJoined, sum, same, fun missing => ⟨fun points => ?_, same⟩⟩
  have inside := points.stop_le
  have length := size missing
  obtain ⟨_, _, -, -, stop⟩ := points
  omega

/-- There are two bytes of gaps before the modifier, which no dice precede. -/
theorem Expression.reads_of_joined_error_two_blanks :
    let context : LexContext := ⟨{}, fun _ => none⟩
    let lexemes : List Lexeme := [⟨.dice, "1", "1", some [], ⟨0, 1⟩⟩,
      ⟨.math, "+", "+", none, ⟨2, 3⟩⟩, ⟨.modifier .keepHigh, "2", "kh2", none, ⟨4, 7⟩⟩]
    let e : ParseError := ⟨.modifierWithoutDice .keepHigh, ⟨4, 7⟩, "kh2", "1+kh2"⟩
    tokenize context "1 + kh2" = .ok lexemes ∧ parse .standard lexemes = .error e ∧
      e.span.Reads "1 + kh2" e.slice ∧ Span.Reads ⟨2, 5⟩ e.written e.slice := by
  intro context lexemes e
  have read : tokenize context "1 + kh2" = .ok lexemes := by cbv
  have failed : parse .standard lexemes = .error e := by cbv
  obtain ⟨-, inText, -, inJoined, -⟩ := reads_of_joined_error read failed
  exact ⟨read, failed, inText, inJoined⟩

/-- The place of this error is not even in the text that it has. -/
theorem Expression.not_reads_of_joined_error :
    let context : LexContext := ⟨{}, fun _ => none⟩
    let e : ParseError := ⟨.modifierWithoutDice .keepHigh, ⟨4, 7⟩, "kh2", "1+kh2"⟩
    (∃ lexemes, tokenize context "1 + kh2" = .ok lexemes ∧ parse .standard lexemes = .error e) ∧
      e.written.utf8ByteSize < e.span.stop ∧ ¬ e.span.Reads e.written e.slice := by
  intro context e
  have outside : e.written.utf8ByteSize < e.span.stop := by decide
  refine ⟨⟨[⟨.dice, "1", "1", some [], ⟨0, 1⟩⟩, ⟨.math, "+", "+", none, ⟨2, 3⟩⟩,
    ⟨.modifier .keepHigh, "2", "kh2", none, ⟨4, 7⟩⟩], ?_, ?_⟩, outside, fun points => ?_⟩
  · cbv
  · cbv
  · exact Nat.not_lt_of_le points.stop_le outside

end Tabletop
