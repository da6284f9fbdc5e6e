import Tabletop.Proofs.Reference.Draws
import Tabletop.Proofs.Reference.Places

/-!
# Where the entries of a reference come from

Every kind of reference but lookup tables has its candidates: texts that are found in the documents
before anything is rolled.  The entries are texts of candidates at drawn places, so a place is drawn
twice only where the settings allow it.  A tag under which every note gives an entry is different:
there each note has candidates of its own, and notes without candidates are left out.

* `Reference.candidates?` — the candidates of a reference;
* `Reference.ensures_entries`, `Reference.ensures_entries_of_each` — the entries, whatever is rolled;
* `Reference.roll_candidates` — what this means for a reference that was rolled.

A reference is rolled in the same steps whatever its kind: the documents are asked, the limit is
tested, and entries are drawn from what was found.  Errors may come up at each step, and a statement
with `Rolling.Ensures` has nothing to show of them.  So each kind of reference comes down to
`ensures_drawn`, with its own reason why the texts that are drawn from are its candidates.
-/

namespace Tabletop

open List (Forall₂)

variable {may : Answers} {α : Type}

open Rolling (ensures_ok ensures_error)

/-! ## Drawing

What is drawn is given by places, and so what is made of the entries is drawn from the same places.
-/

namespace Draw

variable {count : Nat} {exhaustion : Exhaustion} {all drawn : List α}

theorem Drawn.cast {n m : Nat} {places : List (Fin n)} (h : Drawn count exhaustion places)
    (same : n = m) : Drawn count exhaustion (places.map (Fin.cast same)) := by
  subst same
  simpa using h

/-- What is made of entries is drawn from what is made of all of them.  The places stay the same,
and only the texts at them change. -/
theorem DrawnFrom.map (h : DrawnFrom all count exhaustion drawn) (f : α → β) :
    DrawnFrom (all.map f) count exhaustion (drawn.map f) := by
  obtain ⟨places, settled, rfl⟩ := h
  refine ⟨_, settled.cast (List.length_map f).symm, ?_⟩
  rw [List.map_map, List.map_map]
  exact List.map_congr_left fun place _ => by simp

/-- A single entry is one of those it is drawn from. -/
theorem DrawnFrom.exists_eq_singleton (h : DrawnFrom all 1 exhaustion drawn) (some : all ≠ []) :
    ∃ a ∈ all, drawn = [a] := by
  obtain ⟨places, settled, rfl⟩ := h
  obtain ⟨place, rfl⟩ :=
    List.length_eq_one_iff.1 (settled.length (.inl (List.length_pos_iff.2 some)))
  exact ⟨all.get place, List.get_mem all place, rfl⟩

end Draw

/-! ## Candidates

The candidates are what the documents say, stated without the steps of the program: filters over
sections, and a map over rows. -/

/-- Whether a section is of one of the given kinds; every kind is meant if none is given.  Kinds are
compared as they are spelled after lowering, on the side of the documents as well. -/
def Section.isOfKinds (kinds : List String) (s : Section) : Bool :=
  kinds.isEmpty || kinds.contains (String.ofList (Text.lowercase s.kind.toList))

/-- The sections of given kinds are a filter, also where no kind is given. -/
theorem Section.ofKinds_eq_filter (kinds : List String) (all : List Section) :
    ofKinds kinds all = all.filter (isOfKinds kinds) := by
  unfold ofKinds
  split
  · next any =>
    refine (List.filter_eq_self.2 fun s _ => ?_).symm
    rw [isOfKinds, any, Bool.true_or]
  · next given =>
    refine List.filter_congr fun s _ => ?_
    rw [isOfKinds, Bool.eq_false_iff.2 given, Bool.false_or]

/-- The sections of a note that are of the given kinds. -/
def ContentStore.matching (store : ContentStore) (kinds : List String) (note : String) :
    List Section :=
  ((store.sections? note).getD []).filter (Section.isOfKinds kinds)

theorem ContentStore.ofKinds_sections (store : ContentStore) (kinds : List String) (note : String) :
    Section.ofKinds kinds ((store.sections? note).getD []) = store.matching kinds note :=
  Section.ofKinds_eq_filter kinds _

/-- The lines of all sections, trimmed, without those that are empty then.  The program goes section
by section; here all lines come first and are then trimmed. -/
theorem ContentStore.lines?_eq (store : ContentStore) (note : String) :
    store.lines? note = (store.sections? note).map fun sections =>
      (((sections.flatMap fun s => Text.lines s.text.toList).map Text.trim).filter
        (!·.isEmpty)).map String.ofList := by
  unfold lines?
  congr
  funext sections
  rw [List.filter_map, List.map_map, List.filter_flatMap, List.map_flatMap]
  congr
  funext s
  rw [← List.filterMap_eq_map, List.filterMap_filter]
  refine List.filterMap_congr fun line _ => ?_
  cases blank : (Text.trim line).isEmpty <;> simp [blank]

namespace Reference

/-- The texts that a reference draws from, if what it refers to exists: the cells of each row of a
table, the sections of a note, its lines, the sections of all notes with a tag one after another, or
the links to these notes.  Nothing is rolled to find them, and the number of entries that are asked
for plays no part. -/
def candidates? (store : ContentStore) (r : Reference) : Option (List String) :=
  match r.target with
  | .table note block columnName => do
    let table ← store.table? note block
    let column ← columnName.mapM table.column?
    return table.rows.map fun row => Cell.entry row column 0
  | .sections note kinds =>
    (store.sections? note).map fun sections => (sections.filter (Section.isOfKinds kinds)).map (·.text)
  | .lines note => (store.sections? note).map fun sections =>
      (((sections.flatMap fun s => Text.lines s.text.toList).map Text.trim).filter
        (!·.isEmpty)).map String.ofList
  | .tag tag kinds =>
    (store.tagged? tag).map fun notes => (notes.flatMap (store.matching kinds)).map (·.text)
  | .links tag => (store.tagged? tag).map (·.map noteName)

variable {engine : Engine} {store : ContentStore}

/-- The entries of a reference are drawn from its candidates.  The number of entries and the rule
for repetitions are those of the reference and of the settings. -/
def DrawsFrom (engine : Engine) (store : ContentStore) (r : Reference) (entries : List String) :
    Prop :=
  ∃ texts, r.candidates? store = some texts ∧
    Draw.DrawnFrom texts r.count.toNat engine.settings.tableExhaustion entries

/-! ## The kinds of reference

One lemma for each kind.  All of them go through the steps of the program in order, and come down to
`ensures_drawn` where the entries are drawn. -/

/-- What is rolled only if the limit allows the number of entries.  Where it does not there are no
entries, and so there is nothing to show. -/
theorem ensures_guarded {count : Nat} {x : Rolling (Except RollError α)} {post : α → Prop}
    (h : Rolling.Ensures may x post) :
    Rolling.Ensures may
      (if !engine.allowsDraws count then return .error (.evaluation .tooManyRolls) else x) post := by
  split
  · exact ensures_error
  · exact h

/-- Entries that are drawn from texts are drawn from the candidates, if these are the texts.  This
is the step that all kinds of reference share: what is drawn from, and the text of each of its
elements. -/
theorem ensures_drawn {r : Reference} {all : List α} (text : α → String)
    {f : List α → Rolling (Except RollError (List String))} (some : all ≠ [])
    (found : r.candidates? store = .some (all.map text))
    (texts : ∀ drawn, f drawn = .done (.ok (drawn.map text))) :
    Rolling.Ensures may (Draw.entries all r.count.toNat engine.settings.tableExhaustion >>= f)
      (r.DrawsFrom engine store) := by
  refine (Draw.always_drawnFrom some _ _).ensures fun entries drawn => ?_
  rw [texts entries]
  exact ensures_ok ⟨_, found, drawn.map text⟩

/-- The entries of a table that is not looked up. -/
theorem ensures_tableEntries {r : Reference} {table : Table} {column : Option Nat} {name : String}
    (plain : engine.lookupFormula? table = none) (some : table.rows ≠ [])
    (found : r.candidates? store =
      .some (table.rows.map fun row => Cell.entry row column 0)) :
    Rolling.Ensures may (tableEntries engine name table column r.count.toNat)
      (r.DrawsFrom engine store) := by
  unfold tableEntries
  rw [plain]
  exact ensures_drawn (Cell.entry · column 0) some found fun drawn => rfl

/-- A table is found, has rows, and has the column that is asked for, if one is.  Of the ways to
fail on the way there none leaves entries. -/
theorem ensures_entries_of_table {r : Reference} {note block : String} {columnName : Option String}
    (target : r.target = .table note block columnName) (plain : r.lookup? engine store = none) :
    Rolling.Ensures may (r.entries engine store) (r.DrawsFrom engine store) := by
  unfold entries
  rw [target]
  refine ensures_guarded ?_
  split
  · exact ensures_error
  · next table found =>
    rw [lookup?_of_table target found] at plain
    -- Whichever column was found, the candidates are the cells of it.
    have candidates (column : Option Nat) (named : columnName.mapM table.column? = some column) :
        r.candidates? store = some (table.rows.map fun row => Cell.entry row column 0) := by
      simp only [candidates?, target, found, named, Option.bind_eq_bind, Option.bind_some,
        Option.pure_def]
    split
    · exact ensures_error
    · next some =>
      rw [List.isEmpty_iff] at some
      split
      · exact ensures_tableEntries plain some (candidates none rfl)
      · split
        · exact ensures_error
        · next name column named =>
          refine ensures_tableEntries plain some (candidates (.some column) ?_)
          simp [Option.mapM, named]

/-- Sections of a note are filtered before it is asked whether there are any. -/
theorem ensures_entries_of_sections {r : Reference} {note : String} {kinds : List String}
    (target : r.target = .sections note kinds) :
    Rolling.Ensures may (r.entries engine store) (r.DrawsFrom engine store) := by
  unfold entries
  rw [target]
  refine ensures_guarded ?_
  split
  · exact ensures_error
  · next sections found =>
    dsimp only
    split
    · exact ensures_error
    · next some =>
      rw [List.isEmpty_iff] at some
      refine ensures_drawn (·.text) some ?_ fun drawn => rfl
      simp only [candidates?, target, found, Option.map_some, Section.ofKinds_eq_filter]

theorem ensures_entries_of_lines {r : Reference} {note : String} (target : r.target = .lines note) :
    Rolling.Ensures may (r.entries engine store) (r.DrawsFrom engine store) := by
  unfold entries
  rw [target]
  refine ensures_guarded ?_
  split
  · exact ensures_error
  · next lines found =>
    split
    · exact ensures_error
    · next some =>
      rw [List.isEmpty_iff] at some
      -- Lines are texts themselves, so the text of a candidate is the candidate.
      refine ensures_drawn id some ?_ fun drawn => by rw [List.map_id]; rfl
      simp only [candidates?, target, ← store.lines?_eq, found, List.map_id]

/-- Where a tag gives its entries together, the sections of all notes make one pool. -/
theorem ensures_entries_of_tag {r : Reference} {tag : String} {kinds : List String}
    (target : r.target = .tag tag kinds) (together : engine.settings.returnAllTags = false) :
    Rolling.Ensures may (r.entries engine store) (r.DrawsFrom engine store) := by
  unfold entries
  rw [target]
  dsimp only
  split
  · exact ensures_error
  · next notes found =>
    rw [together]
    split
    · exact ensures_error
    · refine ensures_guarded ?_
      -- Nothing is drawn from notes without sections, which then is an error.
      simp only [store.ofKinds_sections]
      by_cases none : notes.flatMap (store.matching kinds) = []
      · rw [Draw.entries_eq_done (.inl none)]
        exact ensures_error
      · refine (Draw.always_drawnFrom none _ _).ensures fun entries drawn => ?_
        split
        · exact ensures_error
        · refine ensures_ok ⟨_, ?_, drawn.map (·.text)⟩
          simp only [candidates?, target, found, Option.map_some]

theorem ensures_entries_of_links {r : Reference} {tag : String} (target : r.target = .links tag) :
    Rolling.Ensures may (r.entries engine store) (r.DrawsFrom engine store) := by
  unfold entries
  rw [target]
  refine ensures_guarded ?_
  split
  · exact ensures_error
  · next notes found =>
    split
    · exact ensures_error
    · next some =>
      rw [List.isEmpty_iff] at some
      refine ensures_drawn noteName some ?_ fun drawn => rfl
      simp only [candidates?, target, found, Option.map_some]

/-- **The entries of a reference that draws from all its candidates together.** One case for each
kind of reference. -/
theorem ensures_entries (r : Reference) (plain : r.lookup? engine store = none)
    (together : ∀ tag kinds, r.target = .tag tag kinds → engine.settings.returnAllTags = false) :
    Rolling.Ensures may (r.entries engine store) (r.DrawsFrom engine store) := by
  cases target : r.target with
  | table note block columnName => exact ensures_entries_of_table target plain
  | sections note kinds => exact ensures_entries_of_sections target
  | lines note => exact ensures_entries_of_lines target
  | tag tag kinds => exact ensures_entries_of_tag target (together tag kinds target)
  | links tag => exact ensures_entries_of_links target

/-! ## One entry for each note

The other way to draw from a tag.  There is no pool for it, since each note is drawn from alone. -/

/-- One entry for each note that has something to draw from.  The entries found so far are kept in
reverse, and the induction is on the notes that are left. -/
theorem always_oneOfEach (exhaustion : Exhaustion) (pools : List (List Section))
    (drawn : List String) :
    (oneOfEach exhaustion drawn pools).Always may fun entries =>
      ∃ each, entries = drawn.reverse ++ each ∧
        Forall₂ (fun sections entry => ∃ s ∈ sections, s.text = entry)
          (pools.filter (!·.isEmpty)) each := by
  induction pools generalizing drawn with
  | nil => exact ⟨[], (List.append_nil _).symm, .nil⟩
  | cons sections others ih =>
    unfold oneOfEach
    -- A note without sections is passed over, so it is no part of the list of those that give
    -- one.
    by_cases none : sections = []
    · subst none
      exact ih drawn
    · refine Rolling.always_bind_iff.2 ((Draw.always_drawnFrom none 1 exhaustion).mono ?_)
      rintro entries one
      obtain ⟨s, mem, rfl⟩ := one.exists_eq_singleton none
      refine (ih (s.text :: drawn)).mono ?_
      rintro _ ⟨each, rfl, texts⟩
      refine ⟨s.text :: each, ?_, ?_⟩
      · rw [List.reverse_cons, List.append_assoc, List.singleton_append]
      · rw [List.filter_cons_of_pos (by simpa using none)]
        exact .cons ⟨s, mem, rfl⟩ texts

/-- **The entries of a tag under which every note gives one.** The exhaustion of the settings plays
no part, since one entry is drawn at a time. -/
theorem ensures_entries_of_each (r : Reference) {tag : String} {kinds : List String}
    (target : r.target = .tag tag kinds) (each : engine.settings.returnAllTags = true) :
    Rolling.Ensures may (r.entries engine store) fun entries =>
      ∃ notes, store.tagged? tag = some notes ∧
        Forall₂ (fun note entry => ∃ s ∈ store.matching kinds note, s.text = entry)
          (notes.filter fun note => !(store.matching kinds note).isEmpty) entries := by
  unfold entries
  rw [target]
  dsimp only
  split
  · exact ensures_error
  · next notes found =>
    rw [if_pos each]
    split
    · exact ensures_error
    · simp only [store.ofKinds_sections]
      refine ensures_guarded ((always_oneOfEach _ (notes.map (store.matching kinds)) []).ensures ?_)
      rintro _ ⟨entries, rfl, texts⟩
      split
      · exact ensures_error
      · rw [List.filter_map, List.forall₂_map_left_iff] at texts
        exact ensures_ok ⟨notes, found, texts⟩

/-! ## Rolled references

What holds of the entries of every roll holds of the result that was rolled. -/

/-- A result holds the entries that were drawn.  What is computed from them is their text as a
whole. -/
theorem ensures_roll {r : Reference} {post : List String → Prop}
    (h : Rolling.Ensures may (r.entries engine store) post) :
    Rolling.Ensures may (r.roll engine store) fun result => post result.entries := by
  refine Rolling.Always.ensures h fun outcome drawn => ?_
  cases outcome with
  | error e => exact ensures_error
  | ok entries => exact ensures_ok (drawn entries rfl)

/-- **What the entries of a reference are.**  If a reference was rolled, and is not one to a lookup
table, its entries are texts of its candidates at the places that were drawn; they are as many as
were asked for, and at different places, unless there are fewer candidates, when the settings say
whether all are drawn once or places repeat.  If every note with a tag is to give an entry, there is
one for each note that has a section of the kinds asked for, from this note, and in the order of the
notes. -/
theorem roll_candidates (engine : Engine) (store : ContentStore) (r : Reference) {ρ : Type}
    [Roller ρ] (roller : ρ) {result : ReferenceResult}
    (rolled : ((r.roll engine store).run roller).1 = .ok result) :
    (r.lookup? engine store = none →
      (∀ tag kinds, r.target = .tag tag kinds → engine.settings.returnAllTags = false) →
      ∃ texts, r.candidates? store = some texts ∧
        ∃ places : List (Fin texts.length), result.entries = places.map texts.get ∧
          (r.count.toNat ≤ texts.length ∨ engine.settings.tableExhaustion = .truncate →
            places.Nodup) ∧
          (r.count.toNat ≤ texts.length ∨ engine.settings.tableExhaustion = .repeat →
            places.length = r.count.toNat) ∧
          (texts.length < r.count.toNat → engine.settings.tableExhaustion = .truncate →
            places.length = texts.length)) ∧
    (∀ tag kinds, r.target = .tag tag kinds → engine.settings.returnAllTags = true →
      ∃ notes, store.tagged? tag = some notes ∧
        Forall₂ (fun note entry => ∃ s ∈ store.matching kinds note, s.text = entry)
          (notes.filter fun note => !(store.matching kinds note).isEmpty) result.entries) := by
  have admissible := Answers.admit_any ρ
  refine ⟨fun plain together => ?_, fun tag kinds target each => ?_⟩
  · obtain ⟨texts, found, places, settled, eq⟩ :=
      (ensures_roll (ensures_entries r plain together)).run admissible roller result rolled
    exact ⟨texts, found, places, eq, settled.nodup, settled.length, settled.length_all⟩
  · exact (ensures_roll (ensures_entries_of_each r target each)).run admissible roller result rolled

/-- Two paragraphs of notes with a tag, of which there are two: both are drawn, the second one
first.  Where each note gives an entry, so do the two notes with a paragraph, and not the third. -/
theorem roll_candidates_tag :
    let sections (note : String) : Option (List Section) :=
      if note = "Ada" then some [⟨"list", "lamp"⟩, ⟨"paragraph", "A smith."⟩]
      else if note = "Bob" then some [⟨"Paragraph", "A baker."⟩]
      else none
    let store : ContentStore := ⟨fun _ _ => none, sections, fun _ => some ["Ada", "Bob", "Cy"]⟩
    let r : Reference := ⟨"2d#npc|-|paragraph", 2, .tag "#npc" ["paragraph"]⟩
    let together : Engine := { settings := { returnAllTags := false } }
    let each : Engine := { settings := { returnAllTags := true } }
    let roller := SequenceRoller.ofList [1, 0]
    let texts := ["A smith.", "A baker."]
    ((r.roll together store).run roller).1 =
        .ok ⟨.tag, r.written, ["A baker.", "A smith."], "A baker.\n\nA smith."⟩ ∧
      r.candidates? store = some texts ∧
      (∃ places : List (Fin texts.length), ["A baker.", "A smith."] = places.map texts.get ∧
        places.Nodup ∧ places.length = 2) ∧
      ((r.roll each store).run roller).1 = .ok ⟨.tag, r.written, texts, "A smith.\n\nA baker."⟩ ∧
      Forall₂ (fun note entry => ∃ s ∈ store.matching ["paragraph"] note, s.text = entry)
        ["Ada", "Bob"] texts := by
  intro sections store r together each roller texts
  have two : ((r.roll together store).run roller).1 =
      .ok ⟨.tag, r.written, ["A baker.", "A smith."], "A baker.\n\nA smith."⟩ := by cbv
  have one : ((r.roll each store).run roller).1 =
      .ok ⟨.tag, r.written, texts, "A smith.\n\nA baker."⟩ := by cbv
  have candidates : r.candidates? store = some texts := by cbv
  have notes : (["Ada", "Bob", "Cy"].filter fun note =>
      !(store.matching ["paragraph"] note).isEmpty) = ["Ada", "Bob"] := by cbv
  refine ⟨two, candidates, ?_, one, ?_⟩
  · obtain ⟨_, found, places, eq, nodup, length, -⟩ :=
      (roll_candidates together store r roller two).1 rfl fun _ _ _ => rfl
    obtain rfl := Option.some.inj (candidates.symm.trans found)
    exact ⟨places, eq, nodup (.inl (by decide)), length (.inl (by decide))⟩
  · obtain ⟨_, found, entries⟩ := (roll_candidates each store r roller one).2 _ _ rfl rfl
    obtain rfl := Option.some.inj found
    rwa [notes] at entries

end Reference

end Tabletop
