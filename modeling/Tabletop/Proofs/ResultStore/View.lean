import Tabletop.Proofs.ResultStore.Lookup

/-!
# Result stores as one map

A store is a map of maps of maps, and what it holds is one map from places to results.
`ResultStore.view` is this map, made from the entries of the store and not from its look-ups.
Whatever the store does to its levels, puts in empty lines or takes them away, is one operation on
the view:

* `ResultStore.view_insert`, `view_remove`, `view_removeLine`, `view_clearEmpties` — what becomes of
  the view;
* `ResultStore.get?_view`, `size_view` — what the view is asked;
* `ResultStore.view_answer` — one request, with its answer;
* `ResultStore.view_answerAll` — any number of requests, from any store.

Nothing is assumed about the store.  It may hold lines and documents without results, which do not
show in the view.

Two maps with the same look-ups are the same map, since they are kept in order
(`SortedMap.ext_get?`).  What becomes of the view is therefore shown by look-ups, and these are
known from `Lookup`.  The only fact about the levels that is needed here is that their entries, one
level inside the other, are in the order of places.
-/

namespace Tabletop

/-! ## The order of places

The order is that of three keys one after the other, and the first in which two places differ
decides. -/

/-- Places in the order in which a store is written down: by document, then line, then index. -/
instance : Ord Place where
  compare := compareLex (compareOn Place.path)
    (compareLex (compareOn Place.line) (compareOn Place.index))

instance : Std.TransOrd Place :=
  inferInstanceAs (Std.TransCmp (compareLex (compareOn Place.path)
    (compareLex (compareOn Place.line) (compareOn Place.index))))

namespace Place

theorem compare_eq (a b : Place) :
    compare a b =
      (compare a.path b.path).then ((compare a.line b.line).then (compare a.index b.index)) := rfl

/-- In a document, places are in the order of their lines. -/
theorem compare_of_path_eq {a b : Place} (path : a.path = b.path) :
    compare a b = (compare a.line b.line).then (compare a.index b.index) := by
  have same : compare a.path b.path = .eq := Std.LawfulEqCmp.compare_eq_iff_eq.2 path
  rw [compare_eq, same]
  rfl

/-- In a line, places are in the order of their indices. -/
theorem compare_of_line_eq {a b : Place} (path : a.path = b.path) (line : a.line = b.line) :
    compare a b = compare a.index b.index := by
  have same : compare a.line b.line = .eq := Std.LawfulEqCmp.compare_eq_iff_eq.2 line
  rw [compare_of_path_eq path, same]
  rfl

end Place

instance : Std.LawfulEqOrd Place where
  eq_of_compare {a b} same := by
    rw [Place.compare_eq, Ordering.then_eq_eq, Ordering.then_eq_eq] at same
    obtain ⟨path, line, index⟩ := same
    refine Place.eq_iff.2 ⟨⟨?_, ?_⟩, ?_⟩
    · exact Std.LawfulEqCmp.eq_of_compare path
    · exact Std.LawfulEqCmp.eq_of_compare line
    · exact Std.LawfulEqCmp.eq_of_compare index

/-! ## The view

The entries of the levels are put into one list.  That this list is ascending is what makes it a
map. -/

/-- Results by their places. -/
abbrev ResultMap := SortedMap Place RollResult

namespace ResultStore

/-- The results of a line, with their places. -/
def lineEntries (path : String) (line : UInt64) (results : SortedMap UInt64 RollResult) :
    List (Place × RollResult) :=
  results.entries.map fun (index, r) => (⟨path, line, index⟩, r)

/-- The results of a document, with their places. -/
def documentEntries (path : String) (lines : LineResults) : List (Place × RollResult) :=
  lines.entries.flatMap fun (line, results) => lineEntries path line results

/-- The order of two entries. -/
def Before (a b : Place × RollResult) : Prop :=
  compare a.1 b.1 = .lt

theorem pairwise_lineEntries (path : String) (line : UInt64)
    (results : SortedMap UInt64 RollResult) : (lineEntries path line results).Pairwise Before := by
  refine results.ascending.map _ fun a b lt => ?_
  exact (Place.compare_of_line_eq (a := ⟨path, line, a.1⟩) (b := ⟨path, line, b.1⟩) rfl rfl).trans lt

theorem mem_lineEntries {path : String} {line : UInt64} {results : SortedMap UInt64 RollResult}
    {place : Place} {r : RollResult} :
    (place, r) ∈ lineEntries path line results ↔
      (place.path = path ∧ place.line = line) ∧ (place.index, r) ∈ results.entries := by
  unfold lineEntries
  rw [List.mem_map]
  constructor
  · rintro ⟨⟨index, r'⟩, mem, eq⟩
    cases eq
    exact ⟨⟨rfl, rfl⟩, mem⟩
  · rintro ⟨⟨rfl, rfl⟩, mem⟩
    exact ⟨_, mem, rfl⟩

theorem mem_documentEntries {path : String} {lines : LineResults} {place : Place} {r : RollResult} :
    (place, r) ∈ documentEntries path lines ↔
      place.path = path ∧
        ∃ results, (place.line, results) ∈ lines.entries ∧ (place.index, r) ∈ results.entries := by
  unfold documentEntries
  rw [List.mem_flatMap]
  constructor
  · rintro ⟨⟨line, results⟩, entry, mem⟩
    obtain ⟨⟨rfl, rfl⟩, found⟩ := mem_lineEntries.1 mem
    exact ⟨rfl, results, entry, found⟩
  · rintro ⟨rfl, results, entry, mem⟩
    refine ⟨(place.line, results), entry, ?_⟩
    exact mem_lineEntries.2 ⟨⟨rfl, rfl⟩, mem⟩

/-- Results of one line are in order by the above, and those of different lines by their lines. -/
theorem pairwise_documentEntries (path : String) (lines : LineResults) :
    (documentEntries path lines).Pairwise Before := by
  refine List.pairwise_flatMap.2 ⟨fun _ _ => pairwise_lineEntries _ _ _, ?_⟩
  refine lines.ascending.imp fun lt => ?_
  rintro ⟨a, _⟩ memA ⟨b, _⟩ memB
  obtain ⟨⟨pathA, lineA⟩, -⟩ := mem_lineEntries.1 memA
  obtain ⟨⟨pathB, lineB⟩, -⟩ := mem_lineEntries.1 memB
  show compare a b = .lt
  rw [Place.compare_of_path_eq (pathA.trans pathB.symm), lineA, lineB, lt]
  rfl

/-- **The view of a store:** all its results in one map. -/
def view (s : ResultStore) : ResultMap where
  entries := s.documents.entries.flatMap fun (path, lines) => documentEntries path lines
  ascending := by
    refine List.pairwise_flatMap.2 ⟨fun _ _ => pairwise_documentEntries _ _, ?_⟩
    refine s.documents.ascending.imp fun lt => ?_
    rintro ⟨a, _⟩ memA ⟨b, _⟩ memB
    rw [Place.compare_eq, (mem_documentEntries.1 memA).1, (mem_documentEntries.1 memB).1, lt]
    rfl

variable (s : ResultStore) (place : Place)

/-! ## What the view is asked

Each entry of the view comes from one document, one line and one index. -/

/-- The view has the look-ups of the store: each of the three look-ups finds the entry that was put
into the list. -/
theorem get?_view : s.view.get? place = s.get? place := by
  refine Option.ext fun r => ?_
  rw [SortedMap.get?_eq_some_iff, get?_eq_bind]
  show (place, r) ∈ List.flatMap _ _ ↔ _
  simp only [List.mem_flatMap, mem_documentEntries, Option.bind_eq_some_iff,
    SortedMap.get?_eq_some_iff, Prod.exists]
  constructor
  · rintro ⟨path, lines, document, rfl, results, entry, mem⟩
    exact ⟨lines, document, results, entry, mem⟩
  · rintro ⟨lines, document, results, entry, mem⟩
    exact ⟨_, lines, document, rfl, results, entry, mem⟩

/-- Every result has one place. -/
theorem size_view : s.view.size = s.size := by
  have line (path : String) (line : UInt64) (results : SortedMap UInt64 RollResult) :
      (lineEntries path line results).length = results.size := List.length_map _
  have document (path : String) (lines : LineResults) :
      (documentEntries path lines).length = (lines.values.map SortedMap.size).sum := by
    unfold documentEntries SortedMap.values
    rw [List.length_flatMap, List.map_map]
    exact congrArg List.sum (List.map_congr_left fun _ _ => line _ _ _)
  show (List.flatMap _ _).length = _
  unfold size
  dsimp only
  rw [← List.sum_eq_foldl, List.length_flatMap, List.flatMap_def, List.sum_flatten, List.map_map]
  unfold SortedMap.values
  rw [List.map_map]
  exact congrArg List.sum (List.map_congr_left fun _ _ => document _ _)

/-! ## What is given back

What an operation gives back is what was there before, whatever it makes of the levels. -/

theorem fst_insert (r : RollResult) : (s.insert place r).1 = s.get? place := by
  unfold insert
  dsimp only
  rw [get?_eq_bind, SortedMap.get?_getD_empty, SortedMap.get?_getD_empty, Option.bind_assoc]

/-- What is given back is the result that is taken out. -/
theorem fst_remove : (s.remove place).1 = s.get? place := by
  rw [get?_eq_bind]
  unfold remove
  cases s.documents.get? place.path with
  | none => rfl
  | some lines =>
    rw [Option.bind_some]
    dsimp only
    cases lines.get? place.line with
    | none => rfl
    | some results => rfl

/-- What is given back are the results of the line. -/
theorem get?_fst_removeLine (path : String) (line index : UInt64) :
    ((s.removeLine path line).1.getD .empty).get? index = s.get? ⟨path, line, index⟩ := by
  rw [SortedMap.get?_getD_empty, get?_eq_bind]
  unfold removeLine
  cases s.documents.get? path with
  | none => rfl
  | some lines => rfl

end ResultStore

/-! ## Requests

A store and a map are asked the same things.  What they give back has one type, so that it can be
compared. -/

/-- What a store can be asked to do. -/
inductive StoreRequest where
  | insert (place : Place) (result : RollResult)
  | get (place : Place)
  | remove (place : Place)
  | removeLine (path : String) (line : UInt64)
  | clearEmpties
  | size

/-- What a store gives back. -/
inductive StoreAnswer where
  /-- The result at a place, if there is one. -/
  | result (found : Option RollResult)
  /-- The results of a line by their indices. -/
  | line (results : SortedMap UInt64 RollResult)
  /-- A number of results. -/
  | size (n : Nat)
  | done

namespace StoreRequest

/-- The answers to requests, one after the other, and what they leave behind. -/
def answerAll {σ : Type} (answer : σ → StoreRequest → StoreAnswer × σ) (s : σ) :
    List StoreRequest → List StoreAnswer × σ
  | [] => ([], s)
  | request :: requests =>
    let (first, s) := answer s request
    let (others, s) := answerAll answer s requests
    (first :: others, s)

end StoreRequest

namespace ResultMap

/-- Whether a place is on a line. -/
def OnLine (path : String) (line : UInt64) (place : Place) : Prop :=
  place.path = path ∧ place.line = line

instance (path : String) (line : UInt64) : DecidablePred (OnLine path line) :=
  fun place => inferInstanceAs (Decidable (place.path = path ∧ place.line = line))

/-- The results of a line by their indices. -/
def line (m : ResultMap) (path : String) (line : UInt64) : SortedMap UInt64 RollResult where
  entries := m.entries.filterMap fun (place, r) =>
    if OnLine path line place then some (place.index, r) else none
  ascending := by
    refine m.ascending.filterMap _ ?_
    rintro ⟨a, _⟩ ⟨b, _⟩ before x onLine y onLine'
    obtain ⟨⟨pathA, lineA⟩, eqA⟩ := Option.ite_none_right_eq_some.1 onLine
    obtain ⟨⟨pathB, lineB⟩, eqB⟩ := Option.ite_none_right_eq_some.1 onLine'
    cases eqA
    cases eqB
    rw [← Place.compare_of_line_eq (pathA.trans pathB.symm) (lineA.trans lineB.symm)]
    exact before

theorem get?_line (m : ResultMap) (path : String) (line index : UInt64) :
    (m.line path line).get? index = m.get? ⟨path, line, index⟩ := by
  refine Option.ext fun r => ?_
  rw [SortedMap.get?_eq_some_iff, SortedMap.get?_eq_some_iff]
  show (index, r) ∈ List.filterMap _ m.entries ↔ _
  rw [List.mem_filterMap]
  constructor
  · rintro ⟨⟨place, r'⟩, mem, onLine⟩
    obtain ⟨⟨rfl, rfl⟩, eq⟩ := Option.ite_none_right_eq_some.1 onLine
    cases eq
    exact mem
  · intro mem
    exact ⟨_, mem, if_pos ⟨rfl, rfl⟩⟩

/-- **The meaning of a request:** what it gives back and what it leaves, where results are kept in
one map. -/
def answer (m : ResultMap) : StoreRequest → StoreAnswer × ResultMap
  | .insert place r => (.result (m.get? place), m.insert place r)
  | .get place => (.result (m.get? place), m)
  | .remove place => (.result (m.get? place), m.erase place)
  | .removeLine path line =>
    (.line (m.line path line), m.filterKeys fun place => ¬ OnLine path line place)
  | .clearEmpties => (.done, m)
  | .size => (.size m.size, m)

end ResultMap

namespace ResultStore

/-- What a store gives back for a request, and the store afterwards.  A line that is not there has
no results, like one that is empty. -/
def answer (s : ResultStore) : StoreRequest → StoreAnswer × ResultStore
  | .insert place r => (s.insert place r).map .result id
  | .get place => (.result (s.get? place), s)
  | .remove place => (s.remove place).map .result id
  | .removeLine path line => (s.removeLine path line).map (fun found => .line (found.getD .empty)) id
  | .clearEmpties => (.done, s.clearEmpties)
  | .size => (.size s.size, s)

variable (s : ResultStore) (place : Place)

/-! ## What becomes of the view

Each operation on the levels is an operation on the view, and some are none. -/

theorem view_insert (r : RollResult) : (s.insert place r).2.view = s.view.insert place r := by
  refine SortedMap.ext_get? fun other => ?_
  rw [get?_view, get?_insert, SortedMap.get?_insert, get?_view]

theorem view_remove : (s.remove place).2.view = s.view.erase place := by
  refine SortedMap.ext_get? fun other => ?_
  rw [get?_view, get?_remove, SortedMap.get?_erase, get?_view]

theorem view_removeLine (path : String) (line : UInt64) :
    (s.removeLine path line).2.view =
      s.view.filterKeys fun place => ¬ ResultMap.OnLine path line place := by
  refine SortedMap.ext_get? fun other => ?_
  rw [get?_view, get?_removeLine, SortedMap.get?_filterKeys, get?_view]
  by_cases onLine : other.path = path ∧ other.line = line
  · have dropped : decide (¬ ResultMap.OnLine path line other) = false :=
      decide_eq_false (not_not_intro onLine)
    rw [if_pos onLine, dropped]
    rfl
  · have kept : decide (¬ ResultMap.OnLine path line other) = true := decide_eq_true onLine
    rw [if_neg onLine, kept]
    rfl

/-- Taking away what holds nothing takes away no result. -/
theorem view_clearEmpties : s.clearEmpties.view = s.view := by
  refine SortedMap.ext_get? fun other => ?_
  rw [get?_view, get?_clearEmpties, get?_view]

/-- The results of a line are given back with their indices. -/
theorem fst_removeLine (path : String) (line : UInt64) :
    (s.removeLine path line).1.getD .empty = s.view.line path line := by
  refine SortedMap.ext_get? fun index => ?_
  rw [get?_fst_removeLine, ResultMap.get?_line, get?_view]

/-- **One request:** the store gives back what the view does, and what it leaves has the view that
the view leaves. -/
theorem view_answer (request : StoreRequest) :
    s.view.answer request = ((s.answer request).1, (s.answer request).2.view) := by
  cases request with
  | insert place r =>
    have found : s.view.get? place = (s.insert place r).1 := by rw [fst_insert, get?_view]
    exact Prod.ext (congrArg StoreAnswer.result found) (view_insert s place r).symm
  | get place => exact Prod.ext (congrArg StoreAnswer.result (get?_view s place)) rfl
  | remove place =>
    have found : s.view.get? place = (s.remove place).1 := by rw [fst_remove, get?_view]
    exact Prod.ext (congrArg StoreAnswer.result found) (view_remove s place).symm
  | removeLine path line =>
    have found := fst_removeLine s path line
    exact Prod.ext (congrArg StoreAnswer.line found.symm) (view_removeLine s path line).symm
  | clearEmpties => exact Prod.ext rfl (view_clearEmpties s).symm
  | size => exact Prod.ext (congrArg StoreAnswer.size (size_view s)) rfl

/-- **A store is the map of its results.** From any store, with empty lines and documents or
without, any requests one after the other give back what they mean for the one map that is the view
of the store, and the store that they leave has the map that they leave as its view.  The induction
is on the requests, with the store as a parameter; one step of it is `view_answer`. -/
theorem view_answerAll (requests : List StoreRequest) :
    let (answers, after) := StoreRequest.answerAll answer s requests
    StoreRequest.answerAll ResultMap.answer s.view requests = (answers, after.view) := by
  induction requests generalizing s with
  | nil => rfl
  | cons request requests ih =>
    have first := view_answer s request
    have others := ih (s.answer request).2
    dsimp only at others ⊢
    unfold StoreRequest.answerAll
    rw [first]
    dsimp only
    rw [others]

end ResultStore

end Tabletop
