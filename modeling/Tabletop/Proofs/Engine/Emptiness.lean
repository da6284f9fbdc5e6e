import Tabletop.Proofs.Engine.Session
import Tabletop.Proofs.ResultStore.Stored
import Tabletop.Proofs.ResultStore.View

/-!
# Empty stores

A store is asked in two ways whether it holds anything: `ResultStore.isEmpty` looks for documents,
`ResultStore.size` counts results.  The two differ in a store that is `Hollow`, with documents but
without results.

* `ResultStore.perform_eq_or_not_hollow` — no call makes a hollow store: what is put in is a result,
  and whatever takes out a result prunes the store afterwards, or has found nothing to take out.
* `ResultStore.Reachable` — the stores of sessions, with the texts from which they were loaded.
* `ResultStore.isEmpty_iff_size_eq_zero_of_reachable` — so hollow stores come from texts only, and
  stay as they were loaded until a call changes them.

To be pruned is not an invariant of sessions: a store may be loaded with empty lines and keep them
while results are put in.  What is invariant is weaker, not to be hollow, and it is invariant
because every call that changes the store either puts in a result or prunes.
-/

namespace Tabletop

namespace ResultStore

variable {s : ResultStore}

/-- There are documents, but no results. -/
def Hollow (s : ResultStore) : Prop :=
  s.isEmpty = false ∧ s.size = 0

theorem size_eq_zero_of_isEmpty (nothing : s.isEmpty = true) : s.size = 0 := by
  unfold size SortedMap.values
  rw [List.isEmpty_iff.1 nothing]
  rfl

/-- The two answers agree in all other stores. -/
theorem not_hollow_iff : ¬ s.Hollow ↔ (s.isEmpty = true ↔ s.size = 0) := by
  unfold Hollow
  cases empty : s.isEmpty with
  | true => simp [size_eq_zero_of_isEmpty empty]
  | false => simp

theorem get?_of_size_eq_zero (nothing : s.size = 0) (place : Place) : s.get? place = none := by
  rw [← size_view] at nothing
  rw [← get?_view]
  exact SortedMap.get?_of_isEmpty (SortedMap.isEmpty_iff_size_eq_zero.2 nothing) place

theorem not_hollow_of_get? {place : Place} {r : RollResult} (found : s.get? place = some r) :
    ¬ s.Hollow := by
  rintro ⟨-, nothing⟩
  exact nomatch found.symm.trans (get?_of_size_eq_zero nothing place)

/-! ## Pruning

Pruning goes from the results outwards, so that what becomes empty is taken out with what was. -/

/-- No document is without lines, and no line without results. -/
def Pruned (s : ResultStore) : Prop :=
  ∀ path lines, (path, lines) ∈ s.documents.entries → lines.isEmpty = false ∧
    ∀ line results, (line, results) ∈ lines.entries → results.isEmpty = false

/-- A document of a pruned store leads to a result. -/
theorem Pruned.not_hollow (pruned : s.Pruned) : ¬ s.Hollow := by
  intro hollow
  obtain ⟨path, lines, document⟩ := SortedMap.exists_mem_entries hollow.1
  obtain ⟨someLine, each⟩ := pruned path lines document
  obtain ⟨line, results, inLines⟩ := SortedMap.exists_mem_entries someLine
  obtain ⟨index, r, inResults⟩ := SortedMap.exists_mem_entries (each line results inLines)
  have found : s.get? ⟨path, line, index⟩ = some r := by
    rw [get?_eq_bind, SortedMap.get?_eq_some_iff.2 document, Option.bind_some,
      SortedMap.get?_eq_some_iff.2 inLines, Option.bind_some,
      SortedMap.get?_eq_some_iff.2 inResults]
  exact not_hollow_of_get? found hollow

/-- What is left by pruning is pruned, since only what is not empty is kept, on both levels. -/
theorem pruned_clearEmpties (s : ResultStore) : s.clearEmpties.Pruned := by
  intro path lines document
  obtain ⟨before, -, kept⟩ := SortedMap.mem_entries_filterMap.1 document
  obtain ⟨someLine, eq⟩ := Option.ite_none_left_eq_some.1 kept
  cases eq
  refine ⟨Bool.eq_false_iff.2 someLine, fun line results entry => ?_⟩
  obtain ⟨before, -, kept⟩ := SortedMap.mem_entries_filterMap.1 entry
  obtain ⟨someResult, eq⟩ := Option.ite_none_left_eq_some.1 kept
  cases eq
  exact Bool.eq_false_iff.2 someResult

theorem not_hollow_clearEmpties (s : ResultStore) : ¬ s.clearEmpties.Hollow :=
  s.pruned_clearEmpties.not_hollow

/-! ## Calls

One lemma for each call that can change a store. -/

theorem not_hollow_insert (s : ResultStore) (place : Place) (r : RollResult) :
    ¬ (s.insert place r).2.Hollow :=
  not_hollow_of_get? ((s.get?_insert place place r).trans (if_pos rfl))

/-- If the place is not there, the store stays as it is. -/
theorem remove_eq_or_not_hollow (s : ResultStore) (place : Place) :
    (s.remove place).2 = s ∨ ¬ (s.remove place).2.Hollow := by
  unfold remove
  cases s.documents.get? place.path with
  | none => exact .inl rfl
  | some lines =>
    dsimp only
    cases lines.get? place.line with
    | none => exact .inl rfl
    | some results => exact .inr (not_hollow_clearEmpties _)

/-- If the document is not there, the store stays as it is. -/
theorem removeLine_eq_or_not_hollow (s : ResultStore) (path : String) (line : UInt64) :
    (s.removeLine path line).2 = s ∨ ¬ (s.removeLine path line).2.Hollow := by
  unfold removeLine
  cases s.documents.get? path with
  | none => exact .inl rfl
  | some lines => exact .inr (not_hollow_clearEmpties _)

/-- **One call** leaves the store as it is, or leaves one that is not hollow. -/
theorem perform_eq_or_not_hollow (s : ResultStore) (call : StoreCall) :
    s.perform call = s ∨ ¬ (s.perform call).Hollow := by
  cases call with
  | insert place r => exact .inr (s.not_hollow_insert place r)
  | remove place => exact s.remove_eq_or_not_hollow place
  | removeLine path line => exact s.removeLine_eq_or_not_hollow path line
  | clearEmpties => exact .inr s.not_hollow_clearEmpties
  | roll engine text place roller =>
    rcases Engine.store_rollPersisted (s := s) roller with same | ⟨-, r, -, put⟩
    · exact .inl same
    · refine .inr ?_
      show ¬ ((engine.rollPersisted text place s).run roller).1.2.Hollow
      rw [put]
      exact s.not_hollow_insert place r

/-! ## Sessions

The step lemma carries over to all stores of a session by induction. -/

/-- The stores of sessions that start with no results or with those of a text, and may go over to
those of another text at any time.  Which texts there are to load is a parameter. -/
inductive Reachable (texts : String → Prop) : ResultStore → Prop where
  | empty : Reachable texts .empty
  | read {text : String} {s : ResultStore} (loaded : texts text) (holds : read? text = some s) :
      Reachable texts s
  | perform {s : ResultStore} (before : Reachable texts s) (call : StoreCall) :
      Reachable texts (s.perform call)

/-- If no text is loaded that is hollow, no store of the session is. -/
theorem not_hollow_of_reachable {texts : String → Prop}
    (whole : ∀ text s, texts text → read? text = some s → ¬ s.Hollow) (h : Reachable texts s) :
    ¬ s.Hollow := by
  induction h with
  | empty => exact fun hollow => nomatch hollow.1
  | read loaded holds => exact whole _ _ loaded holds
  | @perform s _ call ih =>
    rcases s.perform_eq_or_not_hollow call with same | notHollow
    · rwa [same]
    · exact notHollow

/-- **A store is empty exactly if it counts no results,** unless a text was loaded with documents
that are all without results.  Let sessions load certain texts only.  In all their stores the two
answers agree if and only if no text among these is of this kind.  A call leaves a store as it was,
or leaves one in which they agree; and a store that has been pruned is empty exactly if it counted
no results before. -/
theorem isEmpty_iff_size_eq_zero_of_reachable (texts : String → Prop) :
    ((∀ s, Reachable texts s → (s.isEmpty = true ↔ s.size = 0)) ↔
      ∀ text s, texts text → read? text = some s → ¬ (s.isEmpty = false ∧ s.size = 0)) ∧
    (∀ s call, perform s call = s ∨
      ((s.perform call).isEmpty = true ↔ (s.perform call).size = 0)) ∧
    ∀ s : ResultStore, s.clearEmpties.isEmpty = true ↔ s.size = 0 := by
  refine ⟨⟨fun agree text s loaded holds => ?_, fun whole s reachable => ?_⟩, fun s call => ?_,
    fun s => ?_⟩
  -- A text that is loaded is itself a store of a session.
  · exact not_hollow_iff.2 (agree s (.read loaded holds))
  · exact not_hollow_iff.1 (not_hollow_of_reachable whole reachable)
  · exact (s.perform_eq_or_not_hollow call).imp_right not_hollow_iff.1
  · rw [not_hollow_iff.1 s.not_hollow_clearEmpties, ← size_view, ← size_view, view_clearEmpties]

/-- A text with a document without lines is loaded as a store that is not empty and counts no
results. -/
theorem not_isEmpty_of_document_without_lines :
    ∃ s, read? "\x7b\"a.md\":\x7b\x7d\x7d" = some s ∧ Reachable (fun _ => True) s ∧
      s.isEmpty = false ∧ s.size = 0 := by
  let s : ResultStore := ⟨⟨[("a.md", .empty)], List.pairwise_singleton _ _⟩⟩
  have written : s.write = "\x7b\"a.md\":\x7b\x7d\x7d" := by decide
  have storable : ∀ n ∈ s.numbers, n.Storable := List.forall_mem_nil _
  have holds := read?_write_eq_within storable
  rw [written] at holds
  exact ⟨s, holds, .read trivial holds, rfl, rfl⟩

end ResultStore

end Tabletop
