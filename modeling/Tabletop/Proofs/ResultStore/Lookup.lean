import Tabletop.Proofs.SortedMap
import Tabletop.ResultStore

/-!
# Look-ups in result stores

What the operations on a store do to the results in it, place by place.  Putting in a result changes
the look-up at its place, taking out a result or the results of a line those at the places taken
out, and taking away lines and documents without results changes none.  The stores behind the
look-ups may differ all the same, since they show empty lines and documents.

A look-up goes through three maps, of which any may be missing.  Everything is said in terms of what
is bound together (`get?_eq_bind`), where a missing map and an empty one give the same.
-/

namespace Tabletop

variable {κ : Type u} {α : Type v}

namespace SortedMap

variable [Ord κ]

theorem get?_getD_empty (m : Option (SortedMap κ α)) (key : κ) :
    (m.getD .empty).get? key = m.bind (·.get? key) := by
  cases m <;> rfl

/-- A look-up does not tell an empty map from one that is not there. -/
theorem bind_get?_of_isEmpty (m : SortedMap κ α) (key : κ) :
    (if m.isEmpty then none else some m).bind (·.get? key) = m.get? key := by
  split
  · next nothing => exact (get?_of_isEmpty nothing key).symm
  · rfl

end SortedMap

/-! ## Places

A place is a path, a line and an index, and a store is a map of maps of maps.  Each look-up goes
through three of them, and each is empty where the one before it finds nothing. -/

/-- Places are the same if they are on the same line and have the same index there. -/
theorem Place.eq_iff {a b : Place} :
    a = b ↔ (a.path = b.path ∧ a.line = b.line) ∧ a.index = b.index := by
  cases a
  cases b
  rw [Place.mk.injEq, and_assoc]

/-- A choice by place is one by line, and then by index. -/
theorem Place.ite_eq (a b : Place) (x y : α) :
    (if a = b then x else y) =
      if a.path = b.path ∧ a.line = b.line then if a.index = b.index then x else y else y := by
  simp only [Place.eq_iff, ite_and]

namespace ResultStore

variable (s : ResultStore) (place other : Place)

theorem get?_eq_bind :
    s.get? place =
      (s.documents.get? place.path).bind fun lines =>
        (lines.get? place.line).bind (·.get? place.index) := rfl

/-- Empty lines and documents make no difference to look-ups. -/
theorem get?_clearEmpties : s.clearEmpties.get? place = s.get? place := by
  rw [get?_eq_bind, get?_eq_bind]
  unfold clearEmpties
  rw [SortedMap.get?_filterMap, Option.bind_assoc]
  refine Option.bind_congr fun lines _ => ?_
  rw [← Option.bind_assoc, SortedMap.bind_get?_of_isEmpty, SortedMap.get?_filterMap,
    Option.bind_assoc]
  exact Option.bind_congr fun results _ => SortedMap.bind_get?_of_isEmpty results place.index

/-! ## Putting in

From the inside out: results of a line, lines of a document, documents of the store. -/

/-- The store with the lines of a document replaced. -/
theorem get?_insertLines (path : String) (lines : LineResults) :
    (⟨s.documents.insert path lines⟩ : ResultStore).get? place =
      if place.path = path then (lines.get? place.line).bind (·.get? place.index)
      else s.get? place := by
  rw [get?_eq_bind, get?_eq_bind, SortedMap.get?_insert]
  split <;> rfl

/-- The store with the results of a line replaced. -/
theorem get?_insertLine (path : String) (line : UInt64) (results : SortedMap UInt64 RollResult) :
    let lines := (s.documents.get? path).getD .empty
    (⟨s.documents.insert path (lines.insert line results)⟩ : ResultStore).get? place =
      if place.path = path ∧ place.line = line then results.get? place.index
      else s.get? place := by
  intro lines
  rw [get?_insertLines, SortedMap.get?_insert, ite_and]
  refine ite_congr rfl (fun samePath => ?_) fun _ => rfl
  rw [get?_eq_bind, samePath]
  split
  · rfl
  · rw [SortedMap.get?_getD_empty, Option.bind_assoc]

/-- **Putting in a result** changes the look-up at its place alone.  Lines and documents that are
not there are put in empty, and so they make no difference elsewhere. -/
theorem get?_insert (result : RollResult) :
    (s.insert place result).2.get? other =
      if other = place then some result else s.get? other := by
  unfold insert
  dsimp only
  rw [get?_insertLine, SortedMap.get?_insert, Place.ite_eq]
  refine ite_congr rfl (fun sameLine => ite_congr rfl (fun _ => rfl) fun _ => ?_) fun _ => rfl
  rw [get?_eq_bind, SortedMap.get?_getD_empty, SortedMap.get?_getD_empty, Option.bind_assoc,
    sameLine.1, sameLine.2]

/-! ## Taking out

What is left empty is taken out as well, which no look-up can tell. -/

/-- Where there is no result, none is taken away. -/
theorem get?_eq_ite {gone : Prop} [Decidable gone] (nothing : gone → s.get? place = none) :
    s.get? place = if gone then none else s.get? place := by
  split
  · next h => exact nothing h
  · rfl

/-- **Taking out a result** changes the look-up at its place alone.  Nothing is left of what is then
empty, which no look-up sees. -/
theorem get?_remove :
    (s.remove place).2.get? other = if other = place then none else s.get? other := by
  unfold remove
  cases document : s.documents.get? place.path with
  | none =>
    refine get?_eq_ite s other fun same => ?_
    rw [same, get?_eq_bind, document]
    rfl
  | some lines =>
    dsimp only
    cases found : lines.get? place.line with
    | none =>
      refine get?_eq_ite s other fun same => ?_
      rw [same, get?_eq_bind, document, Option.bind_some, found]
      rfl
    | some results =>
      have replaced := get?_insertLine s other place.path place.line (results.erase place.index)
      rw [document] at replaced
      refine (get?_clearEmpties _ other).trans (replaced.trans ?_)
      rw [SortedMap.get?_erase, Place.ite_eq]
      refine ite_congr rfl (fun sameLine => ite_congr rfl (fun _ => rfl) fun _ => ?_) fun _ => rfl
      rw [get?_eq_bind, sameLine.1, sameLine.2, document, Option.bind_some, found]
      rfl

/-- **Taking out a line** changes the look-ups on it, and no others. -/
theorem get?_removeLine (path : String) (line : UInt64) :
    (s.removeLine path line).2.get? other =
      if other.path = path ∧ other.line = line then none else s.get? other := by
  unfold removeLine
  cases document : s.documents.get? path with
  | none =>
    refine get?_eq_ite s other fun same => ?_
    rw [get?_eq_bind, same.1, document]
    rfl
  | some lines =>
    dsimp only
    rw [get?_clearEmpties, get?_insertLines, SortedMap.get?_erase, ite_and]
    refine ite_congr rfl (fun samePath => ?_) fun _ => rfl
    rw [get?_eq_bind, samePath, document, Option.bind_some]
    split <;> rfl

end ResultStore

end Tabletop
