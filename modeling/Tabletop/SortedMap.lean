/-!
# Sorted maps

A finite map kept as the list of its entries in ascending order of their keys. The order is part
of the type, so two maps with the same look-ups have the same entries, and writing a map down
always gives the same text.
-/

namespace Tabletop

/-- A finite map with its entries in ascending order of their keys. -/
structure SortedMap (κ : Type u) (α : Type v) [Ord κ] where
  entries : List (κ × α)
  ascending : entries.Pairwise fun a b => compare a.1 b.1 = .lt

namespace SortedMap

variable {κ : Type u} {α : Type v} [Ord κ]

/-- The map without entries. -/
def empty : SortedMap κ α where
  entries := []
  ascending := .nil

instance : Inhabited (SortedMap κ α) := ⟨empty⟩

instance [BEq κ] [BEq α] : BEq (SortedMap κ α) where
  beq a b := a.entries == b.entries

theorem ext {a b : SortedMap κ α} (h : a.entries = b.entries) : a = b := by
  cases a; cases b; simp_all

instance [DecidableEq κ] [DecidableEq α] : DecidableEq (SortedMap κ α) := fun a b =>
  if h : a.entries = b.entries then isTrue (ext h) else isFalse fun e => h (e ▸ rfl)

/-- The number of entries. -/
def size (m : SortedMap κ α) : Nat :=
  m.entries.length

/-- Whether there is no entry. -/
def isEmpty (m : SortedMap κ α) : Bool :=
  m.entries.isEmpty

/-- The values in ascending order of their keys. -/
def values (m : SortedMap κ α) : List α :=
  m.entries.map (·.2)

/-- The value at a key. -/
def get? (m : SortedMap κ α) (key : κ) : Option α :=
  (m.entries.find? fun e => compare key e.1 == .eq).map (·.2)

/-- The map without the entry at a key. -/
def erase (m : SortedMap κ α) (key : κ) : SortedMap κ α where
  entries := m.entries.filter fun e => compare key e.1 != .eq
  ascending := m.ascending.filter _

/-- The entries whose values `f` keeps, with what it makes of them. -/
def filterMap {β : Type w} (f : α → Option β) (m : SortedMap κ α) : SortedMap κ β where
  entries := m.entries.filterMap fun e => (f e.2).map fun b => (e.1, b)
  ascending := by
    refine m.ascending.filterMap _ ?_
    intro a a' h b hb b' hb'
    obtain ⟨x, -, rfl⟩ := Option.map_eq_some_iff.1 hb
    obtain ⟨x', -, rfl⟩ := Option.map_eq_some_iff.1 hb'
    exact h

/-- A list of entries with one put in its place. -/
def insertEntry (key : κ) (value : α) : List (κ × α) → List (κ × α)
  | [] => [(key, value)]
  | e :: rest =>
    match compare key e.1 with
    | .lt => (key, value) :: e :: rest
    | .eq => (key, value) :: rest
    | .gt => e :: insertEntry key value rest

theorem mem_insertEntry {key : κ} {value : α} {x : κ × α} :
    {es : List (κ × α)} → x ∈ insertEntry key value es → x = (key, value) ∨ x ∈ es
  | [], h => by simpa [insertEntry] using h
  | e :: rest, h => by
    rw [insertEntry] at h
    split at h
    · simpa using h
    · rcases List.mem_cons.1 h with h | h
      · exact .inl h
      · exact .inr (List.mem_cons_of_mem _ h)
    · rcases List.mem_cons.1 h with h | h
      · exact .inr (h ▸ List.mem_cons_self)
      · exact (mem_insertEntry h).imp_right (List.mem_cons_of_mem _)

theorem pairwise_insertEntry [Std.TransOrd κ] [Std.LawfulEqOrd κ] {key : κ} {value : α} :
    {es : List (κ × α)} → es.Pairwise (fun a b => compare a.1 b.1 = .lt) →
      (insertEntry key value es).Pairwise fun a b => compare a.1 b.1 = .lt
  | [], _ => by simp [insertEntry]
  | e :: rest, h => by
    obtain ⟨first, others⟩ := List.pairwise_cons.1 h
    rw [insertEntry]
    split
    case h_1 lt =>
      refine .cons (fun x hx => ?_) h
      rcases List.mem_cons.1 hx with rfl | hx
      · exact lt
      · exact Std.TransCmp.lt_trans lt (first x hx)
    case h_2 eq =>
      rw [Std.LawfulEqCmp.eq_of_compare eq]
      exact .cons first others
    case h_3 gt =>
      refine .cons (fun x hx => ?_) (pairwise_insertEntry others)
      rcases mem_insertEntry hx with rfl | hx
      · exact Std.OrientedCmp.lt_of_gt gt
      · exact first x hx

/-- The map with the value at a key set. -/
def insert [Std.TransOrd κ] [Std.LawfulEqOrd κ] (m : SortedMap κ α) (key : κ) (value : α) :
    SortedMap κ α where
  entries := insertEntry key value m.entries
  ascending := pairwise_insertEntry m.ascending

/-- The map of a list of entries, of which a later one replaces an earlier one at the same key. -/
def ofList [Std.TransOrd κ] [Std.LawfulEqOrd κ] (entries : List (κ × α)) : SortedMap κ α :=
  entries.foldl (fun m e => m.insert e.1 e.2) empty

end SortedMap

end Tabletop
