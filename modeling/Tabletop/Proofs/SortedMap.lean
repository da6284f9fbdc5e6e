import Mathlib.Data.List.Pairwise
import Mathlib.Data.List.Sort
import Tabletop.SortedMap

/-!
# Look-ups in sorted maps

A sorted map is determined by its look-ups (`SortedMap.ext_get?`), and every operation is what it
does to them.  Since the keys ascend, an entry is found exactly if it is there
(`SortedMap.get?_eq_some_iff`), and the equations for the operations are facts about members of
lists.

That the keys ascend is part of the type, so no lemma has it as a hypothesis; it is used to see that
there is one entry for a key, and that there is one order for the entries.
-/

namespace Tabletop

namespace SortedMap

variable {κ : Type u} {α : Type v} {β : Type w} [Ord κ]

/-! ## Entries and look-ups -/

theorem ne_of_compare_eq_lt [Std.ReflOrd κ] {a b : κ} (lt : compare a b = .lt) : a ≠ b := by
  rintro rfl
  have eq : compare a a = .eq := Std.ReflCmp.compare_self
  exact nomatch lt.symm.trans eq

/-- There is one entry for a key.  Two entries with it would stand in some order, and then their
keys would not be equal. -/
theorem eq_of_mem_entries [Std.ReflOrd κ] {m : SortedMap κ α} {key : κ} {a b : α}
    (first : (key, a) ∈ m.entries) (second : (key, b) ∈ m.entries) : a = b := by
  have unique : m.entries.Pairwise fun x y => x.1 = y.1 → x.2 = y.2 :=
    m.ascending.imp fun lt same => absurd same (ne_of_compare_eq_lt lt)
  have symmetric : m.entries.Pairwise fun x y => y.1 = x.1 → y.2 = x.2 :=
    unique.imp fun eq same => (eq same.symm).symm
  exact unique.forall_of_forall_of_flip (fun _ _ _ => rfl) symmetric first second rfl

theorem get?_of_isEmpty {m : SortedMap κ α} (nothing : m.isEmpty = true) (key : κ) :
    m.get? key = none := by
  unfold get?
  rw [List.isEmpty_iff.1 nothing]
  rfl

theorem isEmpty_iff_size_eq_zero {m : SortedMap κ α} : m.isEmpty = true ↔ m.size = 0 :=
  List.isEmpty_iff_length_eq_zero

theorem exists_mem_entries {m : SortedMap κ α} (some : m.isEmpty = false) :
    ∃ key a, (key, a) ∈ m.entries := by
  obtain ⟨e, mem⟩ := List.exists_mem_of_ne_nil _ (List.isEmpty_eq_false_iff.1 some)
  exact ⟨e.1, e.2, mem⟩

/-- **A look-up finds what is there.** The first entry with the key is the only one.  So what is
proved about members holds for look-ups, and the order of the entries can be left aside. -/
theorem get?_eq_some_iff [Std.LawfulEqOrd κ] {m : SortedMap κ α} {key : κ} {a : α} :
    m.get? key = some a ↔ (key, a) ∈ m.entries := by
  have keyOf {e : κ × α} (found : m.entries.find? (fun e => compare key e.1 == .eq) = some e) :
      key = e.1 := by
    have equal := List.find?_some found
    exact Std.LawfulEqCmp.eq_of_compare (eq_of_beq equal)
  unfold get?
  rw [Option.map_eq_some_iff]
  constructor
  · rintro ⟨e, found, rfl⟩
    rw [keyOf found]
    exact List.mem_of_find?_eq_some found
  · intro mem
    cases found : m.entries.find? fun e => compare key e.1 == .eq with
    | none => exact absurd (List.find?_eq_none.1 found _ mem) (by simp)
    | some e =>
      have same : (key, e.2) ∈ m.entries := keyOf found ▸ List.mem_of_find?_eq_some found
      exact ⟨e, rfl, eq_of_mem_entries same mem⟩

/-- Maps with the same look-ups have the same entries, and these stand in the same order.  Two
sorted lists with the same members are the same.  This is how equations between maps are proved in
what follows: look-up by look-up. -/
theorem ext_get? [Std.TransOrd κ] [Std.LawfulEqOrd κ] {a b : SortedMap κ α}
    (same : ∀ key, a.get? key = b.get? key) : a = b := by
  let before (x y : κ × α) : Prop := compare x.1 y.1 = .lt
  have : Std.Irrefl before := ⟨fun _ lt => ne_of_compare_eq_lt lt rfl⟩
  have : Std.Antisymm before :=
    ⟨fun _ _ lt gt => absurd rfl (ne_of_compare_eq_lt (Std.TransCmp.lt_trans lt gt))⟩
  refine ext (List.Pairwise.eq_of_mem_iff a.ascending b.ascending fun (key, value) => ?_)
  rw [← get?_eq_some_iff, ← get?_eq_some_iff, same key]

/-! ## Operations

Each operation is described by the look-ups of its result. -/

/-- The entries at the keys that are kept. -/
def filterKeys (keep : κ → Bool) (m : SortedMap κ α) : SortedMap κ α where
  entries := m.entries.filter fun e => keep e.1
  ascending := m.ascending.filter _

theorem get?_filterKeys [Std.LawfulEqOrd κ] (keep : κ → Bool) (m : SortedMap κ α) (key : κ) :
    (m.filterKeys keep).get? key = if keep key then m.get? key else none := by
  refine Option.ext fun a => ?_
  rw [get?_eq_some_iff]
  show (key, a) ∈ List.filter _ m.entries ↔ _
  rw [List.mem_filter, ← get?_eq_some_iff]
  split
  · next kept => exact and_iff_left kept
  · next dropped => exact ⟨fun h => absurd h.2 dropped, nofun⟩

/-- An entry of the result comes from an entry at the same key.  The keys are not touched, so they
ascend as before. -/
theorem mem_entries_filterMap {f : α → Option β} {m : SortedMap κ α} {key : κ} {b : β} :
    (key, b) ∈ (m.filterMap f).entries ↔ ∃ a, (key, a) ∈ m.entries ∧ f a = some b := by
  show _ ∈ List.filterMap _ m.entries ↔ _
  rw [List.mem_filterMap]
  constructor
  · rintro ⟨⟨key', a⟩, entry, eq⟩
    obtain ⟨b', value, eq⟩ := Option.map_eq_some_iff.1 eq
    cases eq
    exact ⟨a, entry, value⟩
  · rintro ⟨a, entry, value⟩
    exact ⟨(key, a), entry, by rw [value]; rfl⟩

/-- A look-up in the result is a look-up, and then the function. -/
theorem get?_filterMap [Std.LawfulEqOrd κ] (f : α → Option β) (m : SortedMap κ α) (key : κ) :
    (m.filterMap f).get? key = (m.get? key).bind f := by
  refine Option.ext fun b => ?_
  rw [get?_eq_some_iff, mem_entries_filterMap, Option.bind_eq_some_iff]
  exact exists_congr fun a => and_congr_left' get?_eq_some_iff.symm

/-- Only the key that is taken out is not found any more. -/
theorem get?_erase [Std.LawfulEqOrd κ] [DecidableEq κ] (m : SortedMap κ α) (key other : κ) :
    (m.erase key).get? other = if other = key then none else m.get? other := by
  have kept : (compare key other != .eq) = true ↔ other ≠ key := by
    rw [bne_iff_ne, ne_eq, Std.LawfulEqCmp.compare_eq_iff_eq, eq_comm]
  refine Option.ext fun a => ?_
  rw [get?_eq_some_iff]
  show (other, a) ∈ List.filter _ m.entries ↔ _
  rw [List.mem_filter, kept, ← get?_eq_some_iff]
  split
  · next same => exact ⟨fun h => absurd same h.2, nofun⟩
  · next different => exact and_iff_left different

/-- What has the greatest key is put at the end.  This is the one case in which entries arrive in
their order, as they do when a map is made from those of another. -/
theorem insertEntry_of_forall_lt [Std.OrientedOrd κ] {key : κ} {value : α}
    {es : List (κ × α)} (greatest : ∀ e ∈ es, compare e.1 key = .lt) :
    insertEntry key value es = es ++ [(key, value)] := by
  induction es with
  | nil => rfl
  | cons e rest ih =>
    have above : compare key e.1 = .gt := Std.OrientedCmp.gt_of_lt (greatest e List.mem_cons_self)
    rw [insertEntry, above, List.cons_append]
    exact congrArg (e :: ·) (ih fun x mem => greatest x (List.mem_cons_of_mem e mem))

variable [Std.TransOrd κ] [Std.LawfulEqOrd κ]

/-- What is put in its place stands instead of the entry that had its key.  The cases are those of
the comparison with the first key.  Below it the new entry is put in front, at it the old one is
replaced, and above it the search goes on. -/
theorem mem_insertEntry_iff {key : κ} {value : α} {x : κ × α} {es : List (κ × α)}
    (ascending : es.Pairwise fun a b => compare a.1 b.1 = .lt) :
    x ∈ insertEntry key value es ↔ x = (key, value) ∨ x.1 ≠ key ∧ x ∈ es := by
  induction es with
  | nil => simp [insertEntry]
  | cons e rest ih =>
    obtain ⟨first, others⟩ := List.pairwise_cons.1 ascending
    rw [insertEntry]
    split
    case h_1 lt =>
      rw [List.mem_cons]
      refine or_congr_right (and_iff_right_of_imp fun mem => ?_).symm
      have below : compare key x.1 = .lt := by
        rcases List.mem_cons.1 mem with rfl | mem
        · exact lt
        · exact Std.TransCmp.lt_trans lt (first x mem)
      exact (ne_of_compare_eq_lt below).symm
    case h_2 eq =>
      obtain rfl : key = e.1 := Std.LawfulEqCmp.eq_of_compare eq
      rw [List.mem_cons, List.mem_cons]
      refine or_congr_right ⟨fun mem => ?_, fun h => ?_⟩
      · exact ⟨(ne_of_compare_eq_lt (first x mem)).symm, .inr mem⟩
      · exact h.2.resolve_left fun same => h.1 (congrArg Prod.fst same)
    case h_3 gt =>
      have different : e.1 ≠ key := ne_of_compare_eq_lt (Std.OrientedCmp.lt_of_gt gt)
      rw [List.mem_cons, ih others, List.mem_cons]
      constructor
      · rintro (rfl | added | ⟨different, mem⟩)
        · exact .inr ⟨different, .inl rfl⟩
        · exact .inl added
        · exact .inr ⟨different, .inr mem⟩
      · rintro (added | ⟨different, same | mem⟩)
        · exact .inr (.inl added)
        · exact .inl same
        · exact .inr (.inr ⟨different, mem⟩)

/-- Entries that are put in in their order stand in this order.  Each is greater than all before it,
and so is put at the end. -/
theorem entries_foldl_insert {es : List (κ × α)} {m : SortedMap κ α}
    (ascending : (m.entries ++ es).Pairwise fun a b => compare a.1 b.1 = .lt) :
    (es.foldl (fun m e => m.insert e.1 e.2) m).entries = m.entries ++ es := by
  induction es generalizing m with
  | nil => exact (List.append_nil _).symm
  | cons e es ih =>
    have greatest : ∀ x ∈ m.entries, compare x.1 e.1 = .lt := fun x mem =>
      (List.pairwise_append.1 ascending).2.2 x mem e List.mem_cons_self
    have inserted : (m.insert e.1 e.2).entries = m.entries ++ [e] :=
      insertEntry_of_forall_lt greatest
    rw [List.append_cons] at ascending ⊢
    rw [← inserted] at ascending ⊢
    exact ih ascending

/-- A map is made again from its entries. -/
theorem ofList_entries (m : SortedMap κ α) : ofList m.entries = m :=
  ext (entries_foldl_insert m.ascending)

/-- A look-up finds what was put in, at its key, and what was there at all others.  This is the only
lemma on insertion that is used outside of this module. -/
theorem get?_insert [DecidableEq κ] (m : SortedMap κ α) (key other : κ) (value : α) :
    (m.insert key value).get? other = if other = key then some value else m.get? other := by
  refine Option.ext fun a => ?_
  rw [get?_eq_some_iff]
  show (other, a) ∈ insertEntry key value m.entries ↔ _
  rw [mem_insertEntry_iff m.ascending, ← get?_eq_some_iff, Prod.mk.injEq]
  split
  · next same => simp [same, eq_comm]
  · next different => simp [different]

end SortedMap

end Tabletop
