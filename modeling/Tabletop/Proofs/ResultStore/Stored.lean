import Tabletop.Proofs.Dice.Stored
import Tabletop.Proofs.SortedMap
import Tabletop.ResultStore

/-!
# Stores come back whole, or not at all

A store is written as a text and read again.  Nothing that is written gets lost on the way: not the
digits of a number, not a lookalike character of a path, not an empty line of the store, not the
history of a die.  What can happen is that the text is not read at all, because the reader has a
limit on nesting and the writer has none:

* `ResultStore.read?_write` — the store comes back exactly if the depth of what is written is below
  the limit, and otherwise nothing does;
* `ResultStore.read?_write_of_sum` — the limit is met by results that notations have: every sum of
  sixty-three terms is beyond it.

Of the numbers in a store it is asked that they are finite, and of the floats among them that their
digits are read as the float they were made of.  Places and results are arbitrary.

A store is three maps inside each other around results.  The keys of the outer one are texts, those
of the inner ones numbers written as texts, and a map with such keys needs the one lemma that is not
about nesting: the digits of a number of 64 bits are read as the number, and no other text is
(`key64?_toString`).
-/

namespace Tabletop

open Json

/-! ## Numbers as names of fields

Lines and places are numbers, and the names of fields are texts.  A number is written without zeros
in front, and this is what the reader asks for. -/

theorem pieceOf_of_isDigit {c : Char} (digit : c.isDigit = true) : pieceOf c = .plain c := by
  have visible : ¬ c.toNat < 0x20 := by
    have : '0'.toNat ≤ c.toNat := (Char.isDigit_iff_toNat.1 digit).1
    exact Nat.not_lt.2 (Nat.le_trans (by decide) this)
  unfold pieceOf
  rw [if_neg, if_neg visible]
  rintro (rfl | rfl | rfl | rfl | rfl | rfl | rfl) <;> exact nomatch digit

/-- Digits without zeros in front are a key if their value has 64 bits. -/
theorem key64?_of_areWhole {digits : List Char} (are : AreWhole digits) :
    key64? (digits.map pieceOf) =
      if Nat.ofDigitChars 10 digits 0 < UInt64.size
        then some (UInt64.ofNat (Nat.ofDigitChars 10 digits 0)) else none := by
  have alone : ¬ (digits.isEmpty ∨ (1 < digits.length ∧ digits.head? = some '0')) := by
    rintro (nothing | ⟨long, zero⟩)
    · exact are.ne_nil (List.isEmpty_iff.1 nothing)
    · rw [are.zero zero] at long
      exact Nat.lt_irrefl 1 long
  rw [key64?, mapM_map_eq_some fun c mem => ?plain, Option.bind_eq_bind, Option.bind_some,
    if_neg alone]
  case plain => simp only [pieceOf_of_isDigit (are.isDigit c mem), if_pos (are.isDigit c mem)]

theorem key64?_toString (n : UInt64) :
    key64? ((toString n.toNat).toList.map pieceOf) = some n := by
  show key64? (n.toNat.repr.toList.map pieceOf) = some n
  rw [Nat.toList_repr, key64?_of_areWhole (areWhole_toDigits n.toNat),
    Nat.ofDigitChars_toDigits (by decide) (by decide), if_pos n.toNat_lt, UInt64.ofNat_toNat]

namespace ResultStore

/-! ## Maps

The two inner maps have numbers as keys, and the lemmas of this section are used for both. -/

theorem depth_objectOfMap (value : α → Json) (m : SortedMap UInt64 α) :
    (objectOfMap value m).depth = deepest (m.entries.map fun e => value e.2) + 1 := by
  rw [objectOfMap, depth_record, List.map_map]
  rfl

/-- A map comes back if its values do.  The entries are decoded in their order, which is that of the
keys, and building a map of them again changes nothing. -/
theorem mapOfObject?_objectOfMap {value : α → Json} {decode : Nat → Json → Option α}
    {m : SortedMap UInt64 α}
    (each : ∀ a ∈ m.values, ∀ level, 0 < level →
      decode level (value a) = within level (value a).depth a) (level : Nat) :
    mapOfObject? decode level (objectOfMap value m) =
      within level (objectOfMap value m).depth m := by
  let form (e : UInt64 × α) := quoted (toString e.1.toNat, value e.2)
  have object : objectOfMap value m = .object (m.entries.map form) := by
    show Json.object ((m.entries.map _).map quoted) = _
    rw [List.map_map]
    rfl
  rw [depth_objectOfMap, object, mapOfObject?, asMap?, Option.bind_eq_bind, Option.bind_map]
  refine enter?_bind fun level levels => ?_
  simp only [Function.comp]
  rw [mapM_within levels fun e mem => ?entry]
  case entry =>
    have value := each e.2 (List.mem_map_of_mem mem) level levels
    simp only [form, quoted, key64?_toString, value, Option.bind_eq_bind, Option.bind_some]
    exact within_bind_some ..
  rw [Option.bind_eq_bind]
  simp only [Option.pure_def, within_bind_some, SortedMap.ofList_entries]

/-! ## Stores -/

/-- The numbers that a store holds. -/
def numbers (s : ResultStore) : List Number :=
  s.documents.values.flatMap fun lines =>
    lines.values.flatMap fun results => results.values.flatMap RollResult.numbers

/-- The results of the lines of a document. -/
def linesToJson (lines : LineResults) : Json :=
  objectOfMap (objectOfMap RollResult.toJson) lines

theorem depth_toJson (s : ResultStore) :
    s.toJson.depth = deepest (s.documents.entries.map fun e => linesToJson e.2) + 1 := by
  rw [toJson, depth_record, List.map_map]
  rfl

/-- The results of a document come back, line by line. -/
theorem mapOfObject?_linesToJson {lines : LineResults}
    (storable : ∀ results ∈ lines.values, ∀ r ∈ results.values, ∀ n ∈ r.numbers, n.Storable)
    (level : Nat) :
    mapOfObject? (mapOfObject? RollResult.ofJson?) level (linesToJson lines) =
      within level (linesToJson lines).depth lines := by
  refine mapOfObject?_objectOfMap (fun results mem level _ => ?_) level
  refine mapOfObject?_objectOfMap (fun r member level _ => ?_) level
  exact RollResult.ofJson?_toJson (storable results mem r member) level

/-- **Stores come back**, exactly at the levels above their depth.  This is the map of the outer
kind, whose keys are texts and need no decoding. -/
theorem ofJson?_toJson {s : ResultStore} (storable : ∀ n ∈ s.numbers, n.Storable) (level : Nat) :
    ofJson? level s.toJson = within level s.toJson.depth s := by
  let form (e : String × LineResults) := quoted (e.1, linesToJson e.2)
  have object : s.toJson = .object (s.documents.entries.map form) := by
    show Json.object ((s.documents.entries.map _).map quoted) = _
    rw [List.map_map]
    rfl
  have lines (e : String × LineResults) (mem : e ∈ s.documents.entries) (level : Nat) :
      mapOfObject? (mapOfObject? RollResult.ofJson?) level (linesToJson e.2) =
        within level (linesToJson e.2).depth e.2 := by
    refine mapOfObject?_linesToJson (fun results inLines r inResults n inResult => ?_) level
    have inNumbers : n ∈ s.numbers := List.mem_flatMap.2 ⟨e.2, List.mem_map_of_mem mem,
      List.mem_flatMap.2 ⟨results, inLines, List.mem_flatMap.2 ⟨r, inResults, inResult⟩⟩⟩
    exact storable n inNumbers
  rw [depth_toJson, object, ofJson?, asMap?, Option.bind_eq_bind, Option.bind_map]
  refine enter?_bind fun level levels => ?_
  simp only [Function.comp]
  rw [mapM_within levels fun e mem => ?entry]
  case entry =>
    simp only [form, quoted, text?_map_pieceOf, lines e mem level, Option.bind_eq_bind,
      Option.bind_some, String.ofList_toList]
    exact within_bind_some ..
  rw [Option.bind_eq_bind]
  simp only [Option.pure_def, within_bind_some, SortedMap.ofList_entries]

theorem wellFormed_objectOfMap {value : α → Json} {m : SortedMap UInt64 α}
    (each : ∀ a ∈ m.values, (value a).WellFormed) : (objectOfMap value m).WellFormed := by
  refine .record fun field mem => ?_
  obtain ⟨e, entry, rfl⟩ := List.mem_map.1 mem
  exact each e.2 (List.mem_map_of_mem entry)

/-- Whatever is stored, the text that is written is one of the format. -/
theorem wellFormed_toJson (s : ResultStore) : s.toJson.WellFormed := by
  refine .record fun field mem => ?_
  obtain ⟨e, -, rfl⟩ := List.mem_map.1 mem
  exact wellFormed_objectOfMap fun results _ =>
    wellFormed_objectOfMap fun r _ => r.wellFormed_toJson

/-- Reading what was written is decoding at all the levels that the reader has. -/
theorem read?_write_eq_within {s : ResultStore} (storable : ∀ n ∈ s.numbers, n.Storable) :
    read? s.write = within Json.levels s.toJson.depth s := by
  rw [read?, write, read?_compact s.wellFormed_toJson, Option.bind_some]
  exact ofJson?_toJson storable Json.levels

/-! ## One result

A store with one result shows that the limit is met. -/

theorem numbers_insert_empty (place : Place) (r : RollResult) :
    (empty.insert place r).2.numbers = r.numbers := by
  show (r.numbers ++ []) ++ [] ++ [] = r.numbers
  simp only [List.append_nil]

theorem depth_toJson_insert_empty (place : Place) (r : RollResult) :
    (empty.insert place r).2.toJson.depth = r.tree.toJson.depth + 4 := by
  rw [depth_toJson]
  show max (objectOfMap _ ⟨[(place.line, _)], _⟩).depth 0 + 1 = _
  rw [depth_objectOfMap]
  show max (max (objectOfMap _ ⟨[(place.index, r)], _⟩).depth 0 + 1) 0 + 1 = _
  rw [depth_objectOfMap]
  show max (max (max r.toJson.depth 0 + 1) 0 + 1) 0 + 1 = _
  rw [RollResult.depth_toJson]
  simp only [Nat.max_zero]

/-- A sum of sixty-three terms or more is written, but not read, whatever its terms are. -/
theorem read?_write_of_sum {place : Place} {r : RollResult} {first : RollTree}
    {others : List RollTree} (storable : ∀ n ∈ r.numbers, n.Storable)
    (tree : r.tree = .sum first others) (long : 62 ≤ others.length) :
    read? (empty.insert place r).2.write = none := by
  have terms := RollTree.lt_depth_toJson_sum first others
  have deep : ¬ (empty.insert place r).2.toJson.depth < Json.levels := by
    rw [depth_toJson_insert_empty, tree, Json.levels]
    omega
  rw [read?_write_eq_within (numbers_insert_empty place r ▸ storable)]
  exact if_neg deep

/-! ## Any store

The general statement, a store that comes back and one that does not. -/

/-- A store is read again exactly if it is not nested too deep, and then nothing is lost. -/
theorem read?_write {s : ResultStore} (finite : ∀ n ∈ s.numbers, n.isFinite = true)
    (exact : ∀ x, .float x ∈ s.numbers → (Json.Numeral.ofFloat x).float? = some x) :
    read? s.write = if s.toJson.depth < Json.levels then some s else none := by
  have storable : ∀ n ∈ s.numbers, n.Storable := fun n mem =>
    ⟨finite n mem, fun x float => exact x (float ▸ mem)⟩
  exact read?_write_eq_within storable

/-- A store with a die that has been rolled again, has had faces added and counts as a success, on a
page whose name has to be escaped. -/
theorem read?_write_one_die :
    let die : Die :=
      { faces := ⟨6, by decide⟩, earlier := [1], face := 6, bonus := [6, 2], rerolled := true,
        triggered := true, matched := true }
    let group : RollGroup :=
      { written := "1d6r1!>=4", count := 1, faces := ⟨6, by decide⟩, conditionals := [⟨.ge, 4⟩],
        dice := [die] }
    let r : RollResult :=
      { written := "1d6r1!>=4 / 2.5", total := .float 0.4, display := "1 / 2.5",
        tree := .binary (.dice group) .div (.literal (.float 2.5)) }
    let s := (empty.insert ⟨"Sessions/\"One\".md", 12, 0⟩ r).2
    (∀ n ∈ s.numbers, n.isFinite = true) ∧
      (∀ x, .float x ∈ s.numbers → (Json.Numeral.ofFloat x).float? = some x) ∧
      read? s.write = some s := by
  intro die group r s
  have numbers : s.numbers = [.float 0.4, .float 2.5] := numbers_insert_empty _ r
  have finite : ∀ n ∈ s.numbers, n.isFinite = true := by
    rw [numbers]
    decide +kernel
  have exact : ∀ x, .float x ∈ s.numbers → (Json.Numeral.ofFloat x).float? = some x := by
    rw [numbers]
    simp only [List.mem_cons, List.not_mem_nil, or_false, Number.float.injEq]
    rintro x (rfl | rfl) <;> decide +kernel
  have shallow : s.toJson.depth < Json.levels := by
    rw [depth_toJson_insert_empty]
    decide +kernel
  exact ⟨finite, exact, (read?_write finite exact).trans (if_pos shallow)⟩

/-- The sum of sixty-three ones. -/
theorem read?_write_sum_of_ones :
    let tree := RollTree.sum (.literal (.int 1)) (List.replicate 62 (.literal (.int 1)))
    let r : RollResult :=
      { written := String.join ("1" :: List.replicate 62 "+1"), total := .int 63,
        display := Breakdown.markdown.tree tree, tree }
    let s := (empty.insert ⟨"a.md", 1, 0⟩ r).2
    (∀ n ∈ s.numbers, n = .int 63 ∨ n = .int 1) ∧ read? s.write = none := by
  intro tree r s
  have numbers : ∀ n ∈ r.numbers, n = .int 63 ∨ n = .int 1 := by
    intro n mem
    rcases List.mem_cons.1 mem with total | term
    · exact .inl total
    · rw [RollTree.numbers_sum] at term
      rcases List.mem_append.1 term with first | other
      · exact .inr (List.mem_singleton.1 first)
      · obtain ⟨t, ones, inTerm⟩ := List.mem_flatMap.1 other
        rw [List.eq_of_mem_replicate ones] at inTerm
        exact .inr (List.mem_singleton.1 inTerm)
  have storable : ∀ n ∈ r.numbers, n.Storable := by
    intro n mem
    rcases numbers n mem with rfl | rfl <;> exact ⟨rfl, nofun⟩
  refine ⟨?_, read?_write_of_sum storable rfl (Nat.le_of_eq List.length_replicate.symm)⟩
  rw [numbers_insert_empty]
  exact numbers

end ResultStore

end Tabletop
