import Tabletop.Dice.Stored
import Tabletop.Proofs.Json.Nesting

/-!
# Stored results come back

Every kind of stored value is decoded to what was stored, with one exception that the form of the
decoders makes exact: a value that is nested too deep for the level is not decoded at all
(`within`).  A tree is as deep as its operators lie inside each other, and a sum grows by two levels
with every term (`RollTree.lt_depth_toJson_sum`), so there are results that are written and not
read.

Numbers are the leaves.  An integer comes back as an integer and a float as a float, provided its
digits are read as the float that they were made of.

How the proof goes.  For every kind of value there are three lemmas in a row: what is written is
well formed, which fields it has and how deep they are, and the decoder returns it `within` the
level.  The last one is put together from the rules for decoders, field by field in the order in
which the decoder asks for them.  Trees are the only recursive kind, so the induction is on them
alone; the two sides of an operator lie two levels inside of it, and everything else lies one.
-/

namespace Tabletop

open Json

/-! ## Leaves -/

/-- A number that is stored by its digits, and has them read as the number they were made of. -/
structure Number.Storable (n : Number) : Prop where
  finite : n.isFinite = true
  exact : ∀ x, n = .float x → (Json.Numeral.ofFloat x).float? = some x

/-- An integer is written by its digits, and a float that is none is written as nothing. -/
theorem Number.wellFormed_toJson (n : Number) : n.toJson.WellFormed := by
  cases n with
  | int n => exact .number (Numeral.wellFormed_ofInt _)
  | float x =>
    rw [toJson]
    split
    · exact .number (Numeral.wellFormed_ofFloat x)
    · exact .null

@[simp] theorem Number.depth_toJson (n : Number) : n.toJson.depth = 0 := by
  cases n with
  | int n => exact depth_ofInt _
  | float x =>
    rw [toJson]
    split <;> rw [depth]

/-- A number comes back as the same kind of number: the digits of a float are not those of an
integer, since they have a point or an exponent. -/
theorem Number.ofJson?_toJson {n : Number} (storable : n.Storable) :
    Number.ofJson? n.toJson = some n := by
  cases n with
  | int n =>
    rw [toJson, ofInt, ofJson?, Numeral.int64?_ofInt]
  | float x =>
    have finite : x.isFinite = true := storable.finite
    rw [toJson, if_pos finite, ofJson?, Numeral.int64?_ofFloat]
    simp only [storable.exact x rfl, Option.map_some]

theorem wellFormed_words (words : List UInt32) : (Json.array (words.map jsonOfWord)).WellFormed :=
  wellFormed_array fun n _ => wellFormed_ofInt n.toNat

@[simp] theorem depth_jsonOfWord (n : UInt32) : (jsonOfWord n).depth = 0 :=
  depth_ofInt n.toNat

theorem asWord32?_jsonOfWord (n : UInt32) : (jsonOfWord n).asWord32? = some n :=
  asWord32?_ofInt n

/-- A list of words comes back at every level that has room for one array. -/
theorem wordsOfJson?_words (words : List UInt32) (level : Nat) :
    wordsOfJson? level (.array (words.map jsonOfWord)) =
      within level (Json.array (words.map jsonOfWord)).depth words := by
  have each : ∀ n ∈ words, ∀ level, 0 < level →
      asWord32? (jsonOfWord n) = within level (jsonOfWord n).depth n := by
    intro n _ level levels
    rw [asWord32?_jsonOfWord, depth_jsonOfWord, within_zero levels]
  exact decode_array each level

theorem Faces.ofJson?_count (f : Faces) : Faces.ofJson? (jsonOfWord f.count) = some f := by
  rw [ofJson?, asWord32?_jsonOfWord, Option.bind_some, ofWord?, dif_pos f.ne_zero]

theorem Comparison.ofName?_name (c : Comparison) : ofName? c.name = some c := by
  cases c <;> rfl

theorem BinaryOperator.ofName?_name (op : BinaryOperator) : ofName? op.name = some op := by
  cases op <;> rfl

/-! ## Conditionals

A record of two leaves: the comparison by its name, the comparer as an integer. -/

namespace Conditional

theorem wellFormed_toJson (c : Conditional) : c.toJson.WellFormed := by
  refine .record ?_
  simp only [List.forall_mem_cons]
  exact ⟨.ofString _, wellFormed_ofInt _, List.forall_mem_nil _⟩

@[simp] theorem depth_toJson (c : Conditional) : c.toJson.depth = 1 := by
  simp [toJson, depth_record, deepest]

/-- A conditional comes back at every level that it can be entered at. -/
theorem ofJson?_toJson (c : Conditional) (level : Nat) :
    ofJson? level c.toJson = within level c.toJson.depth c := by
  have found : ["operator", "comparer"].mapM (single? [("operator", ofString c.comparison.name),
      ("comparer", Json.ofInt c.comparer.toInt)]) =
      some [some (ofString c.comparison.name), some (Json.ofInt c.comparer.toInt)] := rfl
  rw [depth_toJson, ofJson?, toJson, asRecord?_record found, Option.bind_eq_bind, Option.bind_map]
  refine enter?_bind fun level levels => ?_
  simp [asName?_ofString, asInt64?_ofInt, Comparison.ofName?_name, within_zero levels]

theorem listOfJson?_map_toJson (cs : List Conditional) (level : Nat) :
    listOfJson? level (.array (cs.map toJson)) =
      within level (Json.array (cs.map toJson)).depth cs :=
  decode_array (fun c _ level _ => ofJson?_toJson c level) level

end Conditional

/-! ## Dice

A die is written with everything that was shown, so that its history is stored with it.  The list of
what was added to it is left out when there is nothing in it. -/

namespace Die

/-- The fields of a stored die. -/
def fields (d : Die) : List (String × Json) :=
  [("faces", jsonOfWord d.faces.count), ("rolls", .array (d.rolls.map jsonOfWord))] ++
    listField "bonus" jsonOfWord d.bonus ++
    [("dropped", .bool d.dropped), ("rerolled", .bool d.rerolled), ("exploded", .bool d.exploded),
      ("triggered", .bool d.triggered), ("matched", .bool d.matched)]

theorem toJson_eq (d : Die) : d.toJson = .record d.fields := rfl

/-- Words, lists of words and flags are well formed. -/
theorem wellFormed_toJson (d : Die) : d.toJson.WellFormed := by
  rw [toJson_eq]
  refine .record ?_
  simp only [fields, List.forall_mem_append, List.forall_mem_cons]
  refine ⟨⟨⟨wellFormed_ofInt _, wellFormed_words _, List.forall_mem_nil _⟩, ?_⟩, .bool _, .bool _,
    .bool _, .bool _, .bool _, List.forall_mem_nil _⟩
  exact wellFormed_listField fun n _ => wellFormed_ofInt n.toNat

/-- Every field is found by its name, and only once.  Only the list that may be left out makes a
case. -/
theorem single?_fields (d : Die) :
    ["faces", "rolls", "bonus", "dropped", "rerolled", "exploded", "triggered", "matched"].mapM
        (single? d.fields) =
      some [some (jsonOfWord d.faces.count), some (.array (d.rolls.map jsonOfWord)),
        if d.bonus.isEmpty then none else some (.array (d.bonus.map jsonOfWord)),
        some (.bool d.dropped), some (.bool d.rerolled), some (.bool d.exploded),
        some (.bool d.triggered), some (.bool d.matched)] := by
  unfold fields listField
  cases d.bonus <;> rfl

/-- The depth of a die is that of the two lists it has. -/
theorem deepest_fields (d : Die) :
    deepest (d.fields.map (·.2)) =
      max (Json.array (d.rolls.map jsonOfWord)).depth
        (deepest ((listField "bonus" jsonOfWord d.bonus).map (·.2))) := by
  simp only [fields, List.map_append, List.map_cons, List.map_nil, deepest_append, deepest,
    depth_jsonOfWord, depth_bool]
  omega

/-- A die comes back.  The decoder splits what was shown into the last face and the earlier ones,
and this is how the die has them. -/
theorem ofJson?_toJson (d : Die) (level : Nat) :
    ofJson? level d.toJson = within level d.toJson.depth d := by
  rw [ofJson?, toJson_eq, asRecord?_record d.single?_fields, depth_record, deepest_fields,
    Option.bind_eq_bind, Option.bind_map]
  refine enter?_bind fun level levels => ?_
  -- The last face shown is never missing, so the decoder does not fail for want of it.
  have face : d.rolls.getLast? = some d.face := List.getLast?_concat
  have earlier : d.rolls.dropLast = d.earlier := List.dropLast_concat
  have bonus := orDefault_listField levels "bonus" (wordsOfJson?_words d.bonus level)
  simp only [Function.comp, Faces.ofJson?_count, wordsOfJson?_words, bonus, orDefault_bool,
    Option.bind_eq_bind, Option.bind_some, Option.pure_def]
  refine within_bind ?_
  simp only [face, earlier, Option.bind_some]
  exact within_bind_some ..

end Die

/-! ## Groups and stunts

A group is one level around its dice, and a stunt one level around a pair of words. -/

namespace RollGroup

/-- The fields of a stored group. -/
def fields (g : RollGroup) : List (String × Json) :=
  [("notation", .ofString g.written), ("count", jsonOfWord g.count),
      ("faces", jsonOfWord g.faces.count)] ++
    listField "conditionals" Conditional.toJson g.conditionals ++
    [("dice", .array (g.dice.map Die.toJson))]

theorem toJson_eq (g : RollGroup) : g.toJson = .record g.fields := rfl

/-- The dice and conditionals are well formed, and the text is any text. -/
theorem wellFormed_toJson (g : RollGroup) : g.toJson.WellFormed := by
  rw [toJson_eq]
  refine .record ?_
  simp only [fields, List.forall_mem_append, List.forall_mem_cons]
  refine ⟨⟨⟨.ofString _, wellFormed_ofInt _, wellFormed_ofInt _, List.forall_mem_nil _⟩, ?_⟩,
    wellFormed_array fun d _ => d.wellFormed_toJson, List.forall_mem_nil _⟩
  exact wellFormed_listField fun c _ => c.wellFormed_toJson

/-- Every field of a group is found by its name, and only once. -/
theorem single?_fields (g : RollGroup) :
    ["notation", "count", "faces", "conditionals", "dice"].mapM (single? g.fields) =
      some [some (.ofString g.written), some (jsonOfWord g.count), some (jsonOfWord g.faces.count),
        if g.conditionals.isEmpty then none
          else some (.array (g.conditionals.map Conditional.toJson)),
        some (.array (g.dice.map Die.toJson))] := by
  unfold fields listField
  cases g.conditionals <;> rfl

theorem deepest_fields (g : RollGroup) :
    deepest (g.fields.map (·.2)) =
      max (deepest ((listField "conditionals" Conditional.toJson g.conditionals).map (·.2)))
        (Json.array (g.dice.map Die.toJson)).depth := by
  simp only [fields, List.map_append, List.map_cons, List.map_nil, deepest_append, deepest,
    depth_jsonOfWord, depth_ofString]
  omega

/-- A group comes back with its conditionals and all of its dice. -/
theorem ofJson?_toJson (g : RollGroup) (level : Nat) :
    ofJson? level g.toJson = within level g.toJson.depth g := by
  rw [ofJson?, toJson_eq, asRecord?_record g.single?_fields, depth_record, deepest_fields,
    Option.bind_eq_bind, Option.bind_map]
  refine enter?_bind fun level levels => ?_
  have conditionals := orDefault_listField levels "conditionals"
    (Conditional.listOfJson?_map_toJson g.conditionals level)
  have dice := decode_array (fun d (_ : d ∈ g.dice) level _ => Die.ofJson?_toJson d level) level
  simp only [Function.comp, asText?_ofString, asWord32?_jsonOfWord, Faces.ofJson?_count,
    conditionals, Option.bind_eq_bind, Option.bind_some, Option.pure_def]
  refine within_bind ?_
  rw [← Option.bind_assoc, dice]
  exact within_bind_some ..

end RollGroup

namespace StuntRoll

theorem wellFormed_toJson (s : StuntRoll) : s.toJson.WellFormed := by
  refine .record ?_
  simp only [List.forall_mem_cons]
  exact ⟨.ofString _, wellFormed_words [s.regular.1, s.regular.2], wellFormed_ofInt _,
    List.forall_mem_nil _⟩

/-- A stunt is as deep as its pair of regular dice. -/
theorem depth_toJson (s : StuntRoll) :
    s.toJson.depth = max (Json.array ([s.regular.1, s.regular.2].map jsonOfWord)).depth 0 + 1 := by
  simp only [toJson, depth_record, List.map_cons, List.map_nil, deepest, depth_ofString,
    depth_jsonOfWord]
  omega

/-- A stunt comes back.  Its regular dice are written as a list, and a list of two is what the
decoder wants. -/
theorem ofJson?_toJson (s : StuntRoll) (level : Nat) :
    ofJson? level s.toJson = within level s.toJson.depth s := by
  have found : ["notation", "regular", "stunt"].mapM (single? [("notation", .ofString s.written),
      ("regular", .array ([s.regular.1, s.regular.2].map jsonOfWord)),
      ("stunt", jsonOfWord s.stunt)]) =
      some [some (.ofString s.written),
        some (.array ([s.regular.1, s.regular.2].map jsonOfWord)),
        some (jsonOfWord s.stunt)] := rfl
  have regular := wordsOfJson?_words [s.regular.1, s.regular.2]
  rw [depth_toJson, ofJson?, toJson]
  simp only [List.map_cons, List.map_nil] at found regular ⊢
  rw [asRecord?_record found, Option.bind_eq_bind, Option.bind_map]
  refine enter?_bind fun level levels => ?_
  simp only [Function.comp, asText?_ofString, asWord32?_jsonOfWord, regular, Option.bind_eq_bind,
    Option.bind_some, Option.pure_def]
  exact within_bind (within_zero levels s).symm

end StuntRoll

/-! ## Trees

A node is an object of one field, which says what kind of node it is. -/

namespace RollTree

/-- The numbers that a tree holds. -/
def numbers : RollTree → List Number
  | literal value => [value]
  | dice _ => []
  | stunt _ => []
  | grouping inner => inner.numbers
  | negate inner => inner.numbers
  | binary left _ right => left.numbers ++ right.numbers

/-- By induction on the tree: every node is a record, and a well formed one if its parts are. -/
theorem wellFormed_toJson (t : RollTree) : t.toJson.WellFormed := by
  induction t with
  | literal value => exact .record (List.forall_mem_singleton.2 value.wellFormed_toJson)
  | dice group => exact .record (List.forall_mem_singleton.2 group.wellFormed_toJson)
  | stunt roll => exact .record (List.forall_mem_singleton.2 roll.wellFormed_toJson)
  | grouping inner ih => exact .record (List.forall_mem_singleton.2 ih)
  | negate inner ih => exact .record (List.forall_mem_singleton.2 ih)
  | binary left op right ihLeft ihRight =>
    refine .record (List.forall_mem_singleton.2 (.record ?_))
    simp only [List.forall_mem_cons]
    exact ⟨ihLeft, .ofString _, ihRight, List.forall_mem_nil _⟩

theorem depth_variant (name : String) (value : Json) :
    (record [(name, value)]).depth = value.depth + 1 := by
  rw [depth_record, List.map_cons, List.map_nil, deepest, deepest, Nat.max_zero]

/-- An operator has two levels: the object that names it, and the record of its sides. -/
theorem depth_toJson_binary (left : RollTree) (op : BinaryOperator) (right : RollTree) :
    (binary left op right).toJson.depth = max left.toJson.depth right.toJson.depth + 2 := by
  rw [toJson, depth_variant, depth_record]
  simp only [List.map_cons, List.map_nil, deepest, depth_ofString]
  omega

theorem depth_toJson_pos (t : RollTree) : 0 < t.toJson.depth := by
  cases t <;>
  · rw [toJson, depth_variant]
    exact Nat.succ_pos _

/-- A sum, added up from the left. -/
def sum (first : RollTree) (others : List RollTree) : RollTree :=
  others.foldl (fun t term => .binary t .add term) first

theorem numbers_sum (first : RollTree) (others : List RollTree) :
    (sum first others).numbers = first.numbers ++ others.flatMap numbers := by
  induction others generalizing first with
  | nil => exact (List.append_nil _).symm
  | cons term others ih =>
    show (sum (binary first .add term) others).numbers = _
    rw [ih, numbers, List.flatMap_cons, List.append_assoc]

/-- Every term of a sum adds two levels.  The induction is on the terms, with the tree so far as the
parameter, since a sum grows at its left. -/
theorem lt_depth_toJson_sum (first : RollTree) (others : List RollTree) :
    2 * others.length < (sum first others).toJson.depth := by
  have each : 2 * others.length + first.toJson.depth ≤ (sum first others).toJson.depth := by
    induction others generalizing first with
    | nil => exact Nat.le_of_eq (Nat.zero_add _)
    | cons term others ih =>
      have inner := ih (binary first .add term)
      rw [depth_toJson_binary] at inner
      show 2 * (others.length + 1) + _ ≤ (sum (binary first .add term) others).toJson.depth
      omega
  have := first.depth_toJson_pos
  omega

/-- A node is decoded inside of its object.  The equation `reads` says that the decoder of trees has
a case for the kind of node. -/
theorem ofJson?_node {decode : Nat → Json → Option α} {name : String} {value : Json}
    {node : α → RollTree} {a : α}
    (reads : ∀ level, ofJson? (level + 2) (record [(name, value)]) =
      (decode (level + 1) value).map node)
    (back : ∀ level, 0 < level → decode level value = within level value.depth a) (level : Nat) :
    ofJson? level (record [(name, value)]) =
      within level (record [(name, value)]).depth (node a) := by
  rw [depth_variant]
  match level with
  | 0 => rw [ofJson?]; rfl
  | 1 => rw [ofJson?]; rfl
  | level + 2 => rw [reads, back (level + 1) (Nat.succ_pos level), within_map, within_succ]

/-- The two sides of an operator are decoded two levels further in. -/
theorem ofJson?_binary {left right : RollTree} (op : BinaryOperator)
    (readLeft : ∀ level, ofJson? level left.toJson = within level left.toJson.depth left)
    (readRight : ∀ level, ofJson? level right.toJson = within level right.toJson.depth right)
    (level : Nat) :
    ofJson? level (binary left op right).toJson =
      within level (binary left op right).toJson.depth (binary left op right) := by
  have found : ["left", "op", "right"].mapM (single? [("left", left.toJson),
      ("op", .ofString op.name), ("right", right.toJson)]) =
      some [some left.toJson, some (.ofString op.name), some right.toJson] := rfl
  rw [depth_toJson_binary, toJson]
  match level with
  | 0 => rw [ofJson?]; rfl
  -- The object of the operator can be entered at this level, and its sides cannot.
  | 1 => rw [ofJson?]; rfl
  | level + 2 =>
    rw [ofJson?, asVariant?_record, enter?, within_succ, within_succ]
    show (asRecord? (level + 1) _ _).bind _ = _
    rw [asRecord?_record found]
    cases level with
    | zero => rfl
    | succ level =>
      simp only [enter?, Option.map_some, Option.bind_some, asName?_ofString,
        BinaryOperator.ofName?_name, readLeft, readRight, Option.bind_eq_bind, Option.pure_def]
      exact within_bind (within_bind_some ..)

/-- **Trees come back**, if their numbers do, and exactly at the levels that are above their depth.
The induction is on the tree, for all levels at once. -/
theorem ofJson?_toJson {t : RollTree} (storable : ∀ n ∈ t.numbers, n.Storable) (level : Nat) :
    ofJson? level t.toJson = within level t.toJson.depth t := by
  induction t generalizing level with
  | literal value =>
    have back (level : Nat) (levels : 0 < level) :
        (fun _ => Number.ofJson?) level value.toJson = within level value.toJson.depth value := by
      rw [Number.depth_toJson, within_zero levels]
      exact Number.ofJson?_toJson (storable value List.mem_cons_self)
    exact ofJson?_node (fun level => by rw [ofJson?, asVariant?_record, enter?]; rfl) back level
  | dice group =>
    exact ofJson?_node (fun level => by rw [ofJson?, asVariant?_record, enter?]; rfl)
      (fun level _ => group.ofJson?_toJson level) level
  | stunt roll =>
    exact ofJson?_node (fun level => by rw [ofJson?, asVariant?_record, enter?]; rfl)
      (fun level _ => roll.ofJson?_toJson level) level
  | grouping inner ih =>
    exact ofJson?_node (fun level => by rw [ofJson?, asVariant?_record, enter?]; rfl)
      (fun level _ => ih storable level) level
  | negate inner ih =>
    exact ofJson?_node (fun level => by rw [ofJson?, asVariant?_record, enter?]; rfl)
      (fun level _ => ih storable level) level
  | binary left op right ihLeft ihRight =>
    have left := ihLeft fun n mem => storable n (List.mem_append_left _ mem)
    have right := ihRight fun n mem => storable n (List.mem_append_right _ mem)
    exact ofJson?_binary op left right level

end RollTree

/-! ## Results

A result is a record of its text, its total, its display and its tree, and only the tree has depth.
-/

namespace RollResult

/-- The numbers that a result holds. -/
def numbers (r : RollResult) : List Number :=
  r.total :: r.tree.numbers

/-- A result is well formed, with its total and its tree. -/
theorem wellFormed_toJson (r : RollResult) : r.toJson.WellFormed := by
  refine .record ?_
  simp only [List.forall_mem_cons]
  exact ⟨.ofString _, r.total.wellFormed_toJson, .ofString _, r.tree.wellFormed_toJson,
    List.forall_mem_nil _⟩

/-- A result is one level around its tree, which is never a leaf. -/
theorem depth_toJson (r : RollResult) : r.toJson.depth = r.tree.toJson.depth + 1 := by
  rw [toJson, depth_record]
  simp only [List.map_cons, List.map_nil, deepest, depth_ofString, Number.depth_toJson,
    Nat.zero_max, Nat.max_zero]

/-- **Results come back**, exactly at the levels above their depth. -/
theorem ofJson?_toJson {r : RollResult} (storable : ∀ n ∈ r.numbers, n.Storable) (level : Nat) :
    ofJson? level r.toJson = within level r.toJson.depth r := by
  have found : ["notation", "total", "display", "tree"].mapM
      (single? [("notation", .ofString r.written), ("total", r.total.toJson),
        ("display", .ofString r.display), ("tree", r.tree.toJson)]) =
      some [some (.ofString r.written), some r.total.toJson, some (.ofString r.display),
        some r.tree.toJson] := rfl
  have total := Number.ofJson?_toJson (storable r.total List.mem_cons_self)
  rw [depth_toJson, ofJson?, toJson, asRecord?_record found, Option.bind_eq_bind, Option.bind_map]
  refine enter?_bind fun level levels => ?_
  have tree := RollTree.ofJson?_toJson (fun n mem => storable n (List.mem_cons_of_mem _ mem)) level
  simp only [Function.comp, asText?_ofString, total, tree, Option.bind_eq_bind, Option.bind_some,
    Option.pure_def]
  exact within_bind_some ..

end RollResult

end Tabletop
