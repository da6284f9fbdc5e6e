import Tabletop.Json.Decode
import Tabletop.Proofs.Json.RoundTrip

/-!
# Nesting

Values are written at any depth and decoded down to a limit.  `depth` counts the arrays and objects
that lie inside each other, and the limit does one thing only: what is decoded at a level comes back
if its depth is below the level, and nothing comes back otherwise.  `within` is this result, and its
equations are the rules by which decoders with the property are put together:

* `enter?_bind` — one array or object around what is decoded;
* `within_bind` — one part after the other;
* `decode_array` — the elements of an array, at any level;
* `asRecord?_record` — the fields of a record, of which those of empty lists may be left out
  (`orDefault_listField`).

The form of the statements is load-bearing. "It comes back if it is shallow" would not compose: a
decoder has to be shown to fail where one of its parts does, and this is why every rule is an
equation with `within` on its right side.  Levels are consumed from outside, so the hypotheses of
the rules speak of all levels at once, and of positive ones only: a value of depth nothing is
decoded at any level but zero.
-/

namespace Tabletop.Json

/-! ## Depth -/

mutual

/-- The number of arrays and objects that lie inside each other. -/
def depth : Json → Nat
  | array elements => deepest elements + 1
  | object fields => deepestField fields + 1
  | null | bool _ | number _ | string _ => 0

/-- The greatest depth in a list of values. -/
def deepest : List Json → Nat
  | [] => 0
  | x :: xs => max x.depth (deepest xs)

/-- The greatest depth among the values of fields. -/
def deepestField : List (List Piece × Json) → Nat
  | [] => 0
  | (_, x) :: fields => max x.depth (deepestField fields)

end

theorem deepestField_map_quoted (fields : List (String × Json)) :
    deepestField (fields.map quoted) = deepest (fields.map (·.2)) := by
  induction fields with
  | nil => rw [List.map_nil, List.map_nil, deepestField, deepest]
  | cons field fields ih =>
    rw [List.map_cons, List.map_cons, quoted, deepestField, deepest, ih]

theorem depth_record (fields : List (String × Json)) :
    (record fields).depth = deepest (fields.map (·.2)) + 1 := by
  show (object (fields.map quoted)).depth = _
  rw [depth, deepestField_map_quoted]

@[simp] theorem depth_ofString (s : String) : (ofString s).depth = 0 := by
  rw [ofString, depth]

@[simp] theorem depth_ofInt (n : Int) : (ofInt n).depth = 0 := by
  rw [ofInt, depth]

@[simp] theorem depth_bool (b : Bool) : (bool b).depth = 0 := by
  rw [depth]

theorem deepest_append (xs ys : List Json) : deepest (xs ++ ys) = max (deepest xs) (deepest ys) := by
  induction xs with
  | nil => rw [List.nil_append, deepest, Nat.zero_max]
  | cons x xs ih => rw [List.cons_append, deepest, deepest, ih, Nat.max_assoc]

/-! ## Levels

The arithmetic of levels is done in this section once, and decoders are put together without it. -/

/-- A value of some depth, decoded at some level.  This is what every decoder returns for what was
written, by the theorems below. -/
def within (level depth : Nat) (a : α) : Option α :=
  if depth < level then some a else none

theorem within_zero {level : Nat} (levels : 0 < level) (a : α) : within level 0 a = some a :=
  if_pos levels

/-- One part after the other.  The two parts lie beside each other, so the deeper of them decides.
-/
theorem within_bind {level depth depth' : Nat} {a : α} {b : β} {next : α → Option β}
    (second : next a = within level depth' b) :
    (within level depth a).bind next = within level (max depth depth') b := by
  unfold within at *
  by_cases first : depth < level
  · rw [if_pos first, Option.bind_some, second]
    exact if_congr (by rw [Nat.max_lt, and_iff_right first]) rfl rfl
  · rw [if_neg first, if_neg fun h => first (Nat.max_lt.1 h).1]
    rfl

theorem within_map (level depth : Nat) (a : α) (f : α → β) :
    (within level depth a).map f = within level depth (f a) := by
  unfold within
  split <;> rfl

/-- The last part. -/
theorem within_bind_some (level depth : Nat) (a : α) (f : α → β) :
    ((within level depth a).bind fun a => some (f a)) = within level depth (f a) := by
  unfold within
  split <;> rfl

theorem within_succ (level depth : Nat) (a : α) :
    within (level + 1) (depth + 1) a = within level depth a :=
  if_congr Nat.add_lt_add_iff_right rfl rfl

/-- One array or object around what is decoded. -/
theorem enter?_bind {decode : Nat → Option α} {level depth : Nat} {a : α}
    (inside : ∀ level, 0 < level → decode level = within level depth a) :
    (enter? level).bind decode = within level (depth + 1) a := by
  match level with
  | 0 => rfl
  -- At the last level the value can be entered, but nothing inside of it can be read.
  | 1 => rfl
  | level + 2 =>
    rw [enter?, Option.bind_some, inside (level + 1) (Nat.succ_pos level), within_succ]

/-! ## Arrays -/

section Arrays

variable {value : α → Json} {as : List α}

/-- What is decoded one by one, whatever it is decoded from.  The induction is on the list, with the
head as the first part and the tail as the second. -/
theorem mapM_within {form : α → β} {decode : β → Option α} {level : Nat} (levels : 0 < level)
    (each : ∀ a ∈ as, decode (form a) = within level (value a).depth a) :
    (as.map form).mapM decode = within level (deepest (as.map value)) as := by
  induction as with
  | nil =>
    rw [List.map_nil, List.mapM_nil, List.map_nil, deepest, within_zero levels]
    rfl
  | cons a as ih =>
    have first := each a List.mem_cons_self
    have others := ih fun b mem => each b (List.mem_cons_of_mem a mem)
    rw [List.map_cons, List.mapM_cons, first, others, List.map_cons, deepest]
    exact within_bind (within_bind_some ..)

/-- An array comes back if its elements do, each at the level that is left inside. -/
theorem decode_array {decode : Nat → Json → Option α}
    (each : ∀ a ∈ as, ∀ level, 0 < level →
      decode level (value a) = within level (value a).depth a) (level : Nat) :
    ((asArray? level (array (as.map value))).bind fun (level, elements) =>
        elements.mapM (decode level)) =
      within level (array (as.map value)).depth as := by
  rw [asArray?, depth, Option.bind_map]
  exact enter?_bind fun level levels => mapM_within levels fun a mem => each a mem level levels

end Arrays

/-! ## Records -/

/-- A field that is left out if its list is empty. -/
def listField (name : String) (value : α → Json) (as : List α) : List (String × Json) :=
  if as.isEmpty then [] else [(name, array (as.map value))]

/-- A list of values without depth comes back element by element. -/
theorem mapM_map_eq_some {form : α → β} {decode : β → Option α} {as : List α}
    (each : ∀ a ∈ as, decode (form a) = some a) : (as.map form).mapM decode = some as := by
  induction as with
  | nil => rfl
  | cons a as ih =>
    have first := each a List.mem_cons_self
    have others := ih fun b mem => each b (List.mem_cons_of_mem a mem)
    rw [List.map_cons, List.mapM_cons, first, others]
    rfl

/-- The names of fields are read as they were written. -/
theorem mapM_text? (fields : List (String × Json)) :
    ((fields.map quoted).mapM fun (name, value) =>
      (text? name).map fun text => (String.ofList text, value)) = some fields := by
  refine mapM_map_eq_some fun field _ => ?_
  simp only [quoted, text?_map_pieceOf, Option.map_some, String.ofList_toList]

/-- A record is entered, and its fields are looked up by their names. -/
theorem asRecord?_record {fields : List (String × Json)} {names : List String}
    {values : List (Option Json)} (found : names.mapM (single? fields) = some values)
    (level : Nat) :
    asRecord? level names (record fields) = (enter? level).map (·, values) := by
  show asRecord? level names (object (fields.map quoted)) = _
  rw [asRecord?]
  simp only [mapM_text?, Option.bind_eq_bind, Option.bind_some, found]
  cases enter? level <;> rfl

/-- A variant is a record of one field, and the name of the field is part of what is read. -/
theorem asVariant?_record (level : Nat) (name : String) (value : Json) :
    asVariant? level (record [(name, value)]) = (enter? level).map (·, name, value) := by
  show asVariant? level (object [(name.toList.map pieceOf, value)]) = _
  rw [asVariant?]
  simp only [text?_map_pieceOf, Option.bind_eq_bind, Option.bind_some, String.ofList_toList]
  cases enter? level <;> rfl

/-- A field that may be left out is well formed if the elements of the list are. -/
theorem wellFormed_listField {name : String} {value : α → Json} {as : List α}
    (each : ∀ a ∈ as, (value a).WellFormed) :
    ∀ field ∈ listField name value as, field.2.WellFormed := by
  unfold listField
  split
  · exact List.forall_mem_nil _
  · simp only [List.forall_mem_singleton]
    exact wellFormed_array each

/-- A list whose field is left out if it is empty.  Leaving it out costs nothing: the default is the
empty list. -/
theorem orDefault_listField {value : α → Json} {as : List α} {decode : Json → Option (List α)}
    {level : Nat} (levels : 0 < level) (name : String)
    (back : decode (array (as.map value)) = within level (array (as.map value)).depth as) :
    orDefault [] decode (if as.isEmpty then none else some (array (as.map value))) =
      within level (deepest ((listField name value as).map (·.2))) as := by
  unfold listField
  cases as with
  | nil => exact (within_zero levels []).symm
  | cons a as =>
    show decode (array ((a :: as).map value)) = within level (max _ 0) (a :: as)
    rw [Nat.max_zero, back]

/-! ## Scalars

Texts and integers are decoded without a level. -/

theorem orDefault_bool (default b : Bool) : orDefault default asBool? (some (bool b)) = some b :=
  rfl

/-- A text comes back character by character, whatever had to be escaped. -/
theorem asText?_ofString (s : String) : asText? (ofString s) = some s := by
  rw [ofString, asText?, text?_map_pieceOf, Option.map_some, String.ofList_toList]

theorem asName?_ofString (level : Nat) (s : String) : asName? level (ofString s) = some s :=
  asText?_ofString s

theorem asInt64?_ofInt (n : Int64) : asInt64? (ofInt n.toInt) = some n :=
  Numeral.int64?_ofInt n

theorem asWord32?_ofInt (n : UInt32) : asWord32? (ofInt n.toNat) = some n := by
  rw [ofInt, asWord32?, Numeral.natural?_ofInt n.toNat_lt, Option.map_some, UInt32.ofNat_toNat]

end Tabletop.Json
