import Tabletop.Proofs.SortedMap
import Tabletop.Proofs.Toml.Document
import Tabletop.Settings.Stored

/-!
# Settings that are stored

The text of settings is read as a line for each of them, a header, and a line for each formula, and
each setting is found again under its name.  Names and texts of formulas are arbitrary.  But a limit
on dice that is missing has no line, and what has no line is read as its default, which is a limit.

* `Settings.reads_write` — the lines of the text;
* `Settings.ofDocument?_document` — the settings in the tables of these lines;
* `Settings.read?_write_iff` — which settings come back, and what comes back of the others.

The reader asks for each setting by its name and refuses tables that it has not asked for.  Whether
settings come back is thus a matter of a few look-ups in a list that is known, once the text is
known to be read as these lines.  The formulas have names of their own, which stand in a table
below, where they are not taken for settings.
-/

namespace Tabletop

/-! ## Numbers

Words are stored as integers of 64 bits with a sign.  All of 32 bits are among them, but only half
of those of 64 bits. -/

namespace Toml.Item

theorem word64?_ofNat {n : UInt64} (small : n.toNat < 0x8000000000000000) :
    word64? (.value (.integer (Int64.ofNat n.toNat))) = some n := by
  have positive : 0 ≤ Int64.ofNat n.toNat := by
    rw [Int64.le_iff_toInt_le, Int64.toInt_ofNat_of_lt small]
    exact Int.natCast_nonneg _
  rw [word64?, if_pos positive]
  simp

theorem word32?_ofNat (n : UInt32) :
    word32? (.value (.integer (Int64.ofNat n.toNat))) = some n := by
  have below := n.toNat_lt
  have value : (Int64.ofNat n.toNat).toInt = n.toNat :=
    Int64.toInt_ofNat_of_lt (Nat.lt_trans below (by decide))
  have range : 0 ≤ Int64.ofNat n.toNat ∧ Int64.ofNat n.toNat ≤ 0xFFFFFFFF := by
    rw [Int64.le_iff_toInt_le, Int64.le_iff_toInt_le, value]
    have : (0xFFFFFFFF : Int64).toInt = 0xFFFFFFFF := rfl
    have : (0 : Int64).toInt = 0 := rfl
    omega
  rw [word32?, if_pos range]
  simp

end Toml.Item

namespace Settings

open Toml (Value Block Line)

/-! ## The document of settings

What the lines of the text say, without the text. -/

/-- The settings before the limit on dice. -/
def before (s : Settings) : List (String × Value) :=
  [("default_roll", .integer (Int64.ofNat s.defaultRoll.toNat)),
    ("default_face", .integer (Int64.ofNat s.defaultFace.toNat)),
    ("unbounded_cap", .integer (Int64.ofNat s.unboundedCap.toNat)),
    ("stunt_faces", .integer (Int64.ofNat s.stuntFaces.toNat)),
    ("conditional_policy", .text s.conditionalPolicy.word)]

/-- The settings after the limit on dice. -/
def after (s : Settings) : List (String × Value) :=
  [("return_all_tags", .boolean s.returnAllTags),
    ("roll_links_for_tags", .boolean s.rollLinksForTags),
    ("table_exhaustion", .text s.tableExhaustion.word),
    ("persist_results", .boolean s.persistResults)]

/-- The line of the limit on dice, if there is one. -/
def limit (s : Settings) : List (String × Value) :=
  (s.maxRolls.map fun n => ("max_rolls", .integer (Int64.ofNat n.toNat))).toList

/-- Whether the limit on dice can be read as an integer, if there is one. -/
def limitFits (s : Settings) : Bool :=
  s.maxRolls.all fun n => n.toNat < 0x8000000000000000

theorem limitFits_iff {s : Settings} :
    s.limitFits = true ↔ ∀ n, s.maxRolls = some n → n.toNat < 0x8000000000000000 := by
  simp [limitFits, Option.all_eq_true]

/-- The tables of settings: the settings themselves, and the formulas. -/
def document (s : Settings) : List Block :=
  [⟨[], false, s.before ++ s.limit ++ s.after⟩,
    ⟨["formulas"], false, s.formulas.entries.map fun (name, text) => (name, .text text)⟩]

/-- The settings stand in the first table, the formulas in one of their own. -/
theorem items_document (s : Settings) :
    Toml.items s.document =
      (s.before ++ s.limit ++ s.after).map (fun (name, v) => (name, .value v)) ++
        [("formulas", .tables [⟨["formulas"], false,
          s.formulas.entries.map fun (name, text) => (name, .text text)⟩])] := by
  have names : (s.document.filterMap (·.header.head?)).eraseDups = ["formulas"] := by
    simp only [document, List.filterMap_cons, List.head?_nil, List.head?_cons, List.filterMap_nil]
    decide
  rw [Toml.items, names]
  simp [document]

/-- There are no tables that are not asked for. -/
theorem agree_others (s : Settings) :
    Toml.agree (s.document.filter fun b => b.header.head?.any (!names.contains ·)) = true := by
  have none : (s.document.filter fun b => b.header.head?.any (!names.contains ·)) = [] := by
    simp [document, names]
  rw [none]
  decide

/-- Formulas come back in their order, whatever their names are. -/
theorem texts?_formulas (entries : List (String × String)) :
    Toml.Item.texts? (.tables [⟨["formulas"], false,
      entries.map fun (name, text) => (name, .text text)⟩]) = some entries := by
  rw [Toml.Item.texts?]
  induction entries with
  | nil => rfl
  | cons entry entries ih =>
    rw [List.map_cons, List.mapM_cons, ih]
    rfl

theorem oneOf?_word_policy (p : MatchPolicy) (alone : Bool) :
    Toml.Item.oneOf? MatchPolicy.words alone (.value (.text p.word)) = some p := by
  cases p <;> rfl

theorem oneOf?_word_exhaustion (e : Exhaustion) (alone : Bool) :
    Toml.Item.oneOf? Exhaustion.words alone (.value (.text e.word)) = some e := by
  cases e <;> rfl

/-- Every setting is found under its name, but the limit on dice if there is none. -/
theorem ofDocument?_document (s : Settings) (fits : s.limitFits = true) :
    ofDocument? s.document = some { s with maxRolls := some (s.maxRolls.getD 10000) } := by
  unfold ofDocument?
  simp only [agree_others, Toml.field?, items_document]
  cases limited : s.maxRolls with
  | none =>
    simp [before, limit, after, limited, Toml.Item.word32?_ofNat, Toml.Item.boolean?,
      oneOf?_word_policy, oneOf?_word_exhaustion, texts?_formulas, SortedMap.ofList_entries]
  | some n =>
    simp [before, limit, after, limited, Toml.Item.word32?_ofNat, Toml.Item.boolean?,
      Toml.Item.word64?_ofNat (limitFits_iff.1 fits n limited), oneOf?_word_policy, oneOf?_word_exhaustion,
      texts?_formulas, SortedMap.ofList_entries]

/-! ## The text of settings

The text is put together from lines, and so is what is read of it. -/

/-- The lines of some pairs. -/
def linesOf (pairs : List (String × Value)) : List Line :=
  pairs.map fun (name, v) => .pair name [] v

theorem join_singleton (text : String) : String.join [text] = text := by
  simp

/-- The line of the limit, which spoils the document if the limit does not fit an integer. -/
theorem reads_limit (s : Settings) :
    Toml.Reads
      (String.join (s.maxRolls.map fun n => Toml.line "max_rolls" (toString n.toNat)).toList)
      (if s.limitFits then some (linesOf s.limit) else none) := by
  unfold limit limitFits
  cases s.maxRolls with
  | none => exact Toml.reads_empty
  | some n =>
    show Toml.Reads (String.join [Toml.line "max_rolls" (toString n.toNat)]) _
    rw [join_singleton]
    rw [Option.all_some]
    split
    · next small => exact (Toml.LineOf.integer "max_rolls" (of_decide_eq_true small)).reads
    · next large =>
      have line := Toml.reads_line "max_rolls" (Toml.writtenAs_number n.toNat)
      rwa [Decimal.toInt64?_eq_none fun small => large (decide_eq_true small)] at line

/-- The text of settings is read as their lines. -/
theorem reads_write (s : Settings) :
    Toml.Reads s.write
      (if s.limitFits then
        some (linesOf (s.before ++ s.limit ++ s.after) ++ .header ["formulas"] false ::
          linesOf (s.formulas.entries.map fun (name, text) => (name, .text text)))
      else none) := by
  have before : Toml.Reads (String.join
      [Toml.line "default_roll" (toString s.defaultRoll.toNat),
        Toml.line "default_face" (toString s.defaultFace.toNat),
        Toml.line "unbounded_cap" (toString s.unboundedCap.toNat),
        Toml.line "stunt_faces" (toString s.stuntFaces.toNat),
        Toml.line "conditional_policy" (Toml.quoted s.conditionalPolicy.word)])
      (some (linesOf s.before)) :=
    Toml.reads_join <| .cons (.word32 _ _) <| .cons (.word32 _ _) <| .cons (.word32 _ _) <|
      .cons (.word32 _ _) <| .cons (.text _ _) .nil
  have after : Toml.Reads (String.join
      [Toml.line "return_all_tags" (toString s.returnAllTags),
        Toml.line "roll_links_for_tags" (toString s.rollLinksForTags),
        Toml.line "table_exhaustion" (Toml.quoted s.tableExhaustion.word),
        Toml.line "persist_results" (toString s.persistResults)])
      (some (linesOf s.after)) :=
    Toml.reads_join <| .cons (.boolean _ _) <| .cons (.boolean _ _) <| .cons (.text _ _) <|
      .cons (.boolean _ _) .nil
  have header : Toml.Reads "\n[formulas]\n" (some [.header ["formulas"] false]) :=
    Toml.reads_header (show Toml.isBare "formulas" = true by decide)
  have formulas : Toml.Reads
      (String.join (s.formulas.entries.map fun (name, text) => Toml.line name (Toml.quoted text)))
      (some (linesOf (s.formulas.entries.map fun (name, text) => (name, .text text)))) := by
    refine Toml.reads_join ?_
    rw [List.forall₂_map_left_iff, List.forall₂_map_right_iff, List.forall₂_same]
    exact fun entry _ => .text entry.1 entry.2
  have whole := ((before.append s.reads_limit).append after).append (header.append formulas)
  rw [write, String.join_append, String.join_append, lines, String.join_append, String.join_append,
    String.append_assoc, join_singleton]
  refine Eq.mp (congrArg _ ?_) whole
  split
  · simp [linesOf]
  · rfl

/-- The text begins with the name of the first setting. -/
theorem head?_write (s : Settings) : s.write.toList.head? = some 'd' := by
  have bare : Toml.key "default_roll" = "default_roll" := if_pos (by decide)
  simp [write, lines, Toml.line, bare]

/-- The lines of the text make the tables of settings. -/
theorem blocksFrom?_lines (s : Settings) :
    Toml.blocksFrom? [] ⟨[], false, []⟩ (linesOf (s.before ++ s.limit ++ s.after) ++
      .header ["formulas"] false ::
        linesOf (s.formulas.entries.map fun (name, text) => (name, .text text))) =
      some s.document := by
  rw [linesOf, Toml.blocksFrom?_pairs, Toml.blocksFrom?,
    ← List.append_nil (linesOf (s.formulas.entries.map _)), linesOf, Toml.blocksFrom?_pairs]
  simp [Toml.blocksFrom?, Toml.blocksFrom?.finish, document, before]

/-- **What storing settings comes to**, for all settings at once: the limit is replaced by the
default if it is missing, and nothing is read if it does not fit. -/
theorem read?_write_eq (s : Settings) :
    read? s.write = if s.limitFits then
      some { s with maxRolls := some (s.maxRolls.getD 10000) } else none := by
  rw [read?, Toml.read?_of_reads s.reads_write (by rw [head?_write]; decide)]
  split
  · next fits =>
    rw [Option.bind_some, blocksFrom?_lines, Option.bind_some, ofDocument?_document s fits]
  · rfl

/-- **What is left of settings that were stored.**  They come back as they were, whatever formulas
they have, if there is a limit on dice and it is below `2 ^ 63`.  Settings without a limit come back
with the default one, and those with a greater limit do not come back. -/
theorem read?_write_iff (s : Settings) :
    (read? s.write = some s ↔ ∃ n, s.maxRolls = some n ∧ n.toNat < 0x8000000000000000) ∧
      (s.maxRolls = none → read? s.write = some { s with maxRolls := some 10000 }) ∧
      (∀ n, s.maxRolls = some n → 0x8000000000000000 ≤ n.toNat → read? s.write = none) := by
  rw [read?_write_eq]
  -- Everything but the limit comes back, so only the limits are compared.
  refine ⟨⟨fun same => ?_, ?_⟩, fun unlimited => ?_, fun n limited large => if_neg fun fits => ?_⟩
  · split at same
    · next fits =>
      have kept : some (s.maxRolls.getD 10000) = s.maxRolls :=
        congrArg maxRolls (Option.some.inj same)
      exact ⟨_, kept.symm, limitFits_iff.1 fits _ kept.symm⟩
    · cases same
  · rintro ⟨n, limited, small⟩
    have kept : some (s.maxRolls.getD 10000) = s.maxRolls := by
      rw [limited]
      rfl
    rw [kept, if_pos]
    rw [limitFits_iff, limited]
    rintro _ ⟨⟩
    exact small
  · rw [unlimited, if_pos (limitFits_iff.2 fun n limited => nomatch unlimited.symm.trans limited)]
    rfl
  · exact Nat.not_lt.2 large (limitFits_iff.1 fits n limited)

/-- Settings with a formula whose name and text have quotes, controls and line ends come back, and
the same without a limit, or with a limit that does not fit, do not. -/
theorem read?_write_iff_formula :
    let formulas : SortedMap String String :=
      .ofList [("fire \"ball\"", "8d6\n"), ("", "\x01\\\r\n")]
    let s : Settings := { maxRolls := some 50, formulas }
    read? s.write = some s ∧
      read? { s with maxRolls := none }.write = some { s with maxRolls := some 10000 } ∧
      read? { s with maxRolls := some 0x8000000000000000 }.write = none := by
  intro formulas s
  obtain ⟨back, -, -⟩ := read?_write_iff s
  obtain ⟨-, unlimited, -⟩ := read?_write_iff { s with maxRolls := none }
  obtain ⟨-, -, large⟩ := read?_write_iff { s with maxRolls := some 0x8000000000000000 }
  exact ⟨back.2 ⟨50, rfl, by decide⟩, unlimited rfl, large _ rfl (by decide)⟩

/-- Under the default settings without a limit on dice, there is a limit after storing them. -/
theorem read?_write_unlimited :
    let s : Settings := { maxRolls := none }
    read? s.write = some {} ∧ s ≠ {} := by
  intro s
  refine ⟨?_, by decide⟩
  rw [read?_write_eq]
  rfl

end Settings

end Tabletop
