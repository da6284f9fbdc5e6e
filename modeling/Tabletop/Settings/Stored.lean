import Tabletop.Settings
import Tabletop.Toml.Item
import Tabletop.Toml.Read
import Tabletop.Toml.Write

/-!
# Settings as TOML

Settings are read from a document in which everything may be missing, and which may have more in
it. They are written with all that they hold, the formulas last. There is no way to write that the
number of dice has no limit: the line for it is left out, and reads as the default.
-/

namespace Tabletop

/-- The words for the ways in which conditionals combine. -/
def MatchPolicy.words : List (String × MatchPolicy) :=
  [("all", .all), ("any", .any)]

/-- The word for a way in which conditionals combine. -/
def MatchPolicy.word : MatchPolicy → String
  | all => "all"
  | any => "any"

/-- The words for what is done when there are too few entries. -/
def Exhaustion.words : List (String × Exhaustion) :=
  [("repeat", .repeat), ("truncate", .truncate)]

/-- The word for what is done when there are too few entries. -/
def Exhaustion.word : Exhaustion → String
  | .repeat => "repeat"
  | .truncate => "truncate"

namespace Settings

/-- The names of the settings. -/
def names : List String :=
  ["default_roll", "default_face", "unbounded_cap", "stunt_faces", "conditional_policy",
    "max_rolls", "return_all_tags", "roll_links_for_tags", "table_exhaustion", "persist_results",
    "formulas"]

/-- The settings that a document holds. What is missing has its default. -/
def ofDocument? (document : List Toml.Block) : Option Settings := do
  let defaults : Settings := {}
  let alone := document.length == 1
  let field {α : Type} (name : String) (default : α) (read : Toml.Item → Option α) : Option α :=
    Toml.field? document name default read
  let defaultRoll ← field "default_roll" defaults.defaultRoll (·.word32?)
  let defaultFace ← field "default_face" defaults.defaultFace (·.word32?)
  let unboundedCap ← field "unbounded_cap" defaults.unboundedCap (·.word32?)
  let stuntFaces ← field "stunt_faces" defaults.stuntFaces (·.word32?)
  let conditionalPolicy ←
    field "conditional_policy" defaults.conditionalPolicy (·.oneOf? MatchPolicy.words alone)
  let maxRolls ← field "max_rolls" defaults.maxRolls fun item => item.word64?.map some
  let returnAllTags ← field "return_all_tags" defaults.returnAllTags (·.boolean?)
  let rollLinksForTags ← field "roll_links_for_tags" defaults.rollLinksForTags (·.boolean?)
  let tableExhaustion ←
    field "table_exhaustion" defaults.tableExhaustion (·.oneOf? Exhaustion.words alone)
  let persistResults ← field "persist_results" defaults.persistResults (·.boolean?)
  let formulas ← field "formulas" defaults.formulas fun item => item.texts?.map .ofList
  let others := document.filter fun b => b.header.head?.any (!names.contains ·)
  if Toml.agree others then
    return {
      defaultRoll, defaultFace, unboundedCap, stuntFaces, conditionalPolicy, maxRolls,
      returnAllTags, rollLinksForTags, tableExhaustion, persistResults, formulas }
  else none

/-- The settings that a text holds. -/
def read? (s : String) : Option Settings :=
  (Toml.read? s).bind ofDocument?

/-- The lines of the settings, without the formulas. -/
def lines (s : Settings) : List String :=
  [Toml.line "default_roll" (toString s.defaultRoll.toNat),
    Toml.line "default_face" (toString s.defaultFace.toNat),
    Toml.line "unbounded_cap" (toString s.unboundedCap.toNat),
    Toml.line "stunt_faces" (toString s.stuntFaces.toNat),
    Toml.line "conditional_policy" (Toml.quoted s.conditionalPolicy.word)] ++
  (s.maxRolls.map fun limit => Toml.line "max_rolls" (toString limit.toNat)).toList ++
  [Toml.line "return_all_tags" (toString s.returnAllTags),
    Toml.line "roll_links_for_tags" (toString s.rollLinksForTags),
    Toml.line "table_exhaustion" (Toml.quoted s.tableExhaustion.word),
    Toml.line "persist_results" (toString s.persistResults)]

/-- The text that holds the settings. -/
def write (s : Settings) : String :=
  let formulas := s.formulas.entries.map fun (name, text) => Toml.line name (Toml.quoted text)
  String.join (s.lines ++ ["\n[formulas]\n"] ++ formulas)

end Settings

end Tabletop
