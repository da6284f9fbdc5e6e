import Tabletop.Proofs.Dice.Limit
import Tabletop.Reference.Roll

/-!
# How many draws a notation makes

The limit on the number of dice is one on each evaluation of dice, and a limit on the number of
entries that a reference asks for.  For all notations but one kind this bounds the draws of the
whole roll.  The exception is a reference to a lookup table: there every entry is an evaluation of
its own, with a count of dice of its own, so that the limit holds of each of them but not of all
together.

* `Engine.draws_rollDice_le` — dice notations keep to the limit;
* `Reference.draws_entries_le`, `Reference.draws_entries_le_mul` — references, and references to
  lookup tables;
* `Engine.draws_roll_le` — the bound for every notation;
* `Engine.draws_roll_gt` — a reference to a lookup table that goes beyond the limit.

Draws are counted along the run of a roller (`Rolling.draws`).  They add up over steps that follow
one another, so each bound is found from the steps, and a step that only computes adds nothing.  For
dice the count is not read off the program at all: what is rolled under a limit is the unlimited
evaluation cut off at the limit (`Evaluation.Cut`), and then the bound is the place of the cut.
-/

namespace Tabletop

variable {α β ρ : Type} [Roller ρ] {limit : UInt64}

/-! ## Entries

A drawn place is one draw, and a shuffle settles no more places than are asked for. -/

namespace Draw

/-- Independent places are one draw each, whatever is answered.  The number of questions is the same
in every run, and this is what `Asks` says. -/
theorem asks_independent (last : Int64) (count : Nat) (drawn : List Nat) :
    (independent last count drawn).Asks count := by
  induction count generalizing drawn with
  | zero => exact .done
  | succ count ih => exact .draw fun v => ih _

theorem asks_shuffle (last : Int64) (count i : Nat) (pool : Array Nat) :
    (shuffle last count i pool).Asks count := by
  induction count generalizing i pool with
  | zero => exact .done
  | succ count ih => exact .draw fun v => ih _ _

/-- There are no more draws than places are asked for.  There may be fewer, if there are not so many
places and none may repeat. -/
theorem draws_places_le (population count : Nat) (exhaustion : Exhaustion) (roller : ρ) :
    (places population count exhaustion).draws roller ≤ count := by
  unfold places
  split
  · exact Nat.zero_le _
  · split
    · exact Nat.le_of_eq ((asks_independent _ _ _).draws roller)
    · -- As many places of the pool are settled as there are entries to draw.
      rw [Rolling.draws_bind, (asks_shuffle _ _ _ _).draws]
      exact Nat.min_le_left _ _

/-- Every draw gives an entry, so there are no more draws than entries asked for. -/
theorem draws_entries_le (all : List α) (count : Nat) (exhaustion : Exhaustion) (roller : ρ) :
    (entries all count exhaustion).draws roller ≤ count := by
  unfold entries
  rw [Rolling.draws_bind]
  exact draws_places_le _ count exhaustion roller

/-- Entries from which the rest is computed.  The rest draws nothing, so the bound is that of the
entries. -/
theorem draws_entries_bind_le {all : List α} {count bound : Nat} {exhaustion : Exhaustion}
    {f : List α → Rolling β} (within : count ≤ bound) (still : ∀ drawn, ∃ b, f drawn = .done b)
    (roller : ρ) : (entries all count exhaustion >>= f).draws roller ≤ bound :=
  Rolling.draws_bind_le (Nat.le_trans (draws_entries_le all count exhaustion roller) within) still

end Draw

/-! ## Dice

One evaluation has one counter of dice. -/

namespace Engine

variable {engine : Engine}

/-- An evaluation keeps to the limit: it is what the unlimited one does before its counter gets
there.  The context is the engine's own, which takes its limit from the settings. -/
theorem draws_eval_le (limited : engine.settings.maxRolls = some limit) (e : Expression)
    (roller : ρ) : (engine.eval e).draws roller ≤ limit.toNat := by
  let context := RollContext.ofSettings engine.settings
  have limits : context.withMaxRolls (some limit) = context := by
    rw [← limited]
    rfl
  have cut : Evaluation.Cut limit.toNat (e.roll (context.withMaxRolls none)) (e.roll context) :=
    limits ▸ e.cut_roll context
  unfold eval
  rw [Rolling.draws_bind]
  have bound := (cut 0 (Nat.zero_le _)).draws_le roller
  rwa [Nat.zero_add] at bound

/-- A dice notation is one evaluation. -/
theorem draws_rollDice_le (limited : engine.settings.maxRolls = some limit) (text : String)
    (roller : ρ) : (engine.rollDice text).draws roller ≤ limit.toNat := by
  unfold rollDice
  split
  · exact Nat.zero_le _
  · exact draws_eval_le limited _ roller

/-- What is rolled only if the limit allows the number of entries.  Beyond the limit nothing is
drawn, and so what is to be shown may assume that the number is within it. -/
theorem draws_guarded_le (limited : engine.settings.maxRolls = some limit) {count bound : Nat}
    {x : Rolling (Except RollError α)} {roller : ρ}
    (within : count ≤ limit.toNat → x.draws roller ≤ bound) :
    (if !engine.allowsDraws count then return .error (.evaluation .tooManyRolls)
      else x).draws roller ≤ bound := by
  have allows : engine.allowsDraws count = decide (count ≤ limit.toNat) := by
    unfold allowsDraws
    rw [limited]
  cases allowed : engine.allowsDraws count with
  | true => exact within (of_decide_eq_true (allows.symm.trans allowed))
  | false => exact Nat.zero_le _

end Engine

/-! ## References

The limit is tested against the number of entries before anything is drawn.  This bounds every kind
of reference that makes one draw for an entry.  A lookup makes an evaluation for an entry, which has
a counter of its own. -/

namespace Reference

variable {engine : Engine} {store : ContentStore}

/-- The dice notation that chooses the entries of a reference, if it is one to a lookup table.  The
table has to be there, and its header has to begin with dice. -/
def lookup? (engine : Engine) (store : ContentStore) (r : Reference) : Option String :=
  match r.target with
  | .table note block _ => (store.table? note block).bind engine.lookupFormula?
  | _ => none

/-- What a reference to a table looks up is said by the table. -/
theorem lookup?_of_table {r : Reference} {note block : String} {columnName : Option String}
    (target : r.target = .table note block columnName) {table : Table}
    (found : store.table? note block = some table) :
    r.lookup? engine store = engine.lookupFormula? table := by
  unfold lookup?
  rw [target]
  dsimp only
  rw [found, Option.bind_some]

theorem exists_table_of_lookup? {r : Reference} {formula : String}
    (lookup : r.lookup? engine store = some formula) :
    ∃ note block columnName, r.target = .table note block columnName := by
  unfold lookup? at lookup
  cases target : r.target with
  | table note block columnName => exact ⟨note, block, columnName, rfl⟩
  | sections | lines | tag | links =>
    rw [target] at lookup
    cases lookup

/-- Every entry that is looked up is an evaluation under the limit.  The induction is on the entries
that are still to be looked up; after an error no more are. -/
theorem draws_lookUp_le (limited : engine.settings.maxRolls = some limit) (formula : String)
    (table : Table) (name : String) (column : Option Nat) (count : Nat) (found : List String)
    (roller : ρ) :
    (lookUp engine formula table name column count found).draws roller ≤
      count * limit.toNat := by
  induction count generalizing found roller with
  | zero => exact Nat.zero_le _
  | succ count ih =>
    unfold lookUp
    -- The evaluation of the formula has a counter of its own, hence the product.
    rw [Rolling.draws_bind, Nat.succ_mul, Nat.add_comm]
    refine Nat.add_le_add ?_ (Engine.draws_rollDice_le limited formula roller)
    split
    · exact Nat.zero_le _
    · dsimp only
      split
      · exact Nat.zero_le _
      · exact ih _ _

/-- One draw for each note that has something to draw from, and none for the others.  A note with
nothing to draw from is passed over without a draw, so the bound need not be reached. -/
theorem draws_oneOfEach_le (exhaustion : Exhaustion) (drawn : List String)
    (pools : List (List Section)) (roller : ρ) :
    (oneOfEach exhaustion drawn pools).draws roller ≤ pools.length := by
  induction pools generalizing drawn roller with
  | nil => exact Nat.zero_le _
  | cons sections others ih =>
    unfold oneOfEach
    rw [Rolling.draws_bind, List.length_cons, Nat.add_comm]
    exact Nat.add_le_add (ih _ _) (Draw.draws_entries_le sections 1 exhaustion roller)

/-- A table is drawn from once for each entry, or looked up once for each entry.  The two cases are
the two bounds of this module, and a table is of one sort or of the other. -/
theorem draws_tableEntries_le (limited : engine.settings.maxRolls = some limit) (name : String)
    (table : Table) (column : Option Nat) (count : Nat) (roller : ρ) :
    (tableEntries engine name table column count).draws roller ≤
      if (engine.lookupFormula? table).isSome then count * limit.toNat else count := by
  unfold tableEntries
  cases engine.lookupFormula? table with
  | some formula =>
    dsimp only
    split
    · exact Nat.zero_le _
    · exact draws_lookUp_le limited formula table name column count [] roller
  | none => exact Draw.draws_entries_bind_le (Nat.le_refl count) (fun rows => ⟨_, rfl⟩) roller

/-- A reference to a table draws only if the table is there and the limit allows the number of
entries. -/
theorem draws_table_le (limited : engine.settings.maxRolls = some limit) {r : Reference}
    {note block : String} {columnName : Option String}
    (target : r.target = .table note block columnName) {bound : Nat} {roller : ρ}
    (each : ∀ table column, store.table? note block = some table → r.count.toNat ≤ limit.toNat →
      (tableEntries engine (blockName note block) table column r.count.toNat).draws roller ≤
        bound) :
    (r.entries engine store).draws roller ≤ bound := by
  unfold entries
  rw [target]
  refine Engine.draws_guarded_le limited fun within => ?_
  split
  · exact Nat.zero_le _
  · next table found =>
    split
    · exact Nat.zero_le _
    · split
      · exact each table none found within
      · split
        · exact Nat.zero_le _
        · next column _ => exact each table (some column) found within

/-- **References that do not look up** draw at most as many entries as the limit allows.  There are
five kinds of reference, and each tests the limit before it draws; a tag tests it against the number
of notes if each of them is to give an entry. -/
theorem draws_entries_le (limited : engine.settings.maxRolls = some limit) (r : Reference)
    (plain : r.lookup? engine store = none) (roller : ρ) :
    (r.entries engine store).draws roller ≤ limit.toNat := by
  cases target : r.target with
  | table note block columnName =>
    refine draws_table_le limited target fun table column found within => ?_
    have bound := draws_tableEntries_le limited (blockName note block) table column
      r.count.toNat roller
    rw [← lookup?_of_table target found, plain] at bound
    exact Nat.le_trans bound within
  | sections note kinds =>
    unfold entries
    rw [target]
    refine Engine.draws_guarded_le limited fun within => ?_
    split
    · exact Nat.zero_le _
    · dsimp only
      split
      · exact Nat.zero_le _
      · exact Draw.draws_entries_bind_le within (fun drawn => ⟨_, rfl⟩) roller
  | lines note =>
    unfold entries
    rw [target]
    refine Engine.draws_guarded_le limited fun within => ?_
    split
    · exact Nat.zero_le _
    · split
      · exact Nat.zero_le _
      · exact Draw.draws_entries_bind_le within (fun drawn => ⟨_, rfl⟩) roller
  | tag tag kinds =>
    unfold entries
    rw [target]
    dsimp only
    split
    · exact Nat.zero_le _
    · next notes found =>
      split
      · exact Nat.zero_le _
      · split
        · refine Engine.draws_guarded_le limited fun within => ?_
          have each := draws_oneOfEach_le engine.settings.tableExhaustion []
            (notes.map fun note => Section.ofKinds kinds ((store.sections? note).getD [])) roller
          rw [List.length_map] at each
          refine Rolling.draws_bind_le (Nat.le_trans each within) fun drawn => ?_
          split <;> exact ⟨_, rfl⟩
        · refine Engine.draws_guarded_le limited fun within => ?_
          refine Draw.draws_entries_bind_le within (fun drawn => ?_) roller
          split <;> exact ⟨_, rfl⟩
  | links tag =>
    unfold entries
    rw [target]
    refine Engine.draws_guarded_le limited fun within => ?_
    split
    · exact Nat.zero_le _
    · split
      · exact Nat.zero_le _
      · exact Draw.draws_entries_bind_le within (fun drawn => ⟨_, rfl⟩) roller

/-- **References to lookup tables** make one evaluation under the limit for each entry.  Each is
bounded by itself, so the product is the best that can be said, and `draws_roll_gt` shows that the
limit alone is not a bound. -/
theorem draws_entries_le_mul (limited : engine.settings.maxRolls = some limit) (r : Reference)
    {formula : String} (lookup : r.lookup? engine store = some formula) (roller : ρ) :
    (r.entries engine store).draws roller ≤ r.count.toNat * limit.toNat := by
  obtain ⟨note, block, columnName, target⟩ := exists_table_of_lookup? lookup
  refine draws_table_le limited target fun table column found _ => ?_
  have bound := draws_tableEntries_le limited (blockName note block) table column
    r.count.toNat roller
  rwa [← lookup?_of_table target found, lookup] at bound

/-- No entry of a lookup table is rolled for if there are too many of them. -/
theorem draws_entries_eq_zero (limited : engine.settings.maxRolls = some limit) (r : Reference)
    {formula : String} (lookup : r.lookup? engine store = some formula) (above : limit < r.count)
    (roller : ρ) : (r.entries engine store).draws roller = 0 := by
  obtain ⟨note, block, columnName, target⟩ := exists_table_of_lookup? lookup
  refine Nat.le_zero.1 (draws_table_le limited target fun table column found within => ?_)
  exact absurd (UInt64.lt_iff_toNat_lt.1 above) (Nat.not_lt.2 within)

/-- The result of a reference is its entries and what is computed from them. -/
theorem draws_roll (r : Reference) (roller : ρ) :
    (r.roll engine store).draws roller = (r.entries engine store).draws roller := by
  unfold roll
  rw [Rolling.draws_bind]
  cases ((r.entries engine store).run roller).1 <;> rfl

end Reference

/-! ## Notations

A notation is either of these, and what decides it is read off its lexemes. -/

namespace Engine

/-- The reference that a notation is rolled as, if it is not rolled as dice.  Reading a notation
decides this before anything is rolled, and without the documents. -/
def reference? (engine : Engine) (text : String) : Option Reference :=
  match engine.lex (engine.prepare text) with
  | .error _ => none
  | .ok lexemes =>
    match classify lexemes with
    | .dice => none
    | .reference kind =>
      (lexemes.find? (·.kind = .reference kind)).bind fun lexeme =>
        (Reference.ofLexeme lexeme).toOption

variable {engine : Engine} {store : ContentStore}

/-- A notation with a reference is rolled as this reference.  From here on only the reference
matters, not the notation. -/
theorem roll_of_reference? {text : String} {r : Reference}
    (found : engine.reference? text = some r) :
    engine.roll store text = do
      let result ← r.roll engine store
      return result.map .reference := by
  unfold reference? at found
  unfold roll
  dsimp only
  cases read : engine.lex (engine.prepare text) with
  | error e =>
    rw [read] at found
    cases found
  | ok lexemes =>
    rw [read] at found
    dsimp only at found ⊢
    cases decided : classify lexemes with
    | dice =>
      rw [decided] at found
      cases found
    | reference kind =>
      rw [decided] at found
      obtain ⟨lexeme, first, eq⟩ := Option.bind_eq_some_iff.1 found
      dsimp only
      rw [first]
      dsimp only
      cases parsed : Reference.ofLexeme lexeme with
      | error e =>
        rw [parsed] at eq
        cases eq
      | ok r' =>
        rw [parsed] at eq
        obtain rfl : r' = r := Option.some.inj eq
        rfl

/-- A notation without a reference is rolled as dice, or not at all. -/
theorem draws_roll_le_of_dice (limited : engine.settings.maxRolls = some limit) {text : String}
    (dice : engine.reference? text = none) (roller : ρ) :
    (engine.roll store text).draws roller ≤ limit.toNat := by
  unfold reference? at dice
  unfold roll
  dsimp only
  split
  · exact Nat.zero_le _
  · next lexemes read =>
    rw [read] at dice
    dsimp only at dice
    split
    · split
      · exact Nat.zero_le _
      · exact Rolling.draws_bind_le (draws_eval_le limited _ roller) fun a => ⟨_, rfl⟩
    · next kind decided =>
      rw [decided] at dice
      dsimp only at dice
      split
      · exact Nat.zero_le _
      · next lexeme first =>
        rw [first, Option.bind_some] at dice
        cases parsed : Reference.ofLexeme lexeme with
        | error e => exact Nat.zero_le _
        | ok r =>
          rw [parsed] at dice
          cases dice

/-- **The limit and the draws of a notation.**  Unless a notation is a reference to a lookup table,
rolling it makes no more draws than the limit on dice allows.  For a lookup table, every entry is an
evaluation of the dice notation at its head, and the limit holds of each evaluation: rolling makes
at most as many draws as the number of entries times the limit, and none if more entries are asked
for than the limit allows. -/
theorem draws_roll_le (limited : engine.settings.maxRolls = some limit) (store : ContentStore)
    (text : String) (roller : ρ) :
    ((∀ r, engine.reference? text = some r → r.lookup? engine store = none) →
      (engine.roll store text).draws roller ≤ limit.toNat) ∧
    (∀ r formula, engine.reference? text = some r → r.lookup? engine store = some formula →
      (engine.rollDice formula).draws roller ≤ limit.toNat ∧
      (limit < r.count → (engine.roll store text).draws roller = 0) ∧
      (engine.roll store text).draws roller ≤ r.count.toNat * limit.toNat) := by
  -- A reference is rolled by drawing its entries, and what is made of them draws nothing.
  have draws {r : Reference} (found : engine.reference? text = some r) :
      (engine.roll store text).draws roller = (r.entries engine store).draws roller := by
    rw [roll_of_reference? found, Rolling.draws_bind, Reference.draws_roll]
    rfl
  refine ⟨fun plain => ?_, fun r formula found lookup => ⟨?_, fun above => ?_, ?_⟩⟩
  · cases found : engine.reference? text with
    | none => exact draws_roll_le_of_dice limited found roller
    | some r =>
      rw [draws found]
      exact Reference.draws_entries_le limited r (plain r found) roller
  · exact draws_rollDice_le limited formula roller
  · rw [draws found]
    exact Reference.draws_entries_eq_zero limited r lookup above roller
  · rw [draws found]
    exact Reference.draws_entries_le_mul limited r lookup roller

/-- Under a limit of two dice, and with a lookup table for two dice: the dice alone stay within the
limit, one entry stays within the bound for one, and three entries are not rolled. -/
theorem draws_roll_le_two :
    let engine : Engine := { settings := { maxRolls := some 2 } }
    let table : Table := ⟨["2d6", "Weather"], [["2+", "Rain"]]⟩
    let store : ContentStore := ⟨fun _ _ => some table, fun _ => none, fun _ => none⟩
    let roller := SequenceRoller.ofList [1, 4, 2]
    (engine.roll store "2d6").draws roller ≤ 2 ∧
      (engine.roll store "1d[[Sky#^today]]").draws roller ≤ 1 * 2 ∧
      (engine.roll store "3d[[Sky#^today]]").draws roller = 0 := by
  intro engine table store roller
  have limited : engine.settings.maxRolls = some 2 := rfl
  have formula : engine.lookupFormula? table = some "2d6" := by cbv
  have dice : engine.reference? "2d6" = none := by cbv
  have one : engine.reference? "1d[[Sky#^today]]" =
      some ⟨"1d[[Sky#^today]]", 1, .table "Sky" "today" none⟩ := by cbv
  have three : engine.reference? "3d[[Sky#^today]]" =
      some ⟨"3d[[Sky#^today]]", 3, .table "Sky" "today" none⟩ := by cbv
  obtain ⟨within, -⟩ := draws_roll_le limited store "2d6" roller
  obtain ⟨-, each⟩ := draws_roll_le limited store "1d[[Sky#^today]]" roller
  obtain ⟨-, refused⟩ := draws_roll_le limited store "3d[[Sky#^today]]" roller
  refine ⟨within fun r found => ?_, (each _ _ one formula).2.2, (refused _ _ three formula).2.1 ?_⟩
  · rw [dice] at found
    cases found
  · decide

/-- Under a limit of two dice, two entries of a lookup table for two dice are rolled with four dice,
and without an error. -/
theorem draws_roll_gt :
    let engine : Engine := { settings := { maxRolls := some 2 } }
    let table : Table := ⟨["2d6", "Weather"], [["2+", "Rain"]]⟩
    let store : ContentStore := ⟨fun _ _ => some table, fun _ => none, fun _ => none⟩
    let roller := SequenceRoller.ofList [1, 4, 2]
    ((engine.roll store "2d[[Sky#^today]]").run roller).1 =
        .ok (.reference ⟨.table, "2d[[Sky#^today]]", ["Rain", "Rain"], "Rain\nRain"⟩) ∧
      (engine.roll store "2d[[Sky#^today]]").draws roller = 4 := by
  intro engine table store roller
  constructor
  · cbv
  · cbv

end Engine

end Tabletop
