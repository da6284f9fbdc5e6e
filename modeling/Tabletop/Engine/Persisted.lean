import Tabletop.Engine
import Tabletop.ResultStore

/-!
# Rolling with stored results

A notation that stands in a document keeps its result: it is rolled once, and afterwards the stored
result is shown for as long as it belongs to the notation. The store changes at the place of the
notation only, and only if something was rolled there.
-/

namespace Tabletop

namespace Engine

/-- The stored result of a notation at a place, if results are kept and it belongs to the
notation. -/
def stored? (engine : Engine) (text : String) (place : Place) (results : ResultStore) :
    Option RollResult := do
  guard engine.settings.persistResults
  let stored ← results.get? place
  (engine.applyResult text stored).toOption

/-- The store after a notation at a place has been rolled. -/
def keep (engine : Engine) (place : Place) (rolled : Except RollError RollResult)
    (results : ResultStore) : ResultStore :=
  match rolled with
  | .ok result =>
    if engine.settings.persistResults then (results.insert place result).2 else results
  | .error _ => results

/-- The result of a dice notation at a place, and the store afterwards. It is rolled only if there
is no stored result that can be used. -/
def rollPersisted (engine : Engine) (text : String) (place : Place) (results : ResultStore) :
    Rolling (Except RollError RollResult × ResultStore) :=
  match engine.stored? text place results with
  | some result => return (.ok result, results)
  | none => do
    let rolled ← engine.rollDice text
    return (rolled, engine.keep place rolled results)

end Engine

end Tabletop
