import Tabletop.Engine.Persisted
import Tabletop.Proofs.Engine.StoredResult
import Tabletop.Proofs.ResultStore.Lookup
import Tabletop.Proofs.Rolling.Draws

/-!
# Sessions with stored results

In a session, notations at many places are rolled with one store, and results are put in and taken
out in between.  Whether a notation is rolled again depends on the result at its place only, and no
call changes a result at a place that it does not address.  So a result that was given once is given
again until its own place is addressed.

* `ResultStore.get?_perform`, `ResultStore.get?_performAll` — what one call leaves as it is, and
  what a session does;
* `Engine.stored?_of_run_rollPersisted` — the result that was given can be used again;
* `Engine.rollPersisted_again` — both together, and what a roll does to the store.

Two facts carry the result.  What a rolled result is made of is enough to accept it again, so
storing it is enough; and a call is about one place, so that the look-ups of the store tell it apart
from all others.  The induction over the calls of a session uses the second fact only.
-/

namespace Tabletop

/-! ## Calls -/

/-- A call that may change a store. -/
inductive StoreCall : Type 1 where
  | insert (place : Place) (result : RollResult)
  | remove (place : Place)
  | removeLine (path : String) (line : UInt64)
  | clearEmpties
  /-- Rolling a notation at a place, with an engine and a roller for this call. -/
  | roll (engine : Engine) (text : String) (place : Place) {ρ : Type} [Roller ρ] (roller : ρ)

/-- Whether a place is one that a call is about. -/
def StoreCall.Addresses (place : Place) : StoreCall → Prop
  | insert addressed _ | remove addressed | roll _ _ addressed _ => place = addressed
  | removeLine path line => place.path = path ∧ place.line = line
  | clearEmpties => False

instance (place : Place) : DecidablePred (StoreCall.Addresses place)
  | .insert addressed _ | .remove addressed | @StoreCall.roll _ _ addressed _ _ _ =>
    inferInstanceAs (Decidable (place = addressed))
  | .removeLine path line =>
    inferInstanceAs (Decidable (place.path = path ∧ place.line = line))
  | .clearEmpties => inferInstanceAs (Decidable False)

namespace ResultStore

/-- The store after a call. -/
def perform (s : ResultStore) : StoreCall → ResultStore
  | .insert place result => (s.insert place result).2
  | .remove place => (s.remove place).2
  | .removeLine path line => (s.removeLine path line).2
  | .clearEmpties => s.clearEmpties
  | @StoreCall.roll engine text place _ _ roller =>
    ((engine.rollPersisted text place s).run roller).1.2

/-- The store after calls, one after the other. -/
def performAll (s : ResultStore) (calls : List StoreCall) : ResultStore :=
  calls.foldl perform s

end ResultStore

namespace Engine

variable {engine : Engine} {text : String} {place other : Place} {s t : ResultStore}

/-! ## Rolling at a place

What one call of this kind does to the store. -/

theorem stored?_congr (same : s.get? place = t.get? place) :
    engine.stored? text place s = engine.stored? text place t := by
  unfold stored?
  rw [same]

theorem stored?_of_get? (persist : engine.settings.persistResults = true) {stored r : RollResult}
    (found : s.get? place = some stored) (accepted : engine.applyResult text stored = .ok r) :
    engine.stored? text place s = some r := by
  unfold stored?
  rw [found, persist]
  show (engine.applyResult text stored).toOption = some r
  rw [accepted]
  rfl

theorem rollPersisted_of_stored {result : RollResult}
    (stored : engine.stored? text place s = some result) :
    engine.rollPersisted text place s = pure (.ok result, s) := by
  unfold rollPersisted
  rw [stored]

/-- Where none can be used, the notation is rolled and kept. -/
theorem run_rollPersisted_of_none (fresh : engine.stored? text place s = none) {ρ : Type} [Roller ρ]
    (roller : ρ) :
    ((engine.rollPersisted text place s).run roller).1 =
      (((engine.rollDice text).run roller).1,
        engine.keep place ((engine.rollDice text).run roller).1 s) := by
  unfold rollPersisted
  rw [fresh, Rolling.run_bind]
  rfl

section Run

variable {ρ : Type} [Roller ρ] (roller : ρ)

/-- The store after a roll: a result is put in if it was rolled and results are kept, and otherwise
the store is left as it was. -/
theorem store_rollPersisted :
    let answer := ((engine.rollPersisted text place s).run roller).1
    answer.2 = s ∨
      engine.settings.persistResults = true ∧
        ∃ r, answer.1 = .ok r ∧ answer.2 = (s.insert place r).2 := by
  intro answer
  cases stored : engine.stored? text place s with
  | some result =>
    have eq : answer = (.ok result, s) := by
      dsimp only [answer]
      rw [rollPersisted_of_stored stored]
      rfl
    rw [eq]
    exact .inl rfl
  | none =>
    have eq : answer = _ := run_rollPersisted_of_none stored roller
    rw [eq]
    dsimp only
    unfold keep
    cases ((engine.rollDice text).run roller).1 with
    | error e => exact .inl rfl
    | ok r =>
      dsimp only
      split
      · next persist => exact .inr ⟨persist, r, rfl, rfl⟩
      · exact .inl rfl

theorem get?_rollPersisted (different : other ≠ place) :
    ((engine.rollPersisted text place s).run roller).1.2.get? other = s.get? other := by
  rcases store_rollPersisted (s := s) roller with same | ⟨-, r, -, put⟩
  · rw [same]
  · rw [put, ResultStore.get?_insert, if_neg different]

/-- A result that was rolled is one that the notation accepts. -/
theorem applyResult_of_run_rollDice {r : RollResult}
    (rolled : ((engine.rollDice text).run roller).1 = .ok r) :
    engine.applyResult text r = .ok r := by
  obtain ⟨e, parsed, compares, computed⟩ :=
    (engine.always_rollDice text).run (Answers.admit_any ρ) roller r rolled
  obtain ⟨total, -, eq⟩ := RollResult.ofTree_eq_ok_iff.1 computed
  have written : r.written = e.written := by rw [eq]
  exact (engine.applyResult_eq_ok_iff text).2
    ⟨e, parsed, written, compares.groups_written.symm, computed⟩

/-- **The result that was given** is the one that is stored and can be used again, whether it was
stored before or has been rolled. -/
theorem stored?_of_run_rollPersisted (persist : engine.settings.persistResults = true)
    {r : RollResult} (given : ((engine.rollPersisted text place s).run roller).1.1 = .ok r) :
    engine.stored? text place ((engine.rollPersisted text place s).run roller).1.2 = some r := by
  cases stored : engine.stored? text place s with
  -- It was stored before, and was not touched.
  | some result =>
    rw [rollPersisted_of_stored stored] at given ⊢
    obtain rfl : result = r := Except.ok.inj given
    exact stored
  -- It was rolled, and a rolled result is accepted.
  | none =>
    rw [run_rollPersisted_of_none stored] at given ⊢
    dsimp only at given ⊢
    have kept : (engine.keep place (.ok r) s).get? place = some r := by
      unfold keep
      dsimp only
      rw [if_pos persist, ResultStore.get?_insert, if_pos rfl]
    rw [given]
    exact stored?_of_get? persist kept (applyResult_of_run_rollDice roller given)

end Run

end Engine

/-! ## Sessions

The other calls, and any number of them. -/

namespace ResultStore

variable {place : Place}

/-- A call leaves the result at a place that it does not address.  One case for each call. -/
theorem get?_perform (s : ResultStore) (call : StoreCall) (spared : ¬ call.Addresses place) :
    (s.perform call).get? place = s.get? place := by
  cases call with
  | insert addressed result => exact (s.get?_insert addressed place result).trans (if_neg spared)
  | remove addressed => exact (s.get?_remove addressed place).trans (if_neg spared)
  | removeLine path line => exact (s.get?_removeLine place path line).trans (if_neg spared)
  | clearEmpties => exact s.get?_clearEmpties place
  | roll engine text addressed roller => exact Engine.get?_rollPersisted roller spared

/-- A session leaves the result at a place that none of its calls addresses.  The induction is on
the calls. -/
theorem get?_performAll (s : ResultStore) (calls : List StoreCall)
    (spared : ∀ call ∈ calls, ¬ call.Addresses place) :
    (s.performAll calls).get? place = s.get? place := by
  induction calls generalizing s with
  | nil => rfl
  | cons call calls ih =>
    obtain ⟨first, others⟩ := List.forall_mem_cons.1 spared
    exact (ih (s.perform call) others).trans (s.get?_perform call first)

end ResultStore

namespace Engine

/-- **A result is given again.**  Let a notation be rolled at a place.  If results are kept and
there is a result, then after any calls that do not address the place, rolling the notation there
again gives the same result, asks no roller and leaves the store as it is.  In any case the results
at other places stay, and the store is left as it was if there is an error, or if results are not
kept. -/
theorem rollPersisted_again (engine : Engine) (text : String) (place : Place)
    (s : ResultStore) {ρ : Type} [Roller ρ] (roller : ρ) :
    let answer := ((engine.rollPersisted text place s).run roller).1
    (engine.settings.persistResults = true → ∀ r, answer.1 = .ok r →
      ∀ calls : List StoreCall, (∀ call ∈ calls, ¬ call.Addresses place) →
        let later := answer.2.performAll calls
        engine.rollPersisted text place later = pure (.ok r, later)) ∧
    (∀ other, other ≠ place → answer.2.get? other = s.get? other) ∧
    (∀ e, answer.1 = .error e → answer.2 = s) ∧
    (engine.settings.persistResults = false → answer.2 = s) := by
  intro answer
  refine ⟨?_, fun other different => ?_, fun e failed => ?_, fun off => ?_⟩
  · intro persist r given calls spared later
    have same : later.get? place = answer.2.get? place := answer.2.get?_performAll calls spared
    refine rollPersisted_of_stored ?_
    rw [stored?_congr same]
    exact stored?_of_run_rollPersisted roller persist given
  · exact get?_rollPersisted roller different
  · refine (store_rollPersisted roller).resolve_right ?_
    rintro ⟨-, r, given, -⟩
    exact nomatch given.symm.trans failed
  · refine (store_rollPersisted roller).resolve_right ?_
    rintro ⟨persist, -⟩
    exact nomatch off.symm.trans persist

/-- A die that shows 4 is shown again after another die of the line was rolled and a line of the
same number in another document was taken out.  A die without faces is an error, and without results
that are kept nothing is stored. -/
theorem rollPersisted_again_four :
    let engine : Engine := { settings := { persistResults := true } }
    let place : Place := ⟨"town.md", 3, 0⟩
    let next : Place := ⟨"town.md", 3, 1⟩
    let six : Faces := ⟨6, by decide⟩
    let four : RollResult :=
      ⟨"1d6", .int 4, "1d6 (4)", .dice ⟨"1d6", 1, six, [], [{ faces := six, face := 4 }]⟩⟩
    let roller := SequenceRoller.ofList [4]
    let s := ((engine.rollPersisted "1d6" place .empty).run roller).1.2
    let calls : List StoreCall :=
      [.roll engine "1d6" next roller, .removeLine "wood.md" 3, .clearEmpties]
    let later := s.performAll calls
    engine.rollPersisted "1d6" place later = pure (.ok four, later) ∧
      s.get? next = none ∧
      ((engine.rollPersisted "1d0" place s).run roller).1.2 = s ∧
      ((({} : Engine).rollPersisted "1d6" place s).run roller).1.2 = s := by
  intro engine place next six four roller s calls later
  have given : ((engine.rollPersisted "1d6" place .empty).run roller).1.1 = .ok four := by cbv
  have spared : ∀ call ∈ calls, ¬ call.Addresses place := by decide
  have failed : ((engine.rollPersisted "1d0" place s).run roller).1.1 =
      .error (.parse ⟨.invalidDice, ⟨0, 3⟩, "1d0", "1d0"⟩) := by
    dsimp only [s]
    cbv
  obtain ⟨again, others, -⟩ := rollPersisted_again engine "1d6" place .empty roller
  obtain ⟨-, -, unchanged, -⟩ := rollPersisted_again engine "1d0" place s roller
  obtain ⟨-, -, -, off⟩ := rollPersisted_again {} "1d6" place s roller
  exact ⟨again rfl four given calls spared, others next (by decide), unchanged _ failed, off rfl⟩

end Engine

end Tabletop
