import Tabletop.Evaluation

/-!
# What holds of a roll whatever the answers

A roll is a tree that branches over the answers of the roller, so a property of its value holds
for every roller if it holds at every leaf.  `Rolling.Always` says this of the leaves that are
reached by admissible answers; which answers are admissible is a parameter, since some results
need the answers to lie in the range that was asked for and others hold for any answers at all.

* `Rolling.Always.run` — the value that a roller with admissible answers comes to has the property;
* `Rolling.always_bind_iff` — one roll after another;
* `Rolling.Ensures` — the same for rolls that may fail;
* `Counted.Ensures`, `Evaluation.Ensures` — and for rolls that count dice, and may fail.

The rules for `Counted` and `Evaluation` are stated for every count of dice, so that they compose
without a condition on the count.  A failed evaluation has no value and ensures everything.

A property of all rollers would be a statement about states that nothing is known of.  Here there
are only answers, and the induction is on the tree.  Each proof about a roll therefore has one
shape: it goes through the program from the top, with a rule for each way in which rolls are put
together, and comes to what is computed at the end.  Only `Rolling.Always.run` speaks of a roller.
-/

namespace Tabletop

/-- The admissible answers `v` where an integer between `lo` and `hi` is asked for. -/
abbrev Answers := (lo hi v : Int64) → Prop

namespace Answers

/-- Any answer at all. -/
def any : Answers := fun _ _ _ => True

/-- The answers inside the range, if the range is not empty. -/
def inRange : Answers := fun lo hi v => lo ≤ hi → lo ≤ v ∧ v ≤ hi

/-- The answers of a roller that keeps to its range: one inside of it, and its lower end where it
leaves no choice. -/
def faithful : Answers := fun lo hi v => (lo < hi → lo ≤ v ∧ v ≤ hi) ∧ (hi ≤ lo → v = lo)

/-- All answers of a kind of roller are admissible, whatever state it is in. -/
def Admit (may : Answers) (ρ : Type) [Roller ρ] : Prop :=
  ∀ lo hi (roller : ρ), may lo hi (Roller.uniform lo hi roller).1

theorem admit_any (ρ : Type) [Roller ρ] : any.Admit ρ := fun _ _ _ => trivial

end Answers

variable {may : Answers} {α β ε : Type}

namespace Rolling

/-- The value has a property whichever admissible answers are given. -/
def Always (may : Answers) (post : α → Prop) : Rolling α → Prop
  | done a => post a
  | draw lo hi next => ∀ v, may lo hi v → (next v).Always may post

@[simp] theorem always_done {post : α → Prop} {a : α} : (done a).Always may post ↔ post a := .rfl

@[simp] theorem always_draw {post : α → Prop} {lo hi : Int64} {next : Int64 → Rolling α} :
    (draw lo hi next).Always may post ↔ ∀ v, may lo hi v → (next v).Always may post := .rfl

theorem Always.mono {x : Rolling α} {post weaker : α → Prop} (h : x.Always may post)
    (implied : ∀ a, post a → weaker a) : x.Always may weaker := by
  induction x with
  | done a => exact implied a h
  | draw lo hi next ih => exact fun v admitted => ih v (h v admitted)

/-- What all values have needs no look at the roll. -/
theorem always_of_forall {x : Rolling α} {post : α → Prop} (h : ∀ a, post a) :
    x.Always may post := by
  induction x with
  | done a => exact h a
  | draw lo hi next ih => exact fun v _ => ih v

/-- **One roll after another**: every value of the first leads to values with the property. -/
theorem always_bind_iff {x : Rolling α} {f : α → Rolling β} {post : β → Prop} :
    (x >>= f).Always may post ↔ x.Always may fun a => (f a).Always may post := by
  induction x with
  | done a => rfl
  | draw lo hi next ih =>
    rw [draw_bind, always_draw, always_draw]
    exact forall_congr' fun v => imp_congr_right fun _ => ih v

/-- A roller with admissible answers comes to a value with the property. -/
theorem Always.run {ρ : Type} [Roller ρ] (admissible : may.Admit ρ) {x : Rolling α}
    {post : α → Prop} (h : x.Always may post) (roller : ρ) : post (x.run roller).1 := by
  induction x generalizing roller with
  | done a => exact h
  | draw lo hi next ih => exact ih _ (h _ (admissible lo hi roller)) _

/-- The value of a roll that does not fail has a property. -/
def Ensures (may : Answers) (x : Rolling (Except ε α)) (post : α → Prop) : Prop :=
  x.Always may fun result => ∀ a, result = .ok a → post a

variable {post : α → Prop}

theorem ensures_ok {a : α} (h : post a) : Ensures may (.done (.ok a : Except ε α)) post := by
  rintro b ⟨⟩
  exact h

theorem ensures_error {e : ε} : Ensures may (.done (.error e)) post :=
  fun _ => nofun

theorem Always.ensures {mid : β → Prop} {x : Rolling β} {f : β → Rolling (Except ε α)}
    (h : x.Always may mid) (next : ∀ b, mid b → Ensures may (f b) post) :
    Ensures may (x >>= f) post :=
  always_bind_iff.2 (h.mono next)

end Rolling

/-! ## Rolls that count dice

The count is passed through, and no value depends on it. -/

namespace Counted

/-- The value of a counting roll has a property, whatever the count and the answers. -/
def Ensures (may : Answers) (x : Counted α) (post : α → Prop) : Prop :=
  ∀ n, (x.run n).Always may fun r => post r.1

variable {x : Counted α} {post : α → Prop}

theorem Ensures.mono {weaker : α → Prop} (h : Ensures may x post)
    (implied : ∀ a, post a → weaker a) : Ensures may x weaker :=
  fun n => (h n).mono fun r => implied r.1

theorem ensures_of_forall (h : ∀ a, post a) : Ensures may x post :=
  fun _ => Rolling.always_of_forall fun r => h r.1

theorem ensures_pure {a : α} (h : post a) : Ensures may (pure a) post := fun _ => h

theorem Ensures.bind {mid : α → Prop} {f : α → Counted β} {post : β → Prop}
    (h : Ensures may x mid) (next : ∀ a, mid a → Ensures may (f a) post) :
    Ensures may (x >>= f) post := by
  intro n
  rw [StateT.run_bind, Rolling.always_bind_iff]
  exact (h n).mono fun r value => next r.1 value r.2

end Counted

/-! ## Evaluations

An evaluation is a counting roll of a result, and only results without an error are spoken of. -/

namespace Evaluation

/-- The value of an evaluation, if it has one, has a property, whatever the count and the
answers. -/
def Ensures (may : Answers) (x : Evaluation α) (post : α → Prop) : Prop :=
  Counted.Ensures may x.run fun r => ∀ a, r = .ok a → post a

variable {x : Evaluation α} {post : α → Prop}

theorem Ensures.mono {weaker : α → Prop} (h : Ensures may x post)
    (implied : ∀ a, post a → weaker a) : Ensures may x weaker :=
  Counted.Ensures.mono h fun _ value a eq => implied a (value a eq)

theorem ensures_of_forall (h : ∀ a, post a) : Ensures may x post :=
  Counted.ensures_of_forall fun _ a _ => h a

theorem ensures_pure {a : α} (h : post a) : Ensures may (pure a) post :=
  Counted.ensures_pure fun b eq => by cases eq; exact h

theorem ensures_throw {e : EvaluationError} : Ensures may (throw e) post :=
  Counted.ensures_pure fun _ eq => nomatch eq

theorem Ensures.bind {mid : α → Prop} {f : α → Evaluation β} {post : β → Prop}
    (h : Ensures may x mid) (next : ∀ a, mid a → Ensures may (f a) post) :
    Ensures may (x >>= f) post := by
  unfold Ensures
  rw [ExceptT.run_bind]
  refine Counted.Ensures.bind h fun r value => ?_
  -- After a failure nothing more is rolled, and there is no value left to speak of.
  cases r with
  | ok a => exact next a (value a rfl)
  | error e => exact Counted.ensures_pure fun _ eq => nomatch eq

/-- A counting roll as an evaluation, which cannot fail. -/
theorem ensures_of_counted {x : Counted α} (h : Counted.Ensures may x post) :
    Ensures may (x : Evaluation α) post := by
  show Counted.Ensures may (x >>= fun a => pure (Except.ok a)) _
  refine Counted.Ensures.bind h fun a value => Counted.ensures_pure ?_
  rintro b ⟨⟩
  exact value

/-- A roll as an evaluation, which counts no dice and cannot fail. -/
theorem ensures_of_rolling {x : Rolling α} (h : x.Always may post) :
    Ensures may (x : Evaluation α) post := by
  intro n
  show Rolling.Always may _ (x >>= (fun a => Rolling.done (a, n)) >>= fun r =>
    Rolling.done (Except.ok r.1, r.2))
  rw [Rolling.bind_bind, Rolling.always_bind_iff]
  refine h.mono fun a value => ?_
  rintro b ⟨⟩
  exact value

end Evaluation

/-! ## Dice

What admissible answers make of a die.  A face is the answer cut to 32 bits, so that only answers in
the range are sure to be faces of the die. -/

/-- The faces that a die can show under admissible answers. -/
def Answers.Shows (may : Answers) (faces : Faces) (face : UInt32) : Prop :=
  ∃ v, may 1 faces.highest v ∧ Rolling.faceOf v = face

/-- The highest face is the number of faces, which is a word of 32 bits and fits. -/
theorem Faces.toInt_highest (faces : Faces) : faces.highest.toInt = faces.count.toNat :=
  Int64.toInt_ofNat_of_lt (Nat.lt_trans faces.count.toNat_lt (by decide))

/-- A die has a face, so that its range is not empty. -/
theorem Faces.one_le_highest (faces : Faces) : 1 ≤ faces.highest := by
  have positive : faces.count.toNat ≠ 0 := fun zero => faces.ne_zero (UInt32.toNat_inj.1 zero)
  rw [Int64.le_iff_toInt_le, toInt_highest, Int64.toInt_one]
  omega

/-- Answers in the range show a face from 1 to the number of faces. -/
theorem Answers.Shows.between {faces : Faces} {face : UInt32} (h : inRange.Shows faces face) :
    1 ≤ face ∧ face ≤ faces.count := by
  obtain ⟨v, admitted, rfl⟩ := h
  obtain ⟨low, high⟩ := admitted faces.one_le_highest
  have positive : 0 ≤ v := Int64.le_trans (by decide) low
  rw [Int64.le_iff_toInt_le, Int64.toInt_one, ← Int64.cast_toNatClampNeg v positive] at low
  rw [Int64.le_iff_toInt_le, faces.toInt_highest, ← Int64.cast_toNatClampNeg v positive] at high
  have small := faces.count.toNat_lt
  -- The answer is positive and below 2 ^ 32, so cutting it to a word changes nothing.
  have cut : (Rolling.faceOf v).toNat = v.toNatClampNeg := by
    rw [Rolling.faceOf, UInt64.toNat_toUInt32, Int64.toNat_toUInt64_of_le positive]
    exact Nat.mod_eq_of_lt (by omega)
  rw [UInt32.le_iff_toNat_le, UInt32.le_iff_toNat_le, cut, UInt32.toNat_one]
  omega

namespace Rolling

theorem always_face {faces : Faces} : (face faces).Always may (may.Shows faces) :=
  fun v admitted => ⟨v, admitted, rfl⟩

/-- The induction for several dice, with those that were rolled before as a parameter. -/
theorem always_facesAfter {faces : Faces} (count : Nat) {shown : List UInt32}
    (before : ∀ v ∈ shown, may.Shows faces v) :
    (facesAfter faces count shown).Always may fun all =>
      all.length = shown.length + count ∧ ∀ v ∈ all, may.Shows faces v := by
  induction count generalizing shown with
  | zero => exact ⟨List.length_reverse, fun v mem => before v (List.mem_reverse.1 mem)⟩
  | succ count ih =>
    intro v admitted
    refine (ih (List.forall_mem_cons.2 ⟨⟨v, admitted, rfl⟩, before⟩)).mono fun all value => ?_
    rw [List.length_cons] at value
    exact ⟨by omega, value.2⟩

/-- As many faces as dice, each of them one that the die has. -/
theorem always_many {faces : Faces} (count : Nat) :
    (many count faces).Always may fun shown =>
      shown.length = count ∧ ∀ v ∈ shown, may.Shows faces v := by
  refine (always_facesAfter count (List.forall_mem_nil _)).mono fun shown value => ?_
  exact ⟨value.1.trans (Nat.zero_add count), value.2⟩

end Rolling

namespace RollContext

variable (context : RollContext) (faces : Faces)

/-- The faces are rolled after they are counted, and the count gives no value that they depend
on. -/
theorem ensures_rollMany (n : Nat) :
    Evaluation.Ensures may (context.rollMany n faces) fun shown =>
      shown.length = n ∧ ∀ v ∈ shown, may.Shows faces v := by
  refine (Evaluation.ensures_of_forall fun _ => trivial).bind fun _ _ => ?_
  exact Evaluation.ensures_of_rolling (Rolling.always_many n)

theorem ensures_rollOne :
    Evaluation.Ensures may (context.rollOne faces) (may.Shows faces) := by
  refine (Evaluation.ensures_of_forall fun _ => trivial).bind fun _ _ => ?_
  exact Evaluation.ensures_of_rolling Rolling.always_face

end RollContext

end Tabletop
