import Mathlib
import Tabletop.Proofs.Rolling.InRange

/-!
# The chances of a roll

An ideal roller answers with every integer of the range equally often, and independently of what it
answered before.  The values of a roll then have chances: `Rolling.law`.  They can be found without
any sums where the value tells what was answered.  A `Rolling.Path` is a sequence of answers that
leads to a value; if there is just one, the chance of the value is that of the answers.

* `uniformLaw`, `mem_support_uniformLaw` — one answer;
* `Rolling.Path.run` — what a roller comes to that gives the answers of a path;
* `Rolling.mem_support_law` — a value is possible if a path leads to it;
* `Rolling.law_apply_of_unique` — the chance of a value with a single path.

The tree of a roll has as many leaves as there are sequences of answers, and several leaves may hold
the same value.  In general the chance of a value is a sum over its paths.  Where there is one path
the sum has one term, and the induction of `Rolling.law_apply_of_unique` goes down that path: at
each question every other answer leads to values among which this one is not.
-/

open scoped ENNReal

namespace Tabletop

/-! ## One answer

The offset of an answer from the lower end is spread evenly.  A range that leaves no choice has one
offset, and so the lower end is its answer. -/

/-- The law of an integer between `lo` and `hi` if each of them is as likely as the others: that of
the generator with an offset that is spread evenly. -/
noncomputable def uniformLaw (lo hi : Int64) : PMF Int64 :=
  (PMF.uniformOfFintype (Fin ((hi.toInt - lo.toInt).toNat + 1))).map
    fun offset : Fin _ => Int64.ofInt (lo.toInt + offset)

/-- The integers of a range by their offsets. -/
theorem toInt_offset {lo hi : Int64} (offset : Fin ((hi.toInt - lo.toInt).toNat + 1)) :
    (Int64.ofInt (lo.toInt + offset)).toInt = lo.toInt + offset := by
  have least := lo.le_toInt
  have greatest := hi.toInt_lt
  have small := lo.toInt_lt
  exact Int64.toInt_ofInt_of_le (by omega) (by omega)

/-- The admissible answers are those at some offset. -/
theorem Answers.faithful_iff {lo hi v : Int64} :
    faithful lo hi v ↔
      ∃ offset : Fin ((hi.toInt - lo.toInt).toNat + 1), Int64.ofInt (lo.toInt + offset) = v := by
  simp only [← Int64.toInt_inj, toInt_offset, faithful, Int64.lt_iff_toInt_lt,
    Int64.le_iff_toInt_le]
  constructor
  · rintro ⟨choice, alone⟩
    exact ⟨⟨(v.toInt - lo.toInt).toNat, by omega⟩, by dsimp only; omega⟩
  · rintro ⟨offset, eq⟩
    omega

theorem mem_support_uniformLaw {lo hi v : Int64} :
    v ∈ (uniformLaw lo hi).support ↔ Answers.faithful lo hi v := by
  rw [uniformLaw, PMF.mem_support_map_iff, Answers.faithful_iff]
  simp

/-- Every admissible answer has the same chance. -/
theorem uniformLaw_apply {lo hi v : Int64} (faithful : Answers.faithful lo hi v) :
    uniformLaw lo hi v = (((hi.toInt - lo.toInt).toNat + 1 : ℕ) : ℝ≥0∞)⁻¹ := by
  obtain ⟨offset, rfl⟩ := Answers.faithful_iff.1 faithful
  rw [uniformLaw, PMF.map_apply, tsum_eq_single offset, if_pos rfl, PMF.uniformOfFintype_apply,
    Fintype.card_fin]
  intro other different
  refine if_neg fun same => different (Fin.ext ?_)
  have equal := congrArg Int64.toInt same
  rw [toInt_offset, toInt_offset] at equal
  omega

/-- An admissible answer need not be moved. -/
theorem ClampedRoller.clamp_of_faithful {lo hi v : Int64} (faithful : Answers.faithful lo hi v) :
    clamp lo hi v = v := by
  unfold clamp
  simp only [Answers.faithful, Int64.lt_iff_toInt_lt, Int64.le_iff_toInt_le,
    ← Int64.toInt_inj] at *
  split
  · omega
  · split <;> omega

namespace Rolling

variable {α β : Type}

/-! ## Paths

A path is a sequence of admissible answers.  It can be followed by a roller that is given them. -/

/-- The roll comes to a value if these answers are given in turn.  All of them are admissible, and
none is left over. -/
inductive Path : Rolling α → (answers : List Int64) → α → Prop
  | done {a : α} : Path (done a) [] a
  | draw {lo hi v : Int64} {next : Int64 → Rolling α} {answers : List Int64} {a : α}
      (admitted : Answers.faithful lo hi v) (rest : Path (next v) answers a) :
      Path (draw lo hi next) (v :: answers) a

/-- A value that is there is come to without an answer. -/
theorem path_done_iff {a b : α} {answers : List Int64} :
    (done a).Path answers b ↔ answers = [] ∧ a = b := by
  constructor
  · rintro ⟨⟩
    exact ⟨rfl, rfl⟩
  · rintro ⟨rfl, rfl⟩
    exact .done

/-- The first answer is given to the first question, the others to what follows. -/
theorem path_draw_cons_iff {lo hi v : Int64} {next : Int64 → Rolling α} {answers : List Int64}
    {a : α} : (draw lo hi next).Path (v :: answers) a ↔
      Answers.faithful lo hi v ∧ (next v).Path answers a := by
  constructor
  · rintro ⟨⟩
    exact ⟨‹_›, ‹_›⟩
  · rintro ⟨admitted, path⟩
    exact .draw admitted path

theorem path_draw_iff {lo hi : Int64} {next : Int64 → Rolling α} {answers : List Int64} {a : α} :
    (draw lo hi next).Path answers a ↔ ∃ v rest, answers = v :: rest ∧
      Answers.faithful lo hi v ∧ (next v).Path rest a := by
  constructor
  · rintro ⟨⟩
    exact ⟨_, _, rfl, ‹_›, ‹_›⟩
  · rintro ⟨v, rest, rfl, admitted, path⟩
    exact .draw admitted path

variable {x : Rolling α} {answers : List Int64} {a b : α}

/-- What is computed from the value of a roll asks nothing. -/
theorem path_map_iff {f : α → β} {b : β} :
    (x >>= fun a => done (f a)).Path answers b ↔ ∃ a, x.Path answers a ∧ f a = b := by
  induction x generalizing answers with
  | done a => simp [path_done_iff]
  | draw lo hi next ih =>
    rw [draw_bind]
    simp only [path_draw_iff, ih]
    grind

/-- A roller that gives the answers comes to the value. -/
theorem Path.run (path : x.Path answers a) : x.run (ClampedRoller.mk answers) = (a, ⟨[]⟩) := by
  induction path with
  | done => rfl
  | @draw lo hi v next answers a admitted rest ih =>
    show (next (ClampedRoller.clamp lo hi v)).run (ClampedRoller.mk answers) = _
    rw [ClampedRoller.clamp_of_faithful admitted, ih]

/-- What all admissible answers lead to, those of a path do. -/
theorem Always.path {post : α → Prop} (h : x.Always Answers.faithful post)
    (path : x.Path answers a) : post a := by
  induction path with
  | done => exact h
  | draw admitted rest ih => exact ih (h _ admitted)

/-- Where the value of a roll tells the answers, they correspond. -/
theorem bijOn_run (only : ∀ a first second, x.Path first a → x.Path second a → first = second) :
    Set.BijOn (fun answers => (x.run (ClampedRoller.mk answers)).1)
      {answers | ∃ a, x.Path answers a} {a | ∃ answers, x.Path answers a} := by
  refine ⟨?_, ?_, ?_⟩
  · rintro answers ⟨a, path⟩
    refine ⟨answers, ?_⟩
    show x.Path answers (x.run (ClampedRoller.mk answers)).1
    rwa [path.run]
  · rintro first ⟨a, path⟩ second ⟨b, other⟩ same
    dsimp only at same
    rw [path.run, other.run] at same
    obtain rfl : a = b := same
    exact only a first second path other
  · rintro a ⟨answers, path⟩
    exact ⟨answers, ⟨a, path⟩, congrArg Prod.fst path.run⟩

/-! ## Chances

The chance of a path is the product over its answers. -/

/-- The chances of the values of a roll with an ideal roller. -/
noncomputable def law : Rolling α → PMF α
  | done a => PMF.pure a
  | draw lo hi next => (uniformLaw lo hi).bind fun v => (next v).law

/-- A value is possible if a path leads to it. -/
theorem mem_support_law : a ∈ x.law.support ↔ ∃ answers, x.Path answers a := by
  induction x with
  | done b => simp [law, path_done_iff, eq_comm]
  | draw lo hi next ih =>
    simp only [law, PMF.mem_support_bind_iff, mem_support_uniformLaw, ih, path_draw_iff]
    grind

/-- The chance that an ideal roller gives these answers. -/
noncomputable def chance : Rolling α → (answers : List Int64) → ℝ≥0∞
  | draw lo hi next, v :: answers => uniformLaw lo hi v * (next v).chance answers
  | _, _ => 1

/-- What is computed from the value of a roll does not change the chances of the answers. -/
theorem chance_map (f : α → β) (x : Rolling α) (answers : List Int64) :
    (x >>= fun a => done (f a)).chance answers = x.chance answers := by
  induction x generalizing answers with
  | done a => rfl
  | draw lo hi next ih =>
    cases answers with
    | nil => rfl
    | cons v answers => exact congrArg _ (ih v answers)

/-- **A value with one path.**  Its chance is that of the answers. -/
theorem law_apply_of_unique (path : x.Path answers a)
    (only : ∀ other, x.Path other a → other = answers) : x.law a = x.chance answers := by
  induction path with
  | done => exact (PMF.pure_apply_self _)
  | @draw lo hi v next answers a admitted rest ih =>
    have further : ∀ other, (next v).Path other a → other = answers := fun other path =>
      (List.cons.inj (only _ (.draw admitted path))).2
    -- After another first answer the value is out of reach.
    have missed : ∀ w, w ≠ v → uniformLaw lo hi w * (next w).law a = 0 := by
      intro w different
      rw [mul_eq_zero, PMF.apply_eq_zero_iff, PMF.apply_eq_zero_iff, mem_support_uniformLaw,
        mem_support_law, ← not_and_or]
      rintro ⟨admitted, other, path⟩
      exact different (List.cons.inj (only _ (.draw admitted path))).1
    rw [law, PMF.bind_apply, tsum_eq_single v missed, ih further]
    rfl

end Rolling

end Tabletop
