import Mathlib.Data.List.Infix
import Tabletop.Text.Basic

/-!
# Replacing words

Replacing a word goes through the text from the left and does not look again at what it has put in.
Where the word begins with a character that is nowhere else in it, its occurrences cannot overlap,
and what stands before them is passed over character by character.

Replacing several words one after the other is another matter, since every word is looked for in
what the others have put in.  It comes to one pass (`IsCode.foldl_replaceAll`) if all words begin with
the same mark and none contains a character that one before it stands for (`IsCode`).  The pass may be
cut wherever the mark stands (`replaceEach_append_marked`), so that no word is missed.
-/

namespace Tabletop.Text

variable {old new front rest body cs : List Char} {c : Char}

/-! ## One word

The program keeps a number of characters that it has to pass over.  A text with a word at its front
is therefore gone through character by character, and the lemmas put the word together again. -/

theorem replaceFrom_eq_replaceAll (old new : List Char) (skip : Nat) (cs : List Char) :
    replaceFrom old new skip cs = replaceAll old new (cs.drop skip) := by
  induction skip generalizing cs with
  | zero => rfl
  | succ skip ih =>
    cases cs with
    | nil => rfl
    | cons c cs => exact ih cs

/-- The word at the front of a text is replaced. -/
theorem replaceAll_word (c : Char) (body new rest : List Char) :
    replaceAll (c :: body) new (c :: body ++ rest) = new ++ replaceAll (c :: body) new rest := by
  have here : (c :: body).isPrefixOf (c :: (body ++ rest)) = true :=
    List.isPrefixOf_iff_prefix.2 (List.prefix_append (c :: body) rest)
  have left : replaceFrom (c :: body) new body.length (body ++ rest) =
      replaceAll (c :: body) new rest := by
    rw [replaceFrom_eq_replaceAll, List.drop_left]
  exact (if_pos here).trans (congrArg (new ++ ·) left)

/-- A character at which the word does not begin is passed over. -/
theorem replaceAll_cons (absent : ¬ old <+: c :: rest) :
    replaceAll old new (c :: rest) = c :: replaceAll old new rest :=
  if_neg (mt List.isPrefixOf_iff_prefix.1 absent)

/-- Without its first character the word does not begin. -/
theorem replaceAll_append (absent : c ∉ front) :
    replaceAll (c :: body) new (front ++ rest) = front ++ replaceAll (c :: body) new rest := by
  induction front with
  | nil => rfl
  | cons d front ih =>
    obtain ⟨other, absent⟩ := not_or.1 (mt List.mem_cons.2 absent)
    have notHere : ¬ c :: body <+: d :: (front ++ rest) := fun here =>
      other (List.cons_prefix_cons.1 here).1
    rw [List.cons_append, replaceAll_cons notHere, ih absent, List.cons_append]

/-- Nothing is replaced in a text in which the word does not occur. -/
theorem replaceAll_eq_self (absent : ¬ old <:+: cs) : replaceAll old new cs = cs := by
  induction cs with
  | nil => rfl
  | cons c cs ih =>
    have notHere : ¬ old <+: c :: cs := fun here => absent here.isInfix
    rw [replaceAll_cons notHere, ih fun later => absent (later.trans (List.suffix_cons c cs).isInfix)]

/-- A word put behind a text in which it does not occur begins nowhere before its place, if its
first character is not found again in it. -/
theorem replaceAll_append_word (once : c ∉ body) (absent : ¬ c :: body <:+: cs) :
    replaceAll (c :: body) new (cs ++ c :: body) = cs ++ new := by
  induction cs with
  | nil =>
    have whole := replaceAll_word c body new []
    rw [List.append_nil] at whole
    exact whole.trans (List.append_nil new)
  | cons d cs ih =>
    have notHere : ¬ c :: body <+: d :: (cs ++ c :: body) := by
      intro here
      obtain ⟨rfl, inside⟩ := List.cons_prefix_cons.1 here
      -- The word is inside of the text, or it reaches into the word behind it.
      rcases List.prefix_or_prefix_of_prefix inside (List.prefix_append cs _) with short | ⟨more, rfl⟩
      · exact absent (List.cons_prefix_cons.2 ⟨rfl, short⟩).isInfix
      · rcases List.prefix_cons_iff.1 ((List.prefix_append_right_inj cs).1 inside) with
          rfl | ⟨_, rfl, -⟩
        · rw [List.append_nil] at absent
          exact absent (List.infix_refl _)
        · exact once (List.mem_append_right cs (.head _))
    have later : ¬ c :: body <:+: cs := fun later =>
      absent (later.trans (List.suffix_cons d cs).isInfix)
    rw [List.cons_append, replaceAll_cons notHere, ih later, List.cons_append]

/-! ## Several words in one pass

One pass against several, one for each word.  The induction is on the table: the first word is taken
into the pass of the others, and what has to be shown is that replacing it neither makes nor breaks
a word of theirs.  It breaks none, since their marks stay where they are; it makes none, since the
character that is put in is in none of them. -/

/-- The text with every word of a table replaced by the character it stands for, from the left and
without looking at a character twice: the first `skip` characters belong to a word already
replaced. -/
def replaceEachFrom (table : List (List Char × Char)) : (skip : Nat) → List Char → List Char
  | _, [] => []
  | skip + 1, _ :: cs => replaceEachFrom table skip cs
  | 0, c :: cs =>
    match table.find? fun entry => entry.1.isPrefixOf (c :: cs) with
    | some (word, d) => d :: replaceEachFrom table (word.length - 1) cs
    | none => c :: replaceEachFrom table 0 cs

/-- The text with every word of a table replaced by the character it stands for, in one pass. -/
def replaceEach (table : List (List Char × Char)) (cs : List Char) : List Char :=
  replaceEachFrom table 0 cs

section Table

variable {table : List (List Char × Char)} {mark d : Char}

/-- Characters that belong to a word already replaced are dropped. -/
theorem replaceEachFrom_eq_replaceEach (table : List (List Char × Char)) (skip : Nat)
    (cs : List Char) : replaceEachFrom table skip cs = replaceEach table (cs.drop skip) := by
  induction skip generalizing cs with
  | zero => rfl
  | succ skip ih =>
    cases cs with
    | nil => rfl
    | cons c cs => exact ih cs

/-- A character at which no word is found is passed over. -/
theorem replaceEach_of_find?_eq_none
    (none : table.find? (fun entry => entry.1.isPrefixOf (c :: rest)) = none) :
    replaceEach table (c :: rest) = c :: replaceEach table rest := by
  rw [replaceEach, replaceEachFrom, none]
  rfl

/-- A character at which no word begins is passed over. -/
theorem replaceEach_cons (absent : ∀ entry ∈ table, ¬ entry.1 <+: c :: rest) :
    replaceEach table (c :: rest) = c :: replaceEach table rest :=
  replaceEach_of_find?_eq_none <| List.find?_eq_none.2 fun entry mem =>
    mt List.isPrefixOf_iff_prefix.1 (absent entry mem)

/-- The first word of the table that a text begins with is replaced. -/
theorem replaceEach_word
    (found : table.find? (fun entry => entry.1.isPrefixOf (c :: body ++ rest)) = some (c :: body, d)) :
    replaceEach table (c :: body ++ rest) = d :: replaceEach table rest := by
  rw [List.cons_append] at found ⊢
  rw [replaceEach, replaceEachFrom, found]
  dsimp only
  rw [replaceEachFrom_eq_replaceEach, List.length_cons, Nat.add_sub_cancel, List.drop_left]

theorem replaceEach_nil (cs : List Char) : replaceEach [] cs = cs := by
  induction cs with
  | nil => rfl
  | cons c cs ih => rw [replaceEach_cons (List.forall_mem_nil _), ih]

/-! ### Words with a mark

Every word of a code begins with one and the same character, its mark, and has no other mark in it.
So words do not overlap, and as no replacement stands in a word that is replaced later, replacing
puts no word together. -/

/-- A word that begins with the mark. -/
def IsMarked (mark : Char) (word : List Char) : Prop :=
  word.head? = some mark ∧ mark ∉ word.tail

instance (mark : Char) (word : List Char) : Decidable (IsMarked mark word) :=
  inferInstanceAs (Decidable (_ ∧ _))

theorem IsMarked.exists_cons {word : List Char} (marked : IsMarked mark word) :
    ∃ body, word = mark :: body ∧ mark ∉ body := by
  obtain ⟨first, others⟩ := marked
  cases word with
  | nil => cases first
  | cons x body =>
    obtain rfl := Option.some.inj first
    exact ⟨body, rfl, others⟩

theorem IsMarked.ne_nil {word : List Char} (marked : IsMarked mark word) : word ≠ [] := by
  obtain ⟨body, rfl, -⟩ := marked.exists_cons
  exact List.cons_ne_nil mark body

/-- Words for characters of which none makes or breaks another: all begin with the same mark, which
is nowhere else in them, and no word has a character in it that an earlier one stands for. -/
structure IsCode (mark : Char) (table : List (List Char × Char)) : Prop where
  marked : ∀ entry ∈ table, IsMarked mark entry.1
  apart : table.Pairwise fun entry later => entry.2 ∉ later.1

/-- A text without the mark has no words. -/
theorem replaceEach_append (marked : ∀ entry ∈ table, IsMarked mark entry.1)
    (absent : mark ∉ front) : replaceEach table (front ++ rest) = front ++ replaceEach table rest := by
  induction front with
  | nil => rfl
  | cons d front ih =>
    obtain ⟨other, absent⟩ := not_or.1 (mt List.mem_cons.2 absent)
    rw [List.cons_append, replaceEach_cons, ih absent, List.cons_append]
    intro entry mem here
    obtain ⟨body, eq, -⟩ := (marked entry mem).exists_cons
    rw [eq] at here
    exact other (List.cons_prefix_cons.1 here).1

/-- What a word leaves behind does not contain the character, so a text without it at its front has
come through untouched. -/
theorem prefix_of_prefix_replaceAll (absent : c ∉ front)
    (isFront : front <+: replaceAll old [c] rest) : front <+: rest := by
  induction front generalizing rest with
  | nil => exact List.nil_prefix
  | cons d front ih =>
    obtain ⟨other, absent⟩ := not_or.1 (mt List.mem_cons.2 absent)
    cases rest with
    | nil => exact isFront
    | cons x rest =>
      by_cases here : old <+: x :: rest
      · have replaced : replaceAll old [c] (x :: rest) =
            c :: replaceFrom old [c] (old.length - 1) rest :=
          if_pos (List.isPrefixOf_iff_prefix.2 here)
        rw [replaced] at isFront
        exact absurd (List.cons_prefix_cons.1 isFront).1.symm other
      · rw [replaceAll_cons here] at isFront
        obtain ⟨rfl, more⟩ := List.cons_prefix_cons.1 isFront
        exact List.cons_prefix_cons.2 ⟨rfl, ih absent more⟩

/-- Replacing a word does not change which other words a text begins with. -/
theorem prefix_replaceAll_iff {word : List Char} (marked : IsMarked mark word) (apart : c ∉ word)
    {x : Char} : word <+: x :: replaceAll (mark :: body) [c] rest ↔ word <+: x :: rest := by
  obtain ⟨tail, rfl, others⟩ := marked.exists_cons
  rw [List.cons_prefix_cons, List.cons_prefix_cons]
  refine and_congr_right fun _ => ⟨?_, ?_⟩
  · exact prefix_of_prefix_replaceAll (List.not_mem_of_not_mem_cons apart)
  · rintro ⟨left, rfl⟩
    rw [replaceAll_append others]
    exact List.prefix_append _ _

/-- The word found at the front of a text hangs on which words it begins with. -/
theorem find?_isPrefixOf_congr {text text' : List Char}
    (same : ∀ entry ∈ table, entry.1 <+: text ↔ entry.1 <+: text') :
    table.find? (fun entry => entry.1.isPrefixOf text) =
      table.find? fun entry => entry.1.isPrefixOf text' := by
  have equal : ∀ entry ∈ table, entry.1.isPrefixOf text = entry.1.isPrefixOf text' := by
    intro entry mem
    rw [Bool.eq_iff_iff, List.isPrefixOf_iff_prefix, List.isPrefixOf_iff_prefix]
    exact same entry mem
  rw [← List.head?_filter, ← List.head?_filter, List.filter_congr equal]

/-- Behind a character, replacing one word leaves the search for the others as it was. -/
theorem find?_replaceAll (marked : ∀ entry ∈ table, IsMarked mark entry.1)
    (apart : ∀ entry ∈ table, c ∉ entry.1) (body : List Char) (x : Char) (rest : List Char) :
    table.find? (fun entry => entry.1.isPrefixOf (x :: replaceAll (mark :: body) [c] rest)) =
      table.find? (fun entry => entry.1.isPrefixOf (x :: rest)) :=
  find?_isPrefixOf_congr fun entry mem => prefix_replaceAll_iff (marked entry mem) (apart entry mem)

/-! ### One word less

Replacing one word of a code first leaves a text in which the other words stand where they stood. -/

/-- What a word leaves behind begins no other word. -/
theorem replaceEach_replaceAll_word (marked : ∀ entry ∈ table, IsMarked mark entry.1)
    (apart : ∀ entry ∈ table, c ∉ entry.1) (body left : List Char) :
    replaceEach table (replaceAll (mark :: body) [c] (mark :: body ++ left)) =
      c :: replaceEach table (replaceAll (mark :: body) [c] left) := by
  have noWord : ∀ entry ∈ table, ¬ entry.1 <+: c :: replaceAll (mark :: body) [c] left := by
    intro entry mem again
    obtain ⟨tail, eq, -⟩ := (marked entry mem).exists_cons
    have absent := apart entry mem
    rw [eq] at again absent
    exact absent ((List.cons_prefix_cons.1 again).1 ▸ .head _)
  rw [replaceAll_word, List.singleton_append, replaceEach_cons noWord]

/-- The way of a pass: a text is empty, or it goes on behind a character at which no word is found,
or behind the word found at its front. -/
theorem induction_on_words (nonempty : ∀ entry ∈ table, entry.1 ≠ []) {motive : List Char → Prop}
    (nil : motive [])
    (char : ∀ x rest, table.find? (fun entry => entry.1.isPrefixOf (x :: rest)) = none →
      motive rest → motive (x :: rest))
    (word : ∀ word d rest, table.find? (fun entry => entry.1.isPrefixOf (word ++ rest)) =
      some (word, d) → motive rest → motive (word ++ rest))
    (cs : List Char) : motive cs := by
  -- Behind a word the text is shorter by more than one character.
  induction size : cs.length using Nat.strong_induction_on generalizing cs with
  | h n ih =>
    subst size
    cases cs with
    | nil => exact nil
    | cons x rest =>
      cases found : table.find? (fun entry => entry.1.isPrefixOf (x :: rest)) with
      | none => exact char x rest found (ih rest.length (Nat.lt_succ_self _) rest rfl)
      | some entry =>
        have begins : entry.1.isPrefixOf (x :: rest) = true :=
          List.find?_some (p := fun entry : List Char × Char => entry.1.isPrefixOf (x :: rest)) found
        have longer := List.length_pos_iff.2 (nonempty entry (List.mem_of_find?_eq_some found))
        obtain ⟨left, whole⟩ := List.isPrefixOf_iff_prefix.1 begins
        rw [← whole] at found ih ⊢
        refine word entry.1 entry.2 left found (ih left.length ?_ left rfl)
        rw [List.length_append]
        omega

/-- **One word more.**  A word is replaced before the words of a table, or together with them. -/
theorem replaceEach_replaceAll (marked : ∀ entry ∈ table, IsMarked mark entry.1)
    (apart : ∀ entry ∈ table, c ∉ entry.1) (cs : List Char) :
    replaceEach table (replaceAll (mark :: body) [c] cs) =
      replaceEach ((mark :: body, c) :: table) cs := by
  have nonempty : ∀ entry ∈ (mark :: body, c) :: table, entry.1 ≠ [] :=
    List.forall_mem_cons.2 ⟨List.cons_ne_nil mark body, fun entry mem => (marked entry mem).ne_nil⟩
  induction cs using induction_on_words nonempty with
  | nil => rfl
  | char x rest none ih =>
    obtain ⟨absent, others⟩ := List.forall_mem_cons.1 (List.find?_eq_none.1 none)
    have searched := find?_replaceAll marked apart body x rest
    rw [replaceAll_cons (mt List.isPrefixOf_iff_prefix.2 absent),
      replaceEach_of_find?_eq_none (searched.trans (List.find?_eq_none.2 others)),
      replaceEach_of_find?_eq_none none, ih]
  | word word d rest found ih =>
    by_cases here : mark :: body <+: word ++ rest
    · have first : ((mark :: body, c) :: table).find?
          (fun entry => entry.1.isPrefixOf (word ++ rest)) = some (mark :: body, c) :=
        List.find?_cons_of_pos (List.isPrefixOf_iff_prefix.2 here)
      obtain ⟨rfl, rfl⟩ := Prod.mk.inj (Option.some.inj (found.symm.trans first))
      rw [replaceEach_word found, replaceEach_replaceAll_word marked apart, ih]
    · have skipped : ((mark :: body, c) :: table).find?
          (fun entry => entry.1.isPrefixOf (word ++ rest)) =
          table.find? (fun entry => entry.1.isPrefixOf (word ++ rest)) :=
        List.find?_cons_of_neg (mt List.isPrefixOf_iff_prefix.1 here)
      have later := skipped.symm.trans found
      obtain ⟨tail, rfl, once⟩ := (marked _ (List.mem_of_find?_eq_some later)).exists_cons
      have searched := (find?_replaceAll marked apart body mark (tail ++ rest)).trans later
      rw [replaceAll_append once, ← List.cons_append] at searched
      rw [replaceEach_word found]
      rw [List.cons_append] at here ⊢
      rw [replaceAll_cons here, replaceAll_append once, ← List.cons_append, replaceEach_word searched,
        ih]

/-! ### Cutting at a mark

A text is cut where a word begins, and the two parts are decoded apart. -/

/-- A word does not go on behind a place at which the mark stands. -/
theorem prefix_append_iff {word : List Char} (marked : IsMarked mark word)
    (starts : ∀ x ∈ rest.head?, x = mark) {x : Char} :
    word <+: x :: (front ++ rest) ↔ word <+: x :: front := by
  refine ⟨fun here => ?_, fun here => here.trans (List.prefix_append (x :: front) rest)⟩
  rcases List.prefix_or_prefix_of_prefix here (List.prefix_append (x :: front) rest) with
    short | ⟨more, rfl⟩
  · exact short
  · -- A longer word would have a second mark in it.
    have left : more <+: rest := (List.prefix_append_right_inj (x :: front)).1 here
    cases more with
    | nil => rw [List.append_nil]
    | cons y more =>
      obtain ⟨_, rfl⟩ := left
      obtain rfl := starts y rfl
      exact absurd (List.mem_append_right front (.head more)) marked.2

/-- The search for a word does not look beyond a mark. -/
theorem find?_append_marked (marked : ∀ entry ∈ table, IsMarked mark entry.1)
    (starts : ∀ x ∈ rest.head?, x = mark) (x : Char) (front : List Char) :
    table.find? (fun entry => entry.1.isPrefixOf (x :: (front ++ rest))) =
      table.find? (fun entry => entry.1.isPrefixOf (x :: front)) :=
  find?_isPrefixOf_congr fun entry mem => prefix_append_iff (marked entry mem) starts

/-- **Cutting at a mark.**  What stands before a mark is replaced by itself, and so is what begins
with it. -/
theorem replaceEach_append_marked (marked : ∀ entry ∈ table, IsMarked mark entry.1)
    (starts : ∀ x ∈ rest.head?, x = mark) (front : List Char) :
    replaceEach table (front ++ rest) = replaceEach table front ++ replaceEach table rest := by
  induction front using induction_on_words fun entry mem => (marked entry mem).ne_nil with
  | nil => rfl
  | char x front none ih =>
    have searched := (find?_append_marked marked starts x front).trans none
    rw [List.cons_append, replaceEach_of_find?_eq_none searched, replaceEach_of_find?_eq_none none, ih,
      List.cons_append]
  | word word d front found ih =>
    obtain ⟨body, rfl, -⟩ := (marked _ (List.mem_of_find?_eq_some found)).exists_cons
    have searched := (find?_append_marked marked starts mark (body ++ front)).trans found
    rw [List.append_assoc, ← List.cons_append] at searched
    rw [List.append_assoc, replaceEach_word searched, replaceEach_word found, ih, List.cons_append]

/-- **All words in one pass.**  The words of a code may be replaced one after the other. -/
theorem IsCode.foldl_replaceAll (code : IsCode mark table) (cs : List Char) :
    table.foldl (fun text entry => replaceAll entry.1 [entry.2] text) cs = replaceEach table cs := by
  induction table generalizing cs with
  | nil => exact (replaceEach_nil cs).symm
  | cons entry table ih =>
    obtain ⟨first, marked⟩ := List.forall_mem_cons.1 code.marked
    obtain ⟨apart, others⟩ := List.pairwise_cons.1 code.apart
    obtain ⟨word, c⟩ := entry
    obtain ⟨body, rfl, -⟩ := first.exists_cons
    rw [List.foldl_cons, ih ⟨marked, others⟩, replaceEach_replaceAll marked apart]

end Table

end Tabletop.Text
