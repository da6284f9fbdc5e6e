import Tabletop.Proofs.Text.Replace
import Tabletop.Text.Escapes

/-!
# Entities in one pass

Entities are decoded one kind after the other, each kind in the whole text that the kinds before it
have left.  Nevertheless it comes to one pass over the text as it was written
(`decodeEntities_inOnePass`): all entities begin with an ampersand and have none behind it, and the
ampersand, the only character of theirs that an entity stands for, is put in last of all.

* `Entity` and `decodeOnce` say what an entity is and what one pass does, without the table by which
  texts are decoded.
* Wherever an entity stands, it is decoded with no regard to what is around it
  (`decodeEntities_append_entity`).
* A text is got back from each of its escapings (`Escapes.decode`), also if it has entities itself.

The order of the table is what makes this true, and the ampersand is the reason: were it put in
first, it could begin an entity with the text behind it, and a text that shows an entity would be
decoded twice.  As it comes last, nothing is decoded after it.
-/

namespace Tabletop.Text

variable {n cs front rest word : List Char} {c : Char}

/-! ## Entities

The table, word by word, and as a list that the replacing of several words knows (`IsCode`). -/

/-- The entities and what they stand for. -/
inductive Entity : List Char → Char → Prop
  | gt : Entity ['&', 'g', 't', ';'] '>'
  | lt : Entity ['&', 'l', 't', ';'] '<'
  | quot : Entity ['&', 'q', 'u', 'o', 't', ';'] '"'
  | number : Entity ['&', '#', '3', '9', ';'] '\''
  | apos : Entity ['&', 'a', 'p', 'o', 's', ';'] '\''
  | amp : Entity ['&', 'a', 'm', 'p', ';'] '&'

/-- The entities as texts. -/
def entityTable : List (List Char × Char) :=
  entities.map fun (entity, c) => (entity.toList, c)

theorem entityTable_eq : entityTable =
    [(['&', 'g', 't', ';'], '>'), (['&', 'l', 't', ';'], '<'),
      (['&', 'q', 'u', 'o', 't', ';'], '"'), (['&', '#', '3', '9', ';'], '\''),
      (['&', 'a', 'p', 'o', 's', ';'], '\''), (['&', 'a', 'm', 'p', ';'], '&')] := by
  cbv

theorem Entity.mem_entityTable (entity : Entity word c) : (word, c) ∈ entityTable := by
  rw [entityTable_eq]
  cases entity <;> decide

theorem Entity.of_mem_entityTable (mem : (word, c) ∈ entityTable) : Entity word c := by
  rw [entityTable_eq] at mem
  simp only [List.mem_cons, List.not_mem_nil, or_false, Prod.mk.injEq] at mem
  rcases mem with ⟨rfl, rfl⟩ | ⟨rfl, rfl⟩ | ⟨rfl, rfl⟩ | ⟨rfl, rfl⟩ | ⟨rfl, rfl⟩ | ⟨rfl, rfl⟩ <;>
    constructor

/-- **The entities are a code**: all of them begin with the ampersand, and no character that is put
in before the last step stands in a later one. -/
theorem isCode_entityTable : IsCode '&' entityTable where
  marked := by decide +kernel
  apart := by decide +kernel

/-- Decoding the entities one kind after the other is replacing all of them in one pass. -/
theorem decodeEntities_eq_replaceEach (cs : List Char) :
    decodeEntities cs = replaceEach entityTable cs := by
  rw [← isCode_entityTable.foldl_replaceAll, entityTable, List.foldl_map]
  rfl

/-- Without an ampersand there is no entity. -/
theorem decodeEntities_append (absent : '&' ∉ front) :
    decodeEntities (front ++ rest) = front ++ decodeEntities rest := by
  rw [decodeEntities_eq_replaceEach, decodeEntities_eq_replaceEach]
  exact replaceEach_append isCode_entityTable.marked absent

/-- An entity at the front of a text is decoded. -/
theorem decodeEntities_entity (mem : (word, c) ∈ entityTable) :
    decodeEntities (word ++ rest) = c :: decodeEntities rest := by
  rw [decodeEntities_eq_replaceEach, decodeEntities_eq_replaceEach, entityTable_eq]
  cases Entity.of_mem_entityTable mem <;> exact replaceEach_word rfl

/-! ## One pass

The pass as a program of its own, with a pattern for each entity. -/

/-- One pass over a text from the left.  An entity gives the character it stands for, and the pass
goes on behind it; any other character is left as it is. -/
def decodeOnce : List Char → List Char
  | '&' :: 'g' :: 't' :: ';' :: cs => '>' :: decodeOnce cs
  | '&' :: 'l' :: 't' :: ';' :: cs => '<' :: decodeOnce cs
  | '&' :: 'q' :: 'u' :: 'o' :: 't' :: ';' :: cs => '"' :: decodeOnce cs
  | '&' :: '#' :: '3' :: '9' :: ';' :: cs => '\'' :: decodeOnce cs
  | '&' :: 'a' :: 'p' :: 'o' :: 's' :: ';' :: cs => '\'' :: decodeOnce cs
  | '&' :: 'a' :: 'm' :: 'p' :: ';' :: cs => '&' :: decodeOnce cs
  | c :: cs => c :: decodeOnce cs
  | [] => []

theorem decodeEntities_cons (absent : ∀ word d, Entity word d → ¬ word <+: c :: rest) :
    decodeEntities (c :: rest) = c :: decodeEntities rest := by
  rw [decodeEntities_eq_replaceEach, decodeEntities_eq_replaceEach]
  exact replaceEach_cons fun entry mem => absent entry.1 entry.2 (.of_mem_entityTable mem)

/-- **All kinds in one pass.** -/
theorem decodeEntities_eq_decodeOnce (cs : List Char) : decodeEntities cs = decodeOnce cs := by
  have decoded {word rest : List Char} {d : Char} (entity : Entity word d)
      (behind : decodeEntities rest = decodeOnce rest) :
      decodeEntities (word ++ rest) = d :: decodeOnce rest := by
    rw [decodeEntities_entity entity.mem_entityTable, behind]
  fun_induction decodeOnce cs with
  | case1 cs ih => exact decoded .gt ih
  | case2 cs ih => exact decoded .lt ih
  | case3 cs ih => exact decoded .quot ih
  | case4 cs ih => exact decoded .number ih
  | case5 cs ih => exact decoded .apos ih
  | case6 cs ih => exact decoded .amp ih
  | case7 c cs gt lt quot number apos amp ih =>
    -- The last pattern is tried where none of the others fits.
    have absent : ∀ word d, Entity word d → ¬ word <+: c :: cs := by
      rintro word d entity ⟨left, whole⟩
      cases entity with
      | gt => cases whole; exact gt left rfl rfl
      | lt => cases whole; exact lt left rfl rfl
      | quot => cases whole; exact quot left rfl rfl
      | number => cases whole; exact number left rfl rfl
      | apos => cases whole; exact apos left rfl rfl
      | amp => cases whole; exact amp left rfl rfl
    rw [decodeEntities_cons absent, ih]
  | case8 => rfl

/-! ## What stands around an entity

An entity ends with a semicolon, so it is found whatever follows.  What stands before it may end
with a part of an entity, but never with one that goes on in it. -/

theorem Entity.head (entity : Entity word c) (rest : List Char) :
    ∀ x ∈ (word ++ rest).head?, x = '&' := by
  intro x mem
  cases entity <;> exact (Option.some.inj mem).symm

/-- **An entity is decoded wherever it stands**, and neither what is before it nor what is behind it
has any part in this. -/
theorem decodeEntities_append_entity (entity : Entity word c) (front rest : List Char) :
    decodeEntities (front ++ (word ++ rest)) = decodeEntities front ++ c :: decodeEntities rest := by
  have cut : decodeEntities (front ++ (word ++ rest)) =
      decodeEntities front ++ decodeEntities (word ++ rest) := by
    rw [decodeEntities_eq_replaceEach, decodeEntities_eq_replaceEach, decodeEntities_eq_replaceEach]
    exact replaceEach_append_marked isCode_entityTable.marked (entity.head rest) front
  rw [cut, decodeEntities_entity entity.mem_entityTable]

/-- The second text is an escaping of the first: all of its ampersands are written as entities, and
any of the other characters that entities stand for. -/
inductive Escapes : List Char → List Char → Prop
  | nil : Escapes [] []
  | char {c : Char} {n cs : List Char} (other : c ≠ '&') (others : Escapes n cs) :
    Escapes (c :: n) (c :: cs)
  | entity {word n cs : List Char} {c : Char} (entity : Entity word c) (others : Escapes n cs) :
    Escapes (c :: n) (word ++ cs)

/-- **Every escaping is undone.** -/
theorem Escapes.decode (escapes : Escapes n cs) : decodeEntities cs = n := by
  induction escapes with
  | nil => rfl
  | @char c n cs other _ ih =>
    have absent : ∀ word d, Entity word d → ¬ word <+: c :: cs := by
      rintro word d entity ⟨left, whole⟩
      exact other (entity.head left c (by rw [whole]; rfl))
    rw [decodeEntities_cons absent, ih]
  | entity entity _ ih => rw [decodeEntities_entity entity.mem_entityTable, ih]

/-- **Decoding is one pass over the text as it was written.**  Nothing is decoded twice: wherever an
entity stands in the text, its character is put in its place, and what is on either side is decoded
by itself.  So a text is got back from each of its escapings. -/
theorem decodeEntities_inOnePass (cs : List Char) :
    decodeEntities cs = decodeOnce cs ∧
      (∀ front word c rest, Entity word c → cs = front ++ (word ++ rest) →
        decodeEntities cs = decodeEntities front ++ c :: decodeEntities rest) ∧
      ∀ n, Escapes n cs → decodeEntities cs = n := by
  refine ⟨decodeEntities_eq_decodeOnce cs, ?_, fun n escapes => escapes.decode⟩
  rintro front word c rest entity rfl
  exact decodeEntities_append_entity entity front rest

/-- An escaped entity, with the text of an entity behind its ampersand. -/
theorem decodeEntities_inOnePass_escaped :
    Entity "&amp;".toList '&' ∧
      "a&amp;gt;&#39;".toList = "a".toList ++ ("&amp;".toList ++ "gt;&#39;".toList) ∧
      Escapes "a&gt;'".toList "a&amp;gt;&#39;".toList ∧
      decodeEntities "a&amp;gt;&#39;".toList = decodeOnce "a&amp;gt;&#39;".toList ∧
      decodeEntities "a&amp;gt;&#39;".toList =
        decodeEntities "a".toList ++ '&' :: decodeEntities "gt;&#39;".toList ∧
      decodeEntities "a&amp;gt;&#39;".toList = "a&gt;'".toList := by
  have amp : "&amp;".toList = ['&', 'a', 'm', 'p', ';'] := by cbv
  have parts : "a&amp;gt;&#39;".toList = "a".toList ++ ("&amp;".toList ++ "gt;&#39;".toList) := by
    cbv
  have entity : Entity "&amp;".toList '&' := amp ▸ .amp
  have plain : "a&gt;'".toList = ['a', '&', 'g', 't', ';', '\''] := by cbv
  have written : "a&amp;gt;&#39;".toList = 'a' :: (['&', 'a', 'm', 'p', ';'] ++
      'g' :: 't' :: ';' :: (['&', '#', '3', '9', ';'] ++ [])) := by
    cbv
  have escapes : Escapes "a&gt;'".toList "a&amp;gt;&#39;".toList := by
    rw [plain, written]
    exact .char (by decide) (.entity .amp (.char (by decide) (.char (by decide) (.char (by decide)
      (.entity .number .nil)))))
  obtain ⟨once, alone, undone⟩ := decodeEntities_inOnePass "a&amp;gt;&#39;".toList
  exact ⟨entity, parts, escapes, once, alone _ _ _ _ entity parts, undone _ escapes⟩

end Tabletop.Text
