import Tabletop.Toml

/-!
# Items of a document

Whoever reads a document asks for names. Under a name stands a value, or all tables whose headers
begin with the name. Tables that nobody asks for still have to agree with each other: a table may
be given only once, unless it is one of several throughout.
-/

namespace Tabletop.Toml

/-- What stands under a name. -/
inductive Item where
  | value (v : Value)
  /-- The tables whose headers begin with the name, with their whole headers. -/
  | tables (blocks : List Block)

/-- The names of a document and what stands under them: first the pairs before the first header,
then the tables in the order of their first headers. -/
def items (document : List Block) : List (String × Item) :=
  let pairs := (document.filter (·.header.isEmpty)).flatMap (·.pairs)
  let names := (document.filterMap (·.header.head?)).eraseDups
  pairs.map (fun (name, v) => (name, .value v)) ++
    names.map fun name => (name, .tables (document.filter (·.header.head? = some name)))

/-- What is read under a name, and `default` if there is nothing under it. A name may be given only
once. -/
def field? (document : List Block) (name : String) (default : α) (read : Item → Option α) :
    Option α :=
  match (items document).filter (·.1 = name) with
  | [] => some default
  | [(_, item)] => read item
  | _ => none

namespace Item

/-- A number of 32 bits. -/
def word32? : Item → Option UInt32
  | value (.integer n) => if 0 ≤ n ∧ n ≤ 0xFFFFFFFF then some n.toUInt64.toUInt32 else none
  | _ => none

/-- A number of 64 bits. -/
def word64? : Item → Option UInt64
  | value (.integer n) => if 0 ≤ n then some n.toUInt64 else none
  | _ => none

/-- True or false. -/
def boolean? : Item → Option Bool
  | value (.boolean b) => some b
  | _ => none

/-- One of several words. It is given as a text, or as the only key of an empty table in braces, or,
in a document that has a single table (`alone`), as the last part of the header of that table if it
is empty. -/
def oneOf? (words : List (String × α)) (alone : Bool) : Item → Option α
  | value (.text s) => words.lookup s
  | value (.inline [(s, .inline [])]) => words.lookup s
  | tables [⟨_ :: next :: inner, _, []⟩] =>
    if alone then words.lookup ((next :: inner).getLastD next) else none
  | _ => none

/-- A table of texts. -/
def texts? : Item → Option (List (String × String))
  | value (.inline pairs) | value (.dotted pairs) | tables [⟨[_], false, pairs⟩] =>
    pairs.mapM fun (name, v) =>
      match v with
      | .text s => some (name, s)
      | _ => none
  | _ => none

end Item

/-- The header of a table, below a table around it. -/
structure Heading where
  below : List String
  element : Bool

namespace Heading

/-- The heading below a table with a name. -/
def within? (name : String) (h : Heading) : Option Heading :=
  match h.below with
  | [] => none
  | first :: below => if first = name then some { h with below } else none

/-- Whether the heading is for the table around it as one of several. -/
def begins (h : Heading) : Bool :=
  h.below.isEmpty && h.element

/-- The headings of each of several tables with one name. The first heading begins one of them,
which is now a table by itself. -/
def chunks (hs : List Heading) : List (List Heading) :=
  (hs.splitBy fun _ next => !next.begins).map fun chunk =>
    chunk.map fun h => if h.begins then { h with element := false } else h

/-- Whether the headings below a table agree, looking down at most `levels` levels. The table itself
may be given once, and not as one of several. -/
def agree : (levels : Nat) → List Heading → Bool
  | 0, hs => itself hs
  | levels + 1, hs =>
    itself hs &&
      (hs.filterMap (·.below.head?)).eraseDups.all fun name =>
        let inner := hs.filterMap (within? name)
        if inner.head?.any begins then (chunks inner).all (agree levels) else agree levels inner
where
  /-- Whether the table itself is given at most once, and not as one of several. -/
  itself (hs : List Heading) : Bool :=
    let own := hs.filter (·.below.isEmpty)
    own.length ≤ 1 && own.all (!·.element)

end Heading

/-- Whether the tables of a document agree with each other. -/
def agree (document : List Block) : Bool :=
  let headings := document.map fun b => (⟨b.header, b.element⟩ : Heading)
  let levels := headings.foldl (fun n h => max n h.below.length) 0
  Heading.agree levels headings

end Tabletop.Toml
