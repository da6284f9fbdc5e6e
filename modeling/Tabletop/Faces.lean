/-!
# Faces

A die has at least one face.
-/

namespace Tabletop

/-- The number of faces of a die. -/
structure Faces where
  count : UInt32
  ne_zero : count ≠ 0
  deriving DecidableEq

namespace Faces

/-- A number of faces, unless it is zero. -/
def ofWord? (n : UInt32) : Option Faces :=
  if h : n ≠ 0 then some ⟨n, h⟩ else none

/-- One face. -/
def one : Faces where
  count := 1
  ne_zero := by decide

instance : Inhabited Faces := ⟨one⟩

/-- The highest face. -/
def highest (f : Faces) : Int64 :=
  Int64.ofNat f.count.toNat

/-- The number of faces in decimal. -/
def text (f : Faces) : String :=
  toString f.count.toNat

end Faces

end Tabletop
