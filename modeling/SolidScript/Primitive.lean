namespace SolidScript

inductive Primitive where
  | circle
  | color
  | cube
  | cylinder
  | difference
  | group
  | hull
  | intersection
  | linearExtrude
  | minkowski
  | multmatrix
  | polygon
  | polyhedron
  | projection
  | rotateExtrude
  | sphere
  | square
  | text
  | union
deriving Repr, DecidableEq, Inhabited

namespace Primitive

-- Every primitive, in the order of the keywords.
def all : List Primitive :=
  [circle, color, cube, cylinder, difference, group, hull, intersection, linearExtrude, minkowski, multmatrix,
    polygon, polyhedron, projection, rotateExtrude, sphere, square, text, union]

-- The word that names the primitive in a program.
def keyword : Primitive → String
  | circle => "circle"
  | color => "color"
  | cube => "cube"
  | cylinder => "cylinder"
  | difference => "difference"
  | group => "group"
  | hull => "hull"
  | intersection => "intersection"
  | linearExtrude => "linear_extrude"
  | minkowski => "minkowski"
  | multmatrix => "multmatrix"
  | polygon => "polygon"
  | polyhedron => "polyhedron"
  | projection => "projection"
  | rotateExtrude => "rotate_extrude"
  | sphere => "sphere"
  | square => "square"
  | text => "text"
  | union => "union"

-- The name of the primitive as a kind of token and as a type of value.
def title (p : Primitive) : String := p.keyword.toUpper

def ofKeyword? (word : String) : Option Primitive :=
  all.find? fun p => p.keyword == word

-- Whether a block of children may follow the arguments.
def acceptsBody : Primitive → Bool
  | color | difference | group | hull | intersection | linearExtrude | minkowski | multmatrix | projection
  | rotateExtrude | union => true
  | circle | cube | cylinder | polygon | polyhedron | sphere | square | text => false

theorem mem_all (p : Primitive) : p ∈ all := by
  cases p <;> decide

-- Keywords are read back.
theorem ofKeyword?_keyword (p : Primitive) : ofKeyword? p.keyword = some p := by
  cases p <;> decide

-- Only the primitive's own keyword reads as that primitive.
theorem keyword_of_ofKeyword? {word : String} {p : Primitive} (h : ofKeyword? word = some p) :
    p.keyword = word := by
  simpa using List.find?_some h

end Primitive

end SolidScript
