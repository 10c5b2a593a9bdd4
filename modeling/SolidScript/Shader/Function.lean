import SolidScript.Shader.Library
import SolidScript.Solid

namespace SolidScript

namespace Shader

-- The first part of the name of a function.
inductive Stem where
  | combination (c : Combination)
  | transform
  | extrude
  | revolve
  | polygon
deriving Repr, DecidableEq, Inhabited

def Stem.text : Stem → String
  | combination .union => "union"
  | combination .difference => "difference"
  | combination .intersection => "intersection"
  | combination .group => "groupBlock"
  | combination .color => "colorBlock"
  | transform => "multimatrixBlock"
  | extrude => "linearExtrudeBlock"
  | revolve => "rotateExtrudeBlock"
  | polygon => "simplePolygon"

structure Name where
  stem : Stem
  number : Nat
deriving Repr, DecidableEq, Inhabited

def Name.text (n : Name) : String := n.stem.text ++ toString n.number

-- What stands for a solid inside the function around it.
inductive Call (α : Type) where
  | cube (size : Extent3 α) (center : Bool)
  | sphere (radius : α)
  | cylinder (height bottom top : α) (center : Bool)
  | square (size : Extent2 α) (center : Bool)
  | circle (radius : α)
  | block (name : Name)
deriving Repr, Inhabited

inductive Body (α : Type) where
  | combine (combination : Combination) (calls : List (Call α))
  | transform (inverse : Mat4 α) (calls : List (Call α))
  | extrude (extrusion : Extrusion α) (calls : List (Call α))
  | revolve (degrees : α) (calls : List (Call α))
  | polygon (low high : Vec2 α) (bands : List (Band α))
deriving Repr, Inhabited

def Body.calls : Body α → List (Call α)
  | combine _ calls | transform _ calls | extrude _ calls | revolve _ calls => calls
  | polygon .. => []

structure Function (α : Type) where
  name : Name
  body : Body α
deriving Repr, Inhabited

-- The function that answers whether a point of space has material. A centred model is moved by `offset` first.
structure Main (α : Type) where
  offset : Option (Vec3 α)
  calls : List (Call α)
deriving Repr, Inhabited

end Shader

-- A shader that has geometry, with the box of the model.
structure Shader (α : Type) where
  library : List LibraryFunction
  functions : List (Shader.Function α)
  main : Shader.Main α
  box : Box α
deriving Repr, Inhabited

end SolidScript
