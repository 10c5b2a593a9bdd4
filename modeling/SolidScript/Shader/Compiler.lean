import SolidScript.Shader.Function
import SolidScript.Solid.Reading

namespace SolidScript

-- What was made so far. Library functions are kept in the order of their names.
structure Compiler.Made where
  functions : List (Shader.Function Float)
  library : List LibraryFunction

-- A part of the way from a scene to a shader. The first thing that is wrong with the scene ends it.
abbrev Compiler := StateT Compiler.Made (Except CompileError)

namespace Compiler

open Shader

-- The call that stands for a value of the scene, and the box around its solid.
structure Placed where
  call : Call Float
  box : Box Float

-- The calls that stand for children with geometry, and the box around all of them.
structure Children where
  calls : List (Call Float)
  box : Box Float

def Children.add : Option Children → Placed → Children
  | none, child => ⟨[child.call], child.box⟩
  | some children, child => ⟨children.calls ++ [child.call], children.box.merge child.box⟩

def require (f : LibraryFunction) : Compiler Unit :=
  modify fun made => { made with library := LibraryFunction.insert f made.library }

-- Functions are numbered in the order in which they are made.
def nextName (stem : Stem) : Compiler Name := do
  return ⟨stem, (← get).functions.length⟩

def push (name : Name) (body : Body Float) : Compiler (Call Float) := do
  modify fun made => { made with functions := made.functions ++ [⟨name, body⟩] }
  return .block name

def cube (args : List Value) : Compiler Placed := do
  let (size, center) ← Solid.readCube args
  require .cube
  return ⟨.cube size center, .ofExtent size.toVec center⟩

def sphere (args : List Value) : Compiler Placed := do
  let radius ← Solid.readSphere args
  require .sphere
  return ⟨.sphere radius, .symmetric (.splat radius)⟩

def cylinder (args : List Value) : Compiler Placed := do
  let (height, bottom, top, center) ← Solid.readCylinder args
  require .cylinder
  return ⟨.cylinder height bottom top center, Solid.cylinderBox height bottom top center⟩

def square (args : List Value) : Compiler Placed := do
  let (size, center) ← Solid.readSquare args
  require .square
  return ⟨.square size center, .ofExtent size.toVec.flat center⟩

def circle (args : List Value) : Compiler Placed := do
  let radius ← Solid.readCircle args
  require .circle
  return ⟨.circle radius, .symmetric ⟨radius, radius, Scalar.zero⟩⟩

def polygon (args : List Value) : Compiler Placed := do
  let fill ← Solid.readPolygon args
  require .testTwoLineSegments
  let name ← nextName .polygon
  return ⟨← push name (.polygon fill.corners.1 fill.corners.2 fill.bands), fill.box⟩

def combine (combination : Combination) (children : Children) : Compiler Placed := do
  let name ← nextName (.combination combination)
  return ⟨← push name (.combine combination children.calls), children.box⟩

-- The function moves points back, and the box moves with the solid.
def transform (args : List Value) (children : Children) : Compiler Placed := do
  let (matrix, inverse) ← Solid.readMatrix args
  let name ← nextName .transform
  return ⟨← push name (.transform inverse children.calls), children.box.transform matrix⟩

def extrude (args : List Value) (children : Children) : Compiler Placed := do
  let extrusion ← Solid.readExtrusion args
  let name ← nextName .extrude
  if extrusion.twist.isSome then
    require .rotAxis
    require .rotZ
  return ⟨← push name (.extrude extrusion children.calls), extrusion.box children.box⟩

def revolve (args : List Value) (children : Children) : Compiler Placed := do
  let degrees ← Solid.readAngle args
  require .rotAxis
  require .rotZ
  let name ← nextName .revolve
  return ⟨← push name (.revolve degrees children.calls), children.box.revolved⟩

-- A block without geometry is dropped before its arguments are looked at.
def block (make : Children → Compiler Placed) : Option Children → Compiler (Option Placed)
  | none => return none
  | some children => some <$> make children

mutual

-- What stands for a value, or nothing if it has no geometry.
def value : Value → Compiler (Option Placed)
  | .primitive _ kind args body =>
    match kind with
    | .cube => some <$> cube args
    | .sphere => some <$> sphere args
    | .cylinder => some <$> cylinder args
    | .square => some <$> square args
    | .circle => some <$> circle args
    | .polygon => some <$> polygon args
    | .union => do block (combine .union) (← inside body)
    | .difference => do block (combine .difference) (← inside body)
    | .intersection => do block (combine .intersection) (← inside body)
    | .group => do block (combine .group) (← inside body)
    | .color => do block (combine .color) (← inside body)
    | .multmatrix => do block (transform args) (← inside body)
    | .linearExtrude => do block (extrude args) (← inside body)
    | .rotateExtrude => do block (revolve args) (← inside body)
    | .hull | .minkowski | .projection | .polyhedron | .text => throw (.unsupported kind)
  | v => throw (.notAPrimitive v.type)
termination_by structural v => v

-- Adds what stands for the values to what was found before them.
def values : List Value → Option Children → Compiler (Option Children)
  | [], found => return found
  | v :: rest, found => do
    match ← value v with
    | none => values rest found
    | some child => values rest (some (.add found child))
termination_by structural vs => vs

def inside : Option (List Value) → Compiler (Option Children)
  | none => return none
  | some children => values children none
termination_by structural b => b

end

end Compiler

-- The shader of a scene. A scene without geometry has none.
def compile (scene : List Value) (center : Bool) : Except CompileError (Option (Shader Float)) := do
  let (children, made) ← (Compiler.values scene none).run ⟨[], []⟩
  match children with
  | none => return none
  | some children =>
    return some {
      library := made.library
      functions := made.functions
      main := ⟨if center then some children.box.center else none, children.calls⟩
      box := if center then children.box.centred else children.box
    }

-- The shader of a source text that runs in the outermost scope of a machine.
def compileIn (m : Machine) (source : String) (center : Bool) :
    Except CompileError (Option (Shader Float)) × Machine :=
  match m.evaluate 0 source with
  | (.ok scene, m) => (compile scene center, m)
  | (.error error, m) => (.error (.eval error), m)

end SolidScript
