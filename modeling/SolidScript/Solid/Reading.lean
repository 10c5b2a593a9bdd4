import SolidScript.Solid.Arguments

namespace SolidScript

namespace Solid

-- The size, radius or height that is taken where none is given.
def defaultSize : Float := 1.0

-- The degrees of a full revolution.
def defaultAngle : Float := 360.0

-- The number of steps between the samples of a twist.
def twistSteps : Nat := 33

def twistSample (degrees : Float) (step : Nat) : TwistSample Float :=
  let place := Float.ofNat step / Float.ofNat twistSteps
  let angle := -(degrees * (3.141592653589793 / 180.0)) * place
  ⟨place, angle.cos, angle.sin⟩

def twist (degrees : Float) : Twist Float :=
  ⟨degrees, (List.range (twistSteps + 1)).map (twistSample degrees)⟩

-- The radius that is given as a diameter.
def halfOf? (a : Arguments) (name : String) : Except CompileError (Option Float) := do
  return (← a.number? name).map (0.5 * ·)

-- The radius comes before the diameter.
def radius (a : Arguments) : Except CompileError Float := do
  match ← a.number? "r" with
  | some r => return r
  | none => return (← halfOf? a "d").getD defaultSize

-- The size of a cube, and whether its middle is at the origin.
def readCube (args : List Value) : Except CompileError (Extent3 Float × Bool) := do
  let a : Arguments := ⟨.cube, ["size", "center"], args⟩
  let size := (← a.extent3? "size").getD (.uniform defaultSize)
  return (size, ← a.flag "center")

def readSphere (args : List Value) : Except CompileError Float := radius ⟨.sphere, ["r", "d"], args⟩

-- The height of a cylinder, the radii of its lower and its upper end, and whether its middle is at the origin. An end
-- has its own radius or diameter, and if neither end has one, a common radius or diameter. All of them have to be
-- numbers, also those that are not needed.
def readCylinder (args : List Value) : Except CompileError (Float × Float × Float × Bool) := do
  let a : Arguments := ⟨.cylinder, ["h", "r1", "r2", "center", "r", "d", "d1", "d2"], args⟩
  let height := (← a.number? "h").getD defaultSize
  let center ← a.flag "center"
  let r1 ← a.number? "r1"
  let r2 ← a.number? "r2"
  let top ← if r2.isSome then pure r2 else halfOf? a "d2"
  let bottom ← if r1.isSome then pure r1 else halfOf? a "d1"
  let r ← a.number? "r"
  let d ← halfOf? a "d"
  let common := if bottom.isNone && top.isNone then r.or d else none
  return (height, (bottom.or common).getD defaultSize, (top.or common).getD defaultSize, center)

def readSquare (args : List Value) : Except CompileError (Extent2 Float × Bool) := do
  let a : Arguments := ⟨.square, ["size", "center"], args⟩
  let size := (← a.extent2? "size").getD (.uniform defaultSize)
  return (size, ← a.flag "center")

def readCircle (args : List Value) : Except CompileError Float := radius ⟨.circle, ["r", "d"], args⟩

def readPolygon (args : List Value) : Except CompileError (Fill Float) := do
  let a : Arguments := ⟨.polygon, ["points", "paths"], args⟩
  if (a.get? "paths").isSome then throw .polygonPaths
  match ← a.points "points" with
  | first :: second :: third :: rest =>
    let points := first :: second :: third :: rest
    match Polygon.bands? points with
    | some bands => return ⟨first, second :: third :: rest, bands⟩
    | none => throw .concavePolygon
  | points => throw (.tooFewPoints points.length)

-- A matrix and its inverse.
def readMatrix (args : List Value) : Except CompileError (Mat4 Float × Mat4 Float) := do
  let a : Arguments := ⟨.multmatrix, ["m"], args⟩
  let matrix ← a.matrix "m"
  match matrix.inverse? with
  | some inverse => return (matrix, inverse)
  | none => throw (.singularMatrix matrix.determinant)

def readExtrusion (args : List Value) : Except CompileError (Extrusion Float) := do
  let a : Arguments := ⟨.linearExtrude, ["height", "center", "twist", "scale"], args⟩
  let height := (← a.number? "height").getD defaultSize
  let center ← a.flag "center"
  let degrees ← a.number? "twist"
  let scale := (← a.extent2? "scale").getD (.uniform 1.0)
  return ⟨height, center, degrees.map twist, scale.toVec⟩

def readAngle (args : List Value) : Except CompileError Float := do
  let a : Arguments := ⟨.rotateExtrude, ["angle"], args⟩
  return (← a.number? "angle").getD defaultAngle

end Solid

end SolidScript
