import SolidScript.Geometry.Box
import SolidScript.Geometry.Polygon

namespace SolidScript

-- A size that is given once for all axes, or for each of them.
inductive Extent2 (α : Type) where
  | uniform (side : α)
  | sides (v : Vec2 α)
deriving Repr, Inhabited

inductive Extent3 (α : Type) where
  | uniform (side : α)
  | sides (v : Vec3 α)
deriving Repr, Inhabited

def Extent2.toVec : Extent2 α → Vec2 α
  | uniform side => ⟨side, side⟩
  | sides v => v

def Extent3.toVec : Extent3 α → Vec3 α
  | uniform side => .splat side
  | sides v => v

-- The blocks that join their children without moving them.
inductive Combination where
  | union
  | difference
  | intersection
  | group
  | color
deriving Repr, DecidableEq, Inhabited

-- The twist of an extrusion in degrees, and the samples by which its box is estimated.
structure Twist (α : Type) where
  degrees : α
  samples : List (TwistSample α)
deriving Repr, Inhabited

-- An outline and the bands that fill it. The outline has a first point.
structure Fill (α : Type) where
  first : Vec2 α
  rest : List (Vec2 α)
  bands : List (Band α)
deriving Repr, Inhabited

structure Extrusion (α : Type) where
  height : α
  center : Bool
  twist : Option (Twist α)
  scale : Vec2 α
deriving Repr, Inhabited

namespace Fill

variable [Scalar α]

def corners (f : Fill α) : Vec2 α × Vec2 α := Polygon.corners f.first f.rest

def box (f : Fill α) : Box α := ⟨f.corners.1.flat, f.corners.2.flat⟩

end Fill

namespace Extrusion

variable [Scalar α]

-- The box of an extrusion whose children have the given box.
def box (e : Extrusion α) (slice : Box α) : Box α :=
  let footprint := match e.twist with
    | some twist => slice.twisted e.scale twist.samples
    | none => slice.widened e.scale
  footprint.drawn e.height e.center

end Extrusion

namespace Solid

def cylinderBox [Scalar α] (height bottom top : α) (center : Bool) : Box α :=
  let radius := Scalar.greatest bottom top
  let (z0, z1) := Box.heightRange height center
  ⟨⟨-radius, -radius, z0⟩, ⟨radius, radius, z1⟩⟩

end Solid

end SolidScript
