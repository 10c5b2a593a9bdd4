import SolidScript.Geometry.Matrix

namespace SolidScript

structure Box (α : Type) where
  low : Vec3 α
  high : Vec3 α
deriving Repr, DecidableEq, Inhabited

-- A place along a twisted extrusion, from 0 to 1, with the cosine and the sine of the twist there.
structure TwistSample (α : Type) where
  place : α
  cos : α
  sin : α
deriving Repr, Inhabited

namespace Box

variable [Scalar α]

-- The box that reaches `half` to both sides of the origin.
def symmetric (half : Vec3 α) : Box α := ⟨half.neg, half⟩

-- A box with one corner at the origin, or with its middle there.
def ofExtent (extent : Vec3 α) (center : Bool) : Box α :=
  if center then symmetric (extent.scale Scalar.half) else ⟨.zero, extent⟩

-- The smallest box around two boxes.
def merge (a b : Box α) : Box α := ⟨a.low.least b.low, a.high.greatest b.high⟩

def center (b : Box α) : Vec3 α := (b.low.add b.high).scale Scalar.half

def size (b : Box α) : Vec3 α := b.high.sub b.low

-- Moves two corners and orders them on each axis.
def transform (b : Box α) (m : Mat4 α) : Box α :=
  let p := m.movePoint b.low
  let q := m.movePoint b.high
  ⟨p.least q, p.greatest q⟩

-- The box that is reported for a centred model. Its sides are whole numbers.
def centred (b : Box α) : Box α :=
  symmetric (b.size.map fun side => Scalar.round (side + Scalar.half) * Scalar.half)

-- The z range of a solid with the given height.
def heightRange (height : α) (center : Bool) : α × α :=
  if center then (-Scalar.half * height, Scalar.half * height) else (Scalar.zero, height)

-- A scale above 1 widens the box about its middle.
def widened (b : Box α) (scale : Vec2 α) : Box α :=
  let c := b.center
  let h := b.size.scale Scalar.half
  let (x0, x1) :=
    if Scalar.less Scalar.one scale.x then (c.x - scale.x * h.x, c.x + scale.x * h.x) else (b.low.x, b.high.x)
  let (y0, y1) :=
    if Scalar.less Scalar.one scale.y then (c.y - scale.y * h.y, c.y + scale.y * h.y) else (b.low.y, b.high.y)
  ⟨⟨x0, y0, b.low.z⟩, ⟨x1, y1, b.high.z⟩⟩

-- Two scaled and turned corners of the box, at one place along a twisted extrusion.
def twistSlice (b : Box α) (scale : Vec2 α) (sample : TwistSample α) : Box α :=
  let c := b.center
  let h := b.size.scale Scalar.half
  let s := Vec2.between ⟨Scalar.one, Scalar.one⟩ scale sample.place
  let p := Vec2.turned ⟨c.x - s.x * h.x, c.y - s.y * h.y⟩ sample.cos sample.sin
  let q := Vec2.turned ⟨c.x + s.x * h.x, c.y + s.y * h.y⟩ sample.cos sample.sin
  ⟨(p.least q).flat, (p.greatest q).flat⟩

def twisted (b : Box α) (scale : Vec2 α) (samples : List (TwistSample α)) : Box α :=
  samples.foldl (fun found sample => found.merge (b.twistSlice scale sample)) b

-- The box of a footprint that is drawn upward.
def drawn (footprint : Box α) (height : α) (center : Bool) : Box α :=
  let (z0, z1) := heightRange height center
  ⟨⟨footprint.low.x, footprint.low.y, z0⟩, ⟨footprint.high.x, footprint.high.y, z1⟩⟩

-- The box of a solid of revolution. The x axis of the slice becomes the radius, and its y axis the height.
def revolved (slice : Box α) : Box α :=
  let radius := Scalar.greatest (Scalar.magnitude slice.low.x) (Scalar.magnitude slice.high.x)
  ⟨⟨-radius, -radius, slice.low.y⟩, ⟨radius, radius, slice.high.y⟩⟩

end Box

end SolidScript
