import SolidScript.Proofs.Geometry.Level
import SolidScript.Solid

namespace SolidScript

open Scalar

namespace Vec2

structure Same (a b : Vec2 Float) : Prop where
  x : Scalar.Same a.x b.x
  y : Scalar.Same a.y b.y

namespace Same

variable {a b a' b' : Vec2 Float}

theorem least (h : Same a b) (h' : Same a' b') : Same (a.least a') (b.least b') := ⟨h.x.least h'.x, h.y.least h'.y⟩

theorem greatest (h : Same a b) (h' : Same a' b') : Same (a.greatest a') (b.greatest b') :=
  ⟨h.x.greatest h'.x, h.y.greatest h'.y⟩

theorem turned (h : Same a b) (cos sin : Float) : Same (a.turned cos sin) (b.turned cos sin) where
  x := ((Scalar.Same.refl cos).mul h.x).sub ((Scalar.Same.refl sin).mul h.y)
  y := ((Scalar.Same.refl sin).mul h.x).add ((Scalar.Same.refl cos).mul h.y)

end Same

end Vec2

namespace Vec3

structure Same (a b : Vec3 Float) : Prop where
  x : Scalar.Same a.x b.x
  y : Scalar.Same a.y b.y
  z : Scalar.Same a.z b.z

theorem map2_comm {α : Type} (f : α → α → α) [Std.Commutative f] (a b : Vec3 α) : a.map2 f b = b.map2 f a := by
  have hf (x y : α) : f x y = f y x := Std.Commutative.comm x y
  simp only [map2, hf a.x, hf a.y, hf a.z]

theorem map2_assoc {α : Type} (f : α → α → α) [Std.Associative f] (a b c : Vec3 α) :
    (a.map2 f b).map2 f c = a.map2 f (b.map2 f c) := by
  simp only [map2, Std.Associative.assoc]

def levels (v : Vec3 Float) : Vec3 (Option Level) := ⟨level? v.x, level? v.y, level? v.z⟩

theorem same_iff {a b : Vec3 Float} : Same a b ↔ a.levels = b.levels := by
  simp only [levels, mk.injEq, ← Scalar.same_iff]
  exact ⟨fun h => ⟨h.x, h.y, h.z⟩, fun h => ⟨h.1, h.2.1, h.2.2⟩⟩

namespace Same

variable {a b a' b' : Vec3 Float}

theorem map2 {f : Float → Float → Float} (h : Same a b) (h' : Same a' b')
    (hf : ∀ {x y x' y' : Float}, Scalar.Same x y → Scalar.Same x' y' → Scalar.Same (f x x') (f y y')) :
    Same (a.map2 f a') (b.map2 f b') := ⟨hf h.x h'.x, hf h.y h'.y, hf h.z h'.z⟩

theorem add (h : Same a b) (h' : Same a' b') : Same (a.add a') (b.add b') := h.map2 h' .add

theorem sub (h : Same a b) (h' : Same a' b') : Same (a.sub a') (b.sub b') := h.map2 h' .sub

theorem least (h : Same a b) (h' : Same a' b') : Same (a.least a') (b.least b') := h.map2 h' .least

theorem greatest (h : Same a b) (h' : Same a' b') : Same (a.greatest a') (b.greatest b') := h.map2 h' .greatest

theorem scale (h : Same a b) (s : Float) : Same (a.scale s) (b.scale s) :=
  ⟨(Scalar.Same.refl s).mul h.x, (Scalar.Same.refl s).mul h.y, (Scalar.Same.refl s).mul h.z⟩

end Same

end Vec3

theorem Vec2.Same.flat {a b : Vec2 Float} (h : a.Same b) : a.flat.Same b.flat := ⟨h.x, h.y, .refl _⟩

namespace Mat4

theorem same_movePoint {p q : Vec3 Float} (m : Mat4 Float) (h : p.Same q) : (m.movePoint p).Same (m.movePoint q) := by
  have hrow (a b c d : Float) : Scalar.Same (a + (b * p.z + (c * p.y + d * p.x))) (a + (b * q.z + (c * q.y + d * q.x))) :=
    (Same.refl a).add (((Same.refl b).mul h.z).add (((Same.refl c).mul h.y).add ((Same.refl d).mul h.x)))
  exact ⟨hrow _ _ _ _, hrow _ _ _ _, hrow _ _ _ _⟩

end Mat4

namespace Box

structure Same (a b : Box Float) : Prop where
  low : a.low.Same b.low
  high : a.high.Same b.high

-- All coordinates, first those of the low corner.
def coordinates (b : Box Float) : List Float := b.low.toList ++ b.high.toList

-- Boxes are equal if their coordinates are, as numbers.
def equal (a b : Box Float) : Bool := a.coordinates == b.coordinates

def levels (b : Box Float) : Box (Option Level) := ⟨b.low.levels, b.high.levels⟩

-- The box around two boxes, by the places of their coordinates. It has no side where both of them have none.
def joined (a b : Box (Option Level)) : Box (Option Level) :=
  ⟨a.low.map2 (Option.merge min) b.low, a.high.map2 (Option.merge max) b.high⟩

theorem same_iff {a b : Box Float} : Same a b ↔ a.levels = b.levels := by
  simp only [levels, mk.injEq, ← Vec3.same_iff]
  exact ⟨fun h => ⟨h.low, h.high⟩, fun h => ⟨h.1, h.2⟩⟩

theorem levels_merge (a b : Box Float) : (a.merge b).levels = a.levels.joined b.levels := by
  simp only [levels, Vec3.levels, merge, Vec3.least, Vec3.greatest, Vec3.map2, joined]
  simp only [Scalar.least, Scalar.greatest, level?_least, level?_greatest]

instance : Std.Commutative joined where
  comm a b := by rw [joined, joined, Vec3.map2_comm, Vec3.map2_comm _ a.high]

instance : Std.Associative joined where
  assoc a b c := by simp only [joined, Vec3.map2_assoc]

namespace Same

variable {a b : Box Float}

-- Where no number is missing, the same boxes are equal.
theorem equal_of_ordinary (h : Same a b) (hn : ∀ x ∈ a.coordinates, x.isNaN = false) : a.equal b := by
  have hbeq {x y : Float} (hxy : Scalar.Same x y) (hx : x.isNaN = false) : (x == y) = true :=
    hxy.resolve_right fun hnan => by
      rw [hx] at hnan
      cases hnan.1
  simp only [coordinates, Vec3.toList, List.cons_append, List.nil_append, List.forall_mem_cons] at hn
  obtain ⟨h1, h2, h3, h4, h5, h6, -⟩ := hn
  simp [equal, coordinates, Vec3.toList, hbeq h.low.x h1, hbeq h.low.y h2, hbeq h.low.z h3, hbeq h.high.x h4,
    hbeq h.high.y h5, hbeq h.high.z h6]

theorem merge {a' b' : Box Float} (h : Same a b) (h' : Same a' b') : Same (a.merge a') (b.merge b') :=
  ⟨h.low.least h'.low, h.high.greatest h'.high⟩

theorem center (h : Same a b) : a.center.Same b.center := (h.low.add h.high).scale _

theorem size (h : Same a b) : a.size.Same b.size := h.high.sub h.low

theorem transform (h : Same a b) (m : Mat4 Float) : Same (a.transform m) (b.transform m) where
  low := (m.same_movePoint h.low).least (m.same_movePoint h.high)
  high := (m.same_movePoint h.low).greatest (m.same_movePoint h.high)

theorem widened (h : Same a b) (scale : Vec2 Float) : Same (a.widened scale) (b.widened scale) := by
  have hc := h.center
  have hs := h.size.scale Scalar.half
  have hside (s : Float) {c c' d d' l l' u u' : Float} (hc : Scalar.Same c c') (hd : Scalar.Same d d')
      (hl : Scalar.Same l l') (hu : Scalar.Same u u') :
      Scalar.Same (if Scalar.less Scalar.one s then (c - s * d, c + s * d) else (l, u)).1
          (if Scalar.less Scalar.one s then (c' - s * d', c' + s * d') else (l', u')).1 ∧
        Scalar.Same (if Scalar.less Scalar.one s then (c - s * d, c + s * d) else (l, u)).2
          (if Scalar.less Scalar.one s then (c' - s * d', c' + s * d') else (l', u')).2 := by
    split
    · exact ⟨hc.sub ((Scalar.Same.refl s).mul hd), hc.add ((Scalar.Same.refl s).mul hd)⟩
    · exact ⟨hl, hu⟩
  have hx := hside scale.x hc.x hs.x h.low.x h.high.x
  have hy := hside scale.y hc.y hs.y h.low.y h.high.y
  exact ⟨⟨hx.1, hy.1, h.low.z⟩, ⟨hx.2, hy.2, h.high.z⟩⟩

theorem twistSlice (h : Same a b) (scale : Vec2 Float) (sample : TwistSample Float) :
    Same (a.twistSlice scale sample) (b.twistSlice scale sample) := by
  have hc := h.center
  have hs := h.size.scale Scalar.half
  unfold Box.twistSlice
  dsimp only
  generalize Vec2.between ⟨Scalar.one, Scalar.one⟩ scale sample.place = s
  have hx := (Scalar.Same.refl s.x).mul hs.x
  have hy := (Scalar.Same.refl s.y).mul hs.y
  have hp : Vec2.Same ⟨_, _⟩ ⟨_, _⟩ := ⟨hc.x.sub hx, hc.y.sub hy⟩
  have hq : Vec2.Same ⟨_, _⟩ ⟨_, _⟩ := ⟨hc.x.add hx, hc.y.add hy⟩
  have hp := hp.turned sample.cos sample.sin
  have hq := hq.turned sample.cos sample.sin
  exact ⟨(hp.least hq).flat, (hp.greatest hq).flat⟩

theorem twisted (h : Same a b) (scale : Vec2 Float) (samples : List (TwistSample Float)) :
    Same (a.twisted scale samples) (b.twisted scale samples) := by
  -- the boxes that are found so far are the same after each sample
  have hfold {found found' : Box Float} (hf : Same found found') :
      Same (samples.foldl (fun found sample => found.merge (a.twistSlice scale sample)) found)
        (samples.foldl (fun found sample => found.merge (b.twistSlice scale sample)) found') := by
    induction samples generalizing found found' with
    | nil => exact hf
    | cons sample samples ih => exact ih (hf.merge (h.twistSlice scale sample))
  exact hfold h

theorem drawn (h : Same a b) (height : Float) (center : Bool) : Same (a.drawn height center) (b.drawn height center) where
  low := ⟨h.low.x, h.low.y, .refl _⟩
  high := ⟨h.high.x, h.high.y, .refl _⟩

theorem revolved (h : Same a b) : Same a.revolved b.revolved := by
  have hr := h.low.x.abs.greatest h.high.x.abs
  exact ⟨⟨hr.neg, hr.neg, h.low.y⟩, ⟨hr, hr, h.high.y⟩⟩

-- Half is added to the sides of a centred box, so nothing is left of the sign of zero.
theorem centred_eq (h : Same a b) : a.centred = b.centred := by
  have hhalf : level? Scalar.half ≠ some (.make 0 0 0) := by decide +kernel
  have hs := h.size
  have hx : a.size.x + Scalar.half = b.size.x + Scalar.half := hs.x.add_eq hhalf
  have hy : a.size.y + Scalar.half = b.size.y + Scalar.half := hs.y.add_eq hhalf
  have hz : a.size.z + Scalar.half = b.size.z + Scalar.half := hs.z.add_eq hhalf
  simp only [Box.centred, Vec3.map, hx, hy, hz]

end Same

end Box

theorem Extrusion.same_box {a b : Box Float} (e : Extrusion Float) (h : a.Same b) : (e.box a).Same (e.box b) := by
  unfold Extrusion.box
  cases e.twist with
  | none => exact (h.widened _).drawn _ _
  | some twist => exact (h.twisted _ _).drawn _ _

end SolidScript
