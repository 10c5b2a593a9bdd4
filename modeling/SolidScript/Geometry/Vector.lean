import SolidScript.Geometry.Scalar

namespace SolidScript

structure Vec2 (α : Type) where
  x : α
  y : α
deriving Repr, DecidableEq, Inhabited

structure Vec3 (α : Type) where
  x : α
  y : α
  z : α
deriving Repr, DecidableEq, Inhabited

structure Vec4 (α : Type) where
  x : α
  y : α
  z : α
  w : α
deriving Repr, DecidableEq, Inhabited

namespace Vec2

def map (f : α → α) (v : Vec2 α) : Vec2 α := ⟨f v.x, f v.y⟩

def map2 (f : α → α → α) (a b : Vec2 α) : Vec2 α := ⟨f a.x b.x, f a.y b.y⟩

variable [Scalar α]

def least (a b : Vec2 α) : Vec2 α := map2 Scalar.least a b

def greatest (a b : Vec2 α) : Vec2 α := map2 Scalar.greatest a b

-- The point in space above which nothing is added.
def flat (v : Vec2 α) : Vec3 α := ⟨v.x, v.y, Scalar.zero⟩

-- The point at the share `t` of the way from `a` to `b`.
def between (a b : Vec2 α) (t : α) : Vec2 α := map2 (fun a b => a + (b - a) * t) a b

-- Turns `v` by the angle that has the given cosine and sine.
def turned (v : Vec2 α) (cos sin : α) : Vec2 α := ⟨cos * v.x - sin * v.y, sin * v.x + cos * v.y⟩

end Vec2

namespace Vec3

def map (f : α → α) (v : Vec3 α) : Vec3 α := ⟨f v.x, f v.y, f v.z⟩

def map2 (f : α → α → α) (a b : Vec3 α) : Vec3 α := ⟨f a.x b.x, f a.y b.y, f a.z b.z⟩

def toList (v : Vec3 α) : List α := [v.x, v.y, v.z]

def splat (a : α) : Vec3 α := ⟨a, a, a⟩

variable [Scalar α]

def zero : Vec3 α := splat Scalar.zero

def add (a b : Vec3 α) : Vec3 α := map2 (· + ·) a b

def sub (a b : Vec3 α) : Vec3 α := map2 (· - ·) a b

def scale (s : α) (v : Vec3 α) : Vec3 α := v.map (s * ·)

def neg (v : Vec3 α) : Vec3 α := v.map (- ·)

def least (a b : Vec3 α) : Vec3 α := map2 Scalar.least a b

def greatest (a b : Vec3 α) : Vec3 α := map2 Scalar.greatest a b

end Vec3

namespace Vec4

def map (f : α → α) (v : Vec4 α) : Vec4 α := ⟨f v.x, f v.y, f v.z, f v.w⟩

def map2 (f : α → α → α) (a b : Vec4 α) : Vec4 α := ⟨f a.x b.x, f a.y b.y, f a.z b.z, f a.w b.w⟩

def toList (v : Vec4 α) : List α := [v.x, v.y, v.z, v.w]

variable [Scalar α]

def add (a b : Vec4 α) : Vec4 α := map2 (· + ·) a b

def sub (a b : Vec4 α) : Vec4 α := map2 (· - ·) a b

def mul (a b : Vec4 α) : Vec4 α := map2 (· * ·) a b

def scale (s : α) (v : Vec4 α) : Vec4 α := v.map (· * s)

end Vec4

end SolidScript
