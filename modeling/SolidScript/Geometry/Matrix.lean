import SolidScript.Geometry.Vector

namespace SolidScript

-- The four columns. In the names below `m12` stands in column 1 and row 2.
structure Mat4 (α : Type) where
  x : Vec4 α
  y : Vec4 α
  z : Vec4 α
  w : Vec4 α
deriving Repr, DecidableEq, Inhabited

namespace Mat4

-- A matrix from its four rows.
def ofRows (a b c d : Vec4 α) : Mat4 α :=
  ⟨⟨a.x, b.x, c.x, d.x⟩, ⟨a.y, b.y, c.y, d.y⟩, ⟨a.z, b.z, c.z, d.z⟩, ⟨a.w, b.w, c.w, d.w⟩⟩

def rows (m : Mat4 α) : List (Vec4 α) :=
  [⟨m.x.x, m.y.x, m.z.x, m.w.x⟩, ⟨m.x.y, m.y.y, m.z.y, m.w.y⟩, ⟨m.x.z, m.y.z, m.z.z, m.w.z⟩,
    ⟨m.x.w, m.y.w, m.z.w, m.w.w⟩]

def entries (m : Mat4 α) : List α := m.x.toList ++ m.y.toList ++ m.z.toList ++ m.w.toList

variable [Scalar α]

-- Where the matrix moves a point. The fourth row is taken for that of an affine map. Here and below the order of the
-- operations counts, because floats are rounded after each of them.
def movePoint (m : Mat4 α) (p : Vec3 α) : Vec3 α where
  x := m.w.x + (m.z.x * p.z + (m.y.x * p.y + m.x.x * p.x))
  y := m.w.y + (m.z.y * p.z + (m.y.y * p.y + m.x.y * p.x))
  z := m.w.z + (m.z.z * p.z + (m.y.z * p.y + m.x.z * p.x))

def determinant (m : Mat4 α) : α :=
  let ⟨m00, m01, m02, m03⟩ := m.x
  let ⟨m10, m11, m12, m13⟩ := m.y
  let ⟨m20, m21, m22, m23⟩ := m.z
  let ⟨m30, m31, m32, m33⟩ := m.w
  let a2323 := m22 * m33 - m23 * m32
  let a1323 := m21 * m33 - m23 * m31
  let a1223 := m21 * m32 - m22 * m31
  let a0323 := m20 * m33 - m23 * m30
  let a0223 := m20 * m32 - m22 * m30
  let a0123 := m20 * m31 - m21 * m30
  m00 * (m11 * a2323 - m12 * a1323 + m13 * a1223) - m01 * (m10 * a2323 - m12 * a0323 + m13 * a0223)
    + m02 * (m10 * a1323 - m11 * a0323 + m13 * a0123) - m03 * (m10 * a1223 - m11 * a0223 + m12 * a0123)

-- The inverse by cofactors. Its entries are finite numbers only if there is an inverse.
def inverse (m : Mat4 α) : Mat4 α :=
  let ⟨m00, m01, m02, m03⟩ := m.x
  let ⟨m10, m11, m12, m13⟩ := m.y
  let ⟨m20, m21, m22, m23⟩ := m.z
  let ⟨m30, m31, m32, m33⟩ := m.w
  let c00 := m22 * m33 - m32 * m23
  let c02 := m12 * m33 - m32 * m13
  let c03 := m12 * m23 - m22 * m13
  let c04 := m21 * m33 - m31 * m23
  let c06 := m11 * m33 - m31 * m13
  let c07 := m11 * m23 - m21 * m13
  let c08 := m21 * m32 - m31 * m22
  let c10 := m11 * m32 - m31 * m12
  let c11 := m11 * m22 - m21 * m12
  let c12 := m20 * m33 - m30 * m23
  let c14 := m10 * m33 - m30 * m13
  let c15 := m10 * m23 - m20 * m13
  let c16 := m20 * m32 - m30 * m22
  let c18 := m10 * m32 - m30 * m12
  let c19 := m10 * m22 - m20 * m12
  let c20 := m20 * m31 - m30 * m21
  let c22 := m10 * m31 - m30 * m11
  let c23 := m10 * m21 - m20 * m11
  let fac0 : Vec4 α := ⟨c00, c00, c02, c03⟩
  let fac1 : Vec4 α := ⟨c04, c04, c06, c07⟩
  let fac2 : Vec4 α := ⟨c08, c08, c10, c11⟩
  let fac3 : Vec4 α := ⟨c12, c12, c14, c15⟩
  let fac4 : Vec4 α := ⟨c16, c16, c18, c19⟩
  let fac5 : Vec4 α := ⟨c20, c20, c22, c23⟩
  let v0 : Vec4 α := ⟨m10, m00, m00, m00⟩
  let v1 : Vec4 α := ⟨m11, m01, m01, m01⟩
  let v2 : Vec4 α := ⟨m12, m02, m02, m02⟩
  let v3 : Vec4 α := ⟨m13, m03, m03, m03⟩
  let minusOne : α := -Scalar.one
  let even : Vec4 α := ⟨Scalar.one, minusOne, Scalar.one, minusOne⟩
  let odd : Vec4 α := ⟨minusOne, Scalar.one, minusOne, Scalar.one⟩
  let col0 := (((v1.mul fac0).sub (v2.mul fac1)).add (v3.mul fac2)).mul even
  let col1 := (((v0.mul fac0).sub (v2.mul fac3)).add (v3.mul fac4)).mul odd
  let col2 := (((v0.mul fac1).sub (v1.mul fac3)).add (v3.mul fac5)).mul even
  let col3 := (((v0.mul fac2).sub (v1.mul fac4)).add (v2.mul fac5)).mul odd
  let d := m00 * col0.x + m01 * col1.x + m02 * col2.x + m03 * col3.x
  let r := Scalar.one / d
  ⟨col0.scale r, col1.scale r, col2.scale r, col3.scale r⟩

def isFinite (m : Mat4 α) : Bool := m.entries.all Scalar.isFinite

-- The inverse, unless the matrix is singular or its inverse is out of range.
def inverse? (m : Mat4 α) : Option (Mat4 α) :=
  if Scalar.equal m.determinant Scalar.zero then none
  else if m.inverse.isFinite then some m.inverse
  else none

end Mat4

end SolidScript
