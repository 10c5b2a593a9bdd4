import Mathlib.LinearAlgebra.Matrix.Determinant.Basic
import Mathlib.LinearAlgebra.Matrix.NonsingularInverse
import Mathlib.LinearAlgebra.Matrix.Notation
import Mathlib.Tactic.FinCases
import Mathlib.Tactic.LinearCombination
import Mathlib.Tactic.Ring
import SolidScript.Proofs.Geometry.Space

namespace SolidScript

open Matrix

open scoped Exact

namespace Vec4

def entry (v : Vec4 ℚ) : Fin 4 → ℚ := ![v.x, v.y, v.z, v.w]

end Vec4

namespace Mat4

def column (m : Mat4 ℚ) : Fin 4 → Vec4 ℚ := ![m.x, m.y, m.z, m.w]

-- A matrix times a column.
def apply (m : Mat4 ℚ) (v : Vec4 ℚ) : Vec4 ℚ where
  x := m.x.x * v.x + m.y.x * v.y + m.z.x * v.z + m.w.x * v.w
  y := m.x.y * v.x + m.y.y * v.y + m.z.y * v.z + m.w.y * v.w
  z := m.x.z * v.x + m.y.z * v.y + m.z.z * v.z + m.w.z * v.w
  w := m.x.w * v.x + m.y.w * v.y + m.z.w * v.z + m.w.w * v.w

end Mat4

namespace Vec3

-- A point as a column of four numbers, and back again.
def lifted (p : Vec3 ℚ) : Fin 4 → ℚ := ![p.x, p.y, p.z, 1]

def dropped (v : Fin 4 → ℚ) : Vec3 ℚ := ⟨v 0, v 1, v 2⟩

end Vec3

open Vec3

section Affine

variable {a b : Matrix (Fin 4) (Fin 4) ℚ} (ha : a 3 = ![0, 0, 0, 1])

include ha

end Affine

end SolidScript
