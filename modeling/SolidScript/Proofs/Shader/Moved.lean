import SolidScript.Proofs.Geometry.Exact
import SolidScript.Proofs.Geometry.Inverse
import SolidScript.Proofs.Shader.Code
import SolidScript.Proofs.Solid.Tree

namespace SolidScript

open Matrix

open scoped Exact

namespace Value

end Value

namespace Arguments

-- Four numbers, where `number?` says which numbers values stand for.
def rowOf? (number? : Value → Option α) : Value → Option (Vec4 α)
  | .array _ [x, y, z, w] => do return ⟨← number? x, ← number? y, ← number? z, ← number? w⟩
  | _ => none

-- A matrix that is written as an array of its rows.
def matrixOf? (number? : Value → Option α) : Value → Option (Mat4 α)
  | .array _ [x, y, z, w] => do
    return .ofRows (← rowOf? number? x) (← rowOf? number? y) (← rowOf? number? z) (← rowOf? number? w)
  | _ => none

end Arguments

namespace Solid

def matrixArguments (args : List Value) : Arguments := ⟨.multmatrix, ["m"], args⟩

-- How a matrix and its inverse are read, for all ways to take the numbers. The matrix is refused for what is wrong
-- with the argument, or for its determinant if there is no inverse.
def readMatrixOf [Scalar α] (number? : Value → Option α) (args : List Value) :
    Except (ArgumentError ⊕ α) (Mat4 α × Mat4 α) :=
  match (matrixArguments args).get? "m" with
  | none => .error (.inl .noMatrix)
  | some value =>
    match Arguments.matrixOf? number? value with
    | none => .error (.inl .matrixShape)
    | some matrix =>
      match matrix.inverse? with
      | none => .error (.inr matrix.determinant)
      | some inverse => .ok (matrix, inverse)

-- The block around children that a matrix moves.
def moved [Scalar α] (number? : Value → Option α) (args : List Value) (first : Solid α) (rest : List (Solid α)) :
    Except (ArgumentError ⊕ α) (Solid α) := do
  let (matrix, inverse) ← readMatrixOf number? args
  return .transform matrix inverse first rest

end Solid

namespace Shader

-- The matrix that `mat4` makes of four vectors, which are its columns.
def mat4 (columns : List (Vec4 ℚ)) : Matrix (Fin 4) (Fin 4) ℚ :=
  .of fun i j => (columns.getD j ⟨0, 0, 0, 0⟩).entry i

-- The point at which the function of a moved block calls its children, which is `(vec4(xyz, 1.0) * xfm).xyz` with the
-- rows of the inverse as the columns of `xfm`.
def lookup (inverse : Mat4 ℚ) (p : Vec3 ℚ) : Vec3 ℚ := .dropped (p.lifted ᵥ* mat4 inverse.rows)

end Shader

namespace Solid

open Shader

end Solid

end SolidScript
