import SolidScript.Eval.Program

namespace SolidScript

-- What is wrong with the arguments of a primitive.
inductive ArgumentError where
  | notANumber (name : String) (found : ValueType)
  | notABoolean (name : String) (found : ValueType)
  | notAVector (name : String) (found : ValueType)
  | wrongLength (name : String) (want got : Nat)
  | elementNotANumber (name : String) (found : ValueType)
  | noMatrix
  | matrixShape
  | noPoints
  | pointsNotAnArray (found : ValueType)
  | coordinateNotANumber
  | notAPoint (found : Value)

def ArgumentError.message : ArgumentError → String
  | notANumber name found => "`" ++ name ++ "` must be a number, got " ++ found.title
  | notABoolean name found => "`" ++ name ++ "` must be a boolean, got " ++ found.title
  | notAVector name found => "`" ++ name ++ "` must be a number or vector, got " ++ found.title
  | wrongLength name want got => "`" ++ name ++ "` must have " ++ toString want ++ " elements, got " ++ toString got
  | elementNotANumber name found => "`" ++ name ++ "` elements must be numbers, got " ++ found.title
  | noMatrix => "missing matrix argument"
  | matrixShape => "matrix must be 4 rows of 4 numbers"
  | noPoints => "missing points argument"
  | pointsNotAnArray found => "points must be an array, got " ++ found.title
  | coordinateNotANumber => "point coordinates must be numbers"
  | notAPoint found => "expected [x, y] point, got " ++ found.inspect

inductive CompileError where
  | eval (error : EvalError)
  | singularMatrix (determinant : Float)
  | concavePolygon
  | tooFewPoints (count : Nat)
  | argument (kind : Primitive) (error : ArgumentError)
  | unsupported (kind : Primitive)
  | polygonPaths
  | notAPrimitive (found : ValueType)

def CompileError.message : CompileError → String
  | eval error => error.message
  | singularMatrix determinant => "multmatrix: singular matrix (determinant " ++ Number.plain determinant ++ ")"
  | concavePolygon => "polygon: concave polygons are not supported"
  | tooFewPoints count => "polygon: expected at least 3 points, got " ++ toString count
  | argument kind error => kind.keyword ++ ": " ++ error.message
  | unsupported kind => "unsupported: " ++ kind.keyword
  | polygonPaths => "unsupported: polygon paths"
  | notAPrimitive found => "expected a CSG primitive, got " ++ found.title

end SolidScript
