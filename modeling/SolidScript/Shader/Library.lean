namespace SolidScript

inductive LibraryFunction where
  | circle
  | cube
  | cylinder
  | rotAxis
  | rotZ
  | sphere
  | square
  | testTwoLineSegments
deriving Repr, DecidableEq, Inhabited

namespace LibraryFunction

-- Every library function, in the order of the names.
def all : List LibraryFunction :=
  [circle, cube, cylinder, rotAxis, rotZ, sphere, square, testTwoLineSegments]

def name : LibraryFunction → String
  | circle => "circle"
  | cube => "cube"
  | cylinder => "cylinder"
  | rotAxis => "rotAxis"
  | rotZ => "rotZ"
  | sphere => "sphere"
  | square => "square"
  | testTwoLineSegments => "testTwoLineSegments"

-- The library functions that the source of a library function calls.
def calls : LibraryFunction → List LibraryFunction
  | rotZ => [rotAxis]
  | _ => []

-- The source, which ends with a line feed.
def source : LibraryFunction → String
  | circle =>
    "float circle(in float radius, in vec3 xyz) \x7b\n"
      ++ "\tfloat r = length(xyz.xy);\n"
      ++ "\treturn r <= radius ? 1.0 : 0.0;\n"
      ++ "\x7d\n"
  | cube =>
    "float cube(in vec3 size, in bool center, in vec3 xyz) \x7b\n"
      ++ "\txyz /= size;\n"
      ++ "\tif (!center) \x7b xyz -= vec3(0.5); \x7d\n"
      ++ "\tif (any(greaterThan(abs(xyz), vec3(0.5)))) \x7b return 0.0; \x7d\n"
      ++ "\treturn 1.0;\n"
      ++ "\x7d\n"
  | cylinder =>
    "float cylinder(in float h, in float r1, in float r2, in bool center, in vec3 xyz) \x7b\n"
      ++ "\txyz.z /= h;\n"
      ++ "\tfloat z = xyz.z;\n"
      ++ "\tif (center) \x7b z += 0.5; \x7d else \x7b xyz.z -= 0.5; \x7d\n"
      ++ "\tif (abs(xyz.z) > 0.5) \x7b return 0.0; \x7d\n"
      ++ "\tfloat r = length(xyz.xy);\n"
      ++ "\tfloat radius = mix(r1, r2, z);\n"
      ++ "\treturn r <= radius ? 1.0 : 0.0;\n"
      ++ "\x7d\n"
  | rotAxis =>
    "mat3 rotAxis(vec3 axis, float a) \x7b\n"
      ++ "  float s = sin(a);\n"
      ++ "  float c = cos(a);\n"
      ++ "  float oc = 1.0 - c;\n"
      ++ "  vec3 as = axis * s;\n"
      ++ "  mat3 p = mat3(axis.x * axis, axis.y * axis, axis.z * axis);\n"
      ++ "  mat3 q = mat3(c, - as.z, as.y, as.z, c, - as.x, - as.y, as.x, c);\n"
      ++ "  return p * oc + q;\n"
      ++ "\x7d\n"
  | rotZ =>
    "mat4 rotZ(float angle) \x7b\n"
      ++ "  return mat4(rotAxis(vec3(0, 0, 1), angle));\n"
      ++ "\x7d\n"
  | sphere =>
    "float sphere(in float radius, in vec3 xyz) \x7b\n"
      ++ "\tfloat r = length(xyz);\n"
      ++ "\treturn r <= radius ? 1.0 : 0.0;\n"
      ++ "\x7d\n"
  | square =>
    "float square(in vec2 size, in bool center, in vec3 xyz) \x7b\n"
      ++ "\txyz.xy /= size;\n"
      ++ "\tif (!center) \x7b xyz.xy -= vec2(0.5); \x7d\n"
      ++ "\tif (any(greaterThan(abs(xyz.xy), vec2(0.5)))) \x7b return 0.0; \x7d\n"
      ++ "\treturn 1.0;\n"
      ++ "\x7d\n"
  | testTwoLineSegments =>
    "float testTwoLineSegments(in vec2 l0, in vec2 l1, in vec2 r0, in vec2 r1, in vec2 xy) \x7b\n"
      ++ "\tfloat lx = mix(l0.x, l1.x, (xy.y - l0.y) / (l1.y - l0.y));\n"
      ++ "\tfloat rx = mix(r0.x, r1.x, (xy.y - r0.y) / (r1.y - r0.y));\n"
      ++ "\treturn xy.x >= lx && xy.x <= rx ? 1.0 : 0.0;\n"
      ++ "\x7d\n"

-- A set of library functions as the ordered list of its members.
def inOrder (required : List LibraryFunction) : List LibraryFunction :=
  all.filter fun f => f ∈ required

-- Adds a library function to a set of them.
def insert (f : LibraryFunction) (library : List LibraryFunction) : List LibraryFunction := inOrder (f :: library)

theorem mem_all (f : LibraryFunction) : f ∈ all := by
  cases f <;> decide

theorem mem_inOrder {required : List LibraryFunction} {f : LibraryFunction} :
    f ∈ inOrder required ↔ f ∈ required := by
  simp [inOrder, mem_all]

end LibraryFunction

end SolidScript
