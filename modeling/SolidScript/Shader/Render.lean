import SolidScript.Decimal.Layout
import SolidScript.Shader.Function

namespace SolidScript

namespace Shader

-- The number π as it is written in a shader.
def pi : String := "3.1415926535897932384626433832795"

def numbers (values : List Float) : String := ", ".intercalate (values.map Number.shader)

def truth (b : Bool) : String := if b then "true" else "false"

-- Two numbers with nothing but a comma between them.
def pair (v : Vec2 Float) : String := Number.shader v.x ++ "," ++ Number.shader v.y

def vec2 (v : Vec2 Float) : String := "vec2(" ++ pair v ++ ")"

def vec4 (v : Vec4 Float) : String := "vec4(" ++ numbers v.toList ++ ")"

def float (x : Float) : String := "float(" ++ Number.shader x ++ ")"

def extent2 : Extent2 Float → String
  | .uniform side => Number.shader side
  | .sides v => numbers [v.x, v.y]

def extent3 : Extent3 Float → String
  | .uniform side => Number.shader side
  | .sides v => numbers v.toList

def Call.text : Call Float → String
  | cube size center => "cube(vec3(" ++ extent3 size ++ "), " ++ truth center ++ ", xyz)"
  | sphere radius => "sphere(" ++ float radius ++ ", xyz)"
  | cylinder height bottom top center =>
    "cylinder(" ++ float height ++ ", " ++ float bottom ++ ", " ++ float top ++ ", " ++ truth center ++ ", xyz)"
  | square size center => "square(vec2(" ++ extent2 size ++ "), " ++ truth center ++ ", xyz)"
  | circle radius => "circle(" ++ float radius ++ ", xyz)"
  | block name => name.text ++ "(xyz)"

def joined (separator : String) (calls : List (Call Float)) : String :=
  separator.intercalate (calls.map Call.text)

def sum (calls : List (Call Float)) : String := joined " + " calls

def clamped (value : String) : String := "clamp(" ++ value ++ ", 0.0, 1.0)"

-- The value of a block. Grouping blocks are not clamped.
def combined (combination : Combination) (calls : List (Call Float)) : String :=
  match combination with
  | .union => clamped (joined " + " calls)
  | .difference => clamped (joined " - " calls)
  | .intersection => clamped (joined " * " calls)
  | .group | .color => joined " + " calls

def line (text : String) : String := "\t" ++ text ++ "\n"

def ret (value : String) : String := line ("return " ++ value ++ ";")

def bandLine (b : Band Float) : String :=
  line ("if (xyz.y >= " ++ float b.low ++ " && xyz.y <= " ++ float b.high ++ ") \x7b return testTwoLineSegments("
    ++ ",".intercalate [vec2 b.left.low, vec2 b.left.high, vec2 b.right.low, vec2 b.right.high]
    ++ ",xyz.xy); \x7d")

def extrudeText (e : Extrusion Float) (calls : List (Call Float)) : String :=
  line ("xyz.z /= " ++ float e.height ++ ";")
    ++ line "float z = xyz.z;"
    ++ line ("if (" ++ truth e.center ++ ") \x7b z += 0.5; \x7d else \x7b xyz.z -= 0.5; \x7d")
    ++ line "if (abs(xyz.z) > 0.5) \x7b return 0.0; \x7d"
    ++ (match e.twist with
      | some twist => line ("float angle = mix(0.0, " ++ float twist.degrees ++ "*" ++ pi ++ "/180.0, z);")
      | none => "")
    ++ line ("vec2 s = mix(vec2(1)," ++ vec2 e.scale ++ ",z);")
    ++ line "xyz.xy /= s;"
    ++ (if e.twist.isSome then line "xyz = (vec4(xyz, 1) * rotZ(angle)).xyz;" else "")
    ++ ret (sum calls)

def revolveText (degrees : Float) (calls : List (Call Float)) : String :=
  line "float angle = atan(xyz.y, xyz.x);"
    ++ line ("if (angle<0.) \x7b angle+=(2.*" ++ pi ++ "); \x7d")
    ++ line ("if (angle>" ++ float degrees ++ "*" ++ pi ++ "/180.0) \x7b return 0.0; \x7d")
    ++ line "vec3 slice=(vec4(xyz,1)*rotZ(-angle)).xyz;"
    ++ line "xyz = slice.xzy;"
    ++ ret (sum calls)

def polygonText (low high : Vec2 Float) (bands : List (Band Float)) : String :=
  line ("if (any(lessThan(xyz.xy, " ++ vec2 low ++ ")) || any(greaterThan(xyz.xy, " ++ vec2 high
      ++ "))) \x7b return 0.0; \x7d")
    ++ String.join (bands.map bandLine)
    ++ ret "1.0"

def Body.text : Body Float → String
  | combine combination calls => ret (combined combination calls)
  | transform inverse calls =>
    line ("mat4 xfm = mat4(" ++ ", ".intercalate (inverse.rows.map vec4) ++ ");")
      ++ line "xyz = (vec4(xyz, 1.0) * xfm).xyz;"
      ++ ret (sum calls)
  | extrude extrusion calls => extrudeText extrusion calls
  | revolve degrees calls => revolveText degrees calls
  | polygon low high bands => polygonText low high bands

def Function.text (f : Function Float) : String :=
  "float " ++ f.name.text ++ "(in vec3 xyz) \x7b\n" ++ f.body.text ++ "\x7d\n"

def Main.text (m : Main Float) : String :=
  "void mainModel4(out vec4 materials, in vec3 xyz) \x7b\n"
    ++ (match m.offset with
      | some v => line ("xyz += vec3(" ++ numbers v.toList ++ ");")
      | none => "")
    ++ line ("materials[0] = " ++ sum m.calls ++ ";")
    ++ "\x7d\n"

-- The texts of the functions that are made for the scene, the last of them the main one.
def texts (s : Shader Float) : List String := s.functions.map Function.text ++ [s.main.text]

-- Library functions first, with an empty line between functions.
def text (s : Shader Float) : String :=
  "\n".intercalate (s.library.map LibraryFunction.source ++ s.texts)

end Shader

end SolidScript
