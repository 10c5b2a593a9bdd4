import SolidScript.Shader.Compiler
import SolidScript.Shader.Render

namespace SolidScript

namespace Model

-- The version of the format.
def version : String := "1.0"

inductive OptionsError where
  | material (name : String)
  | units (name : String)
deriving Repr, DecidableEq

def OptionsError.message : OptionsError → String
  | material name => "invalid material name: " ++ Text.quoted name
  | units name => "invalid units name: " ++ Text.quoted name

-- A name has to be more than blanks, and it cannot hold what would end it or the comment around it.
def isName (name : String) : Bool :=
  !name.toList.all Text.isBlank && !name.toList.any fun c => c == '"' || c == '\n' || c == '*'

-- What the comment says about the model beside its size.
structure Options where
  material : String
  units : String
deriving Repr, DecidableEq, Inhabited

def Options.default : Options := ⟨"PLA", "mm"⟩

def Options.make (material units : String) : Except OptionsError Options :=
  if !isName material then .error (.material material)
  else if !isName units then .error (.units units)
  else .ok ⟨material, units⟩

def corner (v : Vec3 Float) : String := ",".intercalate (v.toList.map Number.shader)

def header (options : Options) (box : Box Float) : String :=
  "/*\x7b\n  irmf: \"" ++ version ++ "\",\n  materials: [\"" ++ options.material ++ "\"],\n  max: [" ++ corner box.high
    ++ "],\n  min: [" ++ corner box.low ++ "],\n  units: \"" ++ options.units ++ "\",\n\x7d*/\n\n"

-- A scene without geometry has an empty box at the origin and no shader.
def text (options : Options) : Option (Shader Float) → String
  | some shader => header options shader.box ++ shader.text
  | none => header options ⟨.zero, .zero⟩

end Model

inductive ConvertError where
  | compile (error : CompileError)
  | noGeometry

def ConvertError.message : ConvertError → String
  | compile error => error.message
  | noGeometry => "scene contains no geometry"

-- The model file of a source text, and what the program has printed.
def convert (source : String) (center : Bool) (options : Model.Options) : Except ConvertError String × String :=
  match compileIn .initial source center with
  | (.ok (some shader), m) => (.ok (Model.text options (some shader)), m.printed)
  | (.ok none, m) => (.error .noGeometry, m.printed)
  | (.error error, m) => (.error (.compile error), m.printed)

end SolidScript
