import SolidScript.Shader.Model

namespace SolidScript

namespace CommandLine

structure Request where
  files : List String
  center : Bool
  material : Option String
  units : Option String
  output : Option String
deriving Repr, DecidableEq, Inhabited

namespace Request

def empty : Request := ⟨[], false, none, none, none⟩

-- The options that take a value.
inductive Field where
  | material
  | units
  | output
deriving Repr, DecidableEq

def addFile? (r : Request) (file : String) : Option Request :=
  if file.isEmpty then none else some { r with files := r.files ++ [file] }

def setCenter? (r : Request) : Option Request := if r.center then none else some { r with center := true }

-- The path of the output cannot be empty.
def set? (r : Request) (field : Field) (value : String) : Option Request :=
  match field with
  | .material => if r.material.isSome then none else some { r with material := some value }
  | .units => if r.units.isSome then none else some { r with units := some value }
  | .output => if r.output.isSome || value.isEmpty then none else some { r with output := some value }

-- What one argument is.
inductive Word where
  | endOfOptions
  | center
  | field (field : Field) (attached : Option String)
  | file (name : String)
  | unknown

def longField? (name : String) : Option Field :=
  match name with
  | "material" => some .material
  | "units" => some .units
  | "output" => some .output
  | _ => none

-- The part behind the first equals sign, if there is one.
def attached? (text : List Char) : Option String :=
  match text.dropWhile (· != '=') with
  | [] => none
  | _ :: value => some (String.ofList value)

def longWord (text : List Char) : Word :=
  let name := String.ofList (text.takeWhile (· != '='))
  match longField? name, attached? text with
  | some field, attached => .field field attached
  | none, none => if name = "center" then .center else .unknown
  | none, some _ => .unknown

def word (arg : String) : Word :=
  match arg.toList with
  | ['-', '-'] => .endOfOptions
  | '-' :: '-' :: text => longWord text
  | ['-'] => .file arg
  | ['-', 'o'] => .field .output none
  | '-' :: 'o' :: '=' :: value => .field .output (some (String.ofList value))
  | '-' :: 'o' :: value => .field .output (some (String.ofList value))
  | '-' :: _ => .unknown
  | _ => .file arg

def addFiles? (r : Request) : List String → Option Request
  | [] => some r
  | file :: rest => do (← r.addFile? file).addFiles? rest

-- Reads the arguments into `r`.
def read? (r : Request) : List String → Option Request
  | [] => some r
  | arg :: rest =>
    match word arg with
    | .endOfOptions => r.addFiles? rest
    | .center => do (← r.setCenter?).read? rest
    | .file name => do (← r.addFile? name).read? rest
    | .field field (some value) => do (← r.set? field value).read? rest
    | .field field none =>
      match rest with
      | [] => none
      | value :: rest =>
        match word value with
        | .file value => do (← r.set? field value).read? rest
        | _ => none
    | .unknown => none

-- At least one file has to be named.
def ofArgs? (args : List String) : Option Request := do
  let r ← read? empty args
  if r.files.isEmpty then none else some r

end Request

end CommandLine

end SolidScript
