import SolidScript.CommandLine.Path
import SolidScript.CommandLine.Request
import SolidScript.Shader.Model

namespace SolidScript

namespace CommandLine

namespace Log

inductive Level where
  | info
  | error
deriving Repr, DecidableEq, Inhabited

structure Entry where
  level : Level
  message : String
deriving Repr, DecidableEq, Inhabited

def Level.label : Level → String
  | info => "INFO"
  | error => "ERROR"

def harmless (c : Char) : String :=
  match c with
  | '\x07' => "\\x07"
  | '\x08' => "\\x08"
  | '\x0c' => "\\x0c"
  | '\x1b' => "\\x1b"
  | '\x7f' => "\\x7f"
  | c =>
    if 0x80 ≤ c.toNat && c.toNat ≤ 0x9F then "\\u\x7b" ++ Text.hexadecimal c.toNat ++ "\x7d"
    else String.singleton c

def Entry.text (e : Entry) : String :=
  e.level.label ++ " " ++ String.join (e.message.toList.map harmless)

end Log

-- A host tells why a file could not be read or written. It complains when the program ends because of a fault.
structure Host (m : Type → Type) where
  read : String → m (Except String String)
  write : String → String → m (Except String Unit)
  log : Log.Entry → m Unit
  complain : String → m Unit
  print : String → m Unit

inductive FileError where
  | read (path cause : String)
  | convert (path : String) (error : ConvertError)
  | write (path cause : String)

def FileError.message : FileError → String
  | read path cause => "failed to read " ++ path ++ ": " ++ cause
  | convert path error => "failed to convert " ++ path ++ ": " ++ error.message
  | write path cause => "failed to write " ++ path ++ ": " ++ cause

variable [Monad m]

def convertFile (host : Host m) (input output : String) (center : Bool) (options : Model.Options) :
    m (Except FileError Unit) := do
  host.log ⟨.info, "Processing " ++ input ++ " ..."⟩
  match ← host.read input with
  | .error cause => return .error (.read input cause)
  | .ok source =>
    let (result, printed) := convert source center options
    host.print printed
    match result with
    | .error error => return .error (.convert input error)
    | .ok text =>
      match ← host.write output text with
      | .error cause => return .error (.write output cause)
      | .ok _ =>
        host.log ⟨.info, "Wrote " ++ output⟩
        return .ok ()

-- Converts files one after the other and counts those that fail.
def convertFiles (host : Host m) (output : Option String) (center : Bool) (options : Model.Options) :
    List String → m Nat
  | [] => return 0
  | file :: rest => do
    let result ← convertFile host file (output.getD (OutputPath.ofInput file)) center options
    match result with
    | .ok _ => convertFiles host output center options rest
    | .error error =>
      host.log ⟨.error, error.message⟩
      return (← convertFiles host output center options rest) + 1

-- Ends the program with a message.
def stop (host : Host m) (message : String) : m Nat := do
  host.complain ("Error: " ++ message)
  return 1

-- The exit code is 0 if all went well, 1 if something failed and 2 if the arguments cannot be understood.
def runConverter (host : Host m) (args : List String) : m Nat := do
  match Request.ofArgs? args with
  | none => return 2
  | some request =>
    match Model.Options.make (request.material.getD Model.Options.default.material)
        (request.units.getD Model.Options.default.units) with
    | .error error => stop host error.message
    | .ok options =>
      if request.output.isSome && 1 < request.files.length then
        stop host "-o can only be used with a single input file"
      else
        let failed ← convertFiles host request.output request.center options request.files
        if failed = 0 then return 0
        else stop host (toString failed ++ " of " ++ toString request.files.length ++ " files failed")

end CommandLine

end SolidScript
