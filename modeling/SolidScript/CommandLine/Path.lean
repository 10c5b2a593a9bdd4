namespace SolidScript

namespace CommandLine

-- Paths the way the system follows them, one step after the other.
inductive Step where
  | stay
  | up
  | enter (name : String)
deriving Repr, DecidableEq, Inhabited

-- Two paths with the same steps can differ in the slash at the end, which asks for a folder.
structure Path where
  fromRoot : Bool
  steps : List Step
  slashed : Bool
deriving Repr, DecidableEq, Inhabited

def Step.ofPart : String → Step
  | "." => .stay
  | ".." => .up
  | name => .enter name

def Step.name? : Step → Option String
  | enter name => some name
  | _ => none

namespace Path

-- Bytes in the longest path and in the longest name that the system takes.
def maxSize : Nat := 4095

def maxNameSize : Nat := 255

def ofString (path : String) : Path where
  fromRoot := path.toList.head? == some '/'
  steps := ((path.splitOn "/").filter (!·.isEmpty)).map .ofPart
  slashed := path.toList.getLast? == some '/'

-- The names on a path that only goes down.
def names (p : Path) : List String := p.steps.filterMap Step.name?

-- For a reader a slash at the end is one more step that stays.
def readerSteps (p : Path) : List Step := if p.slashed then p.steps ++ [.stay] else p.steps

end Path

end CommandLine

namespace OutputPath

-- The extension of model files.
def extension : String := "irmf"

-- Takes slashes and single dots off the end of a path. The characters are in reverse.
def dropTrailing : List Char → List Char
  | '/' :: rest => dropTrailing rest
  | '.' :: '/' :: rest => dropTrailing rest
  | chars => chars

-- What stands in front of the last dot of a file name. A dot at the very front belongs to the name.
def stem (name : List Char) : List Char :=
  match name.reverse.dropWhile (· != '.') with
  | [] | ['.'] => name
  | _ :: before => before.reverse

-- Where the model file of a source file goes. Replaces the extension of the last part of a path, or adds one. A path
-- that does not end in a file name stays as it is. The old extension comes off first. If only the two dots of the
-- folder above are left, then there is no file name that could take the new one.
def ofInput (path : String) : String :=
  let reversed := dropTrailing path.toList.reverse
  let name := (reversed.takeWhile (· != '/')).reverse
  let folder := (reversed.dropWhile (· != '/')).reverse
  if name = [] ∨ name = ['.'] ∨ name = ['.', '.'] then path
  else if stem name = ['.'] ∧ reversed = path.toList.reverse then String.ofList (folder ++ ['.', '.'])
  else String.ofList (folder ++ stem name ++ '.' :: extension.toList)

end OutputPath

end SolidScript
