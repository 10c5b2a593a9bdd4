import SolidScript.CommandLine.Path

namespace SolidScript

namespace CommandLine

inductive FileFault where
  | missing
  | notAFolder
  | isAFolder
  | nameTooLong
  | zeroInName
deriving Repr, DecidableEq, Inhabited

def FileFault.message : FileFault → String
  | missing => "No such file or directory (os error 2)"
  | notAFolder => "Not a directory (os error 20)"
  | isAFolder => "Is a directory (os error 21)"
  | nameTooLong => "File name too long (os error 36)"
  | zeroInName => "file name contained an unexpected NUL byte"

-- A place is known by the names that lead to it from the root of the system.
abbrev Place := List String

-- What stands at a place.
inductive Entry where
  | missing
  | file (text : String)
  | folder
deriving Repr, DecidableEq, Inhabited

-- The step up from the root stays at the root.
def Place.go (place : Place) : Step → Except FileFault Place
  | .stay => .ok place
  | .up => .ok place.dropLast
  | .enter name => if Path.maxNameSize < name.utf8ByteSize then .error .nameTooLong else .ok (place ++ [name])

-- Files by the names that lead to them from the folder.
structure Folder where
  files : List (List String × String)
deriving Repr, Inhabited

namespace Folder

def home : Place := ["tmp", "desk"]

-- The system around the folder. The null device is an empty file.
def outside : Place → Entry
  | [] | ["dev"] | ["tmp"] => .folder
  | ["dev", "null"] => .file ""
  | _ => .missing

def ofList (files : List (String × String)) : Folder :=
  ⟨files.map fun (path, text) => ((Path.ofString path).names, text)⟩

def toList (f : Folder) : List (String × String) := f.files.map fun (names, text) => ("/".intercalate names, text)

def find? (f : Folder) (names : List String) : Option String := f.files.lookup names

def isFolder (f : Folder) (names : List String) : Bool :=
  names.isEmpty || f.files.any fun (other, _) => names.isPrefixOf other && names != other

def inside (f : Folder) (names : List String) : Entry :=
  if f.isFolder names then .folder
  else match f.find? names with
    | some text => .file text
    | none => .missing

def look (f : Folder) (place : Place) : Entry :=
  if home.isPrefixOf place then f.inside (place.drop home.length) else outside place

-- A step can only be taken from a folder.
def leave (f : Folder) (place : Place) : Except FileFault Unit :=
  match f.look place with
  | .missing => .error .missing
  | .file _ => .error .notAFolder
  | .folder => .ok ()

def follow (f : Folder) (place : Place) : List Step → Except FileFault Place
  | [] => .ok place
  | step :: rest => do
    f.leave place
    f.follow (← place.go step) rest

-- Some texts are refused before a step is taken.
def checked (path : String) : Except FileFault Path :=
  if path.contains '\x00' then .error .zeroInName
  else if Path.maxSize < path.utf8ByteSize then .error .nameTooLong
  else if path.isEmpty then .error .missing
  else .ok (.ofString path)

def start (p : Path) : Place := if p.fromRoot then [] else home

def read (f : Folder) (path : String) : Except FileFault String := do
  let p ← checked path
  match f.look (← f.follow (start p) p.readerSteps) with
  | .missing => throw .missing
  | .folder => throw .isAFolder
  | .file text => return text

def put (names : List String) (text : String) : List (List String × String) → List (List String × String)
  | [] => [(names, text)]
  | (other, old) :: rest => if other = names then (names, text) :: rest else (other, old) :: put names text rest

-- What is written outside the folder is not kept.
def putAt (f : Folder) (place : Place) (text : String) : Folder :=
  if home.isPrefixOf place then ⟨put (place.drop home.length) text f.files⟩ else f

-- A last name with a slash behind it cannot become a file, whatever stands there.
def write (f : Folder) (path text : String) : Except FileFault Folder := do
  let p ← checked path
  match p.steps.getLast?, p.slashed with
  | some (.enter _), true =>
    f.leave (← f.follow (start p) p.steps.dropLast)
    throw .isAFolder
  | _, _ =>
    let place ← f.follow (start p) p.steps
    match f.look place with
    | .folder => throw .isAFolder
    | _ => return f.putAt place text

-- The files that are new or that have changed since `old`.
def changedSince (f old : Folder) : Folder :=
  ⟨f.files.filter fun (names, text) => old.find? names != some text⟩

end Folder

end CommandLine

end SolidScript
