import SolidScript.CommandLine.Converter
import SolidScript.CommandLine.Folder
import SolidScript.Repl

namespace SolidScript

namespace CommandLine

structure Desk where
  folder : Folder
  journal : List String
  page : String
deriving Inhabited

namespace Desk

def ofFolder (folder : Folder) : Desk := ⟨folder, [], ""⟩

-- The lines of a text. A carriage return in front of a line end belongs to it.
def lines (text : String) : List String :=
  (text.splitOn "\n").map fun line => if line.endsWith "\r" then (line.dropEnd 1).copy else line

def note (d : Desk) (text : String) : Desk := { d with journal := d.journal ++ lines text }

def host : Host (StateM Desk) where
  read path := do
    match (← get).folder.read path with
    | .ok text => return .ok text
    | .error fault => return .error fault.message
  write path text := do
    match (← get).folder.write path text with
    | .ok folder => modify ({ · with folder := folder }); return .ok ()
    | .error fault => return .error fault.message
  log entry := modify (·.note entry.text)
  complain message := modify (·.note message)
  print text := modify fun d => { d with page := d.page ++ text }

-- The interpreter takes no arguments but a lone double dash.
def runRepl (args : List String) (input : ByteArray) : StateM Desk Nat := do
  match args with
  | [] | ["--"] =>
    let (events, broken) := Repl.session (Repl.decodeLines input)
    modify fun d => { d with page := d.page ++ Repl.banner ++ String.join (events.map Repl.Event.text) }
    if broken then stop host Repl.brokenInput else return 0
  | _ => return 2

end Desk

end CommandLine

end SolidScript
