import SolidScript.CommandLine.Converter
import SolidScript.Repl

namespace SolidScript

namespace CommandLine

-- The words of the system for what went wrong.
def causeOf : IO.Error → String
  | .noFileOrDirectory _ code details => details ++ " (os error " ++ toString code ++ ")"
  | .permissionDenied _ code details => details ++ " (os error " ++ toString code ++ ")"
  | .inappropriateType _ code details => details ++ " (os error " ++ toString code ++ ")"
  | .invalidArgument _ code details => details ++ " (os error " ++ toString code ++ ")"
  | error => toString error

def settle (action : IO α) : IO (Except String α) := do
  try
    return .ok (← action)
  catch error =>
    return .error (causeOf error)

def systemHost : Host IO where
  read path := settle (IO.FS.readFile path)
  write path text := settle (IO.FS.writeFile path text)
  log entry := IO.eprintln entry.text
  complain message := IO.eprintln message
  print text := IO.print text

def showEvents (output : IO.FS.Stream) (events : List Repl.Event) : IO Unit := do
  for event in events do
    output.putStr event.text
  output.flush

-- Answers line by line until the input ends.
partial def converse (input output : IO.FS.Stream) (machine : Machine) : IO UInt32 := do
  let line ← input.getLine
  if line.isEmpty then
    output.putStrLn ""
    return 0
  match Repl.decodeLines line.toUTF8 with
  | some line :: _ =>
    let (events, machine) := Repl.answer machine line
    showEvents output (events ++ [.output Repl.prompt])
    converse input output machine
  | _ =>
    IO.eprintln ("Error: " ++ Repl.brokenInput)
    return 1

def run (args : List String) : IO UInt32 := do
  match args with
  | ["repl"] =>
    let output ← IO.getStdout
    showEvents output [.output Repl.banner, .output Repl.prompt]
    converse (← IO.getStdin) output .initial
  | args => return (← runConverter systemHost args).toUInt32

end CommandLine

end SolidScript

def main (args : List String) : IO UInt32 :=
  SolidScript.CommandLine.run args
