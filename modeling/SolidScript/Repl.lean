import SolidScript.Eval.Program

namespace SolidScript

namespace Repl

def prompt : String := ">> "

def banner : String := "This is the CSG interpreter. Feel free to type in commands (Ctrl-D to quit).\n"

-- What ends a session whose input is not text.
def brokenInput : String := "stream did not contain valid UTF-8"

-- A piece of the conversation. Programs print in between the answers.
inductive Event where
  | output (text : String)
  | printed (text : String)
deriving Repr, DecidableEq

def Event.text : Event → String
  | output text | printed text => text

-- Whether the value of a program is shown.
def isShown (program : Program) : Bool :=
  match program.getLast? with
  | none | some (.bind _ _) => false
  | some _ => true

-- The answer to one line, without the prompt.
def answer (m : Machine) (line : String) : List Event × Machine :=
  let parsed := parse line
  if parsed.isOk then
    let (value, m) := m.runProgram 0 parsed.program
    let (printed, m) := m.flush
    let shown := match value with
      | some value => if isShown parsed.program then [Event.output (value.inspect ++ "\n")] else []
      | none => [Event.output (EvalError.exhausted.message ++ "\n")]
    (.printed printed :: shown, m)
  else (parsed.messages.map fun message => .output ("\t" ++ message ++ "\n"), m)

-- The answers to all lines, each followed by the prompt. The flag says whether a line could not be read, which ends
-- the session at once.
def answers (m : Machine) : List (Option String) → List Event × Bool
  | [] => ([.output "\n"], false)
  | none :: _ => ([], true)
  | some line :: rest =>
    let (events, m) := answer m line
    let (more, broken) := answers m rest
    (events ++ .output prompt :: more, broken)

def session (lines : List (Option String)) : List Event × Bool :=
  let (events, broken) := answers .initial lines
  (.output prompt :: events, broken)

-- Takes off a carriage return in front of the line feed. The bytes are in reverse.
def dropReturn : List UInt8 → List UInt8
  | 13 :: rest => rest
  | bytes => bytes

-- The lines of a text in bytes. `line` holds the bytes of the current line in reverse. Nothing behind the last line
-- feed is no line.
def splitLines (line : List UInt8) : List UInt8 → List (List UInt8)
  | [] => if line.isEmpty then [] else [line.reverse]
  | b :: rest => if b = 10 then (dropReturn line).reverse :: splitLines [] rest else splitLines (b :: line) rest

def decodeLines (input : ByteArray) : List (Option String) :=
  (splitLines [] input.data.toList).map fun line => String.fromUTF8? ⟨line.toArray⟩

end Repl

end SolidScript
