import SolidScript.Tree.Printer
import SolidScript.Value

namespace SolidScript

namespace Value

mutual

def inspect : Value → String
  | .int value => toString value.toInt
  | .float value => Number.plain value
  | .string text => text
  | .bool value => if value then "true" else "false"
  | .null => "null"
  | .array _ elements => "[" ++ ", ".intercalate (inspectEach elements) ++ "]"
  | .hash _ entries => "\x7b" ++ ", ".intercalate (inspectEntries entries) ++ "\x7d"
  | .function _ params body _ => "function(" ++ ", ".intercalate params ++ ") " ++ body.print
  | .builtin _ => "builtin function"
  | .failure fault => "ERROR: " ++ fault.message
  | .returned value => inspect value
  | .named _ name value => name ++ " = " ++ inspect value
  | .primitive _ kind args body =>
    kind.keyword ++ "(" ++ ", ".intercalate (inspectEach args) ++ ")" ++ inspectBody body
termination_by structural v => v

def inspectEach : List Value → List String
  | [] => []
  | v :: rest => inspect v :: inspectEach rest
termination_by structural vs => vs

def inspectEntries : List (Key × HashPair Value) → List String
  | [] => []
  | (_, ⟨key, value⟩) :: rest => (inspect key ++ ": " ++ inspect value) :: inspectEntries rest
termination_by structural es => es

def inspectBody : Option (List Value) → String
  | none => ";"
  | some children => " \x7b\n" ++ String.join ((inspectEach children).map (· ++ "\n")) ++ "\x7d"
termination_by structural b => b

end

end Value

end SolidScript
