import SolidScript.Eval.Machine

namespace SolidScript

namespace Builtin

-- The array that is the only argument.
def onlyArray (b : Builtin) : List Value → Except Fault (List Value)
  | [.array _ elements] => .ok elements
  | [other] => .error (.notAnArray b other.type)
  | args => .error (.builtinArity args.length 1)

-- The length of a string is the number of bytes of its UTF-8 form.
def length : List Value → Except Fault Value
  | [.string text] => .ok (.int (Int64.ofNat text.utf8ByteSize))
  | [.array _ elements] => .ok (.int (Int64.ofNat elements.length))
  | [other] => .error (.lengthless other.type)
  | args => .error (.builtinArity args.length 1)

-- An array and a value to append to it.
def arrayAndValue : List Value → Except Fault (List Value × Value)
  | [.array _ elements, value] => .ok (elements, value)
  | [other, _] => .error (.notAnArray push other.type)
  | args => .error (.builtinArity args.length 2)

def newArray (elements : List Value) : Run Value := do
  return .array (← Run.freshRef) elements

def printEach : List Value → Run Unit
  | [] => return ()
  | v :: others => do
    Run.printLine v.inspect
    printEach others

-- Builtins return what is wrong with their arguments.
def apply (b : Builtin) (args : List Value) : Run Value :=
  match b with
  | len => return .ofExcept (length args)
  | first =>
    match onlyArray first args with
    | .ok elements => return elements.headD .null
    | .error fault => return .failure fault
  | last =>
    match onlyArray last args with
    | .ok elements => return elements.getLastD .null
    | .error fault => return .failure fault
  | rest =>
    match onlyArray rest args with
    | .ok [] => return .null
    | .ok (_ :: elements) => newArray elements
    | .error fault => return .failure fault
  | push =>
    match arrayAndValue args with
    | .ok (elements, value) => newArray (elements ++ [value])
    | .error fault => return .failure fault
  | puts => do
    printEach args
    return .null

end Builtin

end SolidScript
