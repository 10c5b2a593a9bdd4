import SolidScript.Tree

namespace SolidScript

-- The functions that exist without being defined.
inductive Builtin where
  | len
  | first
  | last
  | rest
  | push
  | puts
deriving Repr, DecidableEq, Inhabited

namespace Builtin

def all : List Builtin := [len, first, last, rest, push, puts]

def name : Builtin → String
  | len => "len"
  | first => "first"
  | last => "last"
  | rest => "rest"
  | push => "push"
  | puts => "puts"

def ofName? (name : String) : Option Builtin := all.find? fun b => b.name == name

end Builtin

-- The types of values, as messages name them.
inductive ValueType where
  | integer
  | float
  | string
  | boolean
  | null
  | array
  | hash
  | function
  | builtin
  | error
  | returnValue
  | namedArgument
  | primitive (kind : Primitive)
deriving Repr, DecidableEq, Inhabited

def ValueType.title : ValueType → String
  | integer => "INTEGER"
  | float => "FLOAT"
  | string => "STRING"
  | boolean => "BOOLEAN"
  | null => "NULL"
  | array => "ARRAY"
  | hash => "HASH"
  | function => "FUNCTION"
  | builtin => "BUILTIN"
  | error => "ERROR"
  | returnValue => "RETURN_VALUE"
  | namedArgument => "NAMED_ARGUMENT"
  | primitive kind => kind.title

-- What can go wrong while a program runs.
inductive Fault where
  | unbound (name : String)
  | divisionByZero
  | unknownUnary (op : UnaryOp) (right : ValueType)
  | unknownBinary (left : ValueType) (op : BinaryOp) (right : ValueType)
  | typeMismatch (left : ValueType) (op : BinaryOp) (right : ValueType)
  | unusableKey (key : ValueType)
  | notIndexable (left : ValueType)
  | notCallable (callee : ValueType)
  | callArity (want got : Nat)
  | builtinArity (got want : Nat)
  | lengthless (arg : ValueType)
  | notAnArray (builtin : Builtin) (arg : ValueType)
deriving Repr, DecidableEq, Inhabited

def Fault.message : Fault → String
  | unbound name => "identifier not found: " ++ name
  | divisionByZero => "division by zero"
  | unknownUnary op right => "unknown operator: " ++ op.symbol ++ right.title
  | unknownBinary left op right => "unknown operator: " ++ left.title ++ " " ++ op.symbol ++ " " ++ right.title
  | typeMismatch left op right => "type mismatch: " ++ left.title ++ " " ++ op.symbol ++ " " ++ right.title
  | unusableKey key => "unusable as hash key: " ++ key.title
  | notIndexable left => "index operator not supported: " ++ left.title
  | notCallable callee => "not a function: " ++ callee.title
  | callArity want got => "wrong number of arguments: want=" ++ toString want ++ ", got=" ++ toString got
  | builtinArity got want => "wrong number of arguments. got=" ++ toString got ++ ", want=" ++ toString want
  | lengthless arg => "argument to `len` not supported, got " ++ arg.title
  | notAnArray builtin arg => "argument to `" ++ builtin.name ++ "` must be ARRAY, got " ++ arg.title

-- The values that can be keys of a hash.
inductive Key where
  | int (value : Int64)
  | bool (value : Bool)
  | string (text : String)
deriving DecidableEq, Inhabited

-- Integers come first, then truth values, then strings by their code points.
def Key.lt : Key → Key → Bool
  | int a, int b => a < b
  | int _, _ => true
  | bool a, bool b => !a && b
  | bool _, string _ => true
  | string a, string b => a < b
  | _, _ => false

-- What a hash holds for a key: the key as it was given, and the value.
structure HashPair (α : Type) where
  key : α
  value : α
deriving Inhabited

-- A `failure` is a fault as a value. It is handed on by everything that meets it. `returned` marks the value of a
-- return statement until the function or the program ends. A primitive without a body has `none` for its children.
inductive Value where
  | int (value : Int64)
  | float (value : Float)
  | string (text : String)
  | bool (value : Bool)
  | null
  | array (ref : Nat) (elements : List Value)
  | hash (ref : Nat) (entries : List (Key × HashPair Value))
  | function (ref : Nat) (params : List String) (body : Block) (scope : Nat)
  | builtin (builtin : Builtin)
  | failure (fault : Fault)
  | returned (value : Value)
  | named (ref : Nat) (name : String) (value : Value)
  | primitive (ref : Nat) (kind : Primitive) (args : List Value) (body : Option (List Value))
deriving Inhabited

-- What is found in a hash is the value.
instance : Coe (HashPair Value) Value := ⟨HashPair.value⟩

namespace Value

def isFailure : Value → Bool
  | failure _ => true
  | _ => false

def type : Value → ValueType
  | int _ => .integer
  | float _ => .float
  | string _ => .string
  | bool _ => .boolean
  | null => .null
  | array .. => .array
  | hash .. => .hash
  | function .. => .function
  | builtin _ => .builtin
  | failure _ => .error
  | returned _ => .returnValue
  | named .. => .namedArgument
  | primitive _ kind _ _ => .primitive kind

-- Only null and false count as false.
def isTruthy : Value → Bool
  | null | bool false => false
  | _ => true

-- The number that an integer or a float stands for.
def number? : Value → Option Float
  | int value => some (Float.ofInt value.toInt)
  | float value => some value
  | _ => none

def key? : Value → Option Key
  | int value => some (.int value)
  | bool value => some (.bool value)
  | string text => some (.string text)
  | _ => none

-- What went wrong, as a value.
def ofExcept : Except Fault Value → Value
  | .ok value => value
  | .error fault => failure fault

end Value

def Key.toValue : Key → Value
  | int value => .int value
  | bool value => .bool value
  | string text => .string text

@[simp] theorem Key.key?_toValue (k : Key) : k.toValue.key? = some k := by
  cases k <;> rfl

end SolidScript
