import SolidScript.Value.Equality

namespace SolidScript

namespace UnaryOp

def apply : UnaryOp → Value → Except Fault Value
  | not, right => .ok (.bool !right.isTruthy)
  | negate, .int value => .ok (.int (-value))
  | negate, .float value => .ok (.float (-value))
  | negate, right => .error (.unknownUnary .negate right.type)

end UnaryOp

namespace BinaryOp

-- Integers wrap around at 64 bits.
def ints (op : BinaryOp) (l r : Int64) : Except Fault Value :=
  match op with
  | add => .ok (.int (l + r))
  | subtract => .ok (.int (l - r))
  | multiply => .ok (.int (l * r))
  | divide => if r = 0 then .error .divisionByZero else .ok (.int (l / r))
  | lessThan => .ok (.bool (l < r))
  | greaterThan => .ok (.bool (l > r))
  | equal => .ok (.bool (l == r))
  | notEqual => .ok (.bool (l != r))

def floats (op : BinaryOp) (l r : Float) : Value :=
  match op with
  | add => .float (l + r)
  | subtract => .float (l - r)
  | multiply => .float (l * r)
  | divide => .float (l / r)
  | lessThan => .bool (l < r)
  | greaterThan => .bool (l > r)
  | equal => .bool (l == r)
  | notEqual => .bool (l != r)

-- Strings can be joined and compared, by their code points.
def strings (op : BinaryOp) (l r : String) : Except Fault Value :=
  match op with
  | add => .ok (.string (l ++ r))
  | lessThan => .ok (.bool (l < r))
  | greaterThan => .ok (.bool (r < l))
  | equal => .ok (.bool (l == r))
  | notEqual => .ok (.bool (l != r))
  | op => .error (.unknownBinary .string op .string)

-- Values of other types can only be compared by identity.
def others (op : BinaryOp) (l r : Value) : Except Fault Value :=
  match op with
  | equal => .ok (.bool (l.identical r))
  | notEqual => .ok (.bool !l.identical r)
  | op =>
    if l.type ≠ r.type then .error (.typeMismatch l.type op r.type)
    else .error (.unknownBinary l.type op r.type)

def apply (op : BinaryOp) (l r : Value) : Except Fault Value :=
  match l, r with
  | .int a, .int b => op.ints a b
  | .string a, .string b => op.strings a b
  | l, r =>
    match l.number?, r.number? with
    | some a, some b => .ok (op.floats a b)
    | _, _ => op.others l r

end BinaryOp

namespace Value

-- The entries of a hash stay ordered by their keys, and a later pair takes the place of an earlier one.
def insertEntry (key : Key) (pair : HashPair Value) : List (Key × HashPair Value) → List (Key × HashPair Value)
  | [] => [(key, pair)]
  | (k, p) :: rest =>
    if k = key then (key, pair) :: rest
    else if key.lt k then (key, pair) :: (k, p) :: rest
    else (k, p) :: insertEntry key pair rest

-- Missing elements and entries are null.
def index (left key : Value) : Except Fault Value :=
  match left, key with
  | .array _ elements, .int i => .ok (if i < 0 then .null else elements.getD i.toNatClampNeg .null)
  | .hash _ entries, key =>
    match key.key? with
    | some k =>
      match entries.lookup k with
      | some pair => .ok pair
      | none => .ok .null
    | none => .error (.unusableKey key.type)
  | left, _ => .error (.notIndexable left.type)

end Value

end SolidScript
