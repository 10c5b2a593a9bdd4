import SolidScript.Solid
import SolidScript.Solid.Error

namespace SolidScript

structure Arguments where
  kind : Primitive
  params : List String
  values : List Value

namespace Arguments

-- The parameters that arguments are given to, in the order of the arguments.
def assign : List String → List Value → List (String × Value)
  | _, [] => []
  | params, .named _ name value :: rest => (name, value) :: assign params rest
  | param :: params, value :: rest => (param, value) :: assign params rest
  | [], _ :: rest => assign [] rest

-- The last argument for a parameter counts, whether it has a name or not. Null counts as nothing given.
def get? (a : Arguments) (name : String) : Option Value :=
  match (assign a.params a.values).reverse.lookup name with
  | some .null => none
  | value => value

def fail (a : Arguments) (error : ArgumentError) : Except CompileError α := .error (.argument a.kind error)

def number? (a : Arguments) (name : String) : Except CompileError (Option Float) :=
  match a.get? name with
  | none => .ok none
  | some value =>
    match value.number? with
    | some x => .ok (some x)
    | none => a.fail (.notANumber name value.type)

-- A flag that is not given is off.
def flag (a : Arguments) (name : String) : Except CompileError Bool :=
  match a.get? name with
  | none => .ok false
  | some (.bool value) => .ok value
  | some value => a.fail (.notABoolean name value.type)

-- The numbers of an array.
def elements (a : Arguments) (name : String) : List Value → Except CompileError (List Float)
  | [] => .ok []
  | value :: rest =>
    match value.number? with
    | some x => do return x :: (← a.elements name rest)
    | none => a.fail (.elementNotANumber name value.type)

-- One number, or an array of `count` numbers.
def vector? (a : Arguments) (name : String) (count : Nat) : Except CompileError (Option (Float ⊕ List Float)) :=
  match a.get? name with
  | none => .ok none
  | some (.array _ values) =>
    if values.length = count then do return some (.inr (← a.elements name values))
    else a.fail (.wrongLength name count values.length)
  | some value =>
    match value.number? with
    | some x => .ok (some (.inl x))
    | none => a.fail (.notAVector name value.type)

def extent2? (a : Arguments) (name : String) : Except CompileError (Option (Extent2 Float)) := do
  match ← a.vector? name 2 with
  | some (.inl x) => return some (.uniform x)
  | some (.inr [x, y]) => return some (.sides ⟨x, y⟩)
  | _ => return none

def extent3? (a : Arguments) (name : String) : Except CompileError (Option (Extent3 Float)) := do
  match ← a.vector? name 3 with
  | some (.inl x) => return some (.uniform x)
  | some (.inr [x, y, z]) => return some (.sides ⟨x, y, z⟩)
  | _ => return none

-- Four numbers.
def row? : Value → Option (Vec4 Float)
  | .array _ [x, y, z, w] => do return ⟨← x.number?, ← y.number?, ← z.number?, ← w.number?⟩
  | _ => none

-- A matrix that is written as an array of its rows.
def matrix (a : Arguments) (name : String) : Except CompileError (Mat4 Float) :=
  match a.get? name with
  | none => a.fail .noMatrix
  | some (.array _ [x, y, z, w]) =>
    match row? x, row? y, row? z, row? w with
    | some x, some y, some z, some w => .ok (.ofRows x y z w)
    | _, _, _, _ => a.fail .matrixShape
  | some _ => a.fail .matrixShape

def point (a : Arguments) : Value → Except CompileError (Vec2 Float)
  | .array _ [x, y] =>
    match x.number?, y.number? with
    | some x, some y => .ok ⟨x, y⟩
    | _, _ => a.fail .coordinateNotANumber
  | value => a.fail (.notAPoint value)

def points (a : Arguments) (name : String) : Except CompileError (List (Vec2 Float)) :=
  match a.get? name with
  | none => a.fail .noPoints
  | some (.array _ values) => values.mapM a.point
  | some value => a.fail (.pointsNotAnArray value.type)

end Arguments

end SolidScript
