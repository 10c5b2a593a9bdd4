import SolidScript.Scope
import SolidScript.Value.Inspect

namespace SolidScript

-- What a running program can change: the scopes, the supply of refs, and the text that it has printed.
structure Machine where
  scopes : Scopes
  nextRef : Nat
  printed : String
deriving Inhabited

namespace Machine

-- A machine with one empty scope, whose number is 0.
def initial : Machine := ⟨Scopes.empty.create, 0, ""⟩

-- Takes out the text that was printed so far.
def flush (m : Machine) : String × Machine := (m.printed, { m with printed := "" })

end Machine

-- A part of a run. What goes wrong in it is a value like others, and what it has changed by then stays changed. There
-- is no result if it is nested too deeply.
abbrev Run := StateT Machine Option

namespace Run

@[inline] def outOfSteps : Run α := fun _ => none

-- A ref that no value has yet.
@[inline] def freshRef : Run Nat := fun m => some (m.nextRef, { m with nextRef := m.nextRef + 1 })

def printLine (line : String) : Run Unit := fun m => some ((), { m with printed := m.printed ++ line ++ "\n" })

def bindName (scope : Nat) (name : String) (value : Value) : Run Unit := fun m =>
  some ((), { m with scopes := m.scopes.set scope name value })

-- Makes a scope inside `outer` and binds the given names in it, one after the other.
def enterScope (outer : Nat) (bindings : List (String × Value)) : Run Nat := fun m =>
  let id := m.scopes.next
  some (id, { m with scopes := m.scopes.enclose outer bindings })

-- The value of a name: the nearest binding, or else the builtin of that name.
def readName (scope : Nat) (name : String) : Run Value := fun m =>
  match m.scopes.get? scope name with
  | some value => some (value, m)
  | none =>
    match Builtin.ofName? name with
    | some builtin => some (.builtin builtin, m)
    | none => some (.failure (.unbound name), m)

end Run

end SolidScript
