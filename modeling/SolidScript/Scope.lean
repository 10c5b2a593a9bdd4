import SolidScript.Value

namespace SolidScript

structure Scope where
  bindings : List (String × Value)
  outer : Option Nat
deriving Inhabited

namespace Scope

-- Binds a name anew, or changes its value where it stands.
def bindIn (name : String) (value : Value) : List (String × Value) → List (String × Value)
  | [] => [(name, value)]
  | (n, v) :: rest => if n = name then (name, value) :: rest else (n, v) :: bindIn name value rest

-- The bindings that result from a list of them, where the last one of a name counts.
def bindAll (bindings : List (String × Value)) : List (String × Value) :=
  bindings.foldl (fun found (name, value) => bindIn name value found) []

def find? (s : Scope) (name : String) : Option Value := s.bindings.lookup name

def set (s : Scope) (name : String) (value : Value) : Scope :=
  { s with bindings := bindIn name value s.bindings }

theorem lookup_bindIn (name other : String) (value : Value) (bindings : List (String × Value)) :
    (bindIn name value bindings).lookup other = if other = name then some value else bindings.lookup other := by
  induction bindings with
  | nil =>
      by_cases h : other = name
      · simp [bindIn, h]
      · have hb : (other == name) = false := by simpa using h
        simp [bindIn, List.lookup_cons, h, hb]
  | cons b rest ih =>
      obtain ⟨n, v⟩ := b
      by_cases hn : n = name
      · subst hn
        by_cases h : other = n
        · simp [bindIn, h]
        · have hb : (other == n) = false := by simpa using h
          simp [bindIn, List.lookup_cons, h, hb]
      · simp only [bindIn, hn, if_false, List.lookup_cons]
        -- The head keeps its value, and its name is not the one that was bound.
        split
        · rename_i he
          have : other = n := by simpa using he
          simp [this, hn]
        · exact ih

-- A bound name has its new value, and every other name keeps its own.
theorem find?_set (s : Scope) (name other : String) (value : Value) :
    (s.set name value).find? other = if other = name then some value else s.find? other :=
  lookup_bindIn name other value s.bindings

@[simp] theorem outer_set (s : Scope) (name : String) (value : Value) : (s.set name value).outer = s.outer := rfl

end Scope

structure Scopes where
  all : Array Scope
deriving Inhabited

namespace Scopes

def empty : Scopes := ⟨#[]⟩

def size (s : Scopes) : Nat := s.all.size

-- The number of the scope that `create` and `enclose` would make.
def next (s : Scopes) : Nat := s.size

-- Makes a scope that has no outer one.
def create (s : Scopes) : Scopes := ⟨s.all.push ⟨[], none⟩⟩

-- Makes a scope inside another, and binds the given names in it one after the other.
def enclose (s : Scopes) (outer : Nat) (bindings : List (String × Value)) : Scopes :=
  ⟨s.all.push ⟨Scope.bindAll bindings, some outer⟩⟩

def set (s : Scopes) (id : Nat) (name : String) (value : Value) : Scopes :=
  ⟨s.all.modify id (·.set name value)⟩

-- The value of a name in the nearest scope that has one.
def get? (s : Scopes) (id : Nat) (name : String) : Option Value :=
  match s.all[id]? with
  | none => none
  | some scope =>
    match scope.find? name with
    | some value => some value
    | none =>
      match scope.outer with
      | none => none
      | some outer => if outer < id then get? s outer name else none
termination_by id

end Scopes

end SolidScript
