import Mathlib.Tactic.Common
import SolidScript.Proofs.Solid.Tree
import SolidScript.Proofs.Shader.Emission

namespace SolidScript

namespace Primitive

-- The kinds of geometry that is no block.
def isShape : Primitive → Bool
  | circle | cube | cylinder | polygon | sphere | square => true
  | _ => false

-- The blocks that a shader can be made of.
def isBlock : Primitive → Bool
  | color | difference | group | intersection | linearExtrude | multmatrix | rotateExtrude | union => true
  | _ => false

end Primitive

namespace Shader

-- The kind of the node that a function is made for.
def Body.kind : Body α → Primitive
  | combine .union _ => .union
  | combine .difference _ => .difference
  | combine .intersection _ => .intersection
  | combine .group _ => .group
  | combine .color _ => .color
  | transform .. => .multmatrix
  | extrude .. => .linearExtrude
  | revolve .. => .rotateExtrude
  | polygon .. => .polygon

end Shader

namespace Value

mutual

-- Everything in the blocks below a value, and the value itself. A node stands behind what it is made of.
def nodes : Value → List Value
  | .primitive ref kind args body => bodyNodes body ++ [.primitive ref kind args body]
  | v => [v]
termination_by structural v => v

def nodesEach : List Value → List Value
  | [] => []
  | v :: rest => nodes v ++ nodesEach rest
termination_by structural vs => vs

def bodyNodes : Option (List Value) → List Value
  | none => []
  | some children => nodesEach children
termination_by structural b => b

end

def kind? : Value → Option Primitive
  | primitive _ kind _ _ => some kind
  | _ => none

def children : Value → List Value
  | primitive _ _ _ body => body.getD []
  | _ => []

def isGeometry : Value → Bool
  | primitive _ kind _ _ => kind.isShape
  | _ => false

def hasGeometry (v : Value) : Bool := v.nodes.any isGeometry

-- The polygons, and the blocks with geometry.
def needsFunction : Value → Bool
  | primitive ref kind args body => kind == .polygon || kind.isBlock && (primitive ref kind args body).hasGeometry
  | _ => false

-- Only a primitive that accepts a block has one.
def isBare : Value → Bool
  | primitive _ kind _ body => kind.acceptsBody || body.isNone
  | _ => true

theorem bodyNodes_eq (body : Option (List Value)) : bodyNodes body = nodesEach (body.getD []) := by
  cases body <;> rfl

theorem nodesEach_singleton (ref : Nat) (kind : Primitive) (args : List Value) (body : Option (List Value)) :
    nodesEach [.primitive ref kind args body] = nodesEach (body.getD []) ++ [.primitive ref kind args body] := by
  rw [nodesEach, nodesEach, List.append_nil, nodes, bodyNodes_eq]

theorem nodesEach_append (vs vs' : List Value) : nodesEach (vs ++ vs') = nodesEach vs ++ nodesEach vs' := by
  induction vs with
  | nil => rfl
  | cons v vs ih => rw [List.cons_append, nodesEach, nodesEach, ih, List.append_assoc]

theorem any_nodesEach (vs : List Value) : (nodesEach vs).any isGeometry = vs.any hasGeometry := by
  induction vs with
  | nil => rfl
  | cons v vs ih => rw [nodesEach, List.any_append, ih, List.any_cons, hasGeometry]

section Primitives

variable {ref : Nat} {kind : Primitive} {args : List Value} {body : Option (List Value)}

theorem hasGeometry_shape (h : kind.isShape) : (primitive ref kind args body).hasGeometry := by
  simp [hasGeometry, nodes, isGeometry, h]

theorem hasGeometry_block (h : kind.isBlock) :
    (primitive ref kind args body).hasGeometry = (body.getD []).any hasGeometry := by
  have hshape : kind.isShape = false := by
    cases kind <;> first | rfl | cases h
  rw [hasGeometry, nodes, List.any_append, bodyNodes_eq, any_nodesEach]
  simp [isGeometry, hshape]

theorem needsFunction_block (h : kind.isBlock) :
    (primitive ref kind args body).needsFunction = (primitive ref kind args body).hasGeometry := by
  have hpolygon : (kind == .polygon) = false := by
    cases kind <;> first | rfl | cases h
  rw [needsFunction, h, hpolygon, Bool.false_or, Bool.true_and]

theorem needsFunction_leaf (h : kind.isShape) (hp : kind ≠ .polygon) :
    (primitive ref kind args body).needsFunction = false := by
  have hblock : kind.isBlock = false := by
    cases kind <;> first | rfl | cases h
  simp [needsFunction, hblock, hp]

end Primitives

end Value

namespace Solid

open Value Shader

-- What holds of a result, if there is one.
def Returns {ε α : Type} (p : α → Prop) (x : Except ε α) : Prop := ∀ a, x = .ok a → p a

namespace Returns

variable {ε α β : Type} {p : β → Prop}

theorem and_then {q : α → Prop} {x : Except ε α} {f : α → Except ε β} (hx : Returns q x)
    (h : ∀ a, q a → Returns p (f a)) : Returns p (x >>= f) := by
  intro b hb
  cases x with
  | error e => cases hb
  | ok a => exact h a (hx a rfl) b hb

theorem bind {x : Except ε α} {f : α → Except ε β} (h : ∀ a, Returns p (f a)) : Returns p (x >>= f) :=
  and_then (q := fun _ => True) (fun _ _ => trivial) fun a _ => h a

theorem map {q : α → Prop} {x : Except ε α} {f : α → β} (hx : Returns q x) (h : ∀ a, q a → p (f a)) :
    Returns p (f <$> x) := by
  intro b hb
  cases x with
  | error e => cases hb
  | ok a =>
    cases hb
    exact h a (hx a rfl)

theorem imp {q : β → Prop} {x : Except ε β} (hx : Returns q x) (h : ∀ b, q b → p b) : Returns p x :=
  fun b hb => h b (hx b hb)

theorem pure {b : β} (h : p b) : Returns p (.ok b : Except ε β) := by
  rintro _ ⟨⟩
  exact h

theorem throw {e : ε} : Returns p (.error e : Except ε β) := nofun

end Returns

-- A solid that is emitted as a call of the library.
def IsCall (kind : Primitive) (s : Solid Float) : Prop :=
  ∀ count, ∃ call f, s.emit count = (call, []) ∧ call.library? = some f ∧ f.name = kind.keyword

-- A solid that is emitted as a function around what its children are emitted as.
def Closes (kind : Primitive) (children : List (Solid Float)) (s : Solid Float) : Prop :=
  ∀ count, ∃ stem body, body.kind = kind ∧ body.calls = (emitEach count children).1 ∧
    s.emit count = close count (emitEach count children).2 stem body

-- A solid that one reader makes.
theorem returns_made {ε α : Type} {p : Solid Float → Prop} {x : Except ε α} {make : α → Solid Float}
    (h : ∀ a, p (make a)) : Returns p (do return make (← x)) := by
  refine Returns.bind ?_
  intro a
  exact .pure (h a)

theorem ofCube_isCall (args : List Value) : Returns (IsCall .cube) (ofCube args) :=
  returns_made fun _ _ => ⟨_, _, rfl, rfl, rfl⟩

theorem ofSphere_isCall (args : List Value) : Returns (IsCall .sphere) (ofSphere args) :=
  returns_made fun _ _ => ⟨_, _, rfl, rfl, rfl⟩

theorem ofCylinder_isCall (args : List Value) : Returns (IsCall .cylinder) (ofCylinder args) :=
  returns_made fun _ _ => ⟨_, _, rfl, rfl, rfl⟩

theorem ofSquare_isCall (args : List Value) : Returns (IsCall .square) (ofSquare args) :=
  returns_made fun _ _ => ⟨_, _, rfl, rfl, rfl⟩

theorem ofCircle_isCall (args : List Value) : Returns (IsCall .circle) (ofCircle args) :=
  returns_made fun _ _ => ⟨_, _, rfl, rfl, rfl⟩

theorem ofPolygon_closes (args : List Value) : Returns (Closes .polygon []) (ofPolygon args) :=
  returns_made fun _ _ => ⟨_, _, rfl, rfl, rfl⟩

-- A shape has no children, since only blocks accept them.
theorem returns_shape {p : List Value → List (Solid Float) → Prop} {ref : Nat} {kind : Primitive} {args : List Value}
    {body : Option (List Value)} {x : Except CompileError (Solid Float)} (hb : isBare (.primitive ref kind args body))
    (hk : kind.isShape) (hx : Returns (fun s => p [.primitive ref kind args none] [s]) x) :
    Returns (fun solid => p [.primitive ref kind args body] solid.toList) (some <$> x) := by
  have haccepts : kind.acceptsBody = false := by
    cases kind <;> first | rfl | cases hk
  have hnone : body = none := by simpa [isBare, haccepts] using hb
  subst hnone
  exact hx.map fun s hs => hs

-- What holds of values and the solids that they are read as, if it is kept by every way of reading.
structure Kept (p : List Value → List (Solid Float) → Prop) : Prop where
  nil : p [] []
  append {vs vs' : List Value} {ss ss' : List (Solid Float)} : p vs ss → p vs' ss' → p (vs ++ vs') (ss ++ ss')
  leaf {ref : Nat} {kind : Primitive} {args : List Value} {s : Solid Float} :
    kind.isShape → kind ≠ .polygon → IsCall kind s → p [.primitive ref kind args none] [s]
  polygon {ref : Nat} {args : List Value} {s : Solid Float} : Closes .polygon [] s → p [.primitive ref .polygon args none] [s]
  empty {ref : Nat} {kind : Primitive} {args : List Value} {body : Option (List Value)} :
    kind.isBlock → p (body.getD []) [] → p [.primitive ref kind args body] []
  block {ref : Nat} {kind : Primitive} {args : List Value} {body : Option (List Value)} {first s : Solid Float}
    {rest : List (Solid Float)} :
    kind.isBlock → p (body.getD []) (first :: rest) → Closes kind (first :: rest) s → p [.primitive ref kind args body] [s]

namespace Kept

variable {p : List Value → List (Solid Float) → Prop} (hp : Kept p)

include hp

theorem returns_block {ref : Nat} {kind : Primitive} {args : List Value} {body : Option (List Value)}
    {make : Solid Float → List (Solid Float) → Except CompileError (Solid Float)} {solids : List (Solid Float)}
    (hk : kind.isBlock) (hmake : ∀ first rest, Returns (Closes kind (first :: rest)) (make first rest))
    (h : p (body.getD []) solids) :
    Returns (fun solid => p [.primitive ref kind args body] solid.toList) (Solid.block make solids) := by
  cases solids with
  | nil => exact .pure (hp.empty hk h)
  | cons first rest =>
    refine (hmake first rest).and_then ?_
    intro s hs
    exact .pure (hp.block hk h hs)

mutual

theorem ofValue : (v : Value) → v.nodes.all isBare → Returns (fun solid => p [v] solid.toList) (Solid.ofValue v)
  | .primitive ref kind args body, hv => by
    simp only [nodes, List.all_append, List.all_cons, List.all_nil, Bool.and_true, Bool.and_eq_true] at hv
    have hbody := ofBody body hv.1
    cases kind with
    | cube => exact returns_shape hv.2 rfl ((ofCube_isCall args).imp fun _ => hp.leaf rfl nofun)
    | sphere => exact returns_shape hv.2 rfl ((ofSphere_isCall args).imp fun _ => hp.leaf rfl nofun)
    | cylinder => exact returns_shape hv.2 rfl ((ofCylinder_isCall args).imp fun _ => hp.leaf rfl nofun)
    | square => exact returns_shape hv.2 rfl ((ofSquare_isCall args).imp fun _ => hp.leaf rfl nofun)
    | circle => exact returns_shape hv.2 rfl ((ofCircle_isCall args).imp fun _ => hp.leaf rfl nofun)
    | polygon => exact returns_shape hv.2 rfl ((ofPolygon_closes args).imp fun _ => hp.polygon)
    | union | difference | intersection | group | color =>
      refine hbody.and_then ?_
      intro children h
      refine hp.returns_block rfl ?_ h
      intro first rest
      exact .pure fun _ => ⟨_, _, rfl, rfl, rfl⟩
    | multmatrix | linearExtrude | rotateExtrude =>
      refine hbody.and_then ?_
      intro children h
      refine hp.returns_block rfl ?_ h
      intro first rest
      exact returns_made fun _ _ => ⟨_, _, rfl, rfl, rfl⟩
    | hull | minkowski | projection | polyhedron | text => exact .throw
  | .int _, _ | .float _, _ | .string _, _ | .bool _, _ | .null, _ | .array .., _ | .hash .., _ | .function .., _
  | .builtin _, _ | .failure _, _ | .returned _, _ | .named .., _ => .throw

theorem ofValues : (vs : List Value) → (nodesEach vs).all isBare → Returns (p vs) (Solid.ofValues vs)
  | [], _ => .pure hp.nil
  | v :: rest, h => by
    rw [nodesEach, List.all_append, Bool.and_eq_true] at h
    refine (ofValue v h.1).and_then ?_
    intro solid hv
    refine (ofValues rest h.2).and_then ?_
    intro solids hr
    exact .pure (hp.append hv hr)

theorem ofBody : (body : Option (List Value)) → (bodyNodes body).all isBare → Returns (p (body.getD [])) (Solid.ofBody body)
  | none, _ => .pure hp.nil
  | some children, h => ofValues children h

end

end Kept

end Solid

end SolidScript
