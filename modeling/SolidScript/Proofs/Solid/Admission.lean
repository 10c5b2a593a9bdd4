import SolidScript.Proofs.Solid.Nodes
import SolidScript.Proofs.Value.Parts

namespace SolidScript

-- Whatever else is wrong, it is not that some value is no primitive.
def Admits {α : Type} (x : Except CompileError α) : Prop := ∀ found, x ≠ .error (.notAPrimitive found)

namespace Admits

variable {α β : Type}

theorem ok (a : α) : Admits (.ok a) := nofun

theorem error {e : CompileError} (h : ∀ found, e ≠ .notAPrimitive found) :
    Admits (.error e : Except CompileError α) := by
  rintro found ⟨⟩
  exact h found rfl

theorem fail (a : Arguments) (e : ArgumentError) : Admits (a.fail e : Except CompileError α) := nofun

theorem bind {x : Except CompileError α} {f : α → Except CompileError β} (hx : Admits x) (hf : ∀ a, Admits (f a)) :
    Admits (x >>= f) := by
  cases x with
  | error e =>
    rintro found ⟨⟩
    exact hx found rfl
  | ok a => exact hf a

theorem either {p : Prop} [Decidable p] {x y : Except CompileError α} {f : α → Except CompileError β} (hx : Admits x)
    (hy : Admits y) (hf : ∀ a, Admits (f a)) : Admits (if p then x >>= f else y >>= f) := by
  split
  · exact bind hx hf
  · exact bind hy hf

theorem map {x : Except CompileError α} (f : α → β) (hx : Admits x) : Admits (f <$> x) := by
  cases x with
  | error e =>
    rintro found ⟨⟩
    exact hx found rfl
  | ok a => nofun

theorem mapM {f : α → Except CompileError β} (hf : ∀ a, Admits (f a)) (as : List α) : Admits (as.mapM f) := by
  induction as with
  | nil => exact ok []
  | cons a rest ih =>
    rw [List.mapM_cons]
    apply bind (hf a)
    intro b
    apply bind ih
    intro bs
    exact ok (b :: bs)

end Admits

namespace Arguments

variable (a : Arguments) (name : String)

theorem admits_number? : Admits (a.number? name) := by
  unfold number?
  split
  · exact .ok _
  · split
    · exact .ok _
    · exact .fail _ _

theorem admits_flag : Admits (a.flag name) := by
  unfold flag
  split
  · exact .ok _
  · exact .ok _
  · exact .fail _ _

theorem admits_elements (values : List Value) : Admits (a.elements name values) := by
  induction values with
  | nil => exact .ok _
  | cons value rest ih =>
    unfold elements
    split
    · apply Admits.bind ih
      intro numbers
      exact .ok _
    · exact .fail _ _

theorem admits_vector? (count : Nat) : Admits (a.vector? name count) := by
  unfold vector?
  split
  · exact .ok _
  · split
    · apply Admits.bind (a.admits_elements name _)
      intro numbers
      exact .ok _
    · exact .fail _ _
  · split
    · exact .ok _
    · exact .fail _ _

theorem admits_extent2? : Admits (a.extent2? name) := by
  apply Admits.bind (a.admits_vector? name 2)
  intro found
  split <;> exact .ok _

theorem admits_extent3? : Admits (a.extent3? name) := by
  apply Admits.bind (a.admits_vector? name 3)
  intro found
  split <;> exact .ok _

theorem admits_matrix : Admits (a.matrix name) := by
  unfold matrix
  split
  · exact .fail _ _
  · split
    · exact .ok _
    · exact .fail _ _
  · exact .fail _ _

theorem admits_point (value : Value) : Admits (a.point value) := by
  unfold point
  split
  · split
    · exact .ok _
    · exact .fail _ _
  · exact .fail _ _

theorem admits_points : Admits (a.points name) := by
  unfold points
  split
  · exact .fail _ _
  · exact .mapM a.admits_point _
  · exact .fail _ _

end Arguments

namespace Solid

theorem admits_halfOf? (a : Arguments) (name : String) : Admits (halfOf? a name) := by
  apply Admits.bind (a.admits_number? name)
  intro found
  exact .ok _

theorem admits_radius (a : Arguments) : Admits (radius a) := by
  apply Admits.bind (a.admits_number? "r")
  intro r
  split
  · exact .ok _
  · apply Admits.bind (admits_halfOf? a "d")
    intro half
    exact .ok _

variable (args : List Value)

theorem admits_readCube : Admits (readCube args) := by
  apply Admits.bind (Arguments.admits_extent3? _ "size")
  intro size
  apply Admits.bind (Arguments.admits_flag _ "center")
  intro center
  exact .ok _

theorem admits_readSphere : Admits (readSphere args) := admits_radius _

theorem admits_readCylinder : Admits (readCylinder args) := by
  apply Admits.bind (Arguments.admits_number? _ "h")
  intro height
  apply Admits.bind (Arguments.admits_flag _ "center")
  intro center
  apply Admits.bind (Arguments.admits_number? _ "r1")
  intro r1
  apply Admits.bind (Arguments.admits_number? _ "r2")
  intro r2
  refine Admits.either (.ok _) (admits_halfOf? _ "d2") fun top => ?_
  refine Admits.either (.ok _) (admits_halfOf? _ "d1") fun bottom => ?_
  apply Admits.bind (Arguments.admits_number? _ "r")
  intro r
  apply Admits.bind (admits_halfOf? _ "d")
  intro d
  exact .ok _

theorem admits_readSquare : Admits (readSquare args) := by
  apply Admits.bind (Arguments.admits_extent2? _ "size")
  intro size
  apply Admits.bind (Arguments.admits_flag _ "center")
  intro center
  exact .ok _

theorem admits_readCircle : Admits (readCircle args) := admits_radius _

theorem admits_readPolygon : Admits (readPolygon args) := by
  unfold readPolygon
  dsimp only
  split
  · exact .error nofun
  · apply Admits.bind (Arguments.admits_points _ "points")
    intro points
    split
    · split
      · exact .ok _
      · exact .error nofun
    · exact .error nofun

theorem admits_readMatrix : Admits (readMatrix args) := by
  apply Admits.bind (Arguments.admits_matrix _ "m")
  intro matrix
  split
  · exact .ok _
  · exact .error nofun

theorem admits_readExtrusion : Admits (readExtrusion args) := by
  apply Admits.bind (Arguments.admits_number? _ "height")
  intro height
  apply Admits.bind (Arguments.admits_flag _ "center")
  intro center
  apply Admits.bind (Arguments.admits_number? _ "twist")
  intro twist
  apply Admits.bind (Arguments.admits_extent2? _ "scale")
  intro scale
  exact .ok _

theorem admits_readAngle : Admits (readAngle args) := by
  apply Admits.bind (Arguments.admits_number? _ "angle")
  intro angle
  exact .ok _

theorem admits_block {make : Solid Float → List (Solid Float) → Except CompileError (Solid Float)}
    (h : ∀ first rest, Admits (make first rest)) (children : List (Solid Float)) : Admits (block make children) := by
  cases children with
  | nil => exact .ok _
  | cons first rest =>
    apply Admits.bind (h first rest)
    intro solid
    exact .ok _

-- A solid that one reader makes.
theorem admits_made {α : Type} {x : Except CompileError α} (make : α → Solid Float) (h : Admits x) :
    Admits (do return make (← x)) := by
  apply Admits.bind h
  intro read
  exact .ok _

open Value

mutual

theorem admits_ofValue : (v : Value) → v.nodes.all isPrimitive → Admits (ofValue v)
  | .primitive ref kind args body, hv => by
    simp only [nodes, List.all_append, Bool.and_eq_true] at hv
    have hblock {make : Solid Float → List (Solid Float) → Except CompileError (Solid Float)}
        (h : ∀ first rest, Admits (make first rest)) : Admits (ofBody body >>= block make) := by
      apply Admits.bind (admits_ofBody body hv.1)
      intro children
      exact admits_block h children
    cases kind with
    | cube => exact .map _ (admits_made _ (admits_readCube args))
    | sphere => exact .map _ (admits_made _ (admits_readSphere args))
    | cylinder => exact .map _ (admits_made _ (admits_readCylinder args))
    | square => exact .map _ (admits_made _ (admits_readSquare args))
    | circle => exact .map _ (admits_made _ (admits_readCircle args))
    | polygon => exact .map _ (admits_made _ (admits_readPolygon args))
    | union | difference | intersection | group | color => exact hblock fun _ _ => .ok _
    | multmatrix => exact hblock fun _ _ => admits_made _ (admits_readMatrix args)
    | linearExtrude => exact hblock fun _ _ => admits_made _ (admits_readExtrusion args)
    | rotateExtrude => exact hblock fun _ _ => admits_made _ (admits_readAngle args)
    | hull | minkowski | projection | polyhedron | text => exact .error nofun
  | .int _, hv | .float _, hv | .string _, hv | .bool _, hv | .null, hv | .array .., hv | .hash .., hv
  | .function .., hv | .builtin _, hv | .failure _, hv | .returned _, hv | .named .., hv => by cases hv

theorem admits_ofValues : (vs : List Value) → (nodesEach vs).all isPrimitive → Admits (ofValues vs)
  | [], _ => .ok _
  | v :: rest, h => by
    rw [nodesEach, List.all_append, Bool.and_eq_true] at h
    apply Admits.bind (admits_ofValue v h.1)
    intro solid
    apply Admits.bind (admits_ofValues rest h.2)
    intro solids
    exact .ok _

theorem admits_ofBody : (body : Option (List Value)) → (bodyNodes body).all isPrimitive → Admits (ofBody body)
  | none, _ => .ok _
  | some children, h => admits_ofValues children h

end

end Solid

theorem admits_compile {scene : List Value} (h : (Value.nodesEach scene).all Value.isPrimitive) (center : Bool) :
    Admits (compile scene center) := by
  rw [compile_eq]
  apply Admits.bind (Solid.admits_ofValues scene h)
  intro solids
  split <;> exact .ok _

end SolidScript
