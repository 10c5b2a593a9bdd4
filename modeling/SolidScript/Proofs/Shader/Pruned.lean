import SolidScript.Shader.Model
import SolidScript.Proofs.Solid.Nodes

namespace SolidScript

-- Objects some of which are left out, at any depth. Only what has no geometry is left out.
inductive Pruned : List Value → List Value → Prop
  | nil : Pruned [] []
  | keep (v : Value) {vs vs' : List Value} : Pruned vs vs' → Pruned (v :: vs) (v :: vs')
  | drop {v : Value} {vs vs' : List Value} : v.hasGeometry = false → Pruned vs vs' → Pruned (v :: vs) vs'
  | inside (ref ref' : Nat) (kind : Primitive) (args : List Value) {children children' vs vs' : List Value} :
      Pruned children children' → Pruned vs vs' →
      Pruned (.primitive ref kind args (some children) :: vs) (.primitive ref' kind args (some children') :: vs')

namespace Solid

open Value

section Geometry

variable {ref : Nat} {kind : Primitive} {args : List Value} {body : Option (List Value)}

theorem isSome_shape {x : Except CompileError (Solid Float)} (hk : kind.isShape) :
    Returns (fun solid => (Value.primitive ref kind args body).hasGeometry = solid.isSome) (some <$> x) :=
  Returns.map (q := fun _ => True) (fun _ _ => trivial) fun _ _ => hasGeometry_shape hk

theorem isSome_block {make : Solid Float → List (Solid Float) → Except CompileError (Solid Float)}
    {solids : List (Solid Float)} (hk : kind.isBlock) (h : (body.getD []).any hasGeometry = !solids.isEmpty) :
    Returns (fun solid => (Value.primitive ref kind args body).hasGeometry = solid.isSome) (block make solids) := by
  have hg : (Value.primitive ref kind args body).hasGeometry = (body.getD []).any hasGeometry := hasGeometry_block hk
  rw [← hg] at h
  cases solids with
  | nil => exact .pure h
  | cons first rest => exact .bind fun _ => .pure h

end Geometry

mutual

-- What is read as a solid are the values with geometry.
theorem isSome_ofValue : (v : Value) → Returns (fun solid => v.hasGeometry = solid.isSome) (ofValue v)
  | .primitive ref kind args body => by
    have hbody := isEmpty_ofBody body
    cases kind with
    | cube | sphere | cylinder | square | circle | polygon => exact isSome_shape rfl
    | union | difference | intersection | group | color | multmatrix | linearExtrude | rotateExtrude =>
      exact hbody.and_then fun _ h => isSome_block rfl h
    | hull | minkowski | projection | polyhedron | text => exact .throw
  | .int _ | .float _ | .string _ | .bool _ | .null | .array .. | .hash .. | .function .. | .builtin _ | .failure _
  | .returned _ | .named .. => .throw

theorem isEmpty_ofValues : (vs : List Value) → Returns (fun solids => vs.any hasGeometry = !solids.isEmpty) (ofValues vs)
  | [] => .pure rfl
  | v :: rest => (isSome_ofValue v).and_then fun solid hv => (isEmpty_ofValues rest).and_then fun solids hr => .pure (by
      rw [List.any_cons, hv, hr]
      cases solid <;> simp)

theorem isEmpty_ofBody :
    (body : Option (List Value)) → Returns (fun solids => (body.getD []).any hasGeometry = !solids.isEmpty) (ofBody body)
  | none => .pure rfl
  | some children => isEmpty_ofValues children

end

-- Whatever comes back from `x` comes back from `y`.
def Passes {ε α : Type} (x y : Except ε α) : Prop := Returns (fun a => y = .ok a) x

namespace Passes

theorem refl {ε α : Type} (x : Except ε α) : Passes x x := fun _ => id

theorem bind {ε α β : Type} {x y : Except ε α} {f g : α → Except ε β} (h : Passes x y) (hf : ∀ a, Passes (f a) (g a)) :
    Passes (x >>= f) (y >>= g) := by
  intro b hb
  cases x with
  | error e => cases hb
  | ok a =>
    rw [h a rfl]
    exact hf a b hb

end Passes

theorem passes_cons {v v' : Value} {vs vs' : List Value} (hv : Passes (ofValue v) (ofValue v'))
    (h : Passes (ofValues vs) (ofValues vs')) : Passes (ofValues (v :: vs)) (ofValues (v' :: vs')) :=
  hv.bind fun _ => h.bind fun _ => .refl _

theorem passes_drop {v : Value} {vs vs' : List Value} (hv : v.hasGeometry = false)
    (h : Passes (ofValues vs) (ofValues vs')) : Passes (ofValues (v :: vs)) (ofValues vs') := by
  refine (isSome_ofValue v).and_then fun solid hs => ?_
  obtain rfl : solid = none := by simpa [hv] using hs
  intro solids hr
  cases hvs : ofValues vs with
  | error e =>
    rw [hvs] at hr
    cases hr
  | ok found =>
    rw [hvs] at hr
    cases hr
    exact h found hvs

theorem passes_inside {children children' : List Value} (ref ref' : Nat) (kind : Primitive) (args : List Value)
    (h : Passes (ofValues children) (ofValues children')) :
    Passes (ofValue (.primitive ref kind args (some children))) (ofValue (.primitive ref' kind args (some children'))) := by
  cases kind with
  | cube | sphere | cylinder | square | circle | polygon => exact .refl _
  | union | difference | intersection | group | color | multmatrix | linearExtrude | rotateExtrude =>
    exact h.bind fun _ => .refl _
  | hull | minkowski | projection | polyhedron | text => exact .throw

-- A scene is read as the same solids without its parts that have no geometry.
theorem passes_ofValues {vs vs' : List Value} (h : Pruned vs vs') : Passes (ofValues vs) (ofValues vs') := by
  induction h with
  | nil => exact .refl _
  | keep v _ ih => exact passes_cons (.refl _) ih
  | drop hv _ ih => exact passes_drop hv ih
  | inside ref ref' kind args _ _ ihc ih => exact passes_cons (passes_inside ref ref' kind args ihc) ih

end Solid

theorem compile_of_pruned {scene scene' : List Value} {center : Bool} {shader : Option (Shader Float)}
    (h : Pruned scene scene') (hs : compile scene center = .ok shader) : compile scene' center = .ok shader := by
  rw [compile_eq] at hs ⊢
  exact (Solid.passes_ofValues h).bind (fun _ => .refl _) shader hs

theorem isSome_compile {scene : List Value} {center : Bool} {shader : Option (Shader Float)}
    (h : compile scene center = .ok shader) : shader.isSome = scene.any Value.hasGeometry := by
  have hreturns : Solid.Returns (fun shader => shader.isSome = scene.any Value.hasGeometry) (compile scene center) := by
    rw [compile_eq]
    refine (Solid.isEmpty_ofValues scene).and_then fun solids hs => ?_
    cases solids with
    | nil => exact .pure hs.symm
    | cons first rest => exact .pure hs.symm
  exact hreturns shader h

-- Nothing is made on the way through a scene without geometry.
theorem values_of_empty {scene : List Value} {children : Option Compiler.Children} {made made' : Compiler.Made}
    (h : Compiler.values scene none made = .ok (children, made')) (hg : scene.any Value.hasGeometry = false) :
    children = none ∧ made' = made := by
  rw [Compiler.values_eq] at h
  cases hsolids : Solid.ofValues scene with
  | error e =>
    rw [hsolids] at h
    cases h
  | ok solids =>
    have hempty : solids = [] := by simpa [hg] using Solid.isEmpty_ofValues scene solids hsolids
    rw [hsolids, hempty] at h
    cases h
    exact ⟨rfl, made.after_nil⟩

-- Whether a text starts with two characters other than `sc`.
def startsApart (text : String) : Bool :=
  match text.toList with
  | c :: d :: _ => (c, d) != ('s', 'c')
  | _ => false

theorem startsApart_append {a : String} (h : startsApart a) (b : String) : startsApart (a ++ b) := by
  unfold startsApart at h ⊢
  rw [String.toList_append]
  split at h
  · rw [‹a.toList = _›]
    exact h
  · cases h

-- No other error is told in the words of a scene without geometry.
theorem startsApart_message (e : CompileError) : startsApart e.message := by
  cases e with
  | eval error =>
    cases error with
    | parse errors => exact startsApart_append (by decide +kernel) _
    | exhausted => decide +kernel
    | fault cause =>
      cases cause
      case divisionByZero => decide +kernel
      all_goals
        repeat apply startsApart_append
        decide +kernel
  | argument kind error =>
    refine startsApart_append (startsApart_append ?_ _) _
    cases kind <;> decide +kernel
  | singularMatrix determinant => exact startsApart_append (startsApart_append (by decide +kernel) _) _
  | tooFewPoints _ | unsupported _ | notAPrimitive _ => exact startsApart_append (by decide +kernel) _
  | concavePolygon | polygonPaths => decide +kernel

theorem message_eq_iff {e : ConvertError} : e.message = "scene contains no geometry" ↔ e = .noGeometry := by
  cases e with
  | noGeometry => simp [ConvertError.message]
  | compile error =>
    constructor
    · intro h
      have hapart := startsApart_message error
      rw [ConvertError.message] at h
      rw [h] at hapart
      exact absurd hapart (by decide +kernel)
    · exact nofun

theorem convert_noGeometry_iff (source : String) (center : Bool) (options : Model.Options) :
    (convert source center options).1 = .error .noGeometry ↔
      ∃ scene m, Machine.initial.evaluate 0 source = (.ok scene, m) ∧ compile scene center = .ok none := by
  unfold convert compileIn
  cases hm : Machine.initial.evaluate 0 source with
  | mk result m =>
    cases result with
    | error e => simp
    | ok scene =>
      cases hc : compile scene center with
      | error e => simp [hc]
      | ok shader => cases shader <;> simp [hc]

-- Parts without geometry leave nothing in a shader. A scene without geometry has no shader, and nothing but that keeps
-- a scene that can be compiled from being converted.
theorem compile_pruned (center : Bool) :
    (∀ {scene scene' : List Value} {shader : Option (Shader Float)}, Pruned scene scene' →
      compile scene center = .ok shader → compile scene' center = .ok shader) ∧
    (∀ {scene : List Value} {shader : Option (Shader Float)}, compile scene center = .ok shader →
      (shader.map Shader.box = none ↔ scene.any Value.hasGeometry = false) ∧
      (scene.any Value.hasGeometry = false → shader.elim [] Shader.functions = [] ∧ shader.elim [] Shader.library = [])) ∧
    (∀ {scene : List Value} {children : Option Compiler.Children} {made made' : Compiler.Made},
      Compiler.values scene none made = .ok (children, made') → scene.any Value.hasGeometry = false →
        children = none ∧ made' = made) ∧
    ∀ (source : String) (options : Model.Options),
      (∃ e, (convert source center options).1 = .error e ∧ e.message = "scene contains no geometry") ↔
        ∃ scene m, Machine.initial.evaluate 0 source = (.ok scene, m) ∧ (∃ shader, compile scene center = .ok shader) ∧
          scene.any Value.hasGeometry = false := by
  refine ⟨compile_of_pruned, ?_, values_of_empty, ?_⟩
  · intro scene shader h
    rw [← isSome_compile h]
    cases shader <;> simp
  · intro source options
    simp only [message_eq_iff, exists_eq_right, convert_noGeometry_iff]
    constructor
    · rintro ⟨scene, m, heval, h⟩
      exact ⟨scene, m, heval, ⟨none, h⟩, (isSome_compile h).symm⟩
    · rintro ⟨scene, m, heval, ⟨shader, h⟩, hg⟩
      obtain rfl : shader = none := by simpa [hg] using isSome_compile h
      exact ⟨scene, m, heval, h⟩

-- A block without geometry may even lack the arguments that it needs.
theorem compile_pruned_nested :
    let empty : Value := .primitive 0 .multmatrix [] (some [.primitive 1 .union [] none])
    let cube : Value := .primitive 2 .cube [] none
    let sphere : Value := .primitive 3 .sphere [] none
    let join (children : List Value) : Value := .primitive 4 .group [] (some children)
    let scene : List Value := [empty, join [cube, empty, join [empty, sphere]]]
    let scene' : List Value := [join [cube, join [sphere]]]
    (∃ shader, compile scene true = .ok (some shader) ∧ compile scene' true = .ok (some shader)) ∧
      compile [empty] true = .ok none ∧ [empty].any Value.hasGeometry = false := by
  intro empty cube sphere join scene scene'
  have hempty : compile [empty] true = .ok none := rfl
  have hnone := ((compile_pruned true).2.1 hempty).1.1 rfl
  have hgeometry : empty.hasGeometry = false := by simpa using hnone
  have hinner : Pruned [empty, sphere] [sphere] := .drop hgeometry (.keep sphere .nil)
  have houter : Pruned [cube, empty, join [empty, sphere]] [cube, join [sphere]] :=
    .keep cube (.drop hgeometry (.inside _ _ _ _ hinner .nil))
  have hpruned : Pruned scene scene' := .drop hgeometry (.inside _ _ _ _ houter .nil)
  obtain ⟨shader, hs⟩ : ∃ shader, compile scene true = .ok (some shader) := ⟨_, rfl⟩
  exact ⟨⟨shader, hs, (compile_pruned true).1 hpruned hs⟩, hempty, hnone⟩

end SolidScript
