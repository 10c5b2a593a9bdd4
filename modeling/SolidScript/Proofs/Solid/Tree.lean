import SolidScript.Shader.Compiler

namespace SolidScript

-- A scene as a tree of solids. A solid always has geometry, so a block has a first child, and a `transform` keeps the
-- inverse of its matrix beside it. The box of a solid and the functions that are made for it are recursions over the
-- tree.
inductive Solid (α : Type) where
  | cube (size : Extent3 α) (center : Bool)
  | sphere (radius : α)
  | cylinder (height bottom top : α) (center : Bool)
  | square (size : Extent2 α) (center : Bool)
  | circle (radius : α)
  | polygon (fill : Fill α)
  | combine (combination : Combination) (first : Solid α) (rest : List (Solid α))
  | transform (matrix inverse : Mat4 α) (first : Solid α) (rest : List (Solid α))
  | extrude (extrusion : Extrusion α) (first : Solid α) (rest : List (Solid α))
  | revolve (degrees : α) (first : Solid α) (rest : List (Solid α))

namespace Solid

mutual

-- The box around a solid.
def box [Scalar α] : Solid α → Box α
  | .cube size center => .ofExtent size.toVec center
  | .sphere radius => .symmetric (.splat radius)
  | .cylinder height bottom top center => cylinderBox height bottom top center
  | .square size center => .ofExtent size.toVec.flat center
  | .circle radius => .symmetric ⟨radius, radius, Scalar.zero⟩
  | .polygon fill => fill.box
  | .combine _ first rest => mergeBoxes (box first) rest
  | .transform matrix _ first rest => (mergeBoxes (box first) rest).transform matrix
  | .extrude extrusion first rest => extrusion.box (mergeBoxes (box first) rest)
  | .revolve _ first rest => (mergeBoxes (box first) rest).revolved
termination_by structural s => s

-- The box around `found` and all the given solids.
def mergeBoxes [Scalar α] (found : Box α) : List (Solid α) → Box α
  | [] => found
  | s :: rest => mergeBoxes (found.merge (box s)) rest
termination_by structural ss => ss

end

end Solid

namespace Shader

-- Adds a function to those made before it. The first `count` numbers are taken.
def close (count : Nat) (made : List (Function α)) (stem : Stem) (body : Body α) : Call α × List (Function α) :=
  let name : Name := ⟨stem, count + made.length⟩
  (.block name, made ++ [⟨name, body⟩])

end Shader

namespace Solid

open Shader

mutual

-- The call that stands for a solid, and the functions that it needs. The first `count` numbers are taken.
def emit [Scalar α] (count : Nat) : Solid α → Call α × List (Function α)
  | .cube size center => (.cube size center, [])
  | .sphere radius => (.sphere radius, [])
  | .cylinder height bottom top center => (.cylinder height bottom top center, [])
  | .square size center => (.square size center, [])
  | .circle radius => (.circle radius, [])
  | .polygon fill => close count [] .polygon (.polygon fill.corners.1 fill.corners.2 fill.bands)
  | .combine combination first rest =>
    let (call, made) := emit count first
    let (calls, more) := emitEach (count + made.length) rest
    close count (made ++ more) (.combination combination) (.combine combination (call :: calls))
  | .transform _ inverse first rest =>
    let (call, made) := emit count first
    let (calls, more) := emitEach (count + made.length) rest
    close count (made ++ more) .transform (.transform inverse (call :: calls))
  | .extrude extrusion first rest =>
    let (call, made) := emit count first
    let (calls, more) := emitEach (count + made.length) rest
    close count (made ++ more) .extrude (.extrude extrusion (call :: calls))
  | .revolve degrees first rest =>
    let (call, made) := emit count first
    let (calls, more) := emitEach (count + made.length) rest
    close count (made ++ more) .revolve (.revolve degrees (call :: calls))
termination_by structural s => s

def emitEach [Scalar α] (count : Nat) : List (Solid α) → List (Call α) × List (Function α)
  | [] => ([], [])
  | s :: rest =>
    let (call, made) := emit count s
    let (calls, more) := emitEach (count + made.length) rest
    (call :: calls, made ++ more)
termination_by structural ss => ss

end

mutual

-- The library functions that the shader of a solid needs, in no order and with repetitions.
def requires : Solid α → List LibraryFunction
  | .cube .. => [.cube]
  | .sphere _ => [.sphere]
  | .cylinder .. => [.cylinder]
  | .square .. => [.square]
  | .circle _ => [.circle]
  | .polygon _ => [.testTwoLineSegments]
  | .combine _ first rest => requires first ++ requiresEach rest
  | .transform _ _ first rest => requires first ++ requiresEach rest
  | .extrude extrusion first rest =>
    requires first ++ requiresEach rest ++ (if extrusion.twist.isSome then [.rotAxis, .rotZ] else [])
  | .revolve _ first rest => requires first ++ requiresEach rest ++ [.rotAxis, .rotZ]
termination_by structural s => s

def requiresEach : List (Solid α) → List LibraryFunction
  | [] => []
  | s :: rest => requires s ++ requiresEach rest
termination_by structural ss => ss

end

end Solid

namespace Shader

-- The shader of the solids of a scene.
def ofSolids [Scalar α] (center : Bool) (first : Solid α) (rest : List (Solid α)) : Shader α :=
  let (calls, functions) := Solid.emitEach 0 (first :: rest)
  let box := Solid.mergeBoxes first.box rest
  { library := LibraryFunction.inOrder (Solid.requiresEach (first :: rest))
    functions := functions
    main := ⟨if center then some box.center else none, calls⟩
    box := if center then box.centred else box }

end Shader

namespace Solid

def ofCube (args : List Value) : Except CompileError (Solid Float) := do
  let (size, center) ← readCube args
  return .cube size center

def ofSphere (args : List Value) : Except CompileError (Solid Float) := do return .sphere (← readSphere args)

def ofCylinder (args : List Value) : Except CompileError (Solid Float) := do
  let (height, bottom, top, center) ← readCylinder args
  return .cylinder height bottom top center

def ofSquare (args : List Value) : Except CompileError (Solid Float) := do
  let (size, center) ← readSquare args
  return .square size center

def ofCircle (args : List Value) : Except CompileError (Solid Float) := do return .circle (← readCircle args)

def ofPolygon (args : List Value) : Except CompileError (Solid Float) := do return .polygon (← readPolygon args)

-- A block around children that were read already. Without children there is no solid.
def block (make : Solid Float → List (Solid Float) → Except CompileError (Solid Float)) :
    List (Solid Float) → Except CompileError (Option (Solid Float))
  | [] => .ok none
  | first :: rest => do return some (← make first rest)

mutual

-- The solid that a value stands for, or none if it has no geometry.
def ofValue : Value → Except CompileError (Option (Solid Float))
  | .primitive _ kind args body =>
    match kind with
    | .cube => some <$> ofCube args
    | .sphere => some <$> ofSphere args
    | .cylinder => some <$> ofCylinder args
    | .square => some <$> ofSquare args
    | .circle => some <$> ofCircle args
    | .polygon => some <$> ofPolygon args
    | .union => do block (fun first rest => .ok (.combine .union first rest)) (← ofBody body)
    | .difference => do block (fun first rest => .ok (.combine .difference first rest)) (← ofBody body)
    | .intersection => do block (fun first rest => .ok (.combine .intersection first rest)) (← ofBody body)
    | .group => do block (fun first rest => .ok (.combine .group first rest)) (← ofBody body)
    | .color => do block (fun first rest => .ok (.combine .color first rest)) (← ofBody body)
    | .multmatrix => do
      let children ← ofBody body
      block (fun first rest => do
        let (matrix, inverse) ← readMatrix args
        return .transform matrix inverse first rest) children
    | .linearExtrude => do
      let children ← ofBody body
      block (fun first rest => do return .extrude (← readExtrusion args) first rest) children
    | .rotateExtrude => do
      let children ← ofBody body
      block (fun first rest => do return .revolve (← readAngle args) first rest) children
    | .hull | .minkowski | .projection | .polyhedron | .text => throw (.unsupported kind)
  | value => throw (.notAPrimitive value.type)
termination_by structural v => v

-- The solids of all values that have geometry.
def ofValues : List Value → Except CompileError (List (Solid Float))
  | [] => .ok []
  | v :: rest => do
    let solid ← ofValue v
    let solids ← ofValues rest
    return solid.toList ++ solids
termination_by structural vs => vs

def ofBody : Option (List Value) → Except CompileError (List (Solid Float))
  | none => .ok []
  | some children => ofValues children
termination_by structural b => b

end

end Solid

namespace LibraryFunction

-- Functions that are put into a set one after the other.
theorem foldl_insert (known required : List LibraryFunction) :
    required.foldl (fun library f => insert f library) (inOrder known) = inOrder (known ++ required) := by
  induction required generalizing known with
  | nil => rw [List.append_nil, List.foldl_nil]
  | cons f required ih =>
    have hinsert : insert f (inOrder known) = inOrder (known ++ [f]) := by
      refine List.filter_congr fun g _ => ?_
      rw [decide_eq_decide, List.mem_cons, mem_inOrder, List.mem_append, List.mem_singleton]
      exact or_comm
    rw [List.foldl_cons, hinsert, ih, List.append_assoc]
    rfl

end LibraryFunction

namespace Compiler

open Shader Solid

-- What is there after some functions were made, and some library functions required.
def Made.after (made : Made) (functions : List (Function Float)) (required : List LibraryFunction) : Made :=
  ⟨made.functions ++ functions, required.foldl (fun library f => LibraryFunction.insert f library) made.library⟩

theorem Made.after_nil (made : Made) : made.after [] [] = made := by
  rw [after, List.append_nil, List.foldl_nil]

theorem Made.after_after (made : Made) (functions functions' : List (Function Float))
    (required required' : List LibraryFunction) :
    (made.after functions required).after functions' required' =
      made.after (functions ++ functions') (required ++ required') := by
  simp only [after, List.append_assoc, List.foldl_append]

theorem Made.length_after (made : Made) (functions : List (Function Float)) (required : List LibraryFunction) :
    (made.after functions required).functions.length = made.functions.length + functions.length := List.length_append

-- What a solid of the tree leads to.
def Made.with (made : Made) (s : Solid Float) : Placed × Made :=
  (⟨(s.emit made.functions.length).1, s.box⟩, made.after (s.emit made.functions.length).2 s.requires)

-- A part of the compiler that does what a solid of the tree tells.
def Makes (x : Compiler Placed) (y : Except CompileError (Solid Float)) : Prop := ∀ made, x made = y.map made.with

-- A shape is a call of the library.
theorem makes_shape {read : Except CompileError α} {f : LibraryFunction} {shape : α → Placed} {make : α → Solid Float}
    (h : ∀ a n, shape a = ⟨((make a).emit n).1, (make a).box⟩ ∧ ((make a).emit n).2 = [] ∧ (make a).requires = [f]) :
    Makes (do let a ← read; require f; return shape a) (do let a ← read; return make a) := by
  intro made
  cases read with
  | error e => rfl
  | ok a =>
    obtain ⟨hshape, hmade, hrequires⟩ := h a made.functions.length
    change Except.ok (shape a, _) = Except.ok (made.with (make a))
    rw [Made.with, hmade, hrequires, hshape, Made.after, List.append_nil]
    rfl

theorem makes_cube (args : List Value) : Makes (cube args) (ofCube args) :=
  makes_shape fun _ _ => ⟨rfl, rfl, rfl⟩

theorem makes_sphere (args : List Value) : Makes (sphere args) (ofSphere args) :=
  makes_shape fun _ _ => ⟨rfl, rfl, rfl⟩

theorem makes_cylinder (args : List Value) : Makes (cylinder args) (ofCylinder args) :=
  makes_shape fun _ _ => ⟨rfl, rfl, rfl⟩

theorem makes_square (args : List Value) : Makes (square args) (ofSquare args) :=
  makes_shape fun _ _ => ⟨rfl, rfl, rfl⟩

theorem makes_circle (args : List Value) : Makes (circle args) (ofCircle args) :=
  makes_shape fun _ _ => ⟨rfl, rfl, rfl⟩

theorem makes_polygon (args : List Value) : Makes (polygon args) (ofPolygon args) := by
  intro made
  unfold polygon ofPolygon
  cases readPolygon args with
  | error e => rfl
  | ok fill => rfl

-- What a block leads to whose children have led to `functions` and `required`. It is a function of its own, and it may
-- require more than they do.
theorem Made.with_close {made : Made} {s : Solid Float} {functions : List (Function Float)} {stem : Stem}
    {body : Body Float} {required more : List LibraryFunction}
    (hs : s.emit made.functions.length = close made.functions.length functions stem body)
    (hrequires : s.requires = required ++ more) :
    made.with s =
      let before := made.after functions required
      let name : Name := ⟨stem, before.functions.length⟩
      (⟨.block name, s.box⟩, before.after [⟨name, body⟩] more) := by
  dsimp only
  rw [Made.with, hs, hrequires, Made.after_after, Made.length_after]
  rfl

-- A block around the children `first` and `rest`, which have been made before.
def MakesBlock (x : Children → Compiler Placed)
    (y : Solid Float → List (Solid Float) → Except CompileError (Solid Float)) : Prop :=
  ∀ (first : Solid Float) (rest : List (Solid Float)) (made : Made),
    x ⟨(emitEach made.functions.length (first :: rest)).1, mergeBoxes first.box rest⟩
      (made.after (emitEach made.functions.length (first :: rest)).2 (requiresEach (first :: rest))) =
    (y first rest).map made.with

theorem makes_combine (c : Combination) :
    MakesBlock (combine c) fun first rest => .ok (.combine c first rest) := by
  intro first rest made
  have hwith : made.with (.combine c first rest) = _ := Made.with_close rfl (List.append_nil _).symm
  exact congrArg Except.ok hwith.symm

theorem makes_transform (args : List Value) : MakesBlock (transform args) fun first rest => do
    let (matrix, inverse) ← readMatrix args
    return .transform matrix inverse first rest := by
  intro first rest made
  unfold transform
  cases readMatrix args with
  | error e => rfl
  | ok m =>
    have hwith : made.with (.transform m.1 m.2 first rest) = _ := Made.with_close rfl (List.append_nil _).symm
    exact congrArg Except.ok hwith.symm

theorem makes_extrude (args : List Value) : MakesBlock (extrude args) fun first rest => do
    return .extrude (← readExtrusion args) first rest := by
  intro first rest made
  unfold extrude
  cases readExtrusion args with
  | error e => rfl
  | ok extrusion =>
    have hwith : made.with (.extrude extrusion first rest) = _ := Made.with_close rfl rfl
    obtain ⟨height, center, twist, scale⟩ := extrusion
    cases twist with
    | none => exact congrArg Except.ok hwith.symm
    | some twist => exact congrArg Except.ok hwith.symm

theorem makes_revolve (args : List Value) : MakesBlock (revolve args) fun first rest => do
    return .revolve (← readAngle args) first rest := by
  intro first rest made
  unfold revolve
  cases readAngle args with
  | error e => rfl
  | ok degrees =>
    have hwith : made.with (.revolve degrees first rest) = _ := Made.with_close rfl rfl
    exact congrArg Except.ok hwith.symm

-- The children that were found before, and those that stand for more solids.
def gathered : Option Children → List (Call Float) → List (Solid Float) → Option Children
  | none, _, [] => none
  | none, calls, first :: rest => some ⟨calls, mergeBoxes first.box rest⟩
  | some found, calls, solids => some ⟨found.calls ++ calls, mergeBoxes found.box solids⟩

theorem gathered_nil (found : Option Children) : gathered found [] [] = found := by
  cases found with
  | none => rfl
  | some found =>
    rw [gathered, List.append_nil]
    rfl

theorem gathered_add (found : Option Children) (call : Call Float) (s : Solid Float) (calls : List (Call Float))
    (solids : List (Solid Float)) :
    gathered (some (.add found ⟨call, s.box⟩)) calls solids = gathered found (call :: calls) (s :: solids) := by
  cases found with
  | none => rfl
  | some found =>
    rw [gathered, gathered, Children.add, List.append_assoc]
    rfl

-- What there is behind a value that was read as a solid, or as nothing.
def Made.withValue (made : Made) : Option (Solid Float) → Option Placed × Made
  | none => (none, made)
  | some s => (some (made.with s).1, (made.with s).2)

-- What there is behind values that were read as solids.
def Made.withValues (made : Made) (found : Option Children) (solids : List (Solid Float)) : Option Children × Made :=
  (gathered found (emitEach made.functions.length solids).1 solids,
    made.after (emitEach made.functions.length solids).2 (requiresEach solids))

theorem Made.withValues_cons (made : Made) (found : Option Children) (s : Solid Float) (solids : List (Solid Float)) :
    (made.with s).2.withValues (some (.add found (made.with s).1)) solids = made.withValues found (s :: solids) := by
  rw [withValues, withValues, Made.with, gathered_add, Made.length_after, Made.after_after]
  rfl

theorem value_shape {x : Compiler Placed} {y : Except CompileError (Solid Float)} (h : Makes x y) (made : Made) :
    (some <$> x) made = (some <$> y).map made.withValue := by
  change (x made).bind (fun r => .ok (some r.1, r.2)) = _
  rw [h made]
  cases y <;> rfl

-- The children are made before the block around them.
theorem value_block {x : Children → Compiler Placed}
    {y : Solid Float → List (Solid Float) → Except CompileError (Solid Float)} (h : MakesBlock x y)
    {children : Compiler (Option Children)} {solids : Except CompileError (List (Solid Float))} {made : Made}
    (hchildren : children made = solids.map (made.withValues none)) :
    (children >>= block x) made = (solids >>= Solid.block y).map made.withValue := by
  change (children made).bind (fun r => block x r.1 r.2) = _
  rw [hchildren]
  cases solids with
  | error e => rfl
  | ok solids =>
    cases solids with
    | nil => exact congrArg (fun made => Except.ok (none, made)) made.after_nil
    | cons first rest =>
      have hmade : x _ (made.withValues none (first :: rest)).2 = _ := h first rest made
      change (x _ _).bind (fun r => .ok (some r.1, r.2)) = ((y first rest).bind _).map _
      rw [hmade]
      cases y first rest <;> rfl

mutual

-- One pass over the scene does what reading it as a tree, and making functions for the tree, does.
theorem value_eq : (v : Value) → (made : Made) → value v made = (ofValue v).map made.withValue
  | .primitive ref kind args body, made => by
    have hbody := inside_eq body made
    cases kind with
    | cube => exact value_shape (makes_cube args) made
    | sphere => exact value_shape (makes_sphere args) made
    | cylinder => exact value_shape (makes_cylinder args) made
    | square => exact value_shape (makes_square args) made
    | circle => exact value_shape (makes_circle args) made
    | polygon => exact value_shape (makes_polygon args) made
    | union => exact value_block (makes_combine .union) hbody
    | difference => exact value_block (makes_combine .difference) hbody
    | intersection => exact value_block (makes_combine .intersection) hbody
    | group => exact value_block (makes_combine .group) hbody
    | color => exact value_block (makes_combine .color) hbody
    | multmatrix => exact value_block (makes_transform args) hbody
    | linearExtrude => exact value_block (makes_extrude args) hbody
    | rotateExtrude => exact value_block (makes_revolve args) hbody
    | hull | minkowski | projection | polyhedron | text => rfl
  | .int _, _ | .float _, _ | .string _, _ | .bool _, _ | .null, _ | .array .., _ | .hash .., _ | .function .., _
  | .builtin _, _ | .failure _, _ | .returned _, _ | .named .., _ => rfl

theorem values_eq : (vs : List Value) → (found : Option Children) → (made : Made) →
    values vs found made = (ofValues vs).map (made.withValues found)
  | [], found, made => by
    change Except.ok (found, made) = Except.ok (gathered found [] [], made.after [] [])
    rw [gathered_nil, Made.after_nil]
  | v :: rest, found, made => by
    rw [ofValues]
    change (value v made).bind (fun r => _) = _
    rw [value_eq v made]
    cases ofValue v with
    | error e => rfl
    | ok solid =>
      cases solid with
      | none =>
        refine (values_eq rest found made).trans ?_
        cases ofValues rest <;> rfl
      | some s =>
        refine (values_eq rest _ (made.with s).2).trans ?_
        cases ofValues rest with
        | error e => rfl
        | ok solids => exact congrArg Except.ok (made.withValues_cons found s solids)

theorem inside_eq : (body : Option (List Value)) → (made : Made) →
    inside body made = (ofBody body).map (made.withValues none)
  | none, made => congrArg (fun made => Except.ok (none, made)) made.after_nil.symm
  | some children, made => values_eq children none made

end

end Compiler

-- The shader of a scene is that of the solids in it.
theorem compile_eq (scene : List Value) (center : Bool) : compile scene center = (do
    match ← Solid.ofValues scene with
    | [] => return none
    | first :: rest => return some (Shader.ofSolids center first rest)) := by
  have hrun := Compiler.values_eq scene none ⟨[], []⟩
  change (Compiler.values scene none ⟨[], []⟩).bind _ = _
  rw [hrun]
  cases Solid.ofValues scene with
  | error e => rfl
  | ok solids =>
    cases solids with
    | nil => rfl
    | cons first rest =>
      have hlibrary : (Solid.requiresEach (first :: rest)).foldl (fun library f => LibraryFunction.insert f library) [] =
        LibraryFunction.inOrder (Solid.requiresEach (first :: rest)) := LibraryFunction.foldl_insert [] _
      change Except.ok (some (Shader.mk _ _ _ _)) = Except.ok (some (Shader.ofSolids center first rest))
      rw [Shader.ofSolids, ← hlibrary]
      rfl

end SolidScript
