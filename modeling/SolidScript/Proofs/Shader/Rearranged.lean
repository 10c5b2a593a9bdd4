import SolidScript.Proofs.Geometry.Bounds
import SolidScript.Proofs.Solid.Plan

namespace SolidScript

-- Objects in another order, and objects whose children are in another order, at any depth.
inductive Rearranged : List Value → List Value → Prop
  | perm {vs vs' : List Value} : vs.Perm vs' → Rearranged vs vs'
  | inside (front behind : List Value) (ref ref' : Nat) (kind : Primitive) (args : List Value)
      {children children' : List Value} : Rearranged children children' →
      Rearranged (front ++ .primitive ref kind args (some children) :: behind)
        (front ++ .primitive ref' kind args (some children') :: behind)
  | trans {vs vs' vs'' : List Value} : Rearranged vs vs' → Rearranged vs' vs'' → Rearranged vs vs''

-- Two results that are both missing, or that are related.
inductive Compared {ε α β : Type} (r : α → β → Prop) : Except ε α → Except ε β → Prop
  | ok {a : α} {b : β} : r a b → Compared r (.ok a) (.ok b)
  | error {e e' : ε} : Compared r (.error e) (.error e')

namespace Compared

variable {ε α β γ δ : Type} {r : α → β → Prop}

theorem refl {r : α → α → Prop} (h : ∀ a, r a a) (x : Except ε α) : Compared r x x := by
  cases x with
  | error e => exact .error
  | ok a => exact .ok (h a)

theorem trans {r : α → α → Prop} {x y z : Except ε α} (h : Compared r x y) (h' : Compared r y z)
    (hr : ∀ {a b c}, r a b → r b c → r a c) : Compared r x z := by
  cases h with
  | error =>
    cases h'
    exact .error
  | ok hab =>
    cases h' with
    | ok hbc => exact .ok (hr hab hbc)

theorem bind {q : γ → δ → Prop} {x : Except ε α} {y : Except ε β} {f : α → Except ε γ} {g : β → Except ε δ}
    (h : Compared r x y) (hfg : ∀ a b, r a b → Compared q (f a) (g b)) : Compared q (x >>= f) (y >>= g) := by
  cases h with
  | error => exact .error
  | ok hab => exact hfg _ _ hab

end Compared

namespace Solid

open Scalar Shader

-- The box around solids, by the places of its coordinates.
def reach (ss : List (Solid Float)) : Option (Box (Option Level)) :=
  (ss.map fun s => some s.box.levels).foldr (Option.merge Box.joined) none

-- The number of functions that are made for solids.
def made (ss : List (Solid Float)) : Nat := (emitEach 0 ss).2.length

-- Solids that add the same to a shader.
structure Alike (ss ss' : List (Solid Float)) : Prop where
  reach : reach ss = reach ss'
  library : ∀ f, f ∈ requiresEach ss ↔ f ∈ requiresEach ss'
  made : made ss = made ss'

theorem reach_append (ss ss' : List (Solid Float)) : reach (ss ++ ss') = (reach ss).merge Box.joined (reach ss') := by
  induction ss with
  | nil => simp [reach]
  | cons s ss ih =>
    simp only [reach, List.cons_append, List.map_cons, List.foldr_cons] at ih ⊢
    rw [ih, (Option.associative_merge Box.joined).assoc]

theorem levels_mergeBoxes (found : Box Float) (ss : List (Solid Float)) :
    some (mergeBoxes found ss).levels = (some found.levels).merge Box.joined (reach ss) := by
  induction ss generalizing found with
  | nil => simp [mergeBoxes, reach]
  | cons s ss ih =>
    rw [mergeBoxes, ih, Box.levels_merge, ← List.singleton_append, reach_append]
    exact (Option.associative_merge Box.joined).assoc (some found.levels) (some s.box.levels) (reach ss)

theorem requiresEach_append (ss ss' : List (Solid Float)) :
    requiresEach (ss ++ ss') = requiresEach ss ++ requiresEach ss' := by
  induction ss with
  | nil => rfl
  | cons s ss ih => rw [List.cons_append, requiresEach, requiresEach, ih, List.append_assoc]

mutual

-- How many functions are made does not depend on the number of the first of them.
theorem length_emit (count count' : Nat) : (s : Solid Float) → (s.emit count).2.length = (s.emit count').2.length
  | .cube .. | .sphere _ | .cylinder .. | .square .. | .circle _ | .polygon _ => rfl
  | .combine _ first rest | .transform _ _ first rest | .extrude _ first rest | .revolve _ first rest => by
    have hfirst := length_emit count count' first
    have hrest := length_emitEach (count + (first.emit count).2.length) (count' + (first.emit count').2.length) rest
    simp only [emit, close, List.length_append, List.length_singleton]
    omega

theorem length_emitEach (count count' : Nat) :
    (ss : List (Solid Float)) → (emitEach count ss).2.length = (emitEach count' ss).2.length
  | [] => rfl
  | s :: rest => by
    have hs := length_emit count count' s
    have hrest := length_emitEach (count + (s.emit count).2.length) (count' + (s.emit count').2.length) rest
    simp only [emitEach, List.length_append]
    omega

end

theorem made_append (ss ss' : List (Solid Float)) : made (ss ++ ss') = made ss + made ss' := by
  rw [made, emitEach_append, List.length_append, length_emitEach _ 0 ss', made, made]

-- A solid that is made into one function around its children.
structure Wraps (op : Box Float → Box Float) (extra : List LibraryFunction) (first : Solid Float)
    (rest : List (Solid Float)) (s : Solid Float) : Prop where
  box : s.box = op (mergeBoxes first.box rest)
  requires : s.requires = requiresEach (first :: rest) ++ extra
  made : made [s] = made (first :: rest) + 1

section Wraps

variable (first : Solid Float) (rest : List (Solid Float))

theorem wraps_combine (combination : Combination) : Wraps id [] first rest (.combine combination first rest) where
  box := by simp [box]
  requires := by simp [requires, requiresEach]
  made := by simp [made, emitEach, emit, close, Nat.add_assoc]

theorem wraps_transform (matrix inverse : Mat4 Float) :
    Wraps (·.transform matrix) [] first rest (.transform matrix inverse first rest) where
  box := by simp [box]
  requires := by simp [requires, requiresEach]
  made := by simp [made, emitEach, emit, close, Nat.add_assoc]

theorem wraps_extrude (extrusion : Extrusion Float) :
    Wraps extrusion.box (if extrusion.twist.isSome then [.rotAxis, .rotZ] else []) first rest
      (.extrude extrusion first rest) where
  box := by simp [box]
  requires := by simp [requires, requiresEach]
  made := by simp [made, emitEach, emit, close, Nat.add_assoc]

theorem wraps_revolve (degrees : Float) :
    Wraps Box.revolved [.rotAxis, .rotZ] first rest (.revolve degrees first rest) where
  box := by simp [box]
  requires := by simp [requires, requiresEach]
  made := by simp [made, emitEach, emit, close, Nat.add_assoc]

end Wraps

namespace Alike

variable {ss ss' ts ts' : List (Solid Float)}

theorem refl (ss : List (Solid Float)) : Alike ss ss := ⟨rfl, fun _ => .rfl, rfl⟩

theorem trans (h : Alike ss ss') (h' : Alike ss' ts) : Alike ss ts :=
  ⟨h.reach.trans h'.reach, fun f => (h.library f).trans (h'.library f), h.made.trans h'.made⟩

theorem append (h : Alike ss ss') (h' : Alike ts ts') : Alike (ss ++ ts) (ss' ++ ts') where
  reach := by rw [reach_append, reach_append, h.reach, h'.reach]
  library f := by simp only [requiresEach_append, List.mem_append, h.library, h'.library]
  made := by rw [made_append, made_append, h.made, h'.made]

theorem comm (ss ts : List (Solid Float)) : Alike (ss ++ ts) (ts ++ ss) where
  reach := by rw [reach_append, reach_append, (Option.commutative_merge Box.joined).comm]
  library f := by simp only [requiresEach_append, List.mem_append, or_comm]
  made := by rw [made_append, made_append, Nat.add_comm]

variable {first first' : Solid Float} {rest rest' : List (Solid Float)}

theorem box (h : Alike (first :: rest) (first' :: rest')) :
    (mergeBoxes first.box rest).Same (mergeBoxes first'.box rest') := by
  have hreach := h.reach
  rw [← List.singleton_append, reach_append, ← List.singleton_append, reach_append] at hreach
  apply Box.same_iff.2
  apply Option.some.inj
  rw [levels_mergeBoxes, levels_mergeBoxes]
  exact hreach

theorem wrap {op : Box Float → Box Float} {extra : List LibraryFunction} {s s' : Solid Float}
    (h : Alike (first :: rest) (first' :: rest')) (hop : ∀ {a b}, Box.Same a b → Box.Same (op a) (op b))
    (hs : Wraps op extra first rest s) (hs' : Wraps op extra first' rest' s') : Alike [s] [s'] where
  reach := by
    have hbox := Box.same_iff.1 (hop h.box)
    simp [Solid.reach, hs.box, hs'.box, hbox]
  library f := by
    have hlibrary := h.library f
    rw [requiresEach, requiresEach, requiresEach, requiresEach, List.append_nil, List.append_nil, hs.requires, hs'.requires]
    simp only [List.mem_append, hlibrary]
  made := by rw [hs.made, hs'.made, h.made]

theorem nil_or_cons (h : Alike ss ss') :
    ss = [] ∧ ss' = [] ∨ ∃ first rest first' rest', ss = first :: rest ∧ ss' = first' :: rest' := by
  have hnone (s : Solid Float) (rest : List (Solid Float)) : Solid.reach (s :: rest) ≠ none := by
    rw [← List.singleton_append, reach_append]
    cases hr : Solid.reach rest <;> simp [Solid.reach]
  cases ss with
  | nil =>
    cases ss' with
    | nil => exact .inl ⟨rfl, rfl⟩
    | cons s' rest' => exact absurd h.reach.symm (hnone s' rest')
  | cons s rest =>
    cases ss' with
    | nil => exact absurd h.reach (hnone s rest)
    | cons s' rest' => exact .inr ⟨s, rest, s', rest', rfl, rfl⟩

end Alike

theorem compared_block {ss ss' : List (Solid Float)}
    {make : Solid Float → List (Solid Float) → Except CompileError (Solid Float)} (h : Alike ss ss')
    (hmake : ∀ {first rest first' rest'}, Alike (first :: rest) (first' :: rest') →
      Compared (fun s s' => Alike [s] [s']) (make first rest) (make first' rest')) :
    Compared (fun solid solid' => Alike solid.toList solid'.toList) (block make ss) (block make ss') := by
  obtain ⟨rfl, rfl⟩ | ⟨first, rest, first', rest', rfl, rfl⟩ := h.nil_or_cons
  · exact .ok (.refl _)
  · exact (hmake h).bind fun _ _ hs => .ok hs

-- A block is alike if its children are.
theorem compared_primitive {children children' : List Value} (ref ref' : Nat) (kind : Primitive) (args : List Value)
    (h : Compared Alike (ofValues children) (ofValues children')) :
    Compared (fun solid solid' => Alike solid.toList solid'.toList) (ofValue (.primitive ref kind args (some children)))
      (ofValue (.primitive ref' kind args (some children'))) := by
  cases kind with
  | cube | sphere | cylinder | square | circle | polygon => exact .refl (fun _ => .refl _) _
  | hull | minkowski | projection | polyhedron | text => exact .error
  | union | difference | intersection | group | color =>
    exact h.bind fun _ _ hc => compared_block hc fun hs => .ok (hs.wrap id (wraps_combine _ _ _) (wraps_combine _ _ _))
  | multmatrix =>
    refine h.bind fun _ _ hc => compared_block hc fun hs => ?_
    cases readMatrix args with
    | error e => exact .error
    | ok m => exact .ok (hs.wrap (·.transform m.1) (wraps_transform ..) (wraps_transform ..))
  | linearExtrude =>
    refine h.bind fun _ _ hc => compared_block hc fun hs => ?_
    cases readExtrusion args with
    | error e => exact .error
    | ok e => exact .ok (hs.wrap e.same_box (wraps_extrude ..) (wraps_extrude ..))
  | rotateExtrude =>
    refine h.bind fun _ _ hc => compared_block hc fun hs => ?_
    cases readAngle args with
    | error e => exact .error
    | ok degrees => exact .ok (hs.wrap (·.revolved) (wraps_revolve ..) (wraps_revolve ..))

theorem compared_cons {v v' : Value} {vs vs' : List Value}
    (hv : Compared (fun solid solid' => Alike solid.toList solid'.toList) (ofValue v) (ofValue v'))
    (h : Compared Alike (ofValues vs) (ofValues vs')) : Compared Alike (ofValues (v :: vs)) (ofValues (v' :: vs')) :=
  hv.bind fun _ _ hs => h.bind fun _ _ hss => .ok (hs.append hss)

theorem compared_swap (v w : Value) (vs : List Value) :
    Compared Alike (ofValues (v :: w :: vs)) (ofValues (w :: v :: vs)) := by
  simp only [ofValues]
  cases ofValue v with
  | error e =>
    cases ofValue w <;> exact .error
  | ok solid =>
    cases ofValue w with
    | error e => exact .error
    | ok solid' =>
      cases ofValues vs with
      | error e => exact .error
      | ok solids =>
        refine .ok ?_
        rw [← List.append_assoc, ← List.append_assoc]
        exact (Alike.comm _ _).append (.refl _)

theorem compared_perm {vs vs' : List Value} (h : vs.Perm vs') : Compared Alike (ofValues vs) (ofValues vs') := by
  induction h with
  | nil => exact .ok (.refl _)
  | cons v _ ih => exact compared_cons (.refl (fun _ => .refl _) _) ih
  | swap v w vs => exact compared_swap w v vs
  | trans _ _ ih ih' => exact ih.trans ih' .trans

-- Scenes in another order are read as solids that are alike.
theorem compared_ofValues {vs vs' : List Value} (h : Rearranged vs vs') : Compared Alike (ofValues vs) (ofValues vs') := by
  induction h with
  | perm h => exact compared_perm h
  | inside front behind ref ref' kind args _ ih =>
    induction front with
    | nil => exact compared_cons (compared_primitive ref ref' kind args ih) (.refl .refl _)
    | cons v front ihf => exact compared_cons (.refl (fun _ => .refl _) _) ihf
  | trans _ _ ih ih' => exact ih.trans ih' .trans

end Solid

namespace Shader

-- What does not depend on the order of the objects. The boxes are equal unless a coordinate is no number.
structure Matches (s s' : Shader Float) : Prop where
  box : s.box.Same s'.box
  equal : (∀ x ∈ s.box.coordinates, x.isNaN = false) → s.box.equal s'.box
  library : s.library = s'.library
  functions : s.functions.length = s'.functions.length

theorem matches_ofSolids (center : Bool) {first first' : Solid Float} {rest rest' : List (Solid Float)}
    (h : Solid.Alike (first :: rest) (first' :: rest')) :
    (ofSolids center first rest).Matches (ofSolids center first' rest') := by
  have hbox : (ofSolids center first rest).box.Same (ofSolids center first' rest').box := by
    cases center with
    | false => exact h.box
    | true =>
      have hcentred := h.box.centred_eq
      exact Box.same_iff.2 (congrArg Box.levels hcentred)
  refine ⟨hbox, hbox.equal_of_ordinary, ?_, h.made⟩
  have hmem : (fun f => decide (f ∈ Solid.requiresEach (first :: rest))) =
      fun f => decide (f ∈ Solid.requiresEach (first' :: rest')) := by
    funext f
    exact decide_eq_decide.2 (h.library f)
  simp only [ofSolids, LibraryFunction.inOrder, hmem]

end Shader

-- The order of siblings does not matter for the box, the library and the number of functions, nor for success.
theorem compile_rearranged {scene scene' : List Value} (h : Rearranged scene scene') (center : Bool) :
    Compared (Option.Rel Shader.Matches) (compile scene center) (compile scene' center) := by
  rw [compile_eq, compile_eq]
  refine (Solid.compared_ofValues h).bind fun ss ss' hs => ?_
  obtain ⟨rfl, rfl⟩ | ⟨first, rest, first', rest', rfl, rfl⟩ := hs.nil_or_cons
  · exact .ok .none
  · exact .ok (.some (Shader.matches_ofSolids center hs))

theorem compile_rearranged_nested :
    let cube : Value := .primitive 0 .cube [] none
    let square : Value := .primitive 1 .square [] none
    let circle : Value := .primitive 2 .circle [.int 3] none
    let draw (children : List Value) : Value := .primitive 3 .linearExtrude [.named 4 "twist" (.int 90)] (some children)
    let scene : List Value := [cube, draw [square, circle]]
    let scene' : List Value := [draw [circle, square], cube]
    ∃ s s', compile scene true = .ok (some s) ∧ compile scene' true = .ok (some s') ∧ s.Matches s' := by
  intro cube square circle draw scene scene'
  have hinside : Rearranged [cube, draw [square, circle]] [cube, draw [circle, square]] :=
    .inside [cube] [] _ _ _ _ (.perm (.swap _ _ _))
  have h : Rearranged scene scene' := hinside.trans (.perm (.swap _ _ _))
  obtain ⟨s, hs⟩ : ∃ s, compile scene true = .ok (some s) := ⟨_, rfl⟩
  obtain ⟨s', hs'⟩ : ∃ s, compile scene' true = .ok (some s) := ⟨_, rfl⟩
  have hmatch := compile_rearranged h true
  rw [hs, hs'] at hmatch
  cases hmatch with
  | ok hrel =>
    cases hrel with
    | some hm => exact ⟨s, s', hs, hs', hm⟩

end SolidScript
