import SolidScript.Proofs.Solid.Ordered
import SolidScript.Shader.Render

namespace SolidScript

open scoped Exact

namespace Box

-- The box of the same model, moved so that its middle comes to the origin.
def aboutOrigin (b : Box ℚ) : Box ℚ := ⟨b.low.sub b.center, b.high.sub b.center⟩

-- The second box has the origin in its middle and sides of whole length, and it is around the first one, at most half
-- a unit away on each side.
structure FitsIn (b c : Box ℚ) : Prop where
  symmetric : c.low = c.high.neg
  halves : ∀ half ∈ c.high.toList, ∃ k : ℤ, half = (k : ℚ) / 2
  inside : b ≤ c
  near : c.high ≤ b.high.add (.splat (1 / 2)) ∧ b.low ≤ c.low.add (.splat (1 / 2))

-- One axis of a centred box, with the middle of the side at `c`.
theorem exists_halfSide_around {low high c : ℚ} (h : low ≤ high) (hc : c = 1 / 2 * (low + high)) : ∃ k : ℤ,
    Scalar.round (high - low + Scalar.half) * Scalar.half = (k : ℚ) / 2 ∧
      (-((k : ℚ) / 2) ≤ low - c ∧ high - c ≤ (k : ℚ) / 2) ∧
      (k : ℚ) / 2 ≤ high - c + 1 / 2 ∧ low - c ≤ -((k : ℚ) / 2) + 1 / 2 := by
  obtain ⟨k, hk, hlow, hhigh⟩ := exists_halfSide (sub_nonneg.2 h)
  refine ⟨k, hk, ⟨?_, ?_⟩, ?_, ?_⟩ <;> linarith

theorem IsOrdered.fitsIn_centred {b : Box ℚ} (h : b.IsOrdered) : b.aboutOrigin.FitsIn b.centred := by
  obtain ⟨hx, hy, hz⟩ := Vec3.le_iff.1 h
  obtain ⟨kx, hkx, hinx, hhighx, hlowx⟩ := exists_halfSide_around hx rfl
  obtain ⟨ky, hky, hiny, hhighy, hlowy⟩ := exists_halfSide_around hy rfl
  obtain ⟨kz, hkz, hinz, hhighz, hlowz⟩ := exists_halfSide_around hz rfl
  have hcentred : b.centred = symmetric ⟨(kx : ℚ) / 2, (ky : ℚ) / 2, (kz : ℚ) / 2⟩ := by
    rw [← hkx, ← hky, ← hkz]
    rfl
  rw [hcentred]
  refine ⟨rfl, ?_, ⟨⟨hinx.1, hiny.1, hinz.1⟩, ⟨hinx.2, hiny.2, hinz.2⟩⟩, ⟨hhighx, hhighy, hhighz⟩,
    ⟨hlowx, hlowy, hlowz⟩⟩
  simp only [Vec3.toList, symmetric, List.forall_mem_cons]
  exact ⟨⟨kx, rfl⟩, ⟨ky, rfl⟩, ⟨kz, rfl⟩, nofun⟩

end Box

namespace Shader

-- The same shader for a model that is moved, so that the middle of its box comes to the origin.
def recentred [Scalar α] (s : Shader α) : Shader α :=
  { s with main := ⟨some s.box.center, s.main.calls⟩, box := s.box.centred }

theorem ofSolids_true [Scalar α] (first : Solid α) (rest : List (Solid α)) :
    ofSolids true first rest = (ofSolids false first rest).recentred := rfl

theorem offset_ofSolids_false [Scalar α] (first : Solid α) (rest : List (Solid α)) :
    (ofSolids false first rest).main.offset = none := rfl

-- The first line of the main function.
def opening : String := "void mainModel4(out vec4 materials, in vec3 xyz) \x7b\n"

-- The line that moves the point of space to the model as it was.
def moving (offset : Vec3 Float) : String := line ("xyz += vec3(" ++ numbers offset.toList ++ ");")

-- The second shader calls the same functions, and its main function has one line more.
structure Moved (plain moved : Shader Float) : Prop where
  library : moved.library = plain.library
  functions : moved.functions = plain.functions
  main : ∃ rest, plain.main.text = opening ++ rest ∧ moved.main.text = opening ++ moving plain.box.center ++ rest
  box : moved.box = plain.box.centred

theorem moved_recentred {s : Shader Float} (h : s.main.offset = none) : s.Moved s.recentred := by
  refine ⟨rfl, rfl, ⟨line ("materials[0] = " ++ sum s.main.calls ++ ";") ++ "\x7d\n", ?_, ?_⟩, rfl⟩
  · unfold Main.text opening
    rw [h]
    dsimp only
    rw [String.append_empty, String.append_assoc]
  · unfold Main.text opening moving recentred
    dsimp only
    rw [String.append_assoc]

end Shader

theorem compile_true (scene : List Value) :
    compile scene true = (compile scene false).map (Option.map Shader.recentred) := by
  rw [compile_eq, compile_eq]
  cases Solid.ofValues scene with
  | error e => rfl
  | ok solids =>
    cases solids with
    | nil => rfl
    | cons first rest => rfl

namespace Shader

-- Centring changes neither whether a scene can be compiled nor its functions. The main function moves the point by the
-- middle of the box, and in exact arithmetic the box that is reported is around the moved model.
theorem compile_centred (scene : List Value) :
    (∀ error, compile scene true = .error error ↔ compile scene false = .error error) ∧
    (compile scene true = .ok none ↔ compile scene false = .ok none) ∧
    (∀ plain, compile scene false = .ok (some plain) →
      ∃ first rest, Solid.ofValues scene = .ok (first :: rest) ∧ plain = ofSolids false first rest ∧
        compile scene true = .ok (some (ofSolids true first rest)) ∧ plain.Moved (ofSolids true first rest)) ∧
    ∀ (first : Solid ℚ) (rest : List (Solid ℚ)), (ofSolids false first rest).box.IsOrdered →
      (ofSolids false first rest).box.aboutOrigin.FitsIn (ofSolids true first rest).box := by
  refine ⟨?_, ?_, ?_, ?_⟩
  · intro error
    rw [compile_true]
    cases compile scene false <;> simp [Except.map]
  · rw [compile_true]
    cases compile scene false <;> simp [Except.map]
  · intro plain h
    obtain ⟨first, rest, hsolids, rfl⟩ := compile_eq_some h
    refine ⟨first, rest, hsolids, rfl, ?_⟩
    rw [compile_true, h, ofSolids_true]
    exact ⟨rfl, moved_recentred (offset_ofSolids_false first rest)⟩
  · intro first rest h
    rw [ofSolids_true]
    exact h.fitsIn_centred

-- A length of 2 is rounded up, and a length of 5/2 is half way between two whole ones.
theorem compile_centred_slab :
    let ball : Value := .primitive 0 .sphere [.int 3] none
    let scene : List Value := [.primitive 1 .union [] (some [ball]), .primitive 2 .cube [] none]
    let slab : Solid ℚ := .cube (.sides ⟨2, 5 / 2, 11 / 5⟩) false
    (∃ plain moved, compile scene false = .ok (some plain) ∧ compile scene true = .ok (some moved) ∧ plain.Moved moved) ∧
      (ofSolids true slab []).box.high = ⟨3 / 2, 3 / 2, 3 / 2⟩ ∧
      (ofSolids false slab []).box.aboutOrigin.FitsIn (ofSolids true slab []).box := by
  intro ball scene slab
  obtain ⟨plain, hplain⟩ : ∃ plain, compile scene false = .ok (some plain) := ⟨_, rfl⟩
  obtain ⟨first, rest, -, -, hmoved, hm⟩ := (compile_centred scene).2.2.1 plain hplain
  refine ⟨⟨plain, _, hplain, hmoved, hm⟩, by decide +kernel, ?_⟩
  exact (compile_centred scene).2.2.2 slab [] (Vec3.le_iff.2 (by decide +kernel))

end Shader

end SolidScript
