import Mathlib.Tactic.Linarith
import Mathlib.Tactic.Positivity
import SolidScript.Proofs.Geometry.Space
import SolidScript.Proofs.Solid.Tree

namespace SolidScript

open scoped Exact

namespace Box

-- On no axis the low corner is above the high one.
def IsOrdered (b : Box ℚ) : Prop := b.low ≤ b.high

variable {b c : Box ℚ}

-- What lies around an ordered box is ordered.
theorem IsOrdered.of_le (hb : b.IsOrdered) (h : b ≤ c) : c.IsOrdered := by
  obtain ⟨hlow, hhigh⟩ := le_iff.1 h
  exact (hlow.trans hb).trans hhigh

theorem le_merge_left (b c : Box ℚ) : b ≤ b.merge c :=
  ⟨⟨min_le_left _ _, min_le_left _ _, min_le_left _ _⟩, ⟨le_max_left _ _, le_max_left _ _, le_max_left _ _⟩⟩

theorem le_merge_right (b c : Box ℚ) : c ≤ b.merge c :=
  ⟨⟨min_le_right _ _, min_le_right _ _, min_le_right _ _⟩, ⟨le_max_right _ _, le_max_right _ _, le_max_right _ _⟩⟩

-- The corners are put in order after they are moved.
theorem isOrdered_transform (b : Box ℚ) (m : Mat4 ℚ) : (b.transform m).IsOrdered := Vec3.least_le_greatest _ _

-- Only a scale above 1 moves the ends of a side, and then away from each other.
theorem ordered_ends (s c : ℚ) {low high : ℚ} (h : low ≤ high) :
    let ends := if Scalar.less Scalar.one s then (c - s * (1 / 2 * (high - low)), c + s * (1 / 2 * (high - low)))
      else (low, high)
    ends.1 ≤ ends.2 := by
  intro ends
  by_cases hs : 1 < s
  · have hends : ends = _ := if_pos (decide_eq_true hs)
    have hlength : 0 ≤ high - low := sub_nonneg.2 h
    have hhalf : 0 ≤ s * (1 / 2 * (high - low)) := by positivity
    rw [hends]
    exact (sub_le_self c hhalf).trans (le_add_of_nonneg_right hhalf)
  · have hends : ends = _ := if_neg (by simpa [Scalar.less, Scalar.one] using hs)
    rw [hends]
    exact h

theorem IsOrdered.widened (hb : b.IsOrdered) (scale : Vec2 ℚ) : (b.widened scale).IsOrdered :=
  ⟨ordered_ends scale.x _ hb.1, ordered_ends scale.y _ hb.2.1, hb.2.2⟩

-- Nothing is taken away from the box when the samples of a twist are added to it.
theorem le_twisted (b : Box ℚ) (scale : Vec2 ℚ) (samples : List (TwistSample ℚ)) : b ≤ b.twisted scale samples := by
  have hfold (found : Box ℚ) :
      found ≤ samples.foldl (fun found sample => found.merge (b.twistSlice scale sample)) found := by
    induction samples generalizing found with
    | nil => exact le_refl found
    | cons sample samples ih => exact (le_merge_left _ _).trans (ih _)
  exact hfold b

theorem IsOrdered.drawn (hb : b.IsOrdered) {height : ℚ} (h : 0 ≤ height) (center : Bool) :
    (b.drawn height center).IsOrdered := by
  refine ⟨hb.1, hb.2.1, ?_⟩
  cases center with
  | true =>
    change -(1 / 2) * height ≤ 1 / 2 * height
    linarith
  | false => exact h

theorem isOrdered_symmetric {half : Vec3 ℚ} (hx : 0 ≤ half.x) (hy : 0 ≤ half.y) (hz : 0 ≤ half.z) :
    (symmetric half).IsOrdered :=
  ⟨neg_le_self hx, neg_le_self hy, neg_le_self hz⟩

theorem IsOrdered.revolved (hb : b.IsOrdered) : b.revolved.IsOrdered := by
  have hradius : 0 ≤ max |b.low.x| |b.high.x| := (abs_nonneg _).trans (le_max_left _ _)
  exact ⟨neg_le_self hradius, neg_le_self hradius, hb.2.1⟩

-- Half a side of a centred box. It is rounded to a multiple of one half, and never inward.
theorem exists_halfSide {side : ℚ} (h : 0 ≤ side) : ∃ k : ℤ,
    Scalar.round (side + Scalar.half) * Scalar.half = (k : ℚ) / 2 ∧ side / 2 ≤ (k : ℚ) / 2 ∧
      (k : ℚ) / 2 ≤ side / 2 + 1 / 2 := by
  have hsum : 0 ≤ side + 1 / 2 := by positivity
  have hround : Scalar.round (side + Scalar.half) = (⌊side + 1 / 2 + 1 / 2⌋ : ℚ) := if_pos hsum
  have hlow := Int.lt_floor_add_one (side + 1 / 2 + 1 / 2)
  have hhigh := Int.floor_le (side + 1 / 2 + 1 / 2)
  refine ⟨⌊side + 1 / 2 + 1 / 2⌋, ?_, by linarith, by linarith⟩
  rw [hround]
  exact mul_one_div _ _

theorem IsOrdered.centred (hb : b.IsOrdered) : b.centred.IsOrdered := by
  -- a length that is not negative is not rounded below zero
  have hround {low high : ℚ} (h : low ≤ high) :
      0 ≤ Scalar.round (high - low + Scalar.half) * Scalar.half := by
    obtain ⟨k, hk, hle, -⟩ := exists_halfSide (sub_nonneg.2 h)
    rw [hk]
    linarith
  exact isOrdered_symmetric (hround hb.1) (hround hb.2.1) (hround hb.2.2)

end Box

theorem Extrusion.isOrdered_box {e : Extrusion ℚ} {slice : Box ℚ} (h : 0 ≤ e.height) (hs : slice.IsOrdered) :
    (e.box slice).IsOrdered := by
  refine Box.IsOrdered.drawn ?_ h e.center
  cases e.twist with
  | none => exact hs.widened e.scale
  | some twist => exact hs.of_le (slice.le_twisted e.scale twist.samples)

namespace Solid

-- The solids that a block is made of. A shape has none.
def children : Solid α → List (Solid α)
  | combine _ first rest | transform _ _ first rest | extrude _ first rest | revolve _ first rest => first :: rest
  | cube _ _ | sphere _ | cylinder _ _ _ _ | square _ _ | circle _ | polygon _ => []

-- A solid is inside of itself, and what is inside of a child is inside of the block.
inductive Inside (t : Solid α) : Solid α → Prop
  | self : Inside t t
  | child {s c : Solid α} : c ∈ s.children → Inside t c → Inside t s

theorem Inside.trans {s t u : Solid α} (hu : u.Inside t) (ht : t.Inside s) : u.Inside s := by
  induction ht with
  | self => exact hu
  | child hc _ ih => exact .child hc ih

theorem forall_inside {s : Solid α} {p : Solid α → Prop} (hs : p s)
    (hc : ∀ c ∈ s.children, ∀ t : Solid α, t.Inside c → p t) : ∀ t : Solid α, t.Inside s → p t := by
  rintro t (_ | ⟨hmem, ht⟩)
  · exact hs
  · exact hc _ hmem t ht

-- The box of a shape is ordered, and the height of an extrusion is not negative.
def IsUpright (s : Solid ℚ) : Prop :=
  (s.children = [] → s.box.IsOrdered) ∧ ∀ e first rest, s = .extrude e first rest → 0 ≤ e.height

theorem le_mergeBoxes (found : Box ℚ) (solids : List (Solid ℚ)) :
    found ≤ mergeBoxes found solids ∧ ∀ s ∈ solids, s.box ≤ mergeBoxes found solids := by
  induction solids generalizing found with
  | nil => exact ⟨le_refl found, nofun⟩
  | cons s solids ih =>
    obtain ⟨hfound, hsolids⟩ := ih (found.merge s.box)
    refine ⟨(Box.le_merge_left _ _).trans hfound, fun t ht => ?_⟩
    rcases List.mem_cons.1 ht with rfl | ht
    · exact (Box.le_merge_right _ _).trans hfound
    · exact hsolids t ht

-- The box of a block is made from the box around its children, which is ordered because that of the first child is.
theorem isOrdered_box : (s : Solid ℚ) → (∀ t : Solid ℚ, t.Inside s → t.IsUpright) → s.box.IsOrdered
  | .cube .., h | .sphere .., h | .cylinder .., h | .square .., h | .circle .., h | .polygon .., h => (h _ .self).1 rfl
  | .combine _ first _, h =>
    have hfirst := isOrdered_box first fun t ht => h t (.child List.mem_cons_self ht)
    hfirst.of_le (le_mergeBoxes _ _).1
  | .transform matrix .., _ => Box.isOrdered_transform _ matrix
  | .extrude _ first _, h =>
    have hfirst := isOrdered_box first fun t ht => h t (.child List.mem_cons_self ht)
    Extrusion.isOrdered_box ((h _ .self).2 _ _ _ rfl) (hfirst.of_le (le_mergeBoxes _ _).1)
  | .revolve _ first _, h =>
    have hfirst := isOrdered_box first fun t ht => h t (.child List.mem_cons_self ht)
    (hfirst.of_le (le_mergeBoxes _ _).1).revolved

end Solid

theorem compile_eq_some {scene : List Value} {center : Bool} {shader : Shader Float}
    (h : compile scene center = .ok (some shader)) :
    ∃ first rest, Solid.ofValues scene = .ok (first :: rest) ∧ shader = .ofSolids center first rest := by
  rw [compile_eq] at h
  cases hs : Solid.ofValues scene with
  | error e => rw [hs] at h; cases h
  | ok solids =>
    rw [hs] at h
    cases solids with
    | nil => cases h
    | cons first rest => cases h; exact ⟨first, rest, rfl, rfl⟩

namespace Shader

open Solid

-- A shader comes from the solids of its scene alone, by operations that are the same for all numbers. Where these are
-- exact and the solids at the leaves are upright, the box of every solid on the way is ordered, and so are the box
-- that a block makes its own from and the box of the shader.
theorem ofSolids_ordered (center : Bool) (first : Solid ℚ) (rest : List (Solid ℚ))
    (h : ∀ s ∈ first :: rest, ∀ t : Solid ℚ, t.Inside s → t.IsUpright) :
    (∀ scene shader, compile scene center = .ok (some shader) →
      ∃ first rest, Solid.ofValues scene = .ok (first :: rest) ∧ shader = ofSolids center first rest) ∧
    (∀ s ∈ first :: rest, ∀ t : Solid ℚ, t.Inside s → t.box.IsOrdered ∧
      ∀ child others, t.children = child :: others → (mergeBoxes child.box others).IsOrdered) ∧
    (ofSolids center first rest).box.IsOrdered ∧
    ∀ s ∈ first :: rest, s.box ≤ (ofSolids false first rest).box := by
  have hinside {s t : Solid ℚ} (hs : s ∈ first :: rest) (ht : t.Inside s) : t.box.IsOrdered :=
    isOrdered_box t fun u hu => h s hs u (hu.trans ht)
  obtain ⟨hfirst, hrest⟩ := le_mergeBoxes first.box rest
  have hmerged : (mergeBoxes first.box rest).IsOrdered := (hinside List.mem_cons_self .self).of_le hfirst
  refine ⟨fun scene shader => compile_eq_some, fun s hs t ht => ⟨hinside hs ht, fun child others hc => ?_⟩, ?_, ?_⟩
  · have hchild : child.Inside s := Inside.trans (.child (hc ▸ List.mem_cons_self) .self) ht
    exact (hinside hs hchild).of_le (le_mergeBoxes _ _).1
  · cases center with
    | true => exact hmerged.centred
    | false => exact hmerged
  · intro s hs
    rcases List.mem_cons.1 hs with rfl | hs
    · exact hfirst
    · exact hrest s hs

-- A mirrored and slanted block around a twisted extrusion with a negative scale, beside a difference that is revolved.
theorem ofSolids_ordered_nested :
    let slice : Solid ℚ := .square (.sides ⟨1, 2⟩) false
    let twist : Twist ℚ := ⟨90, [⟨0, 1, 0⟩, ⟨1 / 2, 5, -7⟩, ⟨1, 0, -1⟩]⟩
    let twisted : Solid ℚ := .extrude ⟨3, true, some twist, ⟨-2, 4⟩⟩ slice [.circle 1]
    let mirror : Mat4 ℚ := .ofRows ⟨-1, 2, 0, 5⟩ ⟨0, 1, -3, 0⟩ ⟨0, 0, -1, 0⟩ ⟨0, 0, 0, 1⟩
    let moved : Solid ℚ := .transform mirror mirror.inverse twisted []
    let ring : Solid ℚ := .revolve 180 (.combine .difference slice [.circle (1 / 2)]) []
    (∀ s ∈ [moved, ring], s.box ≤ (ofSolids false moved [ring]).box) ∧
      (ofSolids true moved [ring]).box.IsOrdered ∧ twisted.box.IsOrdered := by
  intro slice twist twisted mirror moved ring
  have hslice : ∀ t : Solid ℚ, t.Inside slice → t.IsUpright :=
    forall_inside ⟨fun _ => Vec3.le_iff.2 (by decide +kernel), nofun⟩ nofun
  have hcircle {r : ℚ} (hr : 0 ≤ r) : ∀ t : Solid ℚ, t.Inside (.circle r) → t.IsUpright :=
    forall_inside ⟨fun _ => Box.isOrdered_symmetric hr hr le_rfl, nofun⟩ nofun
  have htwisted : ∀ t : Solid ℚ, t.Inside twisted → t.IsUpright := by
    refine forall_inside ⟨nofun, fun e first rest he => ?_⟩
      (List.forall_mem_cons.2 ⟨hslice, List.forall_mem_singleton.2 (hcircle one_pos.le)⟩)
    rw [← (Solid.extrude.inj he).1]
    exact three_pos.le
  have hmoved : ∀ t : Solid ℚ, t.Inside moved → t.IsUpright :=
    forall_inside ⟨nofun, nofun⟩ (List.forall_mem_singleton.2 htwisted)
  have hring : ∀ t : Solid ℚ, t.Inside ring → t.IsUpright := by
    refine forall_inside ⟨nofun, nofun⟩ (List.forall_mem_singleton.2 (forall_inside ⟨nofun, nofun⟩ ?_))
    exact List.forall_mem_cons.2 ⟨hslice, List.forall_mem_singleton.2 (hcircle one_half_pos.le)⟩
  obtain ⟨-, hinside, hbox, hle⟩ := ofSolids_ordered true moved [ring]
    (List.forall_mem_cons.2 ⟨hmoved, List.forall_mem_singleton.2 hring⟩)
  exact ⟨hle, hbox, (hinside moved List.mem_cons_self twisted (.child List.mem_cons_self .self)).1⟩

end Shader

end SolidScript
