import Mathlib.Algebra.Order.Field.Basic
import Mathlib.Tactic.FieldSimp
import Mathlib.Tactic.Linarith
import Mathlib.Tactic.Ring
import SolidScript.Proofs.Geometry.Space
import SolidScript.Proofs.Shader.Code
import SolidScript.Proofs.Solid.Tree

namespace SolidScript

open scoped Exact

namespace Extrusion

section Side

-- The factor by which a side is scaled at a place between the bottom, which is 0, and the top, which is 1.
def factor (scale place : ℚ) : ℚ := 1 + (scale - 1) * place

-- One side of a box that is widened.
def widenedSide (scale low high : ℚ) : ℚ × ℚ :=
  if 1 < scale then
    (1 / 2 * (low + high) - scale * (1 / 2 * (high - low)), 1 / 2 * (low + high) + scale * (1 / 2 * (high - low)))
  else (low, high)

-- Whether a side is widened as far as it is scaled: it has its middle at the origin, or it is scaled toward an origin
-- inside of it.
def Fits (scale low high : ℚ) : Prop :=
  scale = 1 ∨ 1 < scale ∧ low + high = 0 ∨ scale < 1 ∧ low ≤ 0 ∧ 0 ≤ high

variable {scale low high : ℚ}

theorem factor_one : factor scale 1 = scale := by simp [factor]

-- The factor lies between those of the bottom and the top.
theorem factor_between {place : ℚ} (h : 0 ≤ place ∧ place ≤ 1) :
    min 1 scale ≤ factor scale place ∧ factor scale place ≤ max 1 scale := by
  have hmix : factor scale place = (1 - place) * 1 + place * scale := by
    rw [factor]
    ring
  have hrest : 0 ≤ 1 - place := sub_nonneg.2 h.2
  rw [hmix]
  constructor
  · calc min 1 scale
      _ = (1 - place) * min 1 scale + place * min 1 scale := by ring
      _ ≤ (1 - place) * 1 + place * scale :=
        add_le_add (mul_le_mul_of_nonneg_left (min_le_left _ _) hrest) (mul_le_mul_of_nonneg_left (min_le_right _ _) h.1)
  · calc (1 - place) * 1 + place * scale
      _ ≤ (1 - place) * max 1 scale + place * max 1 scale :=
        add_le_add (mul_le_mul_of_nonneg_left (le_max_left _ _) hrest) (mul_le_mul_of_nonneg_left (le_max_right _ _) h.1)
      _ = max 1 scale := by ring

theorem factor_pos (hscale : 0 < scale) {place : ℚ} (h : 0 ≤ place ∧ place ≤ 1) : 0 < factor scale place :=
  (lt_min one_pos hscale).trans_le (factor_between h).1

theorem widenedSide_of_lt (h : 1 < scale) : widenedSide scale low high =
    (1 / 2 * (low + high) - scale * (1 / 2 * (high - low)), 1 / 2 * (low + high) + scale * (1 / 2 * (high - low))) :=
  if_pos h

theorem widenedSide_of_le (h : scale ≤ 1) : widenedSide scale low high = (low, high) := if_neg h.not_gt

-- At the top, both ends of a side are within the widened side only if it fits.
theorem fits_of_ends (hlow : (widenedSide scale low high).1 ≤ low * scale)
    (hhigh : high * scale ≤ (widenedSide scale low high).2) : Fits scale low high := by
  rcases lt_trichotomy scale 1 with h | h | h
  · rw [widenedSide_of_le h.le] at hlow hhigh
    exact .inr (.inr ⟨h, by nlinarith, by nlinarith⟩)
  · exact .inl h
  · rw [widenedSide_of_lt h] at hlow hhigh
    exact .inr (.inl ⟨h, by nlinarith⟩)

-- A side that fits holds all its points, wherever they are scaled.
theorem Fits.holds (h : Fits scale low high) (hscale : 0 < scale) {place q : ℚ} (hplace : 0 ≤ place ∧ place ≤ 1)
    (hq : low ≤ q ∧ q ≤ high) : (widenedSide scale low high).1 ≤ q * factor scale place ∧
      q * factor scale place ≤ (widenedSide scale low high).2 := by
  have hpos := factor_pos hscale hplace
  have hmax : factor scale place ≤ max 1 scale := (factor_between hplace).2
  rcases h with rfl | ⟨h, hmiddle⟩ | ⟨h, hlow, hhigh⟩
  · rw [widenedSide_of_le le_rfl]
    simpa [factor] using hq
  · rw [max_eq_right h.le] at hmax
    have hreach : |q| ≤ high := abs_le.2 ⟨by linarith, hq.2⟩
    have hscaled : |q * factor scale place| ≤ high * scale := by
      rw [abs_mul, abs_of_pos hpos]
      exact mul_le_mul hreach hmax hpos.le ((abs_nonneg q).trans hreach)
    obtain ⟨hleft, hright⟩ := abs_le.1 hscaled
    rw [widenedSide_of_lt h, hmiddle, ← neg_eq_of_add_eq_zero_left hmiddle]
    constructor <;> linarith
  · rw [max_eq_left h.le] at hmax
    rw [widenedSide_of_le h.le]
    rcases le_total 0 q with hq0 | hq0
    · exact ⟨hlow.trans (mul_nonneg hq0 hpos.le), (mul_le_of_le_one_right hq0 hmax).trans hq.2⟩
    · exact ⟨hq.1.trans (le_mul_of_le_one_right hq0 hmax), (mul_nonpos_of_nonpos_of_nonneg hq0 hpos.le).trans hhigh⟩

end Side

-- What the function of an extrusion without a twist returns for a sample, if `inside` is the sum of its calls.
def valueAt (e : Extrusion ℚ) (inside : Vec3 ℚ → ℚ) (p : Vec3 ℚ) : ℚ :=
  let height := p.z / e.height
  let z := if e.center then height + 1 / 2 else height
  let level := if e.center then height else height - 1 / 2
  if 1 / 2 < |level| then 0
  else
    let s := Vec2.between ⟨1, 1⟩ e.scale z
    inside ⟨p.x / s.x, p.y / s.y, level⟩

-- It is what the code of the extrusion returns.
theorem value_extruded_exact (e : Extrusion ℚ) (calls : List (Shader.Call ℚ)) (call : Shader.Call ℚ → Vec3 ℚ → ℚ)
    (test : Edge ℚ → Edge ℚ → Vec2 ℚ → ℚ) (s : Shader.Code.Store ℚ) :
    (Shader.Code.extruded e calls).value (.exact id call test) s =
      e.valueAt (fun p => (calls.map fun c => call c p).sum) s.xyz := by
  have hmix (a t : ℚ) : (Shader.Code.Meaning.exact (id : ℚ → ℚ) call test).mix 1 a t = 1 + (a - 1) * t := by
    change 1 * (1 - t) + a * t = _
    ring
  rw [Shader.Code.value_extruded, valueAt]
  simp only [Shader.Code.Meaning.exact, Vec2.between, Vec2.map2] at hmix ⊢
  simp only [hmix, id]

-- The height of a place between the bottom, which is 0, and the top, which is 1.
def heightAt (e : Extrusion ℚ) (place : ℚ) : ℚ := (Box.heightRange e.height e.center).1 + e.height * place

section Value

variable {e : Extrusion ℚ} (hheight : 0 < e.height) {inside : Vec3 ℚ → ℚ}

include hheight

theorem exists_heightAt (z : ℚ) : ∃ place, z = e.heightAt place := by
  refine ⟨(z - (Box.heightRange e.height e.center).1) / e.height, ?_⟩
  rw [heightAt, mul_div_cancel₀ _ hheight.ne']
  ring

-- The children are called where the sample is scaled back to the bottom.
theorem valueAt_heightAt (x y place : ℚ) : e.valueAt inside ⟨x, y, e.heightAt place⟩ =
    if 0 ≤ place ∧ place ≤ 1 then inside ⟨x / factor e.scale.x place, y / factor e.scale.y place, place - 1 / 2⟩
    else 0 := by
  have hshare : e.heightAt place / e.height = (Box.heightRange e.height e.center).1 / e.height + place := by
    rw [heightAt, add_div, mul_div_cancel_left₀ _ hheight.ne']
  have hcenter : (Box.heightRange e.height true).1 / e.height = -(1 / 2) := mul_div_cancel_right₀ _ hheight.ne'
  have hflush : (Box.heightRange e.height false).1 / e.height = 0 := zero_div _
  have hz : (if e.center then e.heightAt place / e.height + 1 / 2 else e.heightAt place / e.height) = place := by
    rw [hshare]
    cases e.center with
    | true => simp [hcenter]
    | false => simp [hflush]
  have hlevel : (if e.center then e.heightAt place / e.height else e.heightAt place / e.height - 1 / 2) =
      place - 1 / 2 := by
    rw [hshare]
    cases e.center with
    | true => simp [hcenter]; ring
    | false => simp [hflush]
  have hreach : 1 / 2 < |place - 1 / 2| ↔ ¬ (0 ≤ place ∧ place ≤ 1) := by
    rw [← not_le, abs_le, not_iff_not]
    constructor <;> rintro ⟨h, h'⟩ <;> constructor <;> linarith
  unfold valueAt
  dsimp only
  rw [hz, hlevel]
  simp only [hreach, ite_not]
  rfl

end Value

section Bounds

variable {e : Extrusion ℚ} (htwist : e.twist = none) (hheight : 0 < e.height) {slice : Box ℚ}

include htwist in
theorem box_of_untwisted : e.box slice =
    ⟨⟨(widenedSide e.scale.x slice.low.x slice.high.x).1, (widenedSide e.scale.y slice.low.y slice.high.y).1,
        (Box.heightRange e.height e.center).1⟩,
      ⟨(widenedSide e.scale.x slice.low.x slice.high.x).2, (widenedSide e.scale.y slice.low.y slice.high.y).2,
        (Box.heightRange e.height e.center).2⟩⟩ := by
  have hside (scale low high : ℚ) : widenedSide scale low high =
      if Scalar.less Scalar.one scale then (Scalar.half * (low + high) - scale * (Scalar.half * (high - low)),
        Scalar.half * (low + high) + scale * (Scalar.half * (high - low))) else (low, high) := by
    unfold widenedSide
    simp only [Scalar.less, Scalar.one, decide_eq_true_eq]
    rfl
  rw [hside, hside, box, htwist]
  rfl

include htwist hheight in
theorem mem_box_iff {x y place : ℚ} : ⟨x, y, e.heightAt place⟩ ∈ (e.box slice).region ↔
    ((widenedSide e.scale.x slice.low.x slice.high.x).1 ≤ x ∧ x ≤ (widenedSide e.scale.x slice.low.x slice.high.x).2) ∧
      ((widenedSide e.scale.y slice.low.y slice.high.y).1 ≤ y ∧ y ≤ (widenedSide e.scale.y slice.low.y slice.high.y).2) ∧
        0 ≤ place ∧ place ≤ 1 := by
  have htop : (Box.heightRange e.height e.center).2 = (Box.heightRange e.height e.center).1 + e.height * 1 := by
    unfold Box.heightRange
    cases e.center with
    | true => simp [Scalar.half]; ring
    | false => simp [Scalar.zero]
  rw [box_of_untwisted htwist, Box.mem_region, htop, heightAt, add_le_add_iff_left, le_add_iff_nonneg_right,
    mul_nonneg_iff_of_pos_left hheight, mul_le_mul_iff_right₀ hheight]

-- Whether the box of an extrusion bounds what its function draws, whatever the children are that lie in the slice.
def Bounds (e : Extrusion ℚ) (slice : Box ℚ) : Prop :=
  ∀ inside : Vec3 ℚ → ℚ,
    (∀ p, inside p ≠ 0 → (slice.low.x ≤ p.x ∧ p.x ≤ slice.high.x) ∧ slice.low.y ≤ p.y ∧ p.y ≤ slice.high.y) →
      ∀ p, e.valueAt inside p ≠ 0 → p ∈ (e.box slice).region

variable (hx : 0 < e.scale.x) (hy : 0 < e.scale.y)

include htwist hheight hx hy

theorem bounds_of_fits (hfx : Fits e.scale.x slice.low.x slice.high.x) (hfy : Fits e.scale.y slice.low.y slice.high.y) :
    e.Bounds slice := by
  rintro inside hinside ⟨x, y, z⟩ hvalue
  obtain ⟨place, rfl⟩ := exists_heightAt hheight z
  rw [valueAt_heightAt hheight] at hvalue
  have hplace : 0 ≤ place ∧ place ≤ 1 := by
    by_contra h
    exact hvalue (if_neg h)
  rw [if_pos hplace] at hvalue
  obtain ⟨hqx, hqy⟩ := hinside _ hvalue
  have hx' := hfx.holds hx hplace hqx
  have hy' := hfy.holds hy hplace hqy
  rw [div_mul_cancel₀ _ (factor_pos hx hplace).ne'] at hx'
  rw [div_mul_cancel₀ _ (factor_pos hy hplace).ne'] at hy'
  exact (mem_box_iff htwist hheight).2 ⟨hx', hy', hplace⟩

-- Two opposite corners at the top of the solid that fills the slice decide whether it is bounded.
theorem fits_of_bounds (hslice : slice.low ≤ slice.high) (h : e.Bounds slice) :
    Fits e.scale.x slice.low.x slice.high.x ∧ Fits e.scale.y slice.low.y slice.high.y := by
  let filled (p : Vec3 ℚ) : ℚ :=
    if (slice.low.x ≤ p.x ∧ p.x ≤ slice.high.x) ∧ slice.low.y ≤ p.y ∧ p.y ≤ slice.high.y then 1 else 0
  have hcorner {x y : ℚ} (hin : (slice.low.x ≤ x ∧ x ≤ slice.high.x) ∧ slice.low.y ≤ y ∧ y ≤ slice.high.y) :
      ⟨x * e.scale.x, y * e.scale.y, e.heightAt 1⟩ ∈ (e.box slice).region := by
    refine h filled (fun p hp => by by_contra hout; exact hp (if_neg hout)) _ ?_
    rw [valueAt_heightAt hheight, if_pos ⟨zero_le_one, le_rfl⟩, factor_one, factor_one, mul_div_cancel_right₀ _ hx.ne',
      mul_div_cancel_right₀ _ hy.ne']
    simp [filled, hin]
  have hlow := (mem_box_iff htwist hheight).1 (hcorner ⟨⟨le_rfl, hslice.1⟩, le_rfl, hslice.2.1⟩)
  have hhigh := (mem_box_iff htwist hheight).1 (hcorner ⟨⟨hslice.1, le_rfl⟩, hslice.2.1, le_rfl⟩)
  exact ⟨fits_of_ends hlow.1.1 hhigh.1.2, fits_of_ends hlow.2.1.1 hhigh.2.1.2⟩

end Bounds

end Extrusion

namespace Solid

open Shader Extrusion

-- Without a twist, the box of an extrusion bounds the solid that its function draws exactly if every side of the slice
-- that is scaled up has its middle at the origin and every side that is scaled down has the origin inside of it. What
-- the function draws is read off the code that is printed for it.
theorem extrude_bounds_iff_fits {e : Extrusion ℚ} (htwist : e.twist = none) (hheight : 0 < e.height)
    (hx : 0 < e.scale.x) (hy : 0 < e.scale.y) :
    (∀ count (first : Solid ℚ) rest, (Solid.extrude e first rest).box = e.box (mergeBoxes first.box rest) ∧
      (Solid.extrude e first rest).emit count =
        close count (emitEach count (first :: rest)).2 .extrude (.extrude e (emitEach count (first :: rest)).1)) ∧
    (∀ (e : Extrusion Float) calls, e.twist = none → (Body.extrude e calls).text = (Code.extruded e calls).text) ∧
    (∀ calls call test s, (Code.extruded e calls).value (.exact id call test) s =
      e.valueAt (fun p => (calls.map fun c => call c p).sum) s.xyz) ∧
    ∀ slice : Box ℚ, slice.low ≤ slice.high →
      (e.Bounds slice ↔ Fits e.scale.x slice.low.x slice.high.x ∧ Fits e.scale.y slice.low.y slice.high.y) := by
  refine ⟨fun count first rest => ⟨rfl, rfl⟩, fun e calls htwist => Code.text_extruded htwist calls,
    value_extruded_exact e, fun slice hslice => ?_⟩
  constructor
  · exact fits_of_bounds htwist hheight hx hy hslice
  · rintro ⟨hfx, hfy⟩
    exact bounds_of_fits htwist hheight hx hy hfx hfy

-- A square that is scaled to twice its size is bounded if it is centred, but not if it has a corner at the origin.
theorem extrude_bounds_centred_square :
    let e : Extrusion ℚ := ⟨1, false, none, ⟨2, 2⟩⟩
    e.Bounds (Solid.square (.uniform 2) true).box ∧ ¬ e.Bounds (Solid.square (.uniform 2) false).box := by
  intro e
  obtain ⟨-, -, -, hiff⟩ := extrude_bounds_iff_fits (e := e) rfl one_pos two_pos two_pos
  constructor
  · refine (hiff _ (Vec3.le_iff.2 (by decide +kernel))).2 ?_
    constructor <;> exact .inr (.inl (by decide +kernel))
  · intro h
    obtain ⟨hfits, -⟩ := (hiff _ (Vec3.le_iff.2 (by decide +kernel))).1 h
    revert hfits
    unfold Fits
    decide +kernel

end Solid

end SolidScript
