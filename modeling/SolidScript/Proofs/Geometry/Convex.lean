import Mathlib.Algebra.Order.Field.Rat
import Mathlib.Analysis.Convex.Hull
import Mathlib.Data.List.Nodup
import Mathlib.Tactic.FieldSimp
import Mathlib.Tactic.LinearCombination
import Mathlib.Tactic.Linarith
import SolidScript.Proofs.Geometry.Crossings

namespace SolidScript

namespace Plane

abbrev Point := ℚ × ℚ

-- Twice the area of a triangle, which is positive if its corners turn to the left.
def turn (p q r : Point) : ℚ := (q.1 - p.1) * (r.2 - p.2) - (q.2 - p.2) * (r.1 - p.1)

-- Whether all other points are on one side of an edge, the left one if `sign` is positive.
def Bounds (sign : ℚ) (points : List Point) (e : Point × Point) : Prop :=
  ∀ r ∈ points, r ≠ e.1 → r ≠ e.2 → 0 < sign * turn e.1 e.2 r

instance (sign : ℚ) (points : List Point) (e : Point × Point) : Decidable (Bounds sign points e) :=
  inferInstanceAs (Decidable (∀ r ∈ points, r ≠ e.1 → r ≠ e.2 → 0 < sign * turn e.1 e.2 r))

-- The corners of a strictly convex polygon in their order, in either direction.
structure IsConvex (points : List Point) : Prop where
  three : 3 ≤ points.length
  nodup : points.Nodup
  turns : (∀ s ∈ Polygon.sides points, Bounds 1 points s) ∨ ∀ s ∈ Polygon.sides points, Bounds (-1) points s

def mix (a b t : ℚ) : ℚ := a * (1 - t) + b * t

-- Where the line through both ends of an edge is at some height.
def lineAt (e : Point × Point) (y : ℚ) : ℚ := mix e.1.1 e.2.1 ((y - e.1.2) / (e.2.2 - e.1.2))

section Line

variable {e f : Point × Point} {low high y z : ℚ}

def slope (e : Point × Point) : ℚ := (e.2.1 - e.1.1) / (e.2.2 - e.1.2)

theorem lineAt_eq (e : Point × Point) (y z : ℚ) : lineAt e y = lineAt e z + slope e * (y - z) := by
  unfold lineAt mix slope
  ring

theorem lineAt_low (e : Point × Point) : lineAt e e.1.2 = e.1.1 := by
  simp [lineAt, mix]

theorem lineAt_high (h : e.1.2 < e.2.2) : lineAt e e.2.2 = e.2.1 := by
  have hne : e.2.2 - e.1.2 ≠ 0 := (sub_pos.2 h).ne'
  simp [lineAt, mix, hne]

-- How far a point is from the line.
theorem turn_eq (h : e.1.2 < e.2.2) (r : Point) : turn e.1 e.2 r = (e.2.2 - e.1.2) * (lineAt e r.2 - r.1) := by
  have hne : e.2.2 - e.1.2 ≠ 0 := (sub_pos.2 h).ne'
  rw [lineAt_eq e r.2 e.1.2, lineAt_low, slope, turn]
  field_simp
  ring

theorem lineAt_combination {a b : ℚ} (h : a + b = 1) : lineAt e (a * y + b * z) = a * lineAt e y + b * lineAt e z := by
  rw [lineAt_eq e (a * y + b * z) 0, lineAt_eq e y 0, lineAt_eq e z 0]
  linear_combination -lineAt e 0 * h

-- Two lines that meet twice are one line.
theorem lineAt_congr (h : low < high) (hlow : lineAt e low = lineAt f low)
    (hhigh : lineAt e high = lineAt f high) (y : ℚ) : lineAt e y = lineAt f y := by
  have hslope : slope e = slope f := by
    have he := lineAt_eq e high low
    have hf := lineAt_eq f high low
    have hpos : high - low ≠ 0 := (sub_pos.2 h).ne'
    apply mul_right_cancel₀ hpos
    linarith
  rw [lineAt_eq e y low, lineAt_eq f y low, hlow, hslope]

end Line

-- The closed polygon with the given corners.
def hull (points : List Point) : Set Point := convexHull ℚ {p | p ∈ points}

-- An edge between two corners of a polygon that reaches all the way from `low` to `high`.
structure Spans (points : List Point) (low high : ℚ) (e : Point × Point) : Prop where
  start_mem : e.1 ∈ points
  finish_mem : e.2 ∈ points
  start_le : e.1.2 ≤ low
  le_finish : high ≤ e.2.2

section Edges

variable {points : List Point} {low high y sign : ℚ} {e f : Point × Point}

theorem Spans.lt (he : Spans points low high e) (h : low < high) : e.1.2 < e.2.2 :=
  he.start_le.trans_lt (h.trans_le he.le_finish)

-- What is between the ends of an edge belongs to the polygon.
theorem Spans.mem_hull (he : Spans points low high e) (h : low < high) (hlow : low ≤ y) (hhigh : y ≤ high) :
    (lineAt e y, y) ∈ hull points := by
  have hlt := sub_pos.2 (he.lt h)
  have hstart : 0 ≤ y - e.1.2 := by linarith [he.start_le]
  have hfinish : y - e.1.2 ≤ e.2.2 - e.1.2 := by linarith [he.le_finish]
  refine segment_subset_convexHull (s := {p | p ∈ points}) he.start_mem he.finish_mem
    ⟨1 - (y - e.1.2) / (e.2.2 - e.1.2), (y - e.1.2) / (e.2.2 - e.1.2), ?_, ?_, ?_, ?_⟩
  · rw [sub_nonneg, div_le_one hlt]
    exact hfinish
  · exact div_nonneg hstart hlt.le
  · ring
  · apply Prod.ext
    · simp [lineAt, mix]
      ring
    · simp
      field_simp
      ring

-- The whole polygon is on one side of an edge that bounds its corners.
theorem Bounds.hull (hb : Bounds sign points e) (he : e.1.2 < e.2.2) {c : Point} (hc : c ∈ hull points) :
    0 ≤ sign * (lineAt e c.2 - c.1) := by
  have hcorner : ∀ r ∈ points, 0 ≤ sign * (lineAt e r.2 - r.1) := by
    intro r hr
    by_cases hstart : r = e.1
    · simp [hstart, lineAt_low]
    · by_cases hfinish : r = e.2
      · simp [hfinish, lineAt_high he]
      · have hpos := hb r hr hstart hfinish
        rw [turn_eq he, mul_left_comm] at hpos
        exact (pos_of_mul_pos_right hpos (sub_pos.2 he).le).le
  have hconvex : Convex ℚ {c : Point | 0 ≤ sign * (lineAt e c.2 - c.1)} := by
    intro p hp q hq a b ha hb' hab
    have hp' := mul_nonneg ha hp
    have hq' := mul_nonneg hb' hq
    simp only [Set.mem_ofPred_eq, Prod.snd_add, Prod.smul_snd, Prod.fst_add, Prod.smul_fst, smul_eq_mul,
      lineAt_combination hab]
    linarith
  exact convexHull_min hcorner hconvex hc

-- An edge on the line of another edge that bounds the corners is the same edge.
theorem Bounds.eq_of_lineAt (hb : Bounds sign points e) (he : Spans points low high e) (hf : Spans points low high f)
    (h : low < high) (hlow : lineAt e low = lineAt f low) (hhigh : lineAt e high = lineAt f high) : f = e := by
  have hon {r : Point} (hr : r ∈ points) (hline : lineAt f r.2 = r.1) : r = e.1 ∨ r = e.2 := by
    by_contra hnot
    push Not at hnot
    have hpos := hb r hr hnot.1 hnot.2
    rw [turn_eq (he.lt h), lineAt_congr h hlow hhigh, hline, sub_self, mul_zero, mul_zero] at hpos
    exact hpos.false
  have hstart : f.1 = e.1 := by
    refine (hon hf.start_mem (lineAt_low f)).resolve_right fun heq => ?_
    have hle := hf.start_le
    rw [heq] at hle
    exact absurd (h.trans_le he.le_finish) hle.not_gt
  have hfinish : f.2 = e.2 := by
    refine (hon hf.finish_mem (lineAt_high (hf.lt h))).resolve_left fun heq => ?_
    have hle := hf.le_finish
    rw [heq] at hle
    exact absurd (he.start_le.trans_lt h) hle.not_gt
  exact Prod.ext hstart hfinish

-- No two edges bound a band on the same side.
theorem Bounds.unique (hsign : sign = 1 ∨ sign = -1) (hbe : Bounds sign points e) (hbf : Bounds sign points f)
    (he : Spans points low high e) (hf : Spans points low high f) (h : low < high) : f = e := by
  have hsame {y : ℚ} (hlow : low ≤ y) (hhigh : y ≤ high) : lineAt e y = lineAt f y := by
    have hle := hbe.hull (he.lt h) (hf.mem_hull h hlow hhigh)
    have hge := hbf.hull (hf.lt h) (he.mem_hull h hlow hhigh)
    rcases hsign with rfl | rfl <;> simp only at hle hge <;> linarith
  exact hbe.eq_of_lineAt he hf h (hsame le_rfl h.le) (hsame h.le le_rfl)

end Edges

theorem exists_third {points : List Point} (hthree : 3 ≤ points.length) (hnodup : points.Nodup) (p q : Point) :
    ∃ r ∈ points, r ≠ p ∧ r ≠ q := by
  by_contra hnone
  push Not at hnone
  have hsub : points ⊆ [p, q] := by
    intro r hr
    by_cases hp : r = p
    · simp [hp]
    · simp [hnone r hr hp]
  have hlength := (hnodup.subperm hsub).length_le
  simp only [List.length_cons, List.length_nil] at hlength
  omega

-- The left and the right edge of a band.
structure Flanks (points : List Point) (low high : ℚ) (left right : Point × Point) : Prop where
  lt : low < high
  left_spans : Spans points low high left
  right_spans : Spans points low high right
  left_bounds : Bounds (-1) points left
  right_bounds : Bounds 1 points right

namespace Flanks

variable {points : List Point} {low high x y : ℚ} {left right : Point × Point}

theorem bounds (h : Flanks points low high left right) {c : Point} (hc : c ∈ hull points) :
    lineAt left c.2 ≤ c.1 ∧ c.1 ≤ lineAt right c.2 := by
  have hleft := h.left_bounds.hull (h.left_spans.lt h.lt) hc
  have hright := h.right_bounds.hull (h.right_spans.lt h.lt) hc
  constructor <;> linarith

theorem lineAt_le (h : Flanks points low high left right) (hlow : low ≤ y) (hhigh : y ≤ high) :
    lineAt left y ≤ lineAt right y :=
  (h.bounds (h.left_spans.mem_hull h.lt hlow hhigh)).2

-- Between the two edges there is nothing but the polygon, and all of it.
theorem mem_hull_iff (h : Flanks points low high left right) (hlow : low ≤ y) (hhigh : y ≤ high) :
    (x, y) ∈ hull points ↔ lineAt left y ≤ x ∧ x ≤ lineAt right y := by
  refine ⟨fun hx => h.bounds hx, fun ⟨hleft, hright⟩ => ?_⟩
  have hl := h.left_spans.mem_hull h.lt hlow hhigh
  have hr := h.right_spans.mem_hull h.lt hlow hhigh
  have hx : x ∈ segment ℚ (lineAt left y) (lineAt right y) := by
    rw [segment_eq_Icc (hleft.trans hright)]
    exact ⟨hleft, hright⟩
  obtain ⟨a, b, ha, hb, hab, hsum⟩ := hx
  have hmem := convex_convexHull ℚ {p | p ∈ points} hl hr ha hb hab
  have hheight : a * y + b * y = y := by rw [← add_mul, hab, one_mul]
  simpa [hull, hheight, ← hsum] using hmem

-- Inside of a band the edges are apart.
theorem lineAt_lt (h : Flanks points low high left right) (hthree : 3 ≤ points.length) (hnodup : points.Nodup)
    (hlow : low < y) (hhigh : y < high) : lineAt left y < lineAt right y := by
  refine (h.lineAt_le hlow.le hhigh.le).lt_of_ne fun hmeet => ?_
  -- Lines that meet inside of the band and keep their order up to both ends have the same slope.
  have hslope : slope left = slope right := by
    have hstart := h.lineAt_le le_rfl h.lt.le
    have hfinish := h.lineAt_le h.lt.le le_rfl
    rw [lineAt_eq left _ y, lineAt_eq right _ y, hmeet] at hstart hfinish
    apply le_antisymm <;> nlinarith
  have hline (z : ℚ) : lineAt right z = lineAt left z := by
    rw [lineAt_eq left z y, lineAt_eq right z y, hmeet, hslope]
  obtain rfl : left = right := h.right_bounds.eq_of_lineAt h.right_spans h.left_spans h.lt (hline low) (hline high)
  obtain ⟨r, hr, hstart, hfinish⟩ := exists_third hthree hnodup left.1 left.2
  have hpos := h.right_bounds r hr hstart hfinish
  have hneg := h.left_bounds r hr hstart hfinish
  linarith

end Flanks

section Outline

variable {points : List Point} {low high : ℚ}

theorem turn_swap (p q r : Point) : turn q p r = -turn p q r := by
  unfold turn
  ring

theorem Bounds.swap {sign : ℚ} {e : Point × Point} (h : Bounds sign points e) : Bounds (-sign) points e.swap := by
  intro r hr hstart hfinish
  have hpos := h r hr hfinish hstart
  rw [Prod.fst_swap, Prod.snd_swap, turn_swap, neg_mul_neg]
  exact hpos

-- The sides that come up bound the polygon on one side, and those that go down on the other.
theorem IsConvex.exists_sign (h : IsConvex points) :
    ∃ sign : ℚ, (sign = 1 ∨ sign = -1) ∧ ∀ s ∈ Polygon.sides points, Bounds sign points s := by
  rcases h.turns with hturns | hturns
  · exact ⟨1, .inl rfl, hturns⟩
  · exact ⟨-1, .inr rfl, hturns⟩

-- A convex polygon is not level.
theorem IsConvex.not_level (h : IsConvex points) : ¬ ∀ p ∈ points, ∀ q ∈ points, p.2 = q.2 := by
  intro hlevel
  obtain ⟨sign, -, hbounds⟩ := h.exists_sign
  obtain ⟨s, hs⟩ : ∃ s, s ∈ Polygon.sides points := by
    match points, h.three with
    | first :: second :: _, _ => exact ⟨(first, second), by simp [Polygon.sides]⟩
  obtain ⟨hstart, hfinish⟩ := Polygon.mem_of_mem_sides hs
  obtain ⟨r, hr, hrs, hrf⟩ := exists_third h.three h.nodup s.1 s.2
  have hpos := hbounds s hs r hr hrs hrf
  rw [turn, hlevel r hr s.1 hstart, hlevel s.2 hfinish s.1 hstart] at hpos
  simp at hpos

theorem nodup_sides {points : List γ} (h : points.Nodup) : (Polygon.sides points).Nodup := by
  cases points with
  | nil => exact .nil
  | cons first rest =>
    apply List.Nodup.of_map Prod.fst
    rwa [Polygon.sides, List.map_fst_zip (by simp)]

-- Whether a point is above a band that ends at `high`.
def isAbove (high : ℚ) (p : Point) : Bool := high ≤ p.2

-- A convex outline comes up through a band at most once.
theorem IsConvex.countP_enters_le (h : IsConvex points) (hlt : low < high)
    (hapart : ∀ p ∈ points, p.2 ≤ low ∨ high ≤ p.2) :
    (Polygon.sides points).countP (Polygon.enters (isAbove high)) ≤ 1 := by
  obtain ⟨sign, hsign, hbounds⟩ := h.exists_sign
  have hspans {s : Point × Point} (hs : s ∈ Polygon.sides points) (henter : Polygon.enters (isAbove high) s) :
      Spans points low high s := by
    obtain ⟨hstart, hfinish⟩ := Polygon.mem_of_mem_sides hs
    simp only [Polygon.enters, isAbove, Bool.and_eq_true, Bool.not_eq_true', decide_eq_false_iff_not,
      decide_eq_true_eq] at henter
    exact ⟨hstart, hfinish, (hapart s.1 hstart).resolve_right henter.1, henter.2⟩
  rw [List.countP_eq_length_filter]
  have hnodup := (nodup_sides h.nodup).filter (Polygon.enters (isAbove high))
  have hunique : ∀ s ∈ (Polygon.sides points).filter (Polygon.enters (isAbove high)),
      ∀ t ∈ (Polygon.sides points).filter (Polygon.enters (isAbove high)), t = s := by
    intro s hs t ht
    obtain ⟨hs, hsenter⟩ := List.mem_filter.1 hs
    obtain ⟨ht, htenter⟩ := List.mem_filter.1 ht
    exact (hbounds s hs).unique hsign (hbounds t ht) (hspans hs hsenter) (hspans ht htenter) hlt
  generalize (Polygon.sides points).filter (Polygon.enters (isAbove high)) = found at hnodup hunique
  obtain _ | ⟨s, _ | ⟨t, rest⟩⟩ := found
  · simp
  · simp
  · have heq := hunique s (by simp) t (by simp)
    simp [heq] at hnodup

end Outline

end Plane

end SolidScript
