import Mathlib.Algebra.Order.Group.Pointwise.Interval
import Mathlib.Tactic.Linarith
import Mathlib.Tactic.Positivity
import SolidScript.Proofs.Geometry.Space

namespace SolidScript

open scoped Exact

namespace Mat4

-- The rows by which the coordinates of a moved point are found.
def rowX (m : Mat4 α) : Vec4 α := ⟨m.x.x, m.y.x, m.z.x, m.w.x⟩

def rowY (m : Mat4 α) : Vec4 α := ⟨m.x.y, m.y.y, m.z.y, m.w.y⟩

def rowZ (m : Mat4 α) : Vec4 α := ⟨m.x.z, m.y.z, m.z.z, m.w.z⟩

theorem take_rows (m : Mat4 α) : m.rows.take 3 = [m.rowX, m.rowY, m.rowZ] := rfl

end Mat4

namespace Vec4

-- The coordinate that a row gives to a point.
def coordinate (row : Vec4 ℚ) (p : Vec3 ℚ) : ℚ := row.w + (row.z * p.z + (row.y * p.y + row.x * p.x))

-- The least and the greatest coordinate that a row gives to the points of a box.
def lowest (row : Vec4 ℚ) (b : Box ℚ) : ℚ :=
  row.w + (min (row.z * b.low.z) (row.z * b.high.z) +
    (min (row.y * b.low.y) (row.y * b.high.y) + min (row.x * b.low.x) (row.x * b.high.x)))

def highest (row : Vec4 ℚ) (b : Box ℚ) : ℚ :=
  row.w + (max (row.z * b.low.z) (row.z * b.high.z) +
    (max (row.y * b.low.y) (row.y * b.high.y) + max (row.x * b.low.x) (row.x * b.high.x)))

-- No two of the three linear coefficients have opposite signs.
def IsCoherent (row : Vec4 ℚ) : Prop := 0 ≤ row.x * row.y ∧ 0 ≤ row.x * row.z ∧ 0 ≤ row.y * row.z

instance : DecidablePred IsCoherent := fun _ => instDecidableAnd

-- At most one of the three linear coefficients is not zero.
def IsAxial (row : Vec4 ℚ) : Prop := row.y = 0 ∧ row.z = 0 ∨ row.x = 0 ∧ row.z = 0 ∨ row.x = 0 ∧ row.y = 0

-- How far the sides of a box reach along the axis of a row.
def along (row : Vec4 ℚ) (sides : Vec3 ℚ) : Vec4 ℚ := ⟨row.x * sides.x, row.y * sides.y, row.z * sides.z, row.w⟩

theorem IsAxial.isCoherent {row : Vec4 ℚ} (h : row.IsAxial) : row.IsCoherent := by
  rcases h with ⟨hy, hz⟩ | ⟨hx, hz⟩ | ⟨hx, hy⟩ <;> simp [IsCoherent, *]

theorem IsCoherent.along {row : Vec4 ℚ} (h : row.IsCoherent) {sides : Vec3 ℚ} (hx : 0 ≤ sides.x) (hy : 0 ≤ sides.y)
    (hz : 0 ≤ sides.z) : (row.along sides).IsCoherent := by
  have hscaled {c d s t : ℚ} (hcd : 0 ≤ c * d) (hs : 0 ≤ s) (ht : 0 ≤ t) : 0 ≤ c * s * (d * t) := by
    rw [mul_mul_mul_comm]
    positivity
  exact ⟨hscaled h.1 hx hy, hscaled h.2.1 hx hz, hscaled h.2.2 hy hz⟩

-- Numbers without opposite signs are all on the same side of zero.
theorem isCoherent_iff {row : Vec4 ℚ} : row.IsCoherent ↔
    (0 ≤ row.x ∧ 0 ≤ row.y ∧ 0 ≤ row.z) ∨ (row.x ≤ 0 ∧ row.y ≤ 0 ∧ row.z ≤ 0) := by
  have hpos {c d : ℚ} (hc : 0 < c) (hcd : 0 ≤ c * d) : 0 ≤ d := nonneg_of_mul_nonneg_right hcd hc
  constructor
  · rintro ⟨hxy, hxz, hyz⟩
    rcases lt_or_ge 0 row.x with hx | hx
    · exact .inl ⟨hx.le, hpos hx hxy, hpos hx hxz⟩
    rcases lt_or_ge 0 row.y with hy | hy
    · exact .inl ⟨hpos hy (mul_comm row.x row.y ▸ hxy), hy.le, hpos hy hyz⟩
    rcases lt_or_ge 0 row.z with hz | hz
    · exact .inl ⟨hpos hz (mul_comm row.x row.z ▸ hxz), hpos hz (mul_comm row.y row.z ▸ hyz), hz.le⟩
    · exact .inr ⟨hx, hy, hz⟩
  · rintro (⟨hx, hy, hz⟩ | ⟨hx, hy, hz⟩)
    · exact ⟨mul_nonneg hx hy, mul_nonneg hx hz, mul_nonneg hy hz⟩
    · exact ⟨mul_nonneg_of_nonpos_of_nonpos hx hy, mul_nonneg_of_nonpos_of_nonpos hx hz,
        mul_nonneg_of_nonpos_of_nonpos hy hz⟩

section Range

-- The multiples of the numbers of an interval are the numbers between the multiples of its ends.
theorem image_mul_interval (c : ℚ) {low high : ℚ} (h : low ≤ high) :
    (fun t => c * t) '' Set.Icc low high = Set.Icc (min (c * low) (c * high)) (max (c * low) (c * high)) := by
  rw [← Set.uIcc_of_le h, Set.image_const_mul_uIcc, Set.uIcc]

variable (row : Vec4 ℚ) {b : Box ℚ}

theorem coordinate_mem_range {p : Vec3 ℚ} (hp : p ∈ b.region) :
    row.coordinate p ∈ Set.Icc (row.lowest b) (row.highest b) := by
  have hside (c : ℚ) {low high t : ℚ} (h : low ≤ t ∧ t ≤ high) :
      c * t ∈ Set.Icc (min (c * low) (c * high)) (max (c * low) (c * high)) := by
    rw [← image_mul_interval c (h.1.trans h.2)]
    exact ⟨t, h, rfl⟩
  obtain ⟨hx, hy, hz⟩ := Box.mem_region.1 hp
  obtain ⟨hx, hx'⟩ := hside row.x hx
  obtain ⟨hy, hy'⟩ := hside row.y hy
  obtain ⟨hz, hz'⟩ := hside row.z hz
  constructor
  · unfold lowest coordinate
    linarith
  · unfold highest coordinate
    linarith

-- The sides of a box are independent, so that each of the three terms takes every value of its range.
theorem exists_coordinate (hb : b.low ≤ b.high) {s t u : ℚ}
    (hs : s ∈ Set.Icc (min (row.x * b.low.x) (row.x * b.high.x)) (max (row.x * b.low.x) (row.x * b.high.x)))
    (ht : t ∈ Set.Icc (min (row.y * b.low.y) (row.y * b.high.y)) (max (row.y * b.low.y) (row.y * b.high.y)))
    (hu : u ∈ Set.Icc (min (row.z * b.low.z) (row.z * b.high.z)) (max (row.z * b.low.z) (row.z * b.high.z))) :
    ∃ p ∈ b.region, row.coordinate p = row.w + (u + (t + s)) := by
  rw [← image_mul_interval _ hb.1] at hs
  rw [← image_mul_interval _ hb.2.1] at ht
  rw [← image_mul_interval _ hb.2.2] at hu
  obtain ⟨x, hx, rfl⟩ := hs
  obtain ⟨y, hy, rfl⟩ := ht
  obtain ⟨z, hz, rfl⟩ := hu
  exact ⟨⟨x, y, z⟩, Box.mem_region.2 ⟨hx, hy, hz⟩, rfl⟩

theorem exists_lowest (hb : b.low ≤ b.high) : ∃ p ∈ b.region, row.coordinate p = row.lowest b :=
  row.exists_coordinate hb (Set.left_mem_Icc.2 min_le_max) (Set.left_mem_Icc.2 min_le_max)
    (Set.left_mem_Icc.2 min_le_max)

theorem exists_highest (hb : b.low ≤ b.high) : ∃ p ∈ b.region, row.coordinate p = row.highest b :=
  row.exists_coordinate hb (Set.right_mem_Icc.2 min_le_max) (Set.right_mem_Icc.2 min_le_max)
    (Set.right_mem_Icc.2 min_le_max)

end Range

section Ends

-- The lesser of two sums is the sum of the lesser terms only if one of the sums has all of them.
theorem min_sum_eq_iff {a b c a' b' c' : ℚ} :
    min (a + (b + c)) (a' + (b' + c')) = min a a' + (min b b' + min c c') ↔
      (a ≤ a' ∧ b ≤ b' ∧ c ≤ c') ∨ (a' ≤ a ∧ b' ≤ b ∧ c' ≤ c) := by
  constructor
  · intro h
    rcases min_choice (a + (b + c)) (a' + (b' + c')) with hmin | hmin <;> rw [hmin] at h
    · have ha := min_le_left a a'
      have hb := min_le_left b b'
      have hc := min_le_left c c'
      exact .inl ⟨min_eq_left_iff.1 (by linarith), min_eq_left_iff.1 (by linarith), min_eq_left_iff.1 (by linarith)⟩
    · have ha := min_le_right a a'
      have hb := min_le_right b b'
      have hc := min_le_right c c'
      exact .inr ⟨min_eq_right_iff.1 (by linarith), min_eq_right_iff.1 (by linarith), min_eq_right_iff.1 (by linarith)⟩
  · rintro (⟨ha, hb, hc⟩ | ⟨ha, hb, hc⟩)
    · rw [min_eq_left ha, min_eq_left hb, min_eq_left hc, min_eq_left (by linarith)]
    · rw [min_eq_right ha, min_eq_right hb, min_eq_right hc, min_eq_right (by linarith)]

variable (row : Vec4 ℚ) (b : Box ℚ)

theorem lowest_add_highest : row.lowest b + row.highest b = row.coordinate b.low + row.coordinate b.high := by
  have hx := min_add_max (row.x * b.low.x) (row.x * b.high.x)
  have hy := min_add_max (row.y * b.low.y) (row.y * b.high.y)
  have hz := min_add_max (row.z * b.low.z) (row.z * b.high.z)
  unfold lowest highest coordinate
  linarith

-- The two corners have the least and the greatest coordinate if and only if no side is moved against another one.
theorem ends_eq_iff :
    (min (row.coordinate b.low) (row.coordinate b.high) = row.lowest b ∧
      max (row.coordinate b.low) (row.coordinate b.high) = row.highest b) ↔ (row.along b.size).IsCoherent := by
  have hlow : min (row.coordinate b.low) (row.coordinate b.high) = row.lowest b ↔ (row.along b.size).IsCoherent := by
    have hup (c low high : ℚ) : 0 ≤ c * (high - low) ↔ c * low ≤ c * high := by rw [mul_sub, sub_nonneg]
    have hdown (c low high : ℚ) : c * (high - low) ≤ 0 ↔ c * high ≤ c * low := by rw [mul_sub, sub_nonpos]
    unfold coordinate lowest
    rw [min_add_add_left, add_right_inj, min_sum_eq_iff, isCoherent_iff]
    change _ ↔ (0 ≤ row.x * (b.high.x - b.low.x) ∧ 0 ≤ row.y * (b.high.y - b.low.y) ∧ 0 ≤ row.z * (b.high.z - b.low.z)) ∨
      (row.x * (b.high.x - b.low.x) ≤ 0 ∧ row.y * (b.high.y - b.low.y) ≤ 0 ∧ row.z * (b.high.z - b.low.z) ≤ 0)
    rw [hup, hup, hup, hdown, hdown, hdown]
    tauto
  rw [hlow, and_iff_left_iff_imp, ← hlow]
  intro h
  have hsum := min_add_max (row.coordinate b.low) (row.coordinate b.high)
  have hends := row.lowest_add_highest b
  linarith

end Ends

end Vec4

namespace Box

variable (b : Box ℚ) (m : Mat4 ℚ)

-- The box around the image of a box.
def image : Box ℚ where
  low := ⟨m.rowX.lowest b, m.rowY.lowest b, m.rowZ.lowest b⟩
  high := ⟨m.rowX.highest b, m.rowY.highest b, m.rowZ.highest b⟩

variable {b}

theorem isLeast_image (hb : b.low ≤ b.high) :
    IsLeast {c : Box ℚ | m.movePoint '' b.region ⊆ c.region} (b.image m) := by
  constructor
  · rintro - ⟨p, hp, rfl⟩
    exact mem_region.2 ⟨m.rowX.coordinate_mem_range hp, m.rowY.coordinate_mem_range hp, m.rowZ.coordinate_mem_range hp⟩
  · intro c hc
    have hmoved {p : Vec3 ℚ} (hp : p ∈ b.region) := mem_region.1 (hc (Set.mem_image_of_mem m.movePoint hp))
    obtain ⟨p, hp, hpx⟩ := m.rowX.exists_lowest hb
    obtain ⟨q, hq, hqy⟩ := m.rowY.exists_lowest hb
    obtain ⟨r, hr, hrz⟩ := m.rowZ.exists_lowest hb
    obtain ⟨p', hp', hpx'⟩ := m.rowX.exists_highest hb
    obtain ⟨q', hq', hqy'⟩ := m.rowY.exists_highest hb
    obtain ⟨r', hr', hrz'⟩ := m.rowZ.exists_highest hb
    constructor
    · exact ⟨(hmoved hp).1.1.trans_eq hpx, (hmoved hq).2.1.1.trans_eq hqy, (hmoved hr).2.2.1.trans_eq hrz⟩
    · exact ⟨hpx'.symm.trans_le (hmoved hp').1.2, hqy'.symm.trans_le (hmoved hq').2.1.2,
        hrz'.symm.trans_le (hmoved hr').2.2.2⟩

theorem transform_le_image (hb : b.low ≤ b.high) : b.transform m ≤ b.image m := by
  have hlow : b.low ∈ b.region := Set.left_mem_Icc.2 hb
  have hhigh : b.high ∈ b.region := Set.right_mem_Icc.2 hb
  have hrow (row : Vec4 ℚ) : row.lowest b ≤ min (row.coordinate b.low) (row.coordinate b.high) ∧
      max (row.coordinate b.low) (row.coordinate b.high) ≤ row.highest b := by
    obtain ⟨h1, h2⟩ := row.coordinate_mem_range hlow
    obtain ⟨h3, h4⟩ := row.coordinate_mem_range hhigh
    exact ⟨le_min h1 h3, max_le h2 h4⟩
  exact ⟨⟨(hrow m.rowX).1, (hrow m.rowY).1, (hrow m.rowZ).1⟩, ⟨(hrow m.rowX).2, (hrow m.rowY).2, (hrow m.rowZ).2⟩⟩

theorem transform_eq_image_iff :
    b.transform m = b.image m ↔ ∀ row ∈ m.rows.take 3, (row.along b.size).IsCoherent := by
  rw [Mat4.take_rows, List.forall_mem_cons, List.forall_mem_cons, List.forall_mem_singleton]
  rw [← Vec4.ends_eq_iff, ← Vec4.ends_eq_iff, ← Vec4.ends_eq_iff]
  rw [Box.mk.injEq, Vec3.mk.injEq, Vec3.mk.injEq]
  exact ⟨fun ⟨⟨h1, h2, h3⟩, h4, h5, h6⟩ => ⟨⟨h1, h4⟩, ⟨h2, h5⟩, h3, h6⟩,
    fun ⟨⟨h1, h4⟩, ⟨h2, h5⟩, h3, h6⟩ => ⟨⟨h1, h2, h3⟩, h4, h5, h6⟩⟩

-- Two corners are enough to bound the image of a box if and only if along no axis two sides of the box are moved
-- against each other. This depends on the sides only where one of them has no length, so that a matrix without
-- opposite signs in a row moves every box to the smallest one, and so does a matrix that shifts, stretches, mirrors
-- and exchanges the axes.
theorem transform_tight (m : Mat4 ℚ) (b : Box ℚ) (hb : b.low ≤ b.high) :
    (b.transform m).low ≤ (b.transform m).high ∧
      ∃ smallest, IsLeast {c : Box ℚ | m.movePoint '' b.region ⊆ c.region} smallest ∧
        b.transform m ≤ smallest ∧
        (b.transform m = smallest ↔ ∀ row ∈ m.rows.take 3, (row.along b.size).IsCoherent) ∧
        ((∀ row ∈ m.rows.take 3, row.IsCoherent) → b.transform m = smallest) ∧
        ((∀ row ∈ m.rows.take 3, row.IsAxial) → b.transform m = smallest) := by
  have hcoherent (h : ∀ row ∈ m.rows.take 3, row.IsCoherent) : b.transform m = b.image m := by
    refine (transform_eq_image_iff m).2 fun row hrow => ?_
    exact (h row hrow).along (sub_nonneg.2 hb.1) (sub_nonneg.2 hb.2.1) (sub_nonneg.2 hb.2.2)
  refine ⟨Vec3.least_le_greatest _ _, b.image m, isLeast_image m hb, transform_le_image m hb, transform_eq_image_iff m,
    hcoherent, fun h => hcoherent fun row hrow => (h row hrow).isCoherent⟩

-- The first matrix mirrors and exchanges the x and y axes and slants the z axis without opposite signs. The second one
-- slants the x axis against the y axis, so that the two corners that it moves miss a part of the image.
theorem transform_tight_slanted :
    let b : Box ℚ := ⟨⟨0, 0, 0⟩, ⟨1, 2, 3⟩⟩
    let m : Mat4 ℚ := .ofRows ⟨0, -1, 0, 5⟩ ⟨-1, 0, 0, 0⟩ ⟨1 / 2, 1, 2, 0⟩ ⟨0, 0, 0, 1⟩
    let n : Mat4 ℚ := .ofRows ⟨1, -1, 0, 0⟩ ⟨0, 1, 0, 0⟩ ⟨0, 0, 1, 0⟩ ⟨0, 0, 0, 1⟩
    IsLeast {c : Box ℚ | m.movePoint '' b.region ⊆ c.region} ⟨⟨3, -1, 0⟩, ⟨5, 0, 17 / 2⟩⟩ ∧
      ¬ IsLeast {c : Box ℚ | n.movePoint '' b.region ⊆ c.region} (b.transform n) := by
  intro b m n
  have hb : b.low ≤ b.high := Vec3.le_iff.2 (by decide +kernel)
  obtain ⟨-, smallest, hleast, -, -, hcoherent, -⟩ := transform_tight m b hb
  obtain ⟨-, smallest', hleast', -, hiff, -⟩ := transform_tight n b hb
  constructor
  · have hmoved : b.transform m = ⟨⟨3, -1, 0⟩, ⟨5, 0, 17 / 2⟩⟩ := by decide +kernel
    rw [← hmoved, hcoherent (by decide +kernel)]
    exact hleast
  · intro h
    have hrows := hiff.1 (h.unique hleast')
    revert hrows
    decide +kernel

end Box

end SolidScript
