import Mathlib.Algebra.Order.Monoid.Prod
import SolidScript.Proofs.Geometry.Convex
import SolidScript.Proofs.Solid.Bands

namespace SolidScript

open SolidScript.Plane

namespace Polygon

-- The exact place of a point.
def corner (p : Vec2 Float) : Point := (Scalar.rational p.x, Scalar.rational p.y)

def ends (e : Edge Float) : Point × Point := (corner e.low, corner e.high)

theorem sides_map (f : γ → δ) (points : List γ) : sides (points.map f) = (sides points).map (Prod.map f f) := by
  cases points with
  | nil => rfl
  | cons first rest =>
    rw [List.map_cons, sides, sides, ← List.zip_map, List.map_append, List.map_cons]
    rfl

section Flanks

variable {points : List (Vec2 Float)} (hfinite : ∀ p ∈ points, p.y.isFinite) {low high : Float}
  (hn : Neighbours points low high)

include hfinite hn

theorem rational_apart : Scalar.rational low < Scalar.rational high ∧
    ∀ p ∈ points.map corner, p.2 ≤ Scalar.rational low ∨ Scalar.rational high ≤ p.2 := by
  obtain ⟨hlt, hapart⟩ := (neighbours_iff Scalar.ranking_rational hfinite hn.low_mem hn.high_mem).1 hn
  exact ⟨hlt, List.forall_mem_map.2 hapart⟩

-- The edge of a side that goes through a band bounds the polygon on the one side or on the other.
theorem flank_of_side {sign : ℚ} (hbounds : ∀ s ∈ sides (points.map corner), Bounds sign (points.map corner) s)
    {s : Vec2 Float × Vec2 Float} (hs : s ∈ sides points) (hchanges : changes (isAbove Scalar.rational high) s) :
    Spans (points.map corner) (Scalar.rational low) (Scalar.rational high) (ends (upright Scalar.rational high s)) ∧
      Bounds (if enters (isAbove Scalar.rational high) s then sign else -sign) (points.map corner)
        (ends (upright Scalar.rational high s)) := by
  obtain ⟨p, q⟩ := s
  obtain ⟨hp, hq⟩ := mem_of_mem_sides hs
  have hside : (corner p, corner q) ∈ sides (points.map corner) := by
    rw [sides_map]
    exact List.mem_map.2 ⟨(p, q), hs, rfl⟩
  have hb := hbounds _ hside
  have hbelow {r : Vec2 Float} (hr : r ∈ points) := isAbove_eq_false Scalar.ranking_rational hfinite hn hr
  unfold changes at hchanges
  unfold enters upright
  cases hqa : isAbove Scalar.rational high q with
  | true =>
    have hpa : isAbove Scalar.rational high p = false := by simpa [hqa] using hchanges
    simp only [hpa, Bool.not_false, Bool.and_self, if_true]
    exact ⟨⟨List.mem_map_of_mem hp, List.mem_map_of_mem hq, (hbelow hp).1 hpa, of_decide_eq_true hqa⟩, hb⟩
  | false =>
    have hpa : isAbove Scalar.rational high p = true := by simpa [hqa] using hchanges
    simp only [Bool.and_false, if_false, Bool.false_eq_true]
    exact ⟨⟨List.mem_map_of_mem hq, List.mem_map_of_mem hp, (hbelow hq).1 hqa, of_decide_eq_true hpa⟩, hb.swap⟩

-- A band of a convex polygon is crossed by its left and its right edge, in the one order or in the other.
theorem exists_flanks (hconvex : IsConvex (points.map corner)) :
    ∃ first second, crossings points low high = [first, second] ∧
      (Flanks (points.map corner) (Scalar.rational low) (Scalar.rational high) (ends first) (ends second) ∨
        Flanks (points.map corner) (Scalar.rational low) (Scalar.rational high) (ends second) (ends first)) := by
  obtain ⟨hlt, hapart⟩ := rational_apart hfinite hn
  obtain ⟨sign, hsign, hbounds⟩ := hconvex.exists_sign
  have hone : (sides points).countP (enters (isAbove Scalar.rational high)) = 1 := by
    have hpos := countP_enters_pos_of_neighbours Scalar.ranking_rational hfinite hn
    have hle := hconvex.countP_enters_le hlt hapart
    rw [sides_map, List.countP_map] at hle
    exact le_antisymm hle hpos
  obtain ⟨s, t, hfound⟩ : ∃ s t, (sides points).filter (changes (isAbove Scalar.rational high)) = [s, t] := by
    rw [← List.length_eq_two, ← List.countP_eq_length_filter, countP_changes, hone]
  have hmem : ∀ u ∈ [s, t], u ∈ sides points ∧ changes (isAbove Scalar.rational high) u := by
    intro u hu
    rw [← hfound] at hu
    exact List.mem_filter.1 hu
  have hpair : [s, t].countP (enters (isAbove Scalar.rational high)) = 1 := by
    rw [← hfound, List.countP_filter, ← hone]
    refine List.countP_congr fun u _ => ?_
    cases ha : isAbove Scalar.rational high u.1 <;> cases hb : isAbove Scalar.rational high u.2 <;>
      simp [enters, changes, ha, hb]
  obtain ⟨hsspan, hsbound⟩ := flank_of_side hfinite hn hbounds (hmem s (by simp)).1 (hmem s (by simp)).2
  obtain ⟨htspan, htbound⟩ := flank_of_side hfinite hn hbounds (hmem t (by simp)).1 (hmem t (by simp)).2
  refine ⟨_, _, by rw [crossings_eq Scalar.ranking_rational hfinite hn, hfound]; rfl, ?_⟩
  -- One of the two sides comes up and the other goes down, and the direction of the outline says which one is left.
  cases hs : enters (isAbove Scalar.rational high) s <;> cases ht : enters (isAbove Scalar.rational high) t <;>
    simp [hs, ht] at hpair hsbound htbound
  · rcases hsign with rfl | rfl
    · exact .inl ⟨hlt, hsspan, htspan, hsbound, htbound⟩
    · exact .inr ⟨hlt, htspan, hsspan, htbound, by simpa using hsbound⟩
  · rcases hsign with rfl | rfl
    · exact .inr ⟨hlt, htspan, hsspan, htbound, hsbound⟩
    · exact .inl ⟨hlt, hsspan, htspan, hsbound, by simpa using htbound⟩

end Flanks

end Polygon

namespace Band

-- Whether the left edge of a band is never to the right of the right one.
def InOrder (band : Band Float) : Prop :=
  ∀ y, Scalar.rational band.low ≤ y → y ≤ Scalar.rational band.high →
    lineAt (Polygon.ends band.left) y ≤ lineAt (Polygon.ends band.right) y

end Band

namespace Fill

-- The test between two edges that the function of a polygon calls for each band.
def testTwoLineSegments (left right : Point × Point) (sample : Point) : ℚ :=
  if lineAt left sample.2 ≤ sample.1 ∧ sample.1 ≤ lineAt right sample.2 then 1 else 0

-- What the function of a polygon returns for a sample, if all numbers are exact.
def valueAt (fill : Fill Float) (sample : Point) : ℚ :=
  if fill.inBox Scalar.rational sample.1 sample.2 then
    match fill.bandAt? Scalar.rational sample.2 with
    | some band => testTwoLineSegments (Polygon.ends band.left) (Polygon.ends band.right) sample
    | none => 1
  else 0

section Code

open Shader

def point (v : Vec2 ℚ) : Point := (v.x, v.y)

-- Exact numbers, with any functions for other calls.
def meaning (call : Call Float → Vec3 ℚ → ℚ) : Code.Meaning Float ℚ :=
  .exact Scalar.rational call fun left right p =>
    testTwoLineSegments (point left.low, point left.high) (point right.low, point right.high) (point p)

-- What is printed for a polygon, and what it returns if all numbers are exact.
structure IsPrinted (fill : Fill Float) : Prop where
  text : fill.body.text = fill.code.text
  value : ∀ call s, fill.code.value (meaning call) s = fill.valueAt (s.xyz.x, s.xyz.y)
  source : LibraryFunction.testTwoLineSegments.source =
    "float testTwoLineSegments(in vec2 l0, in vec2 l1, in vec2 r0, in vec2 r1, in vec2 xy) \x7b\n"
      ++ (Code.testTwoLineSegments : Code Float).text ++ "\x7d\n"
  test : ∀ call s, Code.testTwoLineSegments.value (meaning call) s =
    testTwoLineSegments (point (s.pairs "l0"), point (s.pairs "l1")) (point (s.pairs "r0"), point (s.pairs "r1"))
      (point (s.pairs "xy"))

theorem isPrinted (fill : Fill Float) : fill.IsPrinted where
  text := Code.text_polygon _ _ _
  value call s := by
    have hconstant : (meaning call).constant = Scalar.rational := rfl
    rw [Code.value, runLines_code, valueAt, hconstant]
    split
    · cases fill.bandAt? Scalar.rational s.xyz.y <;> rfl
    · rfl
  source := Code.source_testTwoLineSegments
  test call s := by
    have hedge (low high : String) (t : Code.Store ℚ) : (Code.edgeAt low high).value (meaning call) t =
        lineAt (point (t.pairs low), point (t.pairs high)) (t.pairs "xy").y := rfl
    simp [Code.value, Code.testTwoLineSegments, hedge, Code.less_eq_false_iff, testTwoLineSegments]
    rfl

end Code

theorem testTwoLineSegments_eq_one_iff {left right : Point × Point} {sample : Point} :
    testTwoLineSegments left right sample = 1 ↔
      lineAt left sample.2 ≤ sample.1 ∧ sample.1 ≤ lineAt right sample.2 := by
  unfold testTwoLineSegments
  split <;> simp_all

abbrev exactPoints (fill : Fill Float) : List Point := (fill.first :: fill.rest).map Polygon.corner

section Convex

variable {fill : Fill Float} (hx : ∀ p ∈ fill.first :: fill.rest, p.x.isFinite)
  (hy : ∀ p ∈ fill.first :: fill.rest, p.y.isFinite)
  (hbands : Polygon.bands? (fill.first :: fill.rest) = some fill.bands)
  (hconvex : IsConvex fill.exactPoints)

include hy hbands hconvex in
theorem band_flanks {band : Band Float} (hband : band ∈ fill.bands) :
    Flanks fill.exactPoints (Scalar.rational band.low) (Scalar.rational band.high)
        (Polygon.ends band.left) (Polygon.ends band.right) ∨
      Flanks fill.exactPoints (Scalar.rational band.low) (Scalar.rational band.high)
        (Polygon.ends band.right) (Polygon.ends band.left) := by
  have hn := Polygon.neighbours_of_mem_bands Scalar.ranking_rational hy hbands hband
  have hread := (Polygon.bands?_eq_some Scalar.ranking_rational hy hbands).2 band hband
  obtain ⟨first, second, htwo, hflanks⟩ := Polygon.exists_flanks hy hn hconvex
  rw [Polygon.band?_of_two htwo] at hread
  have hleft := congrArg Band.left (Option.some.inj (Option.some.inj hread))
  have hright := congrArg Band.right (Option.some.inj (Option.some.inj hread))
  dsimp only at hleft hright
  rw [← hleft, ← hright]
  rcases Polygon.ordered_cases first second with hordered | hordered
  · rw [hordered]
    exact hflanks
  · rw [hordered]
    exact hflanks.symm

include hx hy in
theorem inBox_of_mem_hull {c : Point} (hc : c ∈ hull fill.exactPoints) : fill.inBox Scalar.rational c.1 c.2 := by
  have hleft := Polygon.isLeast_corners Scalar.ranking_rational Polygon.isCoordinate_x hx
  have hright := Polygon.isGreatest_corners Scalar.ranking_rational Polygon.isCoordinate_x hx
  have hbottom := Polygon.isLeast_corners Scalar.ranking_rational Polygon.isCoordinate_y hy
  have htop := Polygon.isGreatest_corners Scalar.ranking_rational Polygon.isCoordinate_y hy
  refine convexHull_min (t := Set.Icc (Polygon.corner fill.corners.1) (Polygon.corner fill.corners.2)) ?_
    (convex_Icc _ _) hc
  intro r hr
  obtain ⟨p, hp, rfl⟩ := List.mem_map.1 hr
  exact ⟨⟨hleft.2 ⟨p, hp, rfl⟩, hbottom.2 ⟨p, hp, rfl⟩⟩, hright.2 ⟨p, hp, rfl⟩, htop.2 ⟨p, hp, rfl⟩⟩

include hx hy hbands hconvex in
theorem exists_bandAt? {x y : ℚ} (hbox : fill.inBox Scalar.rational x y) :
    ∃ band, fill.bandAt? Scalar.rational y = some band := by
  rw [← Option.ne_none_iff_exists']
  intro hnone
  have hlevel := (exists_reachesEnd_iff Scalar.ranking_rational hx hy hbands).1 ⟨x, y, hbox, hnone⟩
  apply hconvex.not_level
  simp only [List.forall_mem_map]
  exact hlevel

theorem bounds_of_bandAt? {band : Band Float} {y : ℚ} (h : fill.bandAt? Scalar.rational y = some band) :
    band ∈ fill.bands ∧ Scalar.rational band.low ≤ y ∧ y ≤ Scalar.rational band.high := by
  have hbounds := List.find?_some h
  simp only [Bool.and_eq_true, decide_eq_true_eq] at hbounds
  exact ⟨List.mem_of_find?_eq_some h, hbounds⟩

-- A sample counts as inside if it is in the polygon and the edges of its band are in order at its height.
include hx hy hbands hconvex in
theorem valueAt_eq_one_iff (sample : Point) : fill.valueAt sample = 1 ↔
    sample ∈ hull fill.exactPoints ∧
      ∀ band, fill.bandAt? Scalar.rational sample.2 = some band →
        lineAt (Polygon.ends band.left) sample.2 ≤ lineAt (Polygon.ends band.right) sample.2 := by
  unfold valueAt
  by_cases hbox : fill.inBox Scalar.rational sample.1 sample.2
  · obtain ⟨band, hband⟩ := exists_bandAt? hx hy hbands hconvex hbox
    obtain ⟨hmem, hlow, hhigh⟩ := bounds_of_bandAt? hband
    have honly : (∀ b, fill.bandAt? Scalar.rational sample.2 = some b →
          lineAt (Polygon.ends b.left) sample.2 ≤ lineAt (Polygon.ends b.right) sample.2) ↔
        lineAt (Polygon.ends band.left) sample.2 ≤ lineAt (Polygon.ends band.right) sample.2 := by
      simp [hband]
    rw [if_pos hbox, honly, hband, testTwoLineSegments_eq_one_iff]
    rcases band_flanks hy hbands hconvex hmem with hflanks | hflanks
    · rw [← hflanks.mem_hull_iff hlow hhigh, iff_self_and]
      exact fun _ => hflanks.lineAt_le hlow hhigh
    · have hle := hflanks.lineAt_le hlow hhigh
      have hiff := hflanks.mem_hull_iff hlow hhigh (x := sample.1)
      rw [hiff]
      constructor
      · rintro ⟨hleft, hright⟩
        exact ⟨⟨hle.trans hleft, hright.trans hle⟩, hleft.trans hright⟩
      · rintro ⟨⟨hright, hleft⟩, horder⟩
        exact ⟨horder.trans hright, hleft.trans horder⟩
  · rw [if_neg hbox]
    exact ⟨fun h => absurd h zero_ne_one, fun h => absurd (inBox_of_mem_hull hx hy h.1) hbox⟩

-- The edges of a band are in order, or they are the other way round everywhere inside.
include hy hbands hconvex in
theorem inOrder_or_reversed {band : Band Float} (hband : band ∈ fill.bands) : band.InOrder ∨
    ∀ y, Scalar.rational band.low < y → y < Scalar.rational band.high →
      lineAt (Polygon.ends band.right) y < lineAt (Polygon.ends band.left) y := by
  rcases band_flanks hy hbands hconvex hband with hflanks | hflanks
  · exact .inl fun y hlow hhigh => hflanks.lineAt_le hlow hhigh
  · exact .inr fun y hlow hhigh => hflanks.lineAt_lt hconvex.three hconvex.nodup hlow hhigh

include hy hbands in
theorem bandAt?_of_inside {band : Band Float} (hband : band ∈ fill.bands) {y : ℚ} (hlow : Scalar.rational band.low < y)
    (hhigh : y < Scalar.rational band.high) : fill.bandAt? Scalar.rational y = some band := by
  cases hfound : fill.bandAt? Scalar.rational y with
  | none =>
    have hmissed := List.find?_eq_none.1 hfound band hband
    simp [hlow.le, hhigh.le] at hmissed
  | some other =>
    obtain ⟨hmem, hlow', hhigh'⟩ := bounds_of_bandAt? hfound
    rw [Polygon.eq_of_mem_bands Scalar.ranking_rational hy hbands hband hmem hlow hhigh hlow' hhigh']

-- A convex polygon is filled exactly if and only if the edges of all its bands are in order.
include hx hy hbands hconvex in
theorem valueAt_inOrder_iff :
    (∀ sample, fill.valueAt sample = 1 ↔ sample ∈ hull fill.exactPoints) ↔
      ∀ band ∈ fill.bands, band.InOrder := by
  constructor
  · intro hexact band hband
    refine (inOrder_or_reversed hy hbands hconvex hband).resolve_right fun hreversed => ?_
    have hspans : Spans fill.exactPoints (Scalar.rational band.low) (Scalar.rational band.high)
        (Polygon.ends band.left) := by
      rcases band_flanks hy hbands hconvex hband with hflanks | hflanks
      · exact hflanks.left_spans
      · exact hflanks.right_spans
    have hn := Polygon.neighbours_of_mem_bands Scalar.ranking_rational hy hbands hband
    obtain ⟨y, hlow, hhigh⟩ := exists_between (Polygon.rational_apart hy hn).1
    have hmem := hspans.mem_hull (hlow.trans hhigh) hlow.le hhigh.le
    have horder := ((valueAt_eq_one_iff hx hy hbands hconvex _).1 ((hexact _).2 hmem)).2 band
      (bandAt?_of_inside hy hbands hband hlow hhigh)
    exact absurd horder (hreversed y hlow hhigh).not_ge
  · intro horder sample
    rw [valueAt_eq_one_iff hx hy hbands hconvex, and_iff_left_iff_imp]
    intro _ band hband
    obtain ⟨hmem, hlow, hhigh⟩ := bounds_of_bandAt? hband
    exact horder band hmem sample.2 hlow hhigh

end Convex

end Fill

namespace Solid

open SolidScript.Polygon

-- Every strictly convex polygon is accepted. For the code that is printed for it, a sample counts as inside if and
-- only if it is in the polygon and the edges of its band are in order there, so that the polygon is filled exactly if
-- and only if no band has its edges reversed.
theorem readPolygon_fills_convex (args : List Value) (points : List (Vec2 Float))
    (hpaths : (polygonArguments args).get? "paths" = none)
    (hpoints : (polygonArguments args).points "points" = .ok points)
    (hfinite : ∀ p ∈ points, p.x.isFinite ∧ p.y.isFinite) (hconvex : IsConvex (points.map corner)) :
    ∃ fill, readPolygon args = .ok fill ∧ Compiler.Fills args fill ∧ fill.IsPrinted ∧
      (∀ sample, fill.valueAt sample = 1 ↔ sample ∈ hull (points.map corner) ∧
        ∀ band, fill.bandAt? Scalar.rational sample.2 = some band →
          lineAt (ends band.left) sample.2 ≤ lineAt (ends band.right) sample.2) ∧
      (∀ band ∈ fill.bands, band.InOrder ∨ ∀ y, Scalar.rational band.low < y → y < Scalar.rational band.high →
        lineAt (ends band.right) y < lineAt (ends band.left) y) ∧
      ((∀ sample, fill.valueAt sample = 1 ↔ sample ∈ hull (points.map corner)) ↔
        ∀ band ∈ fill.bands, band.InOrder) := by
  have hx : ∀ p ∈ points, p.x.isFinite := fun p hp => (hfinite p hp).1
  have hy : ∀ p ∈ points, p.y.isFinite := fun p hp => (hfinite p hp).2
  have hcount : 3 ≤ points.length := by simpa using hconvex.three
  rcases readPolygon_cases hpaths hpoints hcount with ⟨hnone, -⟩ | ⟨fill, rfl, hbands, hread⟩
  · obtain ⟨low, high, hn, hmany⟩ := (bands?_eq_none_iff Scalar.ranking_rational hy).1 hnone
    obtain ⟨first, second, htwo, -⟩ := exists_flanks hy hn hconvex
    simp [htwo] at hmany
  · refine ⟨fill, hread, Compiler.fills_of_readPolygon hread, fill.isPrinted, ?_, ?_, ?_⟩
    · exact Fill.valueAt_eq_one_iff hx hy hbands hconvex
    · exact fun band hband => Fill.inOrder_or_reversed hy hbands hconvex hband
    · exact Fill.valueAt_inOrder_iff hx hy hbands hconvex

-- A triangle on a level side is filled, and a slanted one is not. Both edges of its lower band begin at the same
-- corner, and the longer one is taken for the right one because it ends farther to the right, though at another
-- height.
theorem readPolygon_fills_convex_slanted :
    let upright : List (Vec2 Float) := [⟨0, 0⟩, ⟨4, 0⟩, ⟨2, 3⟩]
    let slanted : List (Vec2 Float) := [⟨0, 0⟩, ⟨50, 10⟩, ⟨100, 100⟩]
    (∃ fill, readPolygon (outline upright) = .ok fill ∧
      ∀ sample, fill.valueAt sample = 1 ↔ sample ∈ hull (upright.map corner)) ∧
    ∃ fill, readPolygon (outline slanted) = .ok fill ∧
      ∃ sample ∈ hull (slanted.map corner), fill.valueAt sample ≠ 1 := by
  intro upright slanted
  constructor
  · obtain ⟨fill, hread, -, -, -, hreversed, hexact⟩ := readPolygon_fills_convex _ upright rfl (points_outline _)
      (by decide +kernel) ⟨by decide, by decide +kernel, .inl (by decide +kernel)⟩
    have hfill : readPolygon (outline upright) =
        .ok ⟨⟨0, 0⟩, [⟨4, 0⟩, ⟨2, 3⟩], [⟨0, 3, ⟨⟨0, 0⟩, ⟨2, 3⟩⟩, ⟨⟨4, 0⟩, ⟨2, 3⟩⟩⟩]⟩ := rfl
    cases hread.symm.trans hfill
    refine ⟨_, hread, hexact.2 fun band hband => (hreversed band hband).resolve_right fun h => ?_⟩
    obtain rfl := List.mem_singleton.1 hband
    exact absurd (h 1 (by decide +kernel) (by decide +kernel)) (by decide +kernel)
  · obtain ⟨fill, hread, -, -, hvalue, -, hexact⟩ := readPolygon_fills_convex _ slanted rfl (points_outline _)
      (by decide +kernel) ⟨by decide, by decide +kernel, .inl (by decide +kernel)⟩
    have hfill : readPolygon (outline slanted) = .ok ⟨⟨0, 0⟩, [⟨50, 10⟩, ⟨100, 100⟩],
        [⟨0, 10, ⟨⟨0, 0⟩, ⟨50, 10⟩⟩, ⟨⟨0, 0⟩, ⟨100, 100⟩⟩⟩,
          ⟨10, 100, ⟨⟨0, 0⟩, ⟨100, 100⟩⟩, ⟨⟨50, 10⟩, ⟨100, 100⟩⟩⟩]⟩ := rfl
    cases hread.symm.trans hfill
    refine ⟨_, hread, ?_⟩
    by_contra hnone
    push Not at hnone
    have horder := hexact.1 fun sample => ⟨fun h => ((hvalue sample).1 h).1, hnone sample⟩
    exact absurd (horder _ List.mem_cons_self 5 (by decide +kernel) (by decide +kernel)) (by decide +kernel)

end Solid

end SolidScript
