import SolidScript.Proofs.Geometry.Crossings
import SolidScript.Proofs.Shader.Code
import SolidScript.Shader.Compiler

namespace SolidScript

namespace Polygon

section Between

variable [Scalar α] {points : List (Vec2 α)} {values : List α}

theorem bandsBetween_cons (low high : α) (rest : List α) : bandsBetween points (low :: high :: rest) =
    (band? points low high).bind fun band => (bandsBetween points (high :: rest)).map (band.toList ++ ·) := by
  rw [bandsBetween]
  cases band? points low high with
  | none => rfl
  | some band => cases bandsBetween points (high :: rest) <;> rfl

theorem bandsBetween_eq_none_iff :
    bandsBetween points values = none ↔ ∃ pair ∈ values.zip values.tail, band? points pair.1 pair.2 = none := by
  induction values with
  | nil => simp [bandsBetween]
  | cons low rest ih =>
    cases rest with
    | nil => simp [bandsBetween]
    | cons high rest =>
      rw [bandsBetween_cons, List.tail_cons, List.zip_cons_cons, List.exists_mem_cons_iff]
      rw [List.tail_cons] at ih
      cases band? points low high with
      | none => simp
      | some band => simp [ih]

theorem low_high_of_band? {low high : α} {band : Band α} (h : band? points low high = some (some band)) :
    band.low = low ∧ band.high = high := by
  unfold band? at h
  split at h
  · cases h
    exact ⟨rfl, rfl⟩
  · cases h
  · cases h

-- If no band is left out, there is one for each two neighbouring values.
theorem bandsBetween_eq_some {bands : List (Band α)} (h : bandsBetween points values = some bands)
    (hfull : ∀ pair ∈ values.zip values.tail, band? points pair.1 pair.2 ≠ some none) :
    bands.map (fun band => (band.low, band.high)) = values.zip values.tail ∧
      ∀ band ∈ bands, band? points band.low band.high = some (some band) := by
  induction values generalizing bands with
  | nil =>
    cases h
    exact ⟨rfl, nofun⟩
  | cons low rest ih =>
    cases rest with
    | nil =>
      cases h
      exact ⟨rfl, nofun⟩
    | cons high rest =>
      obtain ⟨hfirst, hrest⟩ := List.forall_mem_cons.1 hfull
      rw [bandsBetween_cons] at h
      obtain ⟨band?, hband, h⟩ := Option.bind_eq_some_iff.1 h
      obtain ⟨more, hmore, rfl⟩ := Option.map_eq_some_iff.1 h
      obtain ⟨hpairs, hall⟩ := ih hmore hrest
      cases band? with
      | none => exact absurd hband hfirst
      | some band =>
        obtain ⟨hlow, hhigh⟩ := low_high_of_band? hband
        refine ⟨?_, List.forall_mem_cons.2 ⟨by rw [hlow, hhigh, hband], hall⟩⟩
        simp only [Option.toList_some, List.cons_append, List.nil_append, List.map_cons, hpairs, hlow, hhigh]
        rfl

end Between

section Bands

variable [Scalar α] [LinearOrder β] {ordinary : α → Prop} {place : α → β} {points : List (Vec2 α)}
  (hr : Scalar.Ranking ordinary place) (h : ∀ p ∈ points, ordinary p.y)

include hr h

theorem crossings_even {low high : α} (hn : Neighbours points low high) :
    Even (crossings points low high).length ∧ 0 < (crossings points low high).length := by
  have hpos := countP_enters_pos_of_neighbours hr h hn
  rw [length_crossings hr h hn]
  exact ⟨even_two_mul _, by omega⟩

theorem crossings_cases {low high : α} (hn : Neighbours points low high) :
    2 < (crossings points low high).length ∨ ∃ first second, crossings points low high = [first, second] := by
  obtain ⟨heven, hpos⟩ := crossings_even hr h hn
  generalize crossings points low high = found at heven hpos
  match found with
  | [] => cases hpos
  | [_] => simp at heven
  | [first, second] => exact .inr ⟨first, second, rfl⟩
  | _ :: _ :: _ :: _ => simp

theorem exists_band?_iff {low high : α} (hn : Neighbours points low high) :
    (∃ band, band? points low high = some (some band)) ↔ (crossings points low high).length ≤ 2 := by
  rcases crossings_cases hr h hn with hmany | ⟨first, second, htwo⟩
  · simp [band?_eq_none_iff.2 hmany, hmany]
  · simp [band?_of_two htwo, htwo]

-- A polygon is refused because of a band with too many edges.
theorem bands?_eq_none_iff :
    bands? points = none ↔ ∃ low high, Neighbours points low high ∧ 2 < (crossings points low high).length := by
  rw [bands?, bandsBetween_eq_none_iff]
  constructor
  · rintro ⟨⟨low, high⟩, hmem, hnone⟩
    exact ⟨low, high, neighbours_of_mem hr h hmem, band?_eq_none_iff.1 hnone⟩
  · rintro ⟨low, high, hn, hmany⟩
    obtain ⟨a, b, hmem, -, hb⟩ := hn.exists_mem hr h
    refine ⟨(a, b), hmem, band?_eq_none_iff.2 ?_⟩
    have hn' := neighbours_of_mem hr h hmem
    have habove : isAbove place b = isAbove place high := by
      unfold isAbove
      rw [hb]
    rwa [length_crossings hr h hn', habove, ← length_crossings hr h hn]

-- No band is left out.
theorem bands?_eq_some {bands : List (Band α)} (hbands : bands? points = some bands) :
    bands.map (fun band => (band.low, band.high)) = (heights points).zip (heights points).tail ∧
      ∀ band ∈ bands, band? points band.low band.high = some (some band) := by
  refine bandsBetween_eq_some hbands fun pair hmem hnone => ?_
  have hn := neighbours_of_mem hr h hmem
  rcases crossings_cases hr h hn with hmany | ⟨first, second, htwo⟩
  · rw [band?_eq_none_iff.2 hmany] at hnone
    cases hnone
  · rw [band?_of_two htwo] at hnone
    cases hnone

theorem neighbours_of_mem_bands {bands : List (Band α)} (hbands : bands? points = some bands) {band : Band α}
    (hband : band ∈ bands) : Neighbours points band.low band.high := by
  apply neighbours_of_mem hr h
  rw [← (bands?_eq_some hr h hbands).1]
  exact List.mem_map_of_mem hband

-- What is strictly inside of a band is in no other band.
theorem eq_of_mem_bands {bands : List (Band α)} (hbands : bands? points = some bands) {band other : Band α}
    (hband : band ∈ bands) (hother : other ∈ bands) {y : β} (hlow : place band.low < y) (hhigh : y < place band.high)
    (hlow' : place other.low ≤ y) (hhigh' : y ≤ place other.high) : other = band := by
  obtain ⟨hpairs, hall⟩ := bands?_eq_some hr h hbands
  have hmem {b : Band α} (hb : b ∈ bands) : (b.low, b.high) ∈ (heights points).zip (heights points).tail := by
    rw [← hpairs]
    exact List.mem_map_of_mem hb
  have hends {b : Band α} (hb : b ∈ bands) : b.low ∈ heights points ∧ b.high ∈ heights points :=
    ⟨(List.of_mem_zip (hmem hb)).1, List.mem_of_mem_tail (List.of_mem_zip (hmem hb)).2⟩
  have hapart {b : Band α} (hb : b ∈ bands) {a : α} (ha : a ∈ heights points) :=
    (adjacent_apart (pairwise_heights hr h) (hmem hb) ha).2
  have hlows : place other.low = place band.low := by
    apply le_antisymm
    · exact (hapart hband (hends hother).1).resolve_right (hlow'.trans_lt hhigh).not_ge
    · exact (hapart hother (hends hband).1).resolve_right (hlow.trans_le hhigh').not_ge
  have hhighs : place other.high = place band.high := by
    apply le_antisymm
    · exact (hapart hother (hends hband).2).resolve_left (hlow'.trans_lt hhigh).not_ge
    · exact (hapart hband (hends hother).2).resolve_left (hlow.trans_le hhigh').not_ge
  have hinj := List.inj_on_of_nodup_map (nodup_heights hr h)
  have hsame := hall other hother
  rw [hinj (hends hother).1 (hends hband).1 hlows, hinj (hends hother).2 (hends hband).2 hhighs,
    hall band hband] at hsame
  exact (Option.some.inj (Option.some.inj hsame)).symm

theorem length_bands {bands : List (Band α)} (hbands : bands? points = some bands) (hne : points ≠ []) :
    bands.length + 1 = (points.map fun p => place p.y).toFinset.card := by
  have hlength := congrArg List.length (bands?_eq_some hr h hbands).1
  obtain ⟨p, hp⟩ := List.exists_mem_of_ne_nil points hne
  obtain ⟨a, ha, -⟩ := exists_height hr h hp
  have hpos := List.length_pos_of_mem ha
  rw [List.length_map, List.length_zip, List.length_tail] at hlength
  rw [← length_heights hr h]
  omega

-- Every height of the polygon is in a band, unless the polygon is level.
theorem exists_band {bands : List (Band α)} (hbands : bands? points = some bands) {low high : Vec2 α} {y : β}
    (hlow : low ∈ points) (hhigh : high ∈ points) (hlowy : place low.y ≤ y) (hyhigh : y ≤ place high.y) :
    (∃ band ∈ bands, place band.low ≤ y ∧ y ≤ place band.high) ∨ ∀ p ∈ points, place p.y = y := by
  by_cases hlevel : ∀ p ∈ points, place p.y = y
  · exact .inr hlevel
  · left
    have htwo : 2 ≤ (heights points).length := by
      by_cases heq : place low.y = place high.y
      · obtain ⟨p, hp, hne⟩ : ∃ p ∈ points, place p.y ≠ y := by simpa using hlevel
        have hy : y = place low.y := le_antisymm (heq ▸ hyhigh) hlowy
        exact two_le_length_heights hr h hp hlow (hy ▸ hne)
      · exact two_le_length_heights hr h hlow hhigh heq
    obtain ⟨a, ha, hplace⟩ := exists_height hr h hlow
    obtain ⟨b, hb, hplace'⟩ := exists_height hr h hhigh
    obtain ⟨pair, hpair, hbounds⟩ := exists_adjacent (pairwise_heights hr h) ha hb htwo (hplace.trans_le hlowy)
      (hyhigh.trans_eq hplace'.symm)
    rw [← (bands?_eq_some hr h hbands).1] at hpair
    obtain ⟨band, hband, rfl⟩ := List.mem_map.1 hpair
    exact ⟨band, hband, hbounds⟩

end Bands

end Polygon

namespace Fill

-- Whether a sample passes the test that the function of a polygon begins with.
def inBox [Scalar α] [LE β] (place : α → β) (fill : Fill α) (x y : β) : Prop :=
  (place fill.corners.1.x ≤ x ∧ place fill.corners.1.y ≤ y) ∧ x ≤ place fill.corners.2.x ∧ y ≤ place fill.corners.2.y

-- The band that decides about the samples of a height. The bands are tested one after another.
def bandAt? [LE β] [DecidableLE β] (place : α → β) (fill : Fill α) (y : β) : Option (Band α) :=
  fill.bands.find? fun band => place band.low ≤ y && y ≤ place band.high

-- Whether a sample is left to the end of the function, where everything counts as inside.
def reachesEnd [Scalar α] [LE β] [DecidableLE β] (place : α → β) (fill : Fill α) (x y : β) : Prop :=
  fill.inBox place x y ∧ fill.bandAt? place y = none

variable [Scalar α] [LinearOrder β] {ordinary : α → Prop} {place : α → β} {fill : Fill α}

instance (place : α → β) (fill : Fill α) (x y : β) : Decidable (fill.inBox place x y) :=
  inferInstanceAs (Decidable ((_ ∧ _) ∧ _ ∧ _))

section Code

open Shader

-- The body of the function of a polygon.
def body (fill : Fill α) : Body α := .polygon fill.corners.1 fill.corners.2 fill.bands

def code (fill : Fill α) : Code α := .polygon fill.corners.1 fill.corners.2 fill.bands

variable (m : Code.Meaning α β) (s : Code.Store β)

theorem runLines_code : Code.runLines m fill.code.lines s =
    if fill.inBox m.constant s.xyz.x s.xyz.y then
      match fill.bandAt? m.constant s.xyz.y with
      | some band => .inr (m.test (m.edge band.left) (m.edge band.right) ⟨s.xyz.x, s.xyz.y⟩)
      | none => .inl s
    else .inr (m.fixed .zero) := by
  rw [code, Code.polygon, Code.runLines]
  by_cases hbox : fill.inBox m.constant s.xyz.x s.xyz.y
  · rw [if_pos hbox, Code.run_boxTest_of_mem hbox]
    exact Code.runLines_bandTests fill.bands
  · rw [if_neg hbox, Code.run_boxTest_of_notMem hbox]
    rfl

theorem reachesEnd_code : fill.code.ReachesEnd m s ↔ fill.reachesEnd m.constant s.xyz.x s.xyz.y := by
  rw [Code.ReachesEnd, runLines_code, reachesEnd]
  by_cases hbox : fill.inBox m.constant s.xyz.x s.xyz.y
  · cases fill.bandAt? m.constant s.xyz.y <;> simp [hbox]
  · simp [hbox]

end Code

-- Only a level polygon leaves something to the end of its function.
theorem exists_reachesEnd_iff (hr : Scalar.Ranking ordinary place)
    (hx : ∀ p ∈ fill.first :: fill.rest, ordinary p.x) (hy : ∀ p ∈ fill.first :: fill.rest, ordinary p.y)
    (hbands : Polygon.bands? (fill.first :: fill.rest) = some fill.bands) :
    (∃ x y, fill.reachesEnd place x y) ↔
      ∀ p ∈ fill.first :: fill.rest, ∀ q ∈ fill.first :: fill.rest, place p.y = place q.y := by
  have hleft := Polygon.isLeast_corners hr Polygon.isCoordinate_x hx
  have hright := Polygon.isGreatest_corners hr Polygon.isCoordinate_x hx
  have hbottom := Polygon.isLeast_corners hr Polygon.isCoordinate_y hy
  have htop := Polygon.isGreatest_corners hr Polygon.isCoordinate_y hy
  constructor
  · rintro ⟨x, y, ⟨⟨-, hlow⟩, -, hhigh⟩, hnone⟩ p hp q hq
    obtain ⟨⟨low, hlowmem, hlow'⟩, -⟩ := hbottom
    obtain ⟨⟨high, hhighmem, hhigh'⟩, -⟩ := htop
    rcases Polygon.exists_band hr hy hbands hlowmem hhighmem (hlow'.trans_le hlow) (hhigh.trans_eq hhigh'.symm)
      with ⟨band, hband, hbounds⟩ | hlevel
    · have hmissed := List.find?_eq_none.1 hnone band hband
      simp [hbounds] at hmissed
    · rw [hlevel p hp, hlevel q hq]
  · intro hlevel
    have hfirst : fill.first ∈ fill.first :: fill.rest := List.mem_cons_self
    refine ⟨place fill.first.x, place fill.first.y, ⟨⟨?_, ?_⟩, ?_, ?_⟩, List.find?_eq_none.2 fun band hband => ?_⟩
    · exact hleft.2 ⟨_, hfirst, rfl⟩
    · exact hbottom.2 ⟨_, hfirst, rfl⟩
    · exact hright.2 ⟨_, hfirst, rfl⟩
    · exact htop.2 ⟨_, hfirst, rfl⟩
    · have hn := Polygon.neighbours_of_mem_bands hr hy hbands hband
      have hlt := ((Polygon.neighbours_iff hr hy hn.low_mem hn.high_mem).1 hn).1
      obtain ⟨p, hp, hplow⟩ := List.mem_map.1 hn.low_mem
      obtain ⟨q, hq, hqhigh⟩ := List.mem_map.1 hn.high_mem
      rw [← hplow, ← hqhigh, hlevel p hp q hq] at hlt
      exact absurd hlt (lt_irrefl _)

end Fill

namespace Compiler

-- Whether the arguments of a polygon are compiled to a call of a function that is filled in this way.
def Fills (args : List Value) (fill : Fill Float) : Prop :=
  ∀ made : Made, (polygon args).run made =
    let name : Shader.Name := ⟨.polygon, made.functions.length⟩
    .ok (⟨.block name, fill.box⟩,
      ⟨made.functions ++ [⟨name, fill.body⟩], LibraryFunction.insert .testTwoLineSegments made.library⟩)

theorem fills_of_readPolygon {args : List Value} {fill : Fill Float} (h : Solid.readPolygon args = .ok fill) :
    Fills args fill := by
  intro made
  unfold polygon
  rw [h]
  rfl

end Compiler

namespace Solid

open Shader SolidScript.Polygon

def polygonArguments (args : List Value) : Arguments := ⟨.polygon, ["points", "paths"], args⟩

-- A polygon with points enough is refused because of its bands, or it is filled with them.
theorem readPolygon_cases {args : List Value} {points : List (Vec2 Float)}
    (hpaths : (polygonArguments args).get? "paths" = none)
    (hpoints : (polygonArguments args).points "points" = .ok points)
    (hcount : 3 ≤ points.length) :
    bands? points = none ∧ readPolygon args = .error .concavePolygon ∨
      ∃ fill : Fill Float, points = fill.first :: fill.rest ∧ bands? points = some fill.bands ∧
        readPolygon args = .ok fill := by
  obtain _ | ⟨first, _ | ⟨second, _ | ⟨third, rest⟩⟩⟩ := points
  · cases hcount
  · simp at hcount
  · simp at hcount
  · have hread : readPolygon args = (bands? (first :: second :: third :: rest)).elim (.error .concavePolygon)
        fun bands => .ok ⟨first, second :: third :: rest, bands⟩ := by
      unfold polygonArguments at hpaths hpoints
      simp only [readPolygon, hpaths, hpoints, bind, Except.bind, Option.isSome_none, Bool.false_eq_true, if_false]
      cases bands? (first :: second :: third :: rest) <;> rfl
    cases hbands : bands? (first :: second :: third :: rest) with
    | none =>
      rw [hbands] at hread
      exact .inl ⟨rfl, hread⟩
    | some bands =>
      rw [hbands] at hread
      exact .inr ⟨⟨first, second :: third :: rest, bands⟩, rfl, rfl, hread⟩

-- The arguments of a polygon with the given points.
def outline (points : List (Vec2 Float)) : List Value :=
  [.array 0 (points.map fun p => .array 0 [.float p.x, .float p.y])]

theorem points_outline (points : List (Vec2 Float)) :
    (polygonArguments (outline points)).points "points" = .ok points := by
  change (points.map fun p => Value.array 0 [.float p.x, .float p.y]).mapM (polygonArguments (outline points)).point = _
  generalize polygonArguments (outline points) = a
  induction points with
  | nil => rfl
  | cons p rest ih =>
    rw [List.map_cons, List.mapM_cons, ih]
    rfl

-- The bands of a polygon leave no gap. Each is crossed by an even number of edges, a polygon is refused if one of them
-- is crossed by more than two, and any other polygon has a band between each two neighbouring heights. What is left to
-- the end of the function is read off the code that is printed for it.
theorem readPolygon_leaves_no_gap (args : List Value) (points : List (Vec2 Float))
    (hpaths : (polygonArguments args).get? "paths" = none)
    (hpoints : (polygonArguments args).points "points" = .ok points)
    (hcount : 3 ≤ points.length) (hnumbers : ∀ p ∈ points, ¬ p.x.isNaN ∧ ¬ p.y.isNaN) :
    (∀ low high, Neighbours points low high →
      Even (crossings points low high).length ∧ 0 < (crossings points low high).length) ∧
    (readPolygon args = .error .concavePolygon ↔
      ∃ low high, Neighbours points low high ∧ 2 < (crossings points low high).length) ∧
    (readPolygon args ≠ .error .concavePolygon → ∃ fill, readPolygon args = .ok fill ∧
      Compiler.Fills args fill ∧ fill.body.text = fill.code.text ∧
      (∀ m s, m.constant = Scalar.place → (fill.code.ReachesEnd m s ↔ fill.reachesEnd Scalar.place s.xyz.x s.xyz.y)) ∧
      (∀ low high, Neighbours points low high → ∃ band, band? points low high = some (some band)) ∧
      fill.bands.length + 1 = (points.map fun p => Scalar.place p.y).toFinset.card ∧
      (∀ y, (∃ p ∈ points, Scalar.place p.y ≤ y) → (∃ p ∈ points, y ≤ Scalar.place p.y) →
        (∃ band ∈ fill.bands, Scalar.place band.low ≤ y ∧ y ≤ Scalar.place band.high) ∨
          ∀ p ∈ points, Scalar.place p.y = y) ∧
      ((∃ x y, fill.reachesEnd Scalar.place x y) ↔
        ∀ p ∈ points, ∀ q ∈ points, Scalar.place p.y = Scalar.place q.y)) := by
  have hr := Scalar.ranking_place
  have hy : ∀ p ∈ points, ¬ p.y.isNaN := fun p hp => (hnumbers p hp).2
  have hmany := bands?_eq_none_iff hr hy
  refine ⟨fun low high hn => crossings_even hr hy hn, ?_⟩
  rcases readPolygon_cases hpaths hpoints hcount with ⟨hnone, hread⟩ | ⟨fill, rfl, hbands, hread⟩
  · exact ⟨iff_of_true hread (hmany.1 hnone), fun hok => absurd hread hok⟩
  · rw [hbands, iff_false_left (Option.some_ne_none _)] at hmany
    refine ⟨iff_of_false (by simp [hread]) hmany, fun _ => ⟨fill, hread, Compiler.fills_of_readPolygon hread,
      Code.text_polygon _ _ _, fun m s hm => ?_, fun low high hn => ?_, ?_, ?_, ?_⟩⟩
    · rw [← hm]
      exact Fill.reachesEnd_code m s
    · rw [exists_band?_iff hr hy hn]
      exact not_lt.1 fun hcrossed => hmany ⟨low, high, hn, hcrossed⟩
    · exact length_bands hr hy hbands (List.cons_ne_nil _ _)
    · rintro y ⟨low, hlow, hlowy⟩ ⟨high, hhigh, hyhigh⟩
      exact exists_band hr hy hbands hlow hhigh hlowy hyhigh
    · exact Fill.exists_reachesEnd_iff hr (fun p hp => (hnumbers p hp).1) hy hbands

-- A polygon with a point twice and a corner that points inwards, and one whose sides cross.
theorem readPolygon_leaves_no_gap_bent :
    let bent : List (Vec2 Float) := [⟨0, 0⟩, ⟨2, 0⟩, ⟨2, 0⟩, ⟨1, 1⟩, ⟨2, 2⟩, ⟨0, 2⟩]
    let crossed : List (Vec2 Float) := [⟨0, 0⟩, ⟨2, 2⟩, ⟨2, 0⟩, ⟨0, 2⟩]
    (∃ fill, readPolygon (outline bent) = .ok fill ∧ fill.bands.length = 2 ∧
      ¬ ∃ x y, fill.reachesEnd Scalar.place x y) ∧
    readPolygon (outline crossed) = .error .concavePolygon := by
  intro bent crossed
  have hbent := readPolygon_leaves_no_gap _ bent rfl (points_outline _) (by decide) (by decide +kernel)
  have hcrossed := readPolygon_leaves_no_gap _ crossed rfl (points_outline _) (by decide) (by decide +kernel)
  constructor
  · have hok : (readPolygon (outline bent)).isOk := by decide +kernel
    obtain ⟨fill, hread, -, -, -, -, hlength, -, hend⟩ := hbent.2.2 fun herror => by
      rw [herror] at hok
      cases hok
    refine ⟨fill, hread, Nat.succ.inj (hlength.trans (by decide +kernel)), ?_⟩
    rw [hend]
    decide +kernel
  · refine hcrossed.2.1.2 ⟨0, 2, ⟨?_, ?_, ?_, ?_⟩, ?_⟩
    · simp [crossed]
    · simp [crossed]
    · decide +kernel
    · decide +kernel
    · decide +kernel

end Solid

end SolidScript
