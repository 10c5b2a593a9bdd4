import Mathlib.Data.Finset.Card
import Mathlib.Data.List.Sort
import SolidScript.Geometry.Polygon
import SolidScript.Proofs.Geometry.Exact

namespace SolidScript

namespace Polygon

variable [Scalar α] [LinearOrder β] {ordinary : α → Prop} {place : α → β} {points : List (Vec2 α)}

section Sorting

omit [LinearOrder β] in
theorem perm_insertAscending (a : α) (values : List α) : (insertAscending a values).Perm (a :: values) := by
  induction values with
  | nil => rfl
  | cons b rest ih =>
    unfold insertAscending
    split
    · rfl
    · exact (ih.cons b).trans (.swap a b rest)

omit [LinearOrder β] in
theorem perm_ascending (values : List α) : (ascending values).Perm values := by
  induction values with
  | nil => rfl
  | cons a rest ih => exact (perm_insertAscending a _).trans (ih.cons a)

theorem pairwise_insertAscending (hr : Scalar.Ranking ordinary place) {a : α} {values : List α} (ha : ordinary a)
    (hvalues : ∀ b ∈ values, ordinary b) (h : values.Pairwise (place · ≤ place ·)) :
    (insertAscending a values).Pairwise (place · ≤ place ·) := by
  induction values with
  | nil => exact List.pairwise_singleton _ _
  | cons b rest ih =>
    obtain ⟨hfirst, hrest⟩ := List.pairwise_cons.1 h
    obtain ⟨hb, hordinary⟩ := List.forall_mem_cons.1 hvalues
    have hprecedes := hr.precedes ha hb
    unfold insertAscending
    split
    · rename_i hab
      have hle := hprecedes.1 hab
      refine List.pairwise_cons.2 ⟨fun c hc => ?_, h⟩
      rcases List.mem_cons.1 hc with rfl | hc
      · exact hle
      · exact hle.trans (hfirst c hc)
    · rename_i hab
      have hle : place b ≤ place a := (not_le.1 (mt hprecedes.2 hab)).le
      refine List.pairwise_cons.2 ⟨fun c hc => ?_, ih hordinary hrest⟩
      rcases List.mem_cons.1 ((perm_insertAscending a rest).mem_iff.1 hc) with rfl | hc
      · exact hle
      · exact hfirst c hc

theorem pairwise_ascending (hr : Scalar.Ranking ordinary place) {values : List α} (h : ∀ a ∈ values, ordinary a) :
    (ascending values).Pairwise (place · ≤ place ·) := by
  induction values with
  | nil => exact .nil
  | cons a rest ih =>
    obtain ⟨ha, hrest⟩ := List.forall_mem_cons.1 h
    exact pairwise_insertAscending hr ha (fun b hb => hrest b ((perm_ascending rest).mem_iff.1 hb)) (ih hrest)

omit [LinearOrder β] in
theorem mem_of_mem_distinctAfter {kept b : α} {values : List α} (h : b ∈ distinctAfter kept values) : b ∈ values := by
  induction values generalizing kept with
  | nil => cases h
  | cons c rest ih =>
    unfold distinctAfter at h
    split at h
    · exact List.mem_cons_of_mem _ (ih h)
    · rcases List.mem_cons.1 h with rfl | h
      · exact List.mem_cons_self
      · exact List.mem_cons_of_mem _ (ih h)

-- What is kept ascends strictly, from what was kept before.
theorem pairwise_distinctAfter (hr : Scalar.Ranking ordinary place) {kept : α} {values : List α}
    (h : ∀ a ∈ kept :: values, ordinary a) (hp : (kept :: values).Pairwise (place · ≤ place ·)) :
    (kept :: distinctAfter kept values).Pairwise (place · < place ·) := by
  induction values generalizing kept with
  | nil => exact List.pairwise_singleton _ _
  | cons b rest ih =>
    obtain ⟨hfirst, hrest⟩ := List.pairwise_cons.1 hp
    obtain ⟨hkept, hordinary⟩ := List.forall_mem_cons.1 h
    obtain ⟨hb, hordinary'⟩ := List.forall_mem_cons.1 hordinary
    have hequal := hr.equal hkept hb
    unfold distinctAfter
    split
    · refine ih (List.forall_mem_cons.2 ⟨hkept, hordinary'⟩) (List.pairwise_cons.2 ⟨fun c hc => ?_, ?_⟩)
      · exact hfirst c (List.mem_cons_of_mem _ hc)
      · exact (List.pairwise_cons.1 hrest).2
    · rename_i hkb
      have hlt : place kept < place b := (hfirst b List.mem_cons_self).lt_of_ne (mt hequal.2 hkb)
      have htail := ih hordinary hrest
      refine List.pairwise_cons.2 ⟨fun c hc => ?_, htail⟩
      rcases List.mem_cons.1 hc with rfl | hc
      · exact hlt
      · exact hlt.trans ((List.pairwise_cons.1 htail).1 c hc)

theorem exists_distinctAfter (hr : Scalar.Ranking ordinary place) {kept a : α} {values : List α}
    (h : ∀ a ∈ kept :: values, ordinary a) (ha : a ∈ values) :
    ∃ b ∈ kept :: distinctAfter kept values, place b = place a := by
  induction values generalizing kept with
  | nil => cases ha
  | cons b rest ih =>
    obtain ⟨hkept, hordinary⟩ := List.forall_mem_cons.1 h
    obtain ⟨hb, hrest⟩ := List.forall_mem_cons.1 hordinary
    have hequal := hr.equal hkept hb
    unfold distinctAfter
    split
    · rename_i hkb
      rcases List.mem_cons.1 ha with rfl | ha
      · exact ⟨kept, List.mem_cons_self, hequal.1 hkb⟩
      · exact ih (List.forall_mem_cons.2 ⟨hkept, hrest⟩) ha
    · rcases List.mem_cons.1 ha with rfl | ha
      · exact ⟨a, by simp, rfl⟩
      · obtain ⟨c, hc, hplace⟩ := ih hordinary ha
        exact ⟨c, List.mem_cons_of_mem _ hc, hplace⟩

omit [LinearOrder β] in
theorem mem_of_mem_distinct {a : α} {values : List α} (h : a ∈ distinct values) : a ∈ values := by
  cases values with
  | nil => cases h
  | cons b rest =>
    rcases List.mem_cons.1 h with rfl | h
    · exact List.mem_cons_self
    · exact List.mem_cons_of_mem _ (mem_of_mem_distinctAfter h)

theorem pairwise_distinct (hr : Scalar.Ranking ordinary place) {values : List α} (h : ∀ a ∈ values, ordinary a)
    (hp : values.Pairwise (place · ≤ place ·)) : (distinct values).Pairwise (place · < place ·) := by
  cases values with
  | nil => exact .nil
  | cons b rest => exact pairwise_distinctAfter hr h hp

theorem exists_distinct (hr : Scalar.Ranking ordinary place) {a : α} {values : List α} (h : ∀ a ∈ values, ordinary a)
    (ha : a ∈ values) : ∃ b ∈ distinct values, place b = place a := by
  cases values with
  | nil => cases ha
  | cons b rest =>
    rcases List.mem_cons.1 ha with rfl | ha
    · exact ⟨a, List.mem_cons_self, rfl⟩
    · exact exists_distinctAfter hr h ha

end Sorting

omit [LinearOrder β] in
theorem mem_heights {a : α} (h : a ∈ heights points) : a ∈ points.map Vec2.y :=
  (perm_ascending _).mem_iff.1 (mem_of_mem_distinct h)

omit [LinearOrder β] in
theorem ordinary_ascending (h : ∀ p ∈ points, ordinary p.y) : ∀ a ∈ ascending (points.map Vec2.y), ordinary a := by
  intro a ha
  obtain ⟨p, hp, rfl⟩ := List.mem_map.1 ((perm_ascending _).mem_iff.1 ha)
  exact h p hp

theorem pairwise_heights (hr : Scalar.Ranking ordinary place) (h : ∀ p ∈ points, ordinary p.y) :
    (heights points).Pairwise (place · < place ·) :=
  pairwise_distinct hr (ordinary_ascending h) (pairwise_ascending hr (List.forall_mem_map.2 h))

theorem exists_height (hr : Scalar.Ranking ordinary place) (h : ∀ p ∈ points, ordinary p.y) {p : Vec2 α}
    (hp : p ∈ points) : ∃ a ∈ heights points, place a = place p.y :=
  exists_distinct hr (ordinary_ascending h) ((perm_ascending _).mem_iff.2 (List.mem_map_of_mem hp))

theorem nodup_heights (hr : Scalar.Ranking ordinary place) (h : ∀ p ∈ points, ordinary p.y) :
    ((heights points).map place).Nodup :=
  List.Pairwise.map _ (fun _ _ hlt => ne_of_lt hlt) (pairwise_heights hr h)

-- There are as many heights as different places of points.
theorem length_heights (hr : Scalar.Ranking ordinary place) (h : ∀ p ∈ points, ordinary p.y) :
    (heights points).length = (points.map fun p => place p.y).toFinset.card := by
  have hsame : ((heights points).map place).toFinset = (points.map fun p => place p.y).toFinset := by
    ext b
    simp only [List.mem_toFinset, List.mem_map]
    constructor
    · rintro ⟨a, ha, rfl⟩
      obtain ⟨p, hp, rfl⟩ := List.mem_map.1 (mem_heights ha)
      exact ⟨p, hp, rfl⟩
    · rintro ⟨p, hp, rfl⟩
      exact exists_height hr h hp
  rw [← hsame, List.toFinset_card_of_nodup (nodup_heights hr h), List.length_map]

-- The heights of two points that have no point between them.
structure Neighbours (points : List (Vec2 α)) (low high : α) : Prop where
  low_mem : low ∈ points.map Vec2.y
  high_mem : high ∈ points.map Vec2.y
  less : Scalar.less low high
  apart : ∀ p ∈ points, Scalar.lessEq p.y low ∨ Scalar.lessEq high p.y

section Adjacent

variable {values : List α} (hp : values.Pairwise (place · < place ·))

include hp

omit [Scalar α] in
theorem adjacent_apart {a b c : α} (h : (a, b) ∈ values.zip values.tail) (hc : c ∈ values) :
    place a < place b ∧ (place c ≤ place a ∨ place b ≤ place c) := by
  induction values generalizing c with
  | nil => cases h
  | cons x rest ih =>
    obtain ⟨hx, hrest⟩ := List.pairwise_cons.1 hp
    cases rest with
    | nil => cases h
    | cons y rest =>
      have hxy := hx y List.mem_cons_self
      rcases List.mem_cons.1 h with heq | htail
      · cases heq
        refine ⟨hxy, ?_⟩
        rcases List.mem_cons.1 hc with rfl | hc
        · exact .inl le_rfl
        · rcases List.mem_cons.1 hc with rfl | hc
          · exact .inr le_rfl
          · exact .inr ((List.pairwise_cons.1 hrest).1 c hc).le
      · rcases List.mem_cons.1 hc with rfl | hc
        · have hab := ih hrest htail List.mem_cons_self
          exact ⟨hab.1, .inl (hx a (List.of_mem_zip htail).1).le⟩
        · exact ih hrest htail hc

omit [Scalar α] in
theorem adjacent_of_apart {a b : α} (ha : a ∈ values) (hb : b ∈ values) (hab : place a < place b)
    (hapart : ∀ c ∈ values, place c ≤ place a ∨ place b ≤ place c) : (a, b) ∈ values.zip values.tail := by
  induction values with
  | nil => cases ha
  | cons x rest ih =>
    obtain ⟨hx, hrest⟩ := List.pairwise_cons.1 hp
    have hb' : b ∈ rest := by
      rcases List.mem_cons.1 hb with rfl | hb
      · rcases List.mem_cons.1 ha with rfl | ha
        · exact absurd hab (lt_irrefl _)
        · exact absurd hab (hx a ha).not_gt
      · exact hb
    cases rest with
    | nil => cases hb'
    | cons y rest =>
      rcases List.mem_cons.1 ha with rfl | ha
      · have hy := (hapart y (by simp)).resolve_left (hx y List.mem_cons_self).not_ge
        rcases List.mem_cons.1 hb' with rfl | hb'
        · exact List.mem_cons_self
        · exact absurd hy ((List.pairwise_cons.1 hrest).1 b hb').not_ge
      · exact List.mem_cons_of_mem _ (ih hrest ha hb' fun c hc => hapart c (List.mem_cons_of_mem _ hc))

-- Between the first and the last of several values every place is between two neighbours.
omit [Scalar α] in
theorem exists_adjacent {a b : α} (ha : a ∈ values) (hb : b ∈ values) (hlength : 2 ≤ values.length) {y : β}
    (hay : place a ≤ y) (hyb : y ≤ place b) :
    ∃ pair ∈ values.zip values.tail, place pair.1 ≤ y ∧ y ≤ place pair.2 := by
  induction values generalizing a with
  | nil => cases ha
  | cons x rest ih =>
    obtain ⟨hx, hrest⟩ := List.pairwise_cons.1 hp
    cases rest with
    | nil => simp at hlength
    | cons z rest =>
      by_cases hyz : y ≤ place z
      · have hxa : place x ≤ place a := by
          rcases List.mem_cons.1 ha with rfl | ha
          · exact le_rfl
          · exact (hx a ha).le
        exact ⟨(x, z), List.mem_cons_self, hxa.trans hay, hyz⟩
      · have hzy := not_le.1 hyz
        have hb' : b ∈ z :: rest := by
          rcases List.mem_cons.1 hb with rfl | hb
          · exact absurd hyb ((hx z List.mem_cons_self).trans hzy).not_ge
          · exact hb
        cases rest with
        | nil =>
          rw [List.mem_singleton.1 hb'] at hyb
          exact absurd hyb hyz
        | cons w rest =>
          obtain ⟨pair, hpair, hbounds⟩ := ih hrest List.mem_cons_self hb' (by simp) hzy.le
          exact ⟨pair, List.mem_cons_of_mem _ hpair, hbounds⟩

end Adjacent

section Neighbours

variable (hr : Scalar.Ranking ordinary place) (h : ∀ p ∈ points, ordinary p.y)

include hr h

theorem neighbours_iff {low high : α} (hlow : low ∈ points.map Vec2.y) (hhigh : high ∈ points.map Vec2.y) :
    Neighbours points low high ↔
      place low < place high ∧ ∀ p ∈ points, place p.y ≤ place low ∨ place high ≤ place p.y := by
  have hordinary : ∀ a ∈ points.map Vec2.y, ordinary a := List.forall_mem_map.2 h
  have hl := hordinary low hlow
  have hh := hordinary high hhigh
  constructor
  · intro hn
    refine ⟨(hr.less hl hh).1 hn.less, fun p hp => ?_⟩
    exact (hn.apart p hp).imp (hr.lessEq (h p hp) hl).1 (hr.lessEq hh (h p hp)).1
  · rintro ⟨hlt, hapart⟩
    refine ⟨hlow, hhigh, (hr.less hl hh).2 hlt, fun p hp => ?_⟩
    exact (hapart p hp).imp (hr.lessEq (h p hp) hl).2 (hr.lessEq hh (h p hp)).2

-- The bands lie between neighbours.
theorem neighbours_of_mem {low high : α} (hmem : (low, high) ∈ (heights points).zip (heights points).tail) :
    Neighbours points low high := by
  have hp := pairwise_heights hr h
  have hlow := mem_heights (List.of_mem_zip hmem).1
  have hhigh := mem_heights (List.mem_of_mem_tail (List.of_mem_zip hmem).2)
  refine (neighbours_iff hr h hlow hhigh).2 ⟨(adjacent_apart hp hmem (List.of_mem_zip hmem).1).1, fun p hpoint => ?_⟩
  obtain ⟨a, ha, hplace⟩ := exists_height hr h hpoint
  rw [← hplace]
  exact (adjacent_apart hp hmem ha).2

-- There is a band between any two neighbours.
theorem Neighbours.exists_mem {low high : α} (hn : Neighbours points low high) :
    ∃ a b, (a, b) ∈ (heights points).zip (heights points).tail ∧ place a = place low ∧ place b = place high := by
  obtain ⟨hlt, hapart⟩ := (neighbours_iff hr h hn.low_mem hn.high_mem).1 hn
  obtain ⟨p, hp, rfl⟩ := List.mem_map.1 hn.low_mem
  obtain ⟨q, hq, rfl⟩ := List.mem_map.1 hn.high_mem
  obtain ⟨a, ha, hpa⟩ := exists_height hr h hp
  obtain ⟨b, hb, hqb⟩ := exists_height hr h hq
  refine ⟨a, b, adjacent_of_apart (pairwise_heights hr h) ha hb (by rwa [hpa, hqb]) fun c hc => ?_, hpa, hqb⟩
  obtain ⟨r, hpr, rfl⟩ := List.mem_map.1 (mem_heights hc)
  rw [hpa, hqb]
  exact hapart r hpr

-- A polygon with less than two heights is level.
theorem two_le_length_heights {p q : Vec2 α} (hp : p ∈ points) (hq : q ∈ points) (hne : place p.y ≠ place q.y) :
    2 ≤ (heights points).length := by
  obtain ⟨a, ha, hpa⟩ := exists_height hr h hp
  obtain ⟨b, hb, hqb⟩ := exists_height hr h hq
  match hheights : heights points with
  | [] =>
    rw [hheights] at ha
    cases ha
  | [c] =>
    rw [hheights] at ha hb
    rw [← hpa, ← hqb, List.mem_singleton.1 ha, List.mem_singleton.1 hb] at hne
    exact absurd rfl hne
  | c :: d :: rest => simp

end Neighbours

section Corners

-- One of the coordinates of a vector.
structure IsCoordinate (c : Vec2 α → α) : Prop where
  map : ∀ f (v : Vec2 α), c (v.map f) = f (c v)
  map2 : ∀ f (v w : Vec2 α), c (.map2 f v w) = f (c v) (c w)

omit [Scalar α] in
theorem isCoordinate_x : IsCoordinate (Vec2.x (α := α)) := ⟨fun _ _ => rfl, fun _ _ _ => rfl⟩

omit [Scalar α] in
theorem isCoordinate_y : IsCoordinate (Vec2.y (α := α)) := ⟨fun _ _ => rfl, fun _ _ _ => rfl⟩

variable {c : Vec2 α → α} {first : Vec2 α} {rest : List (Vec2 α)}

-- An operation that goes on with the one of two numbers that is related to both.
structure Chooses (ordinary : α → Prop) (place : α → β) (R : β → β → Prop) (op : α → α → α) : Prop where
  keeps : ∀ {a b}, ordinary a → ordinary b → ordinary (op a b)
  choice : ∀ {a b}, ordinary a → ordinary b → place (op a b) = place a ∨ place (op a b) = place b
  left : ∀ {a b}, ordinary a → ordinary b → R (place (op a b)) (place a)
  right : ∀ {a b}, ordinary a → ordinary b → R (place (op a b)) (place b)

theorem chooses_least (hr : Scalar.Ranking ordinary place) : Chooses ordinary place (· ≤ ·) Scalar.least where
  keeps ha hb := (hr.least ha hb).1
  choice ha hb := (hr.least ha hb).2 ▸ min_choice _ _
  left ha hb := (hr.least ha hb).2 ▸ min_le_left _ _
  right ha hb := (hr.least ha hb).2 ▸ min_le_right _ _

theorem chooses_greatest (hr : Scalar.Ranking ordinary place) : Chooses ordinary place (· ≥ ·) Scalar.greatest where
  keeps ha hb := (hr.greatest ha hb).1
  choice ha hb := (hr.greatest ha hb).2 ▸ max_choice _ _
  left ha hb := (hr.greatest ha hb).2 ▸ le_max_left _ _
  right ha hb := (hr.greatest ha hb).2 ▸ le_max_right _ _

omit [Scalar α] [LinearOrder β] in
theorem foldl_chosen {op : α → α → α} {R : β → β → Prop} [Std.Refl R] [IsTrans β R] (hop : Chooses ordinary place R op)
    (hc : IsCoordinate c) (h : ∀ p ∈ first :: rest, ordinary (c p)) :
    ordinary (c (rest.foldl (.map2 op) first)) ∧
      (∃ p ∈ first :: rest, place (c p) = place (c (rest.foldl (.map2 op) first))) ∧
      ∀ p ∈ first :: rest, R (place (c (rest.foldl (.map2 op) first))) (place (c p)) := by
  induction rest generalizing first with
  | nil => exact ⟨h first List.mem_cons_self, ⟨first, List.mem_cons_self, rfl⟩, by simp [refl]⟩
  | cons q rest ih =>
    obtain ⟨hfirst, hq, hrest⟩ : ordinary (c first) ∧ ordinary (c q) ∧ ∀ p ∈ rest, ordinary (c p) := by simpa using h
    have hnext : c (.map2 op first q) = op (c first) (c q) := hc.map2 op first q
    have hkept : ordinary (c (.map2 op first q)) := hnext ▸ hop.keeps hfirst hq
    obtain ⟨hfold, ⟨p, hp, hplace⟩, hall⟩ := ih (List.forall_mem_cons.2 ⟨hkept, hrest⟩)
    have hstart := hall _ List.mem_cons_self
    rw [hnext] at hstart
    refine ⟨hfold, ?_, ?_⟩
    · rcases List.mem_cons.1 hp with rfl | hp
      · rw [hnext] at hplace
        rcases hop.choice hfirst hq with hchoice | hchoice
        · exact ⟨first, by simp, hchoice.symm.trans hplace⟩
        · exact ⟨q, by simp, hchoice.symm.trans hplace⟩
      · exact ⟨p, by simp [hp], hplace⟩
    · intro p hp
      rcases List.mem_cons.1 hp with rfl | hp
      · exact IsTrans.trans _ _ _ hstart (hop.left hfirst hq)
      · rcases List.mem_cons.1 hp with rfl | hp
        · exact IsTrans.trans _ _ _ hstart (hop.right hfirst hq)
        · exact hall p (List.mem_cons_of_mem _ hp)

theorem settled_of_ordinary (hr : Scalar.Ranking ordinary place) {a : α} (h : ordinary a) (fallback : α) :
    Scalar.settled fallback a = a := if_pos ((hr.equal h h).2 rfl)

-- The corners of the box are as far out as the points are.
theorem isLeast_corners (hr : Scalar.Ranking ordinary place) (hc : IsCoordinate c)
    (h : ∀ p ∈ first :: rest, ordinary (c p)) :
    IsLeast {b | ∃ p ∈ first :: rest, place (c p) = b} (place (c (corners first rest).1)) := by
  obtain ⟨hordinary, hmem, hall⟩ := foldl_chosen (chooses_least hr) hc h
  have hcorner : c (corners first rest).1 = c (rest.foldl (.map2 Scalar.least) first) :=
    (hc.map _ _).trans (settled_of_ordinary hr hordinary _)
  rw [hcorner]
  refine ⟨hmem, ?_⟩
  rintro b ⟨p, hp, rfl⟩
  exact hall p hp

theorem isGreatest_corners (hr : Scalar.Ranking ordinary place) (hc : IsCoordinate c)
    (h : ∀ p ∈ first :: rest, ordinary (c p)) :
    IsGreatest {b | ∃ p ∈ first :: rest, place (c p) = b} (place (c (corners first rest).2)) := by
  obtain ⟨hordinary, hmem, hall⟩ := foldl_chosen (chooses_greatest hr) hc h
  have hcorner : c (corners first rest).2 = c (rest.foldl (.map2 Scalar.greatest) first) :=
    (hc.map _ _).trans (settled_of_ordinary hr hordinary _)
  rw [hcorner]
  refine ⟨hmem, ?_⟩
  rintro b ⟨p, hp, rfl⟩
  exact hall p hp

end Corners

end Polygon

end SolidScript
