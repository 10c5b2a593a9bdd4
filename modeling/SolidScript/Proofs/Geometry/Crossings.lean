import Mathlib.Algebra.Group.Even
import SolidScript.Proofs.Geometry.Heights

namespace SolidScript

namespace Polygon

-- The sides of the closed outline, level ones included.
def sides : List γ → List (γ × γ)
  | [] => []
  | first :: rest => (first :: rest).zip (rest ++ [first])

theorem mem_of_mem_sides {points : List γ} {s : γ × γ} (h : s ∈ sides points) : s.1 ∈ points ∧ s.2 ∈ points := by
  cases points with
  | nil => cases h
  | cons first rest =>
    obtain ⟨hstart, hfinish⟩ := List.of_mem_zip h
    exact ⟨hstart, by simpa [or_comm] using hfinish⟩

section Sides

variable (f : γ → Bool)

-- Whether a side goes to where `f` holds.
def enters (s : γ × γ) : Bool := !f s.1 && f s.2

def leaves (s : γ × γ) : Bool := f s.1 && !f s.2

def changes (s : γ × γ) : Bool := f s.1 != f s.2

-- Along a path from `a` to `z`.
theorem countP_path (a z : γ) (rest : List γ) :
    ((a :: rest).zip (rest ++ [z])).countP (leaves f) + (f z).toNat =
      ((a :: rest).zip (rest ++ [z])).countP (enters f) + (f a).toNat := by
  induction rest generalizing a with
  | nil => cases ha : f a <;> cases hz : f z <;> simp [leaves, enters, ha, hz]
  | cons b rest ih =>
    have htail := ih b
    rw [List.cons_append, List.zip_cons_cons, List.countP_cons, List.countP_cons]
    cases ha : f a <;> cases hb : f b <;> simp [leaves, enters, ha, hb] at htail ⊢ <;> omega

theorem countP_leaves (points : List γ) : (sides points).countP (leaves f) = (sides points).countP (enters f) := by
  cases points with
  | nil => rfl
  | cons first rest => exact Nat.add_right_cancel (countP_path f first first rest)

theorem countP_changes (points : List γ) :
    (sides points).countP (changes f) = 2 * (sides points).countP (enters f) := by
  have hsplit (l : List (γ × γ)) : l.countP (changes f) = l.countP (leaves f) + l.countP (enters f) := by
    induction l with
    | nil => rfl
    | cons s l ih =>
      rw [List.countP_cons, List.countP_cons, List.countP_cons, ih]
      cases ha : f s.1 <;> cases hb : f s.2 <;> simp [changes, leaves, enters, ha, hb] <;> omega
  rw [hsplit, countP_leaves]
  omega

theorem eq_of_path {a z : γ} {rest : List γ} (h : ∀ s ∈ (a :: rest).zip (rest ++ [z]), f s.1 = f s.2) {p : γ}
    (hp : p ∈ a :: rest) : f p = f a := by
  induction rest generalizing a with
  | nil => rw [List.mem_singleton.1 hp]
  | cons b rest ih =>
    rw [List.cons_append, List.zip_cons_cons] at h
    obtain ⟨hfirst, htail⟩ := List.forall_mem_cons.1 h
    rcases List.mem_cons.1 hp with rfl | hp
    · rfl
    · exact (ih htail hp).trans hfirst.symm

-- An outline with points on both sides goes from one to the other.
theorem countP_enters_pos {points : List γ} {p q : γ} (hp : p ∈ points) (hq : q ∈ points) (hne : f p ≠ f q) :
    0 < (sides points).countP (enters f) := by
  by_contra hzero
  have hnone : (sides points).countP (changes f) = 0 := by
    rw [countP_changes]
    omega
  have hsame : ∀ s ∈ sides points, f s.1 = f s.2 := by
    simpa [changes] using List.countP_eq_zero.1 hnone
  cases points with
  | nil => cases hp
  | cons first rest => exact hne ((eq_of_path f hsame hp).trans (eq_of_path f hsame hq).symm)

end Sides

variable [Scalar α] [LinearOrder β] {ordinary : α → Prop} {place : α → β} {points : List (Vec2 α)}

omit [LinearOrder β] in
theorem edges_eq (points : List (Vec2 α)) : edges points = (sides points).filterMap fun s => edge? s.1 s.2 := by
  cases points <;> rfl

section Edge

variable (hr : Scalar.Ranking ordinary place) {p q : Vec2 α} (hp : ordinary p.y) (hq : ordinary q.y)

include hr hp hq

theorem edge?_of_lt (h : place p.y < place q.y) : edge? p q = some ⟨p, q⟩ := by
  have hne : ¬ Scalar.equal p.y q.y := mt (hr.equal hp hq).1 h.ne
  rw [edge?, if_neg hne, if_pos ((hr.less hp hq).2 h)]

theorem edge?_of_gt (h : place q.y < place p.y) : edge? p q = some ⟨q, p⟩ := by
  have hne : ¬ Scalar.equal p.y q.y := mt (hr.equal hp hq).1 h.ne'
  rw [edge?, if_neg hne, if_neg (mt (hr.less hp hq).1 h.not_gt)]

theorem edge?_of_eq (h : place p.y = place q.y) : edge? p q = none := by
  rw [edge?, if_pos ((hr.equal hp hq).2 h)]

theorem eq_of_edge? {e : Edge α} (h : edge? p q = some e) :
    e = ⟨p, q⟩ ∧ place p.y < place q.y ∨ e = ⟨q, p⟩ ∧ place q.y < place p.y := by
  rcases lt_trichotomy (place p.y) (place q.y) with hlt | heq | hgt
  · rw [edge?_of_lt hr hp hq hlt] at h
    exact .inl ⟨(Option.some.inj h).symm, hlt⟩
  · rw [edge?_of_eq hr hp hq heq] at h
    cases h
  · rw [edge?_of_gt hr hp hq hgt] at h
    exact .inr ⟨(Option.some.inj h).symm, hgt⟩

end Edge

theorem crosses_iff (hr : Scalar.Ranking ordinary place) {low high : α} {e : Edge α} (hlow : ordinary low)
    (hhigh : ordinary high) (he : ordinary e.low.y ∧ ordinary e.high.y) :
    crosses low high e ↔ place low < place e.high.y ∧ place e.low.y < place high := by
  have h₁ := hr.lessEq he.2 hlow
  have h₂ := hr.lessEq hhigh he.1
  rw [crosses, Bool.not_eq_true', ← Bool.not_eq_true, Bool.or_eq_true, not_or, h₁, h₂, not_le, not_le]

-- The edges that cross a band, in the order of the outline.
def crossings (points : List (Vec2 α)) (low high : α) : List (Edge α) := (edges points).filter (crosses low high)

-- Whether a point is above a band that ends at `high`.
def isAbove (place : α → β) (high : α) (p : Vec2 α) : Bool := place high ≤ place p.y

-- The edge of a side that goes through a band.
def upright (place : α → β) (high : α) (s : Vec2 α × Vec2 α) : Edge α :=
  if isAbove place high s.2 then ⟨s.1, s.2⟩ else ⟨s.2, s.1⟩

section Band

variable (hr : Scalar.Ranking ordinary place) (h : ∀ p ∈ points, ordinary p.y) {low high : α}
  (hn : Neighbours points low high)

include hr h hn

omit hr in
theorem ordinary_of_neighbours : ordinary low ∧ ordinary high := by
  obtain ⟨p, hp, rfl⟩ := List.mem_map.1 hn.low_mem
  obtain ⟨q, hq, rfl⟩ := List.mem_map.1 hn.high_mem
  exact ⟨h p hp, h q hq⟩

-- A point is above the band or below it.
theorem isAbove_eq_false {p : Vec2 α} (hp : p ∈ points) : isAbove place high p = false ↔ place p.y ≤ place low := by
  obtain ⟨hlt, hapart⟩ := (neighbours_iff hr h hn.low_mem hn.high_mem).1 hn
  rw [isAbove, decide_eq_false_iff_not]
  exact ⟨(hapart p hp).resolve_right, fun hle habove => (hlt.trans_le (habove.trans hle)).false⟩

theorem crosses_of_apart {p q : Vec2 α} (hp : p ∈ points) (hq : q ∈ points) (hpa : isAbove place high p = false)
    (hqa : isAbove place high q) : place p.y < place q.y ∧ crosses low high ⟨p, q⟩ := by
  obtain ⟨hlow, hhigh⟩ := ordinary_of_neighbours h hn
  have hlt := ((neighbours_iff hr h hn.low_mem hn.high_mem).1 hn).1
  have hple := (isAbove_eq_false hr h hn hp).1 hpa
  have hqge : place high ≤ place q.y := of_decide_eq_true hqa
  refine ⟨hple.trans_lt (hlt.trans_le hqge), (crosses_iff hr hlow hhigh ⟨h p hp, h q hq⟩).2 ⟨?_, ?_⟩⟩
  · exact hlt.trans_le hqge
  · exact hple.trans_lt hlt

theorem not_crosses_of_same {p q : Vec2 α} (hp : p ∈ points) (hq : q ∈ points)
    (hsame : isAbove place high p = isAbove place high q) : ¬ crosses low high ⟨p, q⟩ := by
  obtain ⟨hlow, hhigh⟩ := ordinary_of_neighbours h hn
  rw [crosses_iff hr hlow hhigh ⟨h p hp, h q hq⟩]
  rintro ⟨hq', hp'⟩
  cases hpa : isAbove place high p with
  | false => exact hq'.not_ge ((isAbove_eq_false hr h hn hq).1 (hsame ▸ hpa))
  | true => exact hp'.not_ge (of_decide_eq_true hpa)

-- A side that goes through a band has an edge in it, and no other side has.
theorem filter_edge? {s : Vec2 α × Vec2 α} (hs : s ∈ sides points) : (edge? s.1 s.2).filter (crosses low high) =
    if changes (isAbove place high) s then some (upright place high s) else none := by
  obtain ⟨p, q⟩ := s
  obtain ⟨hp, hq⟩ := mem_of_mem_sides hs
  unfold changes upright
  by_cases hsame : isAbove place high p = isAbove place high q
  · rw [if_neg (by simp [hsame]), Option.filter_eq_none_iff]
    intro e he
    rcases eq_of_edge? hr (h p hp) (h q hq) he with ⟨rfl, -⟩ | ⟨rfl, -⟩
    · exact not_crosses_of_same hr h hn hp hq hsame
    · exact not_crosses_of_same hr h hn hq hp hsame.symm
  · rw [if_pos (by simp [hsame])]
    cases hqa : isAbove place high q with
    | true =>
      obtain ⟨hlt, hcross⟩ := crosses_of_apart hr h hn hp hq (by simpa [hqa] using hsame) hqa
      rw [edge?_of_lt hr (h p hp) (h q hq) hlt, Option.filter_some_pos hcross, if_pos rfl]
    | false =>
      obtain ⟨hlt, hcross⟩ := crosses_of_apart hr h hn hq hp hqa (by simpa [hqa] using hsame)
      rw [edge?_of_gt hr (h p hp) (h q hq) hlt, Option.filter_some_pos hcross, if_neg Bool.false_ne_true]

theorem crossings_eq : crossings points low high =
    ((sides points).filter (changes (isAbove place high))).map (upright place high) := by
  rw [crossings, edges_eq, List.filter_filterMap, ← List.filterMap_eq_map, List.filterMap_filter]
  exact List.filterMap_congr fun s hs => filter_edge? hr h hn hs

-- The edges in a band are two for each time that the outline comes up through it.
theorem length_crossings :
    (crossings points low high).length = 2 * (sides points).countP (enters (isAbove place high)) := by
  rw [crossings_eq hr h hn, List.length_map, ← List.countP_eq_length_filter, countP_changes]

theorem countP_enters_pos_of_neighbours : 0 < (sides points).countP (enters (isAbove place high)) := by
  obtain ⟨p, hp, hlow⟩ := List.mem_map.1 hn.low_mem
  obtain ⟨q, hq, hhigh⟩ := List.mem_map.1 hn.high_mem
  have hpa : isAbove place high p = false := (isAbove_eq_false hr h hn hp).2 (by rw [hlow])
  have hqa : isAbove place high q = true := decide_eq_true (by rw [hhigh])
  exact countP_enters_pos _ hp hq (by simp [hpa, hqa])

end Band

omit [LinearOrder β] in
theorem band?_of_two {low high : α} {first second : Edge α}
    (h : crossings points low high = [first, second]) :
    band? points low high = some (some ⟨low, high, (ordered first second).1, (ordered first second).2⟩) := by
  rw [crossings] at h
  rw [band?, h]

omit [LinearOrder β] in
theorem band?_eq_none_iff {low high : α} : band? points low high = none ↔ 2 < (crossings points low high).length := by
  unfold band? crossings
  generalize (edges points).filter (crosses low high) = found
  match found with
  | [] | [_] | [_, _] | _ :: _ :: _ :: _ => simp

-- One of the two edges of a band is the left one, and the other is the right one.
omit [LinearOrder β] in
theorem ordered_cases (first second : Edge α) :
    ordered first second = (first, second) ∨ ordered first second = (second, first) := by
  unfold ordered
  split
  · exact .inr rfl
  · exact .inl rfl

end Polygon

end SolidScript
