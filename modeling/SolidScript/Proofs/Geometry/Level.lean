import Mathlib.Algebra.Order.Group.Int
import Mathlib.Data.Prod.Lex
import Mathlib.Order.Compare
import Mathlib.Tactic.Common
import SolidScript.Geometry.Scalar

namespace SolidScript

open Float.Model

namespace Scalar

-- Floats that are equal, or that both equal nothing.
def Same (x y : Float) : Prop := x == y ∨ x.isNaN ∧ y.isNaN

-- The place of a number among all numbers. The side of zero comes first, then the exponent and the mantissa.
abbrev Level := ℤ ×ₗ ℤ ×ₗ ℤ

def Level.make (side exponent mantissa : ℤ) : Level := toLex (side, toLex (exponent, mantissa))

def unpackedLevel? : UnpackedFloat → Option Level
  | .notANumber => none
  | .infinity .negative => some (.make (-2) 0 0)
  | .finite .negative mantissa exponent _ => some (.make (-1) (-exponent) (-mantissa))
  | .zero _ => some (.make 0 0 0)
  | .finite .positive mantissa exponent _ => some (.make 1 exponent mantissa)
  | .infinity .positive => some (.make 2 0 0)

def level? (x : Float) : Option Level := unpackedLevel? x.toModel.unpack

theorem compare_make (side side' exponent exponent' mantissa mantissa' : ℤ) :
    compare (Level.make side exponent mantissa) (.make side' exponent' mantissa') =
      (compare side side').then ((compare exponent exponent').then (compare mantissa mantissa')) := by
  simp only [Level.make, Prod.Lex.compare_def, compareLex, compareOn, ofLex_toLex]

theorem compare_cast (m n : ℕ) : compare (m : ℤ) n = compare m n := by
  have hmono : StrictMono (Nat.cast : ℕ → ℤ) := fun a b h => Int.ofNat_lt.2 h
  rw [← cmp_eq_compare, ← cmp_eq_compare, hmono.cmp_map_eq]

theorem compare_neg (m n : ℤ) : compare (-m) (-n) = (compare m n).swap := by
  have hanti : StrictAnti (Neg.neg : ℤ → ℤ) := fun a b h => Int.neg_lt_neg h
  rw [← cmp_eq_compare, ← cmp_eq_compare, hanti.cmp_map_eq, cmp_swap]

-- Numbers are compared by their places.
theorem compare_eq (f g : UnpackedFloat) :
    f.compare g = (unpackedLevel? f).bind fun k => (unpackedLevel? g).map fun l => compare k l := by
  cases f with
  | notANumber => rfl
  | infinity s =>
    cases g with
    | notANumber => cases s <;> rfl
    | infinity t => cases s <;> cases t <;> rfl
    | zero t => cases s <;> rfl
    | finite t m e h => cases s <;> cases t <;> rfl
  | zero s =>
    cases g with
    | notANumber | zero t => rfl
    | infinity t | finite t m e h => cases t <;> rfl
  | finite s m e h =>
    cases g with
    | notANumber | zero t => cases s <;> rfl
    | infinity t => cases s <;> cases t <;> rfl
    | finite t m' e' h' =>
      cases s <;> cases t
      · change some ((compare e e').then (compare m m')).swap =
          some (compare (Level.make (-1) (-e) (-m)) (.make (-1) (-e') (-m')))
        rw [compare_make, compare_neg e, compare_neg m, compare_cast, Ordering.swap_then]
        rfl
      · rfl
      · rfl
      · change some ((compare e e').then (compare m m')) = some (compare (Level.make 1 e m) (.make 1 e' m'))
        rw [compare_make, compare_cast]
        rfl

theorem isNaN_iff {x : Float} : x.isNaN ↔ level? x = none := by
  change x.toModel.unpack.isNaN ↔ unpackedLevel? x.toModel.unpack = none
  cases x.toModel.unpack with
  | notANumber => exact ⟨fun _ => rfl, fun _ => rfl⟩
  | zero s => exact ⟨nofun, nofun⟩
  | infinity s | finite s m e h => cases s <;> exact ⟨nofun, nofun⟩

theorem not_isNaN {x : Float} {k : Level} (h : level? x = some k) : ¬ x.isNaN := by
  intro hn
  rw [isNaN_iff.1 hn] at h
  cases h

theorem lt_iff {x y : Float} {k l : Level} (hx : level? x = some k) (hy : level? y = some l) : x < y ↔ k < l := by
  change decide (x.toModel.unpack.lt y.toModel.unpack) ↔ k < l
  unfold level? at hx hy
  simp [UnpackedFloat.lt, compare_eq, hx, hy, compare_lt_iff_lt]

theorem beq_iff {x y : Float} : x == y ↔ level? x = level? y ∧ level? x ≠ none := by
  change (x.toModel.unpack.compare y.toModel.unpack == some .eq) ↔ _
  rw [compare_eq]
  unfold level?
  cases unpackedLevel? x.toModel.unpack <;> cases unpackedLevel? y.toModel.unpack <;> simp [compare_eq_iff_eq]

-- What is the same number is at the same place.
theorem same_iff {x y : Float} : Same x y ↔ level? x = level? y := by
  rw [Same, beq_iff, isNaN_iff, isNaN_iff]
  constructor
  · rintro (⟨h, -⟩ | ⟨hx, hy⟩)
    · exact h
    · rw [hx, hy]
  · intro h
    rw [← h]
    by_cases hx : level? x = none <;> simp [hx]

example : Same 0.0 (-0.0) := by
  unfold Same
  decide +kernel

-- A choice between two numbers that passes over what equals nothing.
theorem level?_choice {x y : Float} {p : Prop} [Decidable p] {f : Level → Level → Level}
    (h : ∀ k l, level? x = some k → level? y = some l → level? (if p then y else x) = some (f k l)) :
    level? (if x.isNaN then y else if y.isNaN then x else if p then y else x) = (level? x).merge f (level? y) := by
  cases hx : level? x with
  | none => rw [if_pos (isNaN_iff.2 hx), Option.merge_none_left]
  | some k =>
    rw [if_neg (not_isNaN hx)]
    cases hy : level? y with
    | none => rw [if_pos (isNaN_iff.2 hy), hx, Option.merge_none_right]
    | some l => rw [if_neg (not_isNaN hy), h k l hx hy, Option.merge_some_some]

theorem level?_least (x y : Float) : level? (leastFloat x y) = (level? x).merge min (level? y) := by
  apply level?_choice
  intro k l hx hy
  by_cases hlt : y < x
  · rw [if_pos hlt, hy, min_eq_right ((lt_iff hy hx).1 hlt).le]
  · rw [if_neg hlt, hx, min_eq_left (not_lt.1 fun h => hlt ((lt_iff hy hx).2 h))]

theorem level?_greatest (x y : Float) : level? (greatestFloat x y) = (level? x).merge max (level? y) := by
  apply level?_choice
  intro k l hx hy
  by_cases hlt : x < y
  · rw [if_pos hlt, hy, max_eq_right ((lt_iff hx hy).1 hlt).le]
  · rw [if_neg hlt, hx, max_eq_left (not_lt.1 fun h => hlt ((lt_iff hx hy).2 h))]

-- Only zero has two signs.
theorem eq_or_zero {f g : UnpackedFloat} (h : unpackedLevel? f = unpackedLevel? g) :
    f = g ∨ ∃ s t, f = .zero s ∧ g = .zero t := by
  cases f with
  | notANumber =>
    cases g with
    | notANumber => exact .inl rfl
    | zero t => cases h
    | infinity t | finite t m e hm => cases t <;> cases h
  | zero s =>
    cases g with
    | zero t => exact .inr ⟨s, t, rfl, rfl⟩
    | notANumber => cases h
    | infinity t | finite t m e hm => cases t <;> cases h
  | infinity s =>
    cases g with
    | infinity t => cases s <;> cases t <;> first | exact .inl rfl | cases h
    | notANumber | zero t => cases s <;> cases h
    | finite t m e hm => cases s <;> cases t <;> cases h
  | finite s m e hm =>
    cases g with
    | finite t m' e' hm' =>
      have hsize (hst : s = t) : e = e' ∧ m = m' := by
        subst hst
        cases s with
        | negative =>
          have hl : Level.make (-1) (-e) (-m) = .make (-1) (-e') (-m') := Option.some.inj h
          simpa [Level.make, Int.natCast_inj] using hl
        | positive =>
          have hl : Level.make 1 e m = .make 1 e' m' := Option.some.inj h
          simpa [Level.make, Int.natCast_inj] using hl
      by_cases hst : s = t
      · obtain ⟨rfl, rfl⟩ := hsize hst
        exact .inl (hst ▸ rfl)
      · cases s <;> cases t <;> first | exact absurd rfl hst | cases h
    | notANumber | zero t => cases s <;> cases h
    | infinity t => cases s <;> cases t <;> cases h

-- A function that does not tell one zero from the other has one value for each number.
theorem congr_level {β : Type} (F : UnpackedFloat → β) (hzero : ∀ s t, F (.zero s) = F (.zero t)) {f g : UnpackedFloat}
    (h : unpackedLevel? f = unpackedLevel? g) : F f = F g := by
  obtain rfl | ⟨s, t, rfl, rfl⟩ := eq_or_zero h
  · rfl
  · exact hzero s t

-- An operation that gives the same number for both zeros.
structure IgnoresSign (op : UnpackedFloat → UnpackedFloat → UnpackedFloat) : Prop where
  left : ∀ g s t, unpackedLevel? (op (.zero s) g) = unpackedLevel? (op (.zero t) g)
  right : ∀ f s t, unpackedLevel? (op f (.zero s)) = unpackedLevel? (op f (.zero t))

theorem IgnoresSign.congr {op : UnpackedFloat → UnpackedFloat → UnpackedFloat} (h : IgnoresSign op)
    {f f' g g' : UnpackedFloat} (hf : unpackedLevel? f = unpackedLevel? f') (hg : unpackedLevel? g = unpackedLevel? g') :
    unpackedLevel? (op f g) = unpackedLevel? (op f' g') :=
  calc unpackedLevel? (op f g)
    _ = unpackedLevel? (op f' g) := congr_level (fun f => unpackedLevel? (op f g)) (h.left g) hf
    _ = unpackedLevel? (op f' g') := congr_level (fun g => unpackedLevel? (op f' g)) (h.right f') hg

theorem ignoresSign_add (format : Format) : IgnoresSign (UnpackedFloat.add format) where
  left g s t := by
    cases g with
    | zero u => cases s <;> cases t <;> cases u <;> rfl
    | _ => rfl
  right f s t := by
    cases f with
    | zero u => cases s <;> cases t <;> cases u <;> rfl
    | _ => rfl

theorem ignoresSign_sub (format : Format) : IgnoresSign (UnpackedFloat.sub format) where
  left g s t := by
    cases g with
    | zero u => cases s <;> cases t <;> cases u <;> rfl
    | _ => rfl
  right f s t := by
    cases f with
    | zero u => cases s <;> cases t <;> cases u <;> rfl
    | _ => rfl

theorem ignoresSign_mul (format : Format) : IgnoresSign (UnpackedFloat.mul format) where
  left g s t := by cases g <;> rfl
  right f s t := by cases f <;> rfl

theorem level?_pack {f g : UnpackedFloat} (h : unpackedLevel? f = unpackedLevel? g) :
    level? (.ofModel (.pack f)) = level? (.ofModel (.pack g)) := by
  refine congr_level (fun f => level? (.ofModel (.pack f))) (fun s t => ?_) h
  cases s <;> cases t <;> rfl

namespace Same

variable {x y x' y' : Float}

theorem refl (x : Float) : Same x x := same_iff.2 rfl

theorem add (h : Same x y) (h' : Same x' y') : Same (x + x') (y + y') :=
  same_iff.2 (level?_pack ((ignoresSign_add _).congr (same_iff.1 h) (same_iff.1 h')))

theorem sub (h : Same x y) (h' : Same x' y') : Same (x - x') (y - y') :=
  same_iff.2 (level?_pack ((ignoresSign_sub _).congr (same_iff.1 h) (same_iff.1 h')))

theorem mul (h : Same x y) (h' : Same x' y') : Same (x * x') (y * y') :=
  same_iff.2 (level?_pack ((ignoresSign_mul _).congr (same_iff.1 h) (same_iff.1 h')))

theorem neg (h : Same x y) : Same (-x) (-y) :=
  same_iff.2 (level?_pack (congr_level (fun f => unpackedLevel? f.neg) (fun _ _ => rfl) (same_iff.1 h)))

theorem abs (h : Same x y) : Same x.abs y.abs :=
  same_iff.2 (level?_pack (congr_level (fun f => unpackedLevel? f.abs) (fun _ _ => rfl) (same_iff.1 h)))

theorem least (h : Same x y) (h' : Same x' y') : Same (leastFloat x x') (leastFloat y y') := by
  rw [same_iff, level?_least, level?_least, same_iff.1 h, same_iff.1 h']

theorem greatest (h : Same x y) (h' : Same x' y') : Same (greatestFloat x x') (greatestFloat y y') := by
  rw [same_iff, level?_greatest, level?_greatest, same_iff.1 h, same_iff.1 h']

-- The sum with a number that is not zero does not show the sign of zero.
theorem add_eq {z : Float} (h : Same x y) (hz : level? z ≠ some (.make 0 0 0)) : x + z = y + z := by
  refine congr_level (fun f => Float.ofModel (.pack (UnpackedFloat.add .binary64 f z.toModel.unpack))) (fun s t => ?_)
    (same_iff.1 h)
  unfold level? at hz
  cases hu : z.toModel.unpack with
  | zero u =>
    rw [hu] at hz
    exact absurd rfl hz
  | _ => rfl

end Same

end Scalar

end SolidScript
