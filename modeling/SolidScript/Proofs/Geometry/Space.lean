import Mathlib.Algebra.Order.Field.Rat
import Mathlib.Algebra.Order.Floor.Ring
import Mathlib.Data.Rat.Floor
import Mathlib.Order.Bounds.Basic
import Mathlib.Order.Interval.Set.Defs
import SolidScript.Solid

namespace SolidScript

namespace Exact

-- All numbers are finite, so that nothing has to stand for an infinite one.
scoped instance : Scalar ℚ where
  zero := 0
  one := 1
  half := 1 / 2
  less a b := a < b
  lessEq a b := a ≤ b
  equal a b := a = b
  precedes a b := a ≤ b
  least := min
  greatest := max
  magnitude := abs
  round a := if 0 ≤ a then ⌊a + 1 / 2⌋ else -⌊-a + 1 / 2⌋
  isFinite _ := true
  infinite := 0

end Exact

open scoped Exact

namespace Vec3

-- A point is below another one if it is so on every axis.
instance [PartialOrder α] : PartialOrder (Vec3 α) :=
  PartialOrder.lift (fun p => (p.x, p.y, p.z)) fun p q h => by
    cases p
    cases q
    simpa using h

theorem le_iff [PartialOrder α] {p q : Vec3 α} : p ≤ q ↔ p.x ≤ q.x ∧ p.y ≤ q.y ∧ p.z ≤ q.z := Iff.rfl

theorem least_le_greatest (p q : Vec3 ℚ) : p.least q ≤ p.greatest q :=
  ⟨min_le_max, min_le_max, min_le_max⟩

end Vec3

namespace Box

-- The points of a box.
def region (b : Box ℚ) : Set (Vec3 ℚ) := Set.Icc b.low b.high

-- A box is below another one if it lies inside of it.
instance : PartialOrder (Box ℚ) :=
  PartialOrder.lift (fun b => (OrderDual.toDual b.low, b.high)) fun b c h => by
    cases b
    cases c
    simpa using h

theorem le_iff {b c : Box ℚ} : b ≤ c ↔ c.low ≤ b.low ∧ b.high ≤ c.high := Iff.rfl

theorem mem_region {b : Box ℚ} {p : Vec3 ℚ} : p ∈ b.region ↔
    (b.low.x ≤ p.x ∧ p.x ≤ b.high.x) ∧ (b.low.y ≤ p.y ∧ p.y ≤ b.high.y) ∧ b.low.z ≤ p.z ∧ p.z ≤ b.high.z := by
  rw [region, Set.mem_Icc, Vec3.le_iff, Vec3.le_iff]
  tauto

end Box

end SolidScript
