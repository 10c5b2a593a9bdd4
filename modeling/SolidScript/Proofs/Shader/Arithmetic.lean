import Mathlib.Algebra.BigOperators.Ring.List
import Mathlib.Algebra.Order.BigOperators.Group.List
import Mathlib.Algebra.Order.BigOperators.GroupWithZero.List
import Mathlib.Algebra.Order.Ring.Int
import SolidScript.Proofs.Solid.Nodes
import SolidScript.Shader.Render

namespace SolidScript

namespace Shader

inductive Operator where
  | add
  | subtract
  | multiply
deriving DecidableEq

def Operator.symbol : Operator → String
  | add => " + "
  | subtract => " - "
  | multiply => " * "

def Operator.apply : Operator → Int → Int → Int
  | add, m, n => m + n
  | subtract, m, n => m - n
  | multiply, m, n => m * n

structure Arithmetic where
  operator : Operator
  clamped : Bool
deriving DecidableEq

namespace Arithmetic

def plainSum : Arithmetic := ⟨.add, false⟩

-- How the terms are written.
def text (a : Arithmetic) (terms : List String) : String :=
  let chain := a.operator.symbol.intercalate terms
  if a.clamped then Shader.clamped chain else chain

-- What is written, over the integers.
def value (a : Arithmetic) : List Int → Int
  | [] => 0
  | n :: ns =>
    let chain := ns.foldl a.operator.apply n
    if a.clamped then max 0 (min 1 chain) else chain

end Arithmetic

end Shader

namespace Primitive

open Shader

def arithmetic : Primitive → Arithmetic
  | union => ⟨.add, true⟩
  | difference => ⟨.subtract, true⟩
  | intersection => ⟨.multiply, true⟩
  | _ => .plainSum

-- The blocks that have the value of their arithmetic everywhere. Extrusions have it only within their extent.
def isJoin : Primitive → Bool
  | color | difference | group | intersection | multmatrix | union => true
  | _ => false

end Primitive

namespace Shader

-- The text of a join ends with the arithmetic of its calls.
theorem Body.text_arithmetic {body : Body Float} (h : body.kind.isJoin) :
    ∃ lines, body.text = lines ++ ret (body.kind.arithmetic.text (body.calls.map Call.text)) := by
  cases body with
  | combine combination calls =>
    refine ⟨"", ?_⟩
    rw [String.empty_append]
    cases combination <;> rfl
  | transform inverse calls => exact ⟨_, rfl⟩
  | extrude extrusion calls => cases h
  | revolve degrees calls => cases h
  | polygon low high bands => cases h

namespace Arithmetic

variable {n : Int} {ns : List Int}

theorem foldl_add (n : Int) (ns : List Int) : ns.foldl Operator.add.apply n = n + ns.sum := by
  induction ns generalizing n with
  | nil => simp
  | cons m ns ih => rw [List.foldl_cons, ih, List.sum_cons, Operator.apply, add_assoc]

theorem foldl_subtract (n : Int) (ns : List Int) : ns.foldl Operator.subtract.apply n = n - ns.sum := by
  induction ns generalizing n with
  | nil => simp
  | cons m ns ih => rw [List.foldl_cons, ih, List.sum_cons, Operator.apply, sub_sub]

theorem foldl_multiply (n : Int) (ns : List Int) : ns.foldl Operator.multiply.apply n = n * ns.prod := by
  induction ns generalizing n with
  | nil => simp
  | cons m ns ih => rw [List.foldl_cons, ih, List.prod_cons, Operator.apply, mul_assoc]

theorem plainSum_value (ns : List Int) : plainSum.value ns = ns.sum := by
  cases ns with
  | nil => rfl
  | cons n ns => exact foldl_add n ns

theorem sum_ne_zero_iff (h : ∀ n ∈ ns, 0 ≤ n) : ns.sum ≠ 0 ↔ ∃ n ∈ ns, n ≠ 0 := by
  induction ns with
  | nil => simp
  | cons n ns ih =>
    have hn := h n (by simp)
    have hns : ∀ m ∈ ns, 0 ≤ m := fun m hm => h m (by simp [hm])
    have hsum := List.sum_nonneg hns
    rw [List.sum_cons, List.exists_mem_cons_iff, ← ih hns]
    omega

theorem prod_ne_zero_iff : ns.prod ≠ 0 ↔ ∀ n ∈ ns, n ≠ 0 := by
  rw [Ne, List.prod_eq_zero_iff]
  exact ⟨fun h n hn h0 => h (h0 ▸ hn), fun h hn => h 0 hn rfl⟩

theorem clamp_ne_zero_iff (n : Int) : max 0 (min 1 n) ≠ 0 ↔ 0 < n := by omega

theorem clamp_bounds (n : Int) : 0 ≤ max 0 (min 1 n) ∧ max 0 (min 1 n) ≤ 1 := by omega

theorem value_nonneg (kind : Primitive) (h : ∀ n ∈ ns, 0 ≤ n) : 0 ≤ kind.arithmetic.value ns := by
  have hclamped (operator : Operator) : 0 ≤ value ⟨operator, true⟩ ns := by
    cases ns with
    | nil => exact le_refl 0
    | cons n ns => exact (clamp_bounds _).1
  have hsum : 0 ≤ plainSum.value ns := plainSum_value ns ▸ List.sum_nonneg h
  unfold Primitive.arithmetic
  split
  · exact hclamped _
  · exact hclamped _
  · exact hclamped _
  · exact hsum

end Arithmetic

-- What the value of a block says about the values of its children. A difference counts how often a point is in its
-- first child, which can be more than once.
def Law (kind : Primitive) (value : Int) (children : List Int) : Prop :=
  match kind with
  | .union => value ≤ 1 ∧ (value ≠ 0 ↔ ∃ n ∈ children, n ≠ 0)
  | .group | .color | .multmatrix => value ≠ 0 ↔ ∃ n ∈ children, n ≠ 0
  | .intersection => value ≤ 1 ∧ (value ≠ 0 ↔ ∀ n ∈ children, n ≠ 0)
  | .difference => value ≤ 1 ∧ (value ≠ 0 ↔ children.tail.sum < children.headD 0) ∧
      (children.headD 0 ≤ 1 → (value ≠ 0 ↔ children.headD 0 ≠ 0 ∧ ∀ n ∈ children.tail, n = 0))
  | _ => True

namespace Law

open Arithmetic

variable {ns : List Int}

theorem union (hns : ∀ n ∈ ns, 0 ≤ n) : Law .union (Primitive.union.arithmetic.value ns) ns := by
  cases ns with
  | nil => simp [Law, value]
  | cons n ns =>
    have hvalue : Primitive.union.arithmetic.value (n :: ns) = max 0 (min 1 (n :: ns).sum) := by
      rw [List.sum_cons, ← foldl_add]
      rfl
    have hsum := List.sum_nonneg hns
    rw [Law, hvalue, clamp_ne_zero_iff, ← sum_ne_zero_iff hns]
    exact ⟨(clamp_bounds _).2, by omega⟩

theorem plain (hns : ∀ n ∈ ns, 0 ≤ n) : plainSum.value ns ≠ 0 ↔ ∃ n ∈ ns, n ≠ 0 := by
  rw [plainSum_value, sum_ne_zero_iff hns]

theorem intersection (hne : ns ≠ []) (hns : ∀ n ∈ ns, 0 ≤ n) :
    Law .intersection (Primitive.intersection.arithmetic.value ns) ns := by
  cases ns with
  | nil => contradiction
  | cons n ns =>
    have hvalue : Primitive.intersection.arithmetic.value (n :: ns) = max 0 (min 1 (n :: ns).prod) := by
      rw [List.prod_cons, ← foldl_multiply]
      rfl
    have hprod := List.prod_nonneg hns
    rw [Law, hvalue, clamp_ne_zero_iff, ← prod_ne_zero_iff]
    exact ⟨(clamp_bounds _).2, by omega⟩

theorem difference (hns : ∀ n ∈ ns, 0 ≤ n) :
    Law .difference (Primitive.difference.arithmetic.value ns) ns := by
  cases ns with
  | nil => simp [Law, value]
  | cons n ns =>
    have hn := hns n (by simp)
    have hns : ∀ m ∈ ns, 0 ≤ m := fun m hm => hns m (by simp [hm])
    have hsum := List.sum_nonneg hns
    have hzero : ns.sum = 0 ↔ ∀ m ∈ ns, m = 0 := by
      simpa using not_congr (sum_ne_zero_iff hns)
    have hvalue : Primitive.difference.arithmetic.value (n :: ns) = max 0 (min 1 (n - ns.sum)) := by
      rw [← foldl_subtract]
      rfl
    rw [Law, hvalue, clamp_ne_zero_iff, List.tail_cons, List.headD_cons, ← hzero]
    exact ⟨(clamp_bounds _).2, by omega, by omega⟩

-- The arithmetic of a join is right for its kind.
theorem of_isJoin {kind : Primitive} (hk : kind.isJoin) (hne : ns ≠ []) (hns : ∀ n ∈ ns, 0 ≤ n) :
    Law kind (kind.arithmetic.value ns) ns := by
  cases kind with
  | union => exact union hns
  | difference => exact difference hns
  | intersection => exact intersection hne hns
  | group | color | multmatrix => exact plain hns
  | _ => cases hk

end Law

end Shader

end SolidScript
