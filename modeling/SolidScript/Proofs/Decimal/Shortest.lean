import SolidScript.Proofs.Decimal.Rounding

namespace SolidScript

namespace Binary

variable {b : Binary} {k : ℤ} {d : ℕ}

theorem pow_toNat {a : ℚ} (ha : a ≠ 0) (z : ℤ) : a ^ z.toNat = a ^ z * a ^ (-z).toNat := by
  rcases Int.le_total 0 z with h | h
  · obtain ⟨n, rfl⟩ := Int.eq_ofNat_of_zero_le h
    have hn : (-(n : ℤ)).toNat = 0 := by omega
    rw [hn, Int.toNat_natCast, zpow_natCast, pow_zero, mul_one]
  · obtain ⟨n, rfl⟩ : ∃ n : ℕ, z = -n := ⟨z.natAbs, by omega⟩
    have hn : (-(n : ℤ)).toNat = 0 := by omega
    rw [hn, neg_neg, Int.toNat_natCast, zpow_neg, zpow_natCast, pow_zero, inv_mul_cancel₀ (pow_ne_zero _ ha)]

theorem ten_zpow_pos (k : ℤ) : (0 : ℚ) < 10 ^ k := zpow_pos (by norm_num) k

theorem num_eq (b : Binary) (k : ℤ) : b.num k = 2 ^ (b.exponent - 2).toNat * 10 ^ (-k).toNat := rfl

theorem den_eq (b : Binary) (k : ℤ) : b.den k = 2 ^ (2 - b.exponent).toNat * 10 ^ k.toNat := rfl

theorem den_pos (b : Binary) (k : ℤ) : 0 < b.den k := Nat.mul_pos (Nat.two_pow_pos _) (Nat.pow_pos (by norm_num))

-- A quarter of a unit in the last place, in steps of the grid.
theorem num_mul (b : Binary) (k : ℤ) : (b.num k : ℚ) * 10 ^ k = 2 ^ (b.exponent - 2) * b.den k := by
  have htwo := pow_toNat (a := 2) two_ne_zero (b.exponent - 2)
  have hten := pow_toNat (a := 10) (by norm_num) k
  rw [neg_sub] at htwo
  rw [num_eq, den_eq]
  push_cast
  rw [htwo, hten]
  ring

theorem le_point_iff (n : ℕ) : n * b.num k ≤ d * b.den k ↔ (n : ℚ) * 2 ^ (b.exponent - 2) ≤ d * 10 ^ k := by
  have hden : (0 : ℚ) < b.den k := by exact_mod_cast b.den_pos k
  rw [← Nat.cast_le (α := ℚ), ← mul_le_mul_iff_left₀ (ten_zpow_pos k)]
  push_cast
  rw [mul_assoc, num_mul, ← mul_assoc, mul_right_comm (d : ℚ), mul_le_mul_iff_left₀ hden]

theorem point_le_iff (n : ℕ) : d * b.den k ≤ n * b.num k ↔ (d : ℚ) * 10 ^ k ≤ n * 2 ^ (b.exponent - 2) := by
  have hden : (0 : ℚ) < b.den k := by exact_mod_cast b.den_pos k
  rw [← Nat.cast_le (α := ℚ), ← mul_le_mul_iff_left₀ (ten_zpow_pos k)]
  push_cast
  rw [mul_assoc (n : ℚ), num_mul, ← mul_assoc (n : ℚ), mul_right_comm (d : ℚ), mul_le_mul_iff_left₀ hden]

theorem covers_iff : b.covers k d ↔ b.Rounds (d * 10 ^ k) := by
  unfold covers Rounds
  dsimp only
  split
  · rw [Bool.and_eq_true, decide_eq_true_eq, decide_eq_true_eq, le_point_iff, point_le_iff]
  · rw [Bool.and_eq_true, decide_eq_true_eq, decide_eq_true_eq, ← not_le, ← not_le, point_le_iff, le_point_iff, not_le, not_le]

theorem covers_of_onGrid? (h : b.onGrid? k = some d) : b.covers k d := by
  unfold onGrid? at h
  dsimp only at h
  split at h
  · split at h <;> cases h <;> assumption
  · cases h
    assumption
  · cases h
    assumption
  · cases h

-- On a grid that is finer than a quarter of a unit in the last place, the upper neighbour is in the interval.
theorem covers_above (h : b.den k ≤ b.num k) : b.covers k (4 * b.significand * b.num k / b.den k + 1) := by
  have hden := b.den_pos k
  generalize hq : 4 * b.significand * b.num k / b.den k = q
  have hlow : b.low * b.num k < (q + 1) * b.den k := by
    have hle : b.low * b.num k ≤ 4 * b.significand * b.num k := by
      refine Nat.mul_le_mul_right _ ?_
      unfold low
      split <;> omega
    exact hle.trans_lt ((Nat.div_lt_iff_lt_mul hden).1 (by omega))
  have hhigh : (q + 1) * b.den k < b.high * b.num k := by
    have hle : q * b.den k ≤ 4 * b.significand * b.num k := (Nat.le_div_iff_mul_le hden).1 hq.ge
    unfold high
    rw [Nat.add_mul, Nat.add_mul]
    omega
  unfold covers
  dsimp only
  split
  · simp only [hlow.le, hhigh.le, decide_true, Bool.and_self]
  · simp only [hlow, hhigh, decide_true, Bool.and_self]

theorem onGrid?_isSome (h : b.den k ≤ b.num k) : (b.onGrid? k).isSome := by
  have hcovers := covers_above h
  unfold onGrid?
  dsimp only
  rw [hcovers]
  cases b.covers k (4 * b.significand * b.num k / b.den k) with
  | true =>
    dsimp only
    split <;> rfl
  | false => rfl

-- The finest grid that is needed.
theorem den_le_num (hb : b.IsDouble) : b.den (-324) ≤ b.num (-324) := by
  have hmin := hb.min
  have hexp : (2 - b.exponent).toNat ≤ 1076 := by omega
  have h324 : (-(-324 : ℤ)).toNat = 324 := rfl
  have hnone : (-324 : ℤ).toNat = 0 := rfl
  rw [den_eq, num_eq, h324, hnone, pow_zero, mul_one]
  calc 2 ^ (2 - b.exponent).toNat ≤ 10 ^ 324 := (Nat.pow_le_pow_right two_pos hexp).trans (by decide +kernel)
    _ ≤ 2 ^ (b.exponent - 2).toNat * 10 ^ 324 := Nat.le_mul_of_pos_left _ (Nat.two_pow_pos _)

theorem covers_of_firstHit {grids : ℕ} {d : Decimal} (h : b.firstHit grids k = some d) :
    b.covers d.exponent d.coefficient := by
  induction grids generalizing k with
  | zero => cases h
  | succ grids ih =>
    unfold firstHit at h
    split at h
    · rename_i hit
      cases h
      exact covers_of_onGrid? hit
    · exact ih h

theorem firstHit_isSome (hb : b.IsDouble) {grids : ℕ} (hlow : -324 ≤ k) (hgrids : k < -324 + grids) :
    (b.firstHit grids k).isSome := by
  induction grids generalizing k with
  | zero => omega
  | succ grids ih =>
    unfold firstHit
    split
    · rfl
    · rename_i hmiss
      have hne : k ≠ -324 := by
        rintro rfl
        have := onGrid?_isSome (den_le_num hb)
        rw [hmiss] at this
        cases this
      exact ih (by omega) (by omega)

theorem topGrid_bounds (hb : b.IsDouble) : -324 ≤ b.topGrid ∧ b.topGrid < -324 + gridLimit := by
  have hmin := hb.min
  have hmax := hb.max
  have hlog := (Nat.log2_lt hb.pos.ne').2 hb.lt
  unfold topGrid gridLimit
  dsimp only
  split <;> omega

theorem shortest_rounds (hb : b.IsDouble) : b.Rounds (b.shortest.coefficient * 10 ^ b.shortest.exponent) := by
  obtain ⟨hlow, hhigh⟩ := topGrid_bounds hb
  obtain ⟨d, hd⟩ := Option.isSome_iff_exists.1 (firstHit_isSome hb hlow hhigh)
  rw [shortest, hd]
  exact covers_iff.1 (covers_of_firstHit hd)

end Binary

end SolidScript
