import SolidScript.Decimal.Reader
import SolidScript.Proofs.Decimal.Packing

namespace SolidScript

open Float.Model Float.Model.UnpackedFloat

namespace Rounding

variable {b : Binary} {v : ℚ} {m n : ℕ} {e f : ℤ}

theorem mul_eq (hb : b.IsDouble) (hv : b.Rounds v) (hm : 0 < m) (hn : 0 < n) (h : v = m * 2 ^ e * (n * 2 ^ f))
    (hlog : 2 ^ 52 ≤ m * n) :
    mul .binary64 (.finite .positive m e hm) (.finite .positive n f hn) = b.unpacked hb := by
  have hl : Locates (.ofMantissaAndAccuracy (m * n) .exact) (v / 2 ^ (e + f)) := by
    have hq : v / 2 ^ (e + f) = (m * n : ℕ) := by
      rw [h, zpow_add₀ two_ne_zero]
      push_cast
      field_simp
    rw [hq]
    exact locates_exact _
  have hlog := (Nat.le_log2 (Nat.mul_pos hm hn).ne').2 hlog
  refine roundWithAccuracy_eq hb hv hl ?_
  rw [targetExponent_eq, totalExponent]
  omega

theorem div_eq (hb : b.IsDouble) (hv : b.Rounds v) (hm : 0 < m) (hn : 0 < n) (h : v = m * 2 ^ e / (n * 2 ^ f)) :
    div .binary64 (.finite .positive m e hm) (.finite .positive n f hn) = b.unpacked hb := by
  let t := min (e - f) (Format.binary64.targetExponent (totalExponent m e - totalExponent n f))
  have ht : t ≤ e - f := min_le_left _ _
  have ht' : t ≤ Format.binary64.targetExponent (totalExponent m e - totalExponent n f) := min_le_right _ _
  let s := (e - f - t).toNat
  have hs : (s : ℤ) = e - f - t := Int.toNat_of_nonneg (by omega)
  have hdiv : div .binary64 (.finite .positive m e hm) (.finite .positive n f hn) =
      roundWithAccuracy .binary64 .positive ((m <<< s) / n) t (accuracyOfFraction ((m <<< s) % n) n) := rfl
  clear_value s t
  have hn' : (0 : ℚ) < n := by exact_mod_cast hn
  have hl : Locates (.ofMantissaAndAccuracy ((m <<< s) / n) (accuracyOfFraction ((m <<< s) % n) n)) (v / 2 ^ t) := by
    have hq : v / 2 ^ t = (m <<< s : ℕ) / n := by
      rw [h, Nat.shiftLeft_eq]
      push_cast
      rw [← zpow_natCast, hs, zpow_sub₀ two_ne_zero, zpow_sub₀ two_ne_zero]
      field_simp
    rw [hq]
    exact locates_fraction _ hn
  rw [hdiv]
  refine roundWithAccuracy_eq hb hv hl ?_
  rw [targetExponent_eq]
  by_cases hmin : t ≤ -1074
  · exact hmin.trans (le_max_right _ _)
  · -- the shift is chosen such that the quotient has all bits
    rw [targetExponent_eq, totalExponent, totalExponent] at ht'
    have hlog : n.log2 + 53 ≤ m.log2 + s := by omega
    have hq : 2 ^ 52 ≤ (m <<< s) / n := by
      rw [Nat.le_div_iff_mul_le hn, Nat.shiftLeft_eq]
      calc 2 ^ 52 * n ≤ 2 ^ 52 * 2 ^ (n.log2 + 1) := Nat.mul_le_mul_left _ Nat.lt_log2_self.le
        _ = 2 ^ (n.log2 + 53) := by rw [← pow_add]; congr 1; omega
        _ ≤ 2 ^ (m.log2 + s) := Nat.pow_le_pow_right two_pos hlog
        _ = 2 ^ m.log2 * 2 ^ s := pow_add _ _ _
        _ ≤ m * 2 ^ s := Nat.mul_le_mul_right _ (Nat.log2_self_le hm.ne')
    have := (Nat.le_log2 (by omega : (m <<< s) / n ≠ 0)).2 hq
    rw [totalExponent]
    omega

-- The finite numbers without a sign whose mantissa has all bits.
def IsExact (f : UnpackedFloat) (n : ℕ) : Prop :=
  ∃ m e hm, f = .finite .positive m e hm ∧ 2 ^ 52 ≤ m ∧ (n : ℚ) = m * 2 ^ e

def isExact? (n : ℕ) : UnpackedFloat → Bool
  | .finite .positive m e _ => 2 ^ 52 ≤ m && m * 2 ^ e.toNat == n * 2 ^ (-e).toNat
  | _ => false

theorem isExact_of_isExact? {f : UnpackedFloat} (h : isExact? n f) : IsExact f n := by
  cases f with
  | finite sign m e hm =>
    cases sign with
    | negative => cases h
    | positive =>
      change (decide (2 ^ 52 ≤ m) && m * 2 ^ e.toNat == n * 2 ^ (-e).toNat) = true at h
      rw [Bool.and_eq_true, beq_iff_eq, decide_eq_true_eq] at h
      refine ⟨m, e, hm, rfl, h.1, ?_⟩
      have hq : (m : ℚ) * 2 ^ e.toNat = n * 2 ^ (-e).toNat := by exact_mod_cast h.2
      rcases Int.le_total 0 e with he | he
      · obtain ⟨k, rfl⟩ := Int.eq_ofNat_of_zero_le he
        have hk : (-(k : ℤ)).toNat = 0 := by omega
        rw [Int.toNat_natCast, hk, pow_zero, mul_one] at hq
        rw [zpow_natCast, hq]
      · obtain ⟨k, rfl⟩ : ∃ k : ℕ, e = -k := ⟨e.natAbs, by omega⟩
        have hk : (-(k : ℤ)).toNat = 0 := by omega
        rw [neg_neg, Int.toNat_natCast, hk, pow_zero, mul_one] at hq
        rw [hq, zpow_neg, zpow_natCast, mul_inv_cancel_right₀ (pow_ne_zero _ two_ne_zero)]
  | _ => cases h

-- The powers of ten up to the largest that is a double-precision number.
theorem isExact_powersOfTen (k : Fin 23) :
    IsExact (Float.exactlyRepresentablePowersOfTen[k]).toModel.unpack (10 ^ k.val) := by
  refine isExact_of_isExact? ?_
  revert k
  decide +kernel

-- A small integer is shifted until its mantissa has all bits.
def ofSmall (m : ℕ) : Binary := ⟨m * 2 ^ (52 - m.log2), -((52 - m.log2 : ℕ) : ℤ), m * 2 ^ (52 - m.log2) == 2 ^ 52⟩

theorem ofSmall_bounds (hm : 0 < m) (hlt : m < 2 ^ 53) :
    2 ^ 52 ≤ m * 2 ^ (52 - m.log2) ∧ m * 2 ^ (52 - m.log2) < 2 ^ 53 := by
  have hlog := (Nat.log2_lt hm.ne').2 hlt
  constructor
  · calc 2 ^ 52 = 2 ^ m.log2 * 2 ^ (52 - m.log2) := by rw [← pow_add]; congr 1; omega
      _ ≤ m * 2 ^ (52 - m.log2) := Nat.mul_le_mul_right _ (Nat.log2_self_le hm.ne')
  · calc m * 2 ^ (52 - m.log2) < 2 ^ (m.log2 + 1) * 2 ^ (52 - m.log2) :=
          Nat.mul_lt_mul_of_pos_right Nat.lt_log2_self (Nat.two_pow_pos _)
      _ = 2 ^ 53 := by rw [← pow_add]; congr 1; omega

theorem isDouble_ofSmall (hm : 0 < m) (hlt : m < 2 ^ 53) : (ofSmall m).IsDouble := by
  obtain ⟨hlow, hhigh⟩ := ofSmall_bounds hm hlt
  unfold ofSmall
  generalize m * 2 ^ (52 - m.log2) = n at hlow hhigh
  refine ⟨by dsimp only; omega, hhigh, by dsimp only; omega, by dsimp only; omega, .inl hlow, ?_⟩
  dsimp only
  rw [beq_iff_eq]
  omega

theorem round_small (hm : 0 < m) (hlt : m < 2 ^ 53) :
    round .binary64 .positive m 0 = (ofSmall m).unpacked (isDouble_ofSmall hm hlt) := by
  have hb := isDouble_ofSmall hm hlt
  have hlog := (Nat.log2_lt hm.ne').2 hlt
  have ht : Format.targetExponent .binary64 (totalExponent m 0) = (ofSmall m).exponent := by
    rw [targetExponent_eq, totalExponent, ofSmall]
    dsimp only
    omega
  have hdec : decreaseExponent m 0 (ofSmall m).exponent = ((ofSmall m).significand, (ofSmall m).exponent) := by
    unfold decreaseExponent ofSmall
    simp [Nat.shiftLeft_eq]
  have hround : round .binary64 .positive m 0 =
      roundWithAccuracy .binary64 .positive (ofSmall m).significand (ofSmall m).exponent .exact := by
    unfold UnpackedFloat.round
    simp only [ht, hdec]
  rw [hround]
  refine roundWithAccuracy_eq hb (Binary.rounds_self hb) ?_ ?_
  · rw [mul_div_cancel_right₀ _ (Binary.two_zpow_pos _).ne']
    exact locates_exact _
  · have := (Binary.log2_eq_iff hb).2 (ofSmall_bounds hm hlt).1
    rw [targetExponent_eq, totalExponent]
    omega

theorem isExact_toFloat (hm : 0 < m) (hlt : m < 2 ^ 53) : IsExact m.toUInt64.toFloat.toModel.unpack m := by
  have hb := isDouble_ofSmall hm hlt
  have hround : UnpackedFloat.ofUInt64 .binary64 m.toUInt64 = (ofSmall m).unpacked hb := by
    have hnat : m.toUInt64.toNat = m := by
      rw [Nat.toUInt64_eq, UInt64.toNat_ofNat']
      omega
    have hcmp : compare (m : ℤ) 0 = .gt := compare_gt_iff_gt.2 (by omega)
    unfold UnpackedFloat.ofUInt64 UnpackedFloat.ofNat UnpackedFloat.ofInt UnpackedFloat.normalize
    rw [hnat, hcmp]
    exact round_small hm hlt
  have hfloat : m.toUInt64.toFloat = Packing.ofUnpacked ((ofSmall m).unpacked hb) := by
    rw [← hround]
    rfl
  rw [hfloat, Binary.unpack_unpacked]
  refine ⟨_, _, hb.pos, rfl, (ofSmall_bounds hm hlt).1, ?_⟩
  unfold ofSmall
  dsimp only
  rw [zpow_neg, zpow_natCast]
  push_cast
  rw [mul_inv_cancel_right₀ (pow_ne_zero _ two_ne_zero)]

theorem mul_exact {x y : Float} (hb : b.IsDouble) (hv : b.Rounds (m * n)) (hx : IsExact x.toModel.unpack m)
    (hy : IsExact y.toModel.unpack n) : x * y = Packing.ofUnpacked (b.unpacked hb) := by
  obtain ⟨m', e, hm, hx, hm', hmv⟩ := hx
  obtain ⟨n', f, hn, hy, hn', hnv⟩ := hy
  have hmul := mul_eq hb hv hm hn (by rw [hmv, hnv]) (hm'.trans (Nat.le_mul_of_pos_right _ hn))
  rw [← hx, ← hy] at hmul
  rw [← hmul]
  rfl

theorem div_exact {x y : Float} (hb : b.IsDouble) (hv : b.Rounds (m / n)) (hx : IsExact x.toModel.unpack m)
    (hy : IsExact y.toModel.unpack n) : x / y = Packing.ofUnpacked (b.unpacked hb) := by
  obtain ⟨m', e, hm, hx, -, hmv⟩ := hx
  obtain ⟨n', f, hn, hy, -, hnv⟩ := hy
  have hdiv := div_eq hb hv hm hn (by rw [hmv, hnv])
  rw [← hx, ← hy] at hdiv
  rw [← hdiv]
  rfl

end Rounding

namespace Binary

variable {b : Binary} {v : ℚ} {c : ℕ} {p : ℤ}

theorem Rounds.range (hv : b.Rounds v) (hb : b.IsDouble) : 2 ^ (-1075 : ℤ) ≤ v ∧ v < 2 ^ (1024 : ℤ) := by
  obtain ⟨hl, hh⟩ := hv.le
  rw [le_div_iff₀ (two_zpow_pos _)] at hl
  rw [div_le_iff₀ (two_zpow_pos _), cast_high] at hh
  have hs : (1 : ℚ) ≤ b.significand := by exact_mod_cast hb.pos
  have hs' : (b.significand : ℚ) + 1 ≤ 2 ^ 53 := by exact_mod_cast hb.lt
  have hlow : (1 / 2 : ℚ) ≤ b.low / 4 := by
    rw [cast_low hb]
    split <;> linarith
  have hmin : (2 : ℚ) ^ (-1074 : ℤ) ≤ 2 ^ b.exponent := zpow_le_zpow_right₀ one_le_two hb.min
  have hmax : (2 : ℚ) ^ b.exponent ≤ 2 ^ (971 : ℤ) := zpow_le_zpow_right₀ one_le_two hb.max
  have hu := two_zpow_pos b.exponent
  constructor
  · calc (2 : ℚ) ^ (-1 + -1074 : ℤ) = 1 / 2 * 2 ^ (-1074 : ℤ) := by rw [zpow_add₀ two_ne_zero, zpow_neg_one, one_div]
      _ ≤ b.low / 4 * 2 ^ b.exponent := mul_le_mul hlow hmin (two_zpow_pos _).le (by linarith)
      _ ≤ v := hl
  · calc v ≤ (4 * b.significand + 2) / 4 * 2 ^ b.exponent := hh
      _ < 2 ^ 53 * 2 ^ b.exponent := by gcongr; linarith
      _ ≤ 2 ^ 53 * 2 ^ (971 : ℤ) := mul_le_mul_of_nonneg_left hmax (by norm_num)
      _ = 2 ^ ((53 : ℕ) + 971 : ℤ) := by rw [zpow_add₀ two_ne_zero, zpow_natCast]

theorem Rounds.pos (hv : b.Rounds v) (hb : b.IsDouble) : 0 < v := (two_zpow_pos _).trans_le (hv.range hb).1

end Binary

namespace Rounding

variable {b : Binary} {c : ℕ} {p : ℤ}

theorem unpackedScientific_eq (hb : b.IsDouble) (hv : b.Rounds (c * 10 ^ p)) (hc : 0 < c) (hmax : p ≤ 2 ^ 11)
    (hmin : -(2 ^ 11 + c.log2) ≤ p) : UnpackedFloat.ofScientific .binary64 c p = b.unpacked hb := by
  unfold UnpackedFloat.ofScientific
  rw [dif_neg hc.ne', if_neg (by simp only; omega), if_neg (by simp only; omega)]
  by_cases hp : 0 ≤ p
  · rw [if_pos hp]
    obtain ⟨k, rfl⟩ := Int.eq_ofNat_of_zero_le hp
    have hbits : Format.binary64.mantissaBits = 53 := rfl
    refine mul_eq hb hv _ _ ?_ ?_
    · simp only [hbits, Nat.shiftLeft_eq, Int.toNat_natCast]
      push_cast
      rw [zpow_natCast, zpow_neg]
      norm_num
      field_simp
    · rw [hbits, Nat.shiftLeft_eq]
      calc 2 ^ 52 ≤ 1 * 2 ^ 53 * 1 := by norm_num
        _ ≤ c * 2 ^ 53 * 10 ^ (k : ℤ).toNat := Nat.mul_le_mul (Nat.mul_le_mul_right _ hc) (Nat.one_le_pow _ _ (by norm_num))
  · rw [if_neg hp]
    obtain ⟨k, rfl⟩ : ∃ k : ℕ, p = -k := ⟨p.natAbs, by omega⟩
    refine div_eq hb hv _ _ ?_
    rw [neg_neg, Int.toNat_natCast, zpow_neg, zpow_natCast, zpow_zero, mul_one, mul_one, div_eq_mul_inv]
    push_cast
    rfl

theorem ofScientific_eq (hb : b.IsDouble) (hv : b.Rounds (c * 10 ^ p)) (hc : 0 < c) (hmax : p ≤ 2 ^ 11)
    (hmin : -(2 ^ 11 + c.log2) ≤ p) :
    Float.ofScientific c (p < 0) p.natAbs = Packing.ofUnpacked (b.unpacked hb) := by
  unfold Float.ofScientific
  split
  · rename_i hfast
    have hexact := isExact_powersOfTen ⟨p.natAbs, by omega⟩
    simp only [decide_eq_true_eq]
    split
    · refine div_exact hb ?_ (isExact_toFloat hc hfast.1) hexact
      obtain ⟨k, rfl⟩ : ∃ k : ℕ, p = -k := ⟨p.natAbs, by omega⟩
      rw [zpow_neg, zpow_natCast, ← div_eq_mul_inv] at hv
      simp only [Int.natAbs_neg, Int.natAbs_natCast]
      push_cast
      exact hv
    · refine mul_exact hb ?_ (isExact_toFloat hc hfast.1) hexact
      obtain ⟨k, rfl⟩ := Int.eq_ofNat_of_zero_le (by omega : 0 ≤ p)
      rw [zpow_natCast] at hv
      simp only [Int.natAbs_natCast]
      push_cast
      exact hv
  · have hp : (if decide (p < 0) = true then Int.negOfNat p.natAbs else Int.ofNat p.natAbs) = p := by
      simp only [decide_eq_true_eq]
      split <;> simp only [Int.negOfNat_eq, Int.ofNat_eq_natCast] <;> omega
    rw [hp, ← unpackedScientific_eq hb hv hc hmax hmin]
    rfl

end Rounding

namespace Number

open Packing

theorem length_bounds {n : ℕ} (hn : 0 < n) : 10 ^ (n.repr.length - 1) ≤ n ∧ n < 10 ^ n.repr.length := by
  have hpos := Nat.length_repr_pos (n := n)
  refine ⟨?_, (Nat.length_repr_le_iff hpos).1 le_rfl⟩
  by_cases h : n.repr.length - 1 = 0
  · rw [h]
    exact hn
  · rw [← not_lt, ← Nat.length_repr_le_iff (Nat.pos_of_ne_zero h)]
    omega

theorem length_le_log2 (n : ℕ) : n.repr.length ≤ n.log2 + 1 := by
  rw [Nat.length_repr_le_iff (Nat.succ_pos _)]
  calc n < 2 ^ (n.log2 + 1) := Nat.lt_log2_self
    _ ≤ 10 ^ (n.log2 + 1) := Nat.pow_le_pow_left (by norm_num) _

-- No decimal that lies in the interval of a number is so far off that its size alone decides.
theorem size_bounds {b : Binary} {c : ℕ} {p : ℤ} (hb : b.IsDouble) (hv : b.Rounds (c * 10 ^ p)) (hc : 0 < c) :
    -400 ≤ p + c.repr.length ∧ p + c.repr.length ≤ 400 := by
  obtain ⟨hmin, hmax⟩ := hv.range hb
  obtain ⟨hlow, hhigh⟩ := length_bounds hc
  have hpos := Nat.length_repr_pos (n := c)
  have hten (e : ℤ) : (0 : ℚ) < 10 ^ e := zpow_pos (by norm_num) e
  have hlow : (10 : ℚ) ^ (p + c.repr.length - 1) ≤ c * 10 ^ p := by
    have hcast : (10 : ℚ) ^ (c.repr.length - 1) ≤ c := by exact_mod_cast hlow
    calc (10 : ℚ) ^ (p + c.repr.length - 1) = 10 ^ (((c.repr.length - 1 : ℕ) : ℤ) + p) := by congr 1; omega
      _ = 10 ^ (c.repr.length - 1) * 10 ^ p := by rw [zpow_add₀ (by norm_num), zpow_natCast]
      _ ≤ c * 10 ^ p := by gcongr
  have hhigh : c * (10 : ℚ) ^ p < 10 ^ (p + c.repr.length) := by
    have hcast : (c : ℚ) < 10 ^ c.repr.length := by exact_mod_cast hhigh
    calc c * (10 : ℚ) ^ p < 10 ^ c.repr.length * 10 ^ p := by gcongr
      _ = 10 ^ (p + c.repr.length) := by rw [add_comm, zpow_add₀ (by norm_num), zpow_natCast]
  have hone : (1 : ℚ) < 10 := by norm_num
  constructor
  · have hlt : (10 : ℚ) ^ (-401 : ℤ) < 10 ^ (p + c.repr.length) := by
      have hpow : (2 : ℚ) ^ 1075 < 10 ^ 401 := by exact_mod_cast (by decide +kernel : 2 ^ 1075 < 10 ^ 401)
      refine lt_trans ?_ (hmin.trans_lt hhigh)
      rw [zpow_neg, zpow_neg]
      exact inv_strictAnti₀ (Binary.two_zpow_pos _) hpow
    have := (zpow_lt_zpow_iff_right₀ hone).1 hlt
    omega
  · have hlt : (10 : ℚ) ^ (p + c.repr.length - 1) < 10 ^ (400 : ℤ) := by
      have hpow : (2 : ℚ) ^ 1024 < 10 ^ 400 := by exact_mod_cast (by decide +kernel : 2 ^ 1024 < 10 ^ 400)
      exact (hlow.trans_lt hmax).trans hpow
    have := (zpow_lt_zpow_iff_right₀ hone).1 hlt
    omega

theorem nearest_eq {b : Binary} {c : ℕ} {p : ℤ} (hb : b.IsDouble) (hv : b.Rounds (c * 10 ^ p)) :
    nearest c p = ofUnpacked (b.unpacked hb) := by
  have hc : 0 < c := by
    have := pos_of_mul_pos_left (hv.pos hb) (zpow_pos (by norm_num) p).le
    exact_mod_cast this
  obtain ⟨hmin, hmax⟩ := size_bounds hb hv hc
  have hlen := length_le_log2 c
  have hsize : p + (toString c).length = p + c.repr.length := rfl
  unfold nearest
  simp only [hsize]
  rw [if_neg hc.ne', if_neg (by omega), if_neg (by omega)]
  exact Rounding.ofScientific_eq hb hv hc (by omega) (by omega)

end Number

namespace Rounding

open Packing

theorem isUnsigned_dite {p : Prop} [Decidable p] {f : p → UnpackedFloat} {g : ¬ p → UnpackedFloat}
    (hf : ∀ h, IsUnsigned (f h)) (hg : ∀ h, IsUnsigned (g h)) : IsUnsigned (dite p f g) := by
  by_cases h : p
  · rw [dif_pos h]
    exact hf h
  · rw [dif_neg h]
    exact hg h

theorem isUnsigned_ite {p : Prop} [Decidable p] {f g : UnpackedFloat} (hf : IsUnsigned f) (hg : IsUnsigned g) :
    IsUnsigned (if p then f else g) :=
  isUnsigned_dite (fun _ => hf) fun _ => hg

theorem isUnsigned_roundWithAccuracy (m : ℕ) (e : ℤ) (accuracy : Accuracy) :
    IsUnsigned (roundWithAccuracy .binary64 .positive m e accuracy) :=
  isUnsigned_dite (fun _ => rfl) fun _ => rfl

theorem isUnsigned_mul {f : UnpackedFloat} (hf : IsUnsigned f) {n : ℕ} (e : ℤ) (hn : 0 < n) :
    IsUnsigned (mul .binary64 f (.finite .positive n e hn)) := by
  match f, hf with
  | .infinity .positive, _ | .zero .positive, _ => rfl
  | .finite .positive m e' hm, _ => exact isUnsigned_roundWithAccuracy _ _ _

theorem isUnsigned_div {f : UnpackedFloat} (hf : IsUnsigned f) {n : ℕ} (e : ℤ) (hn : 0 < n) :
    IsUnsigned (div .binary64 f (.finite .positive n e hn)) := by
  match f, hf with
  | .infinity .positive, _ | .zero .positive, _ => rfl
  | .finite .positive m e' hm, _ => exact isUnsigned_roundWithAccuracy _ _ _

theorem isUnsigned_toFloat (n : UInt64) : IsUnsigned n.toFloat.toModel.unpack := by
  refine (isUnsigned_ofUnpacked (f := UnpackedFloat.ofUInt64 .binary64 n) ?_).1
  unfold UnpackedFloat.ofUInt64 UnpackedFloat.ofNat UnpackedFloat.ofInt UnpackedFloat.normalize
  split
  · rename_i h
    have := compare_lt_iff_lt.1 h
    omega
  · rfl
  · exact isUnsigned_roundWithAccuracy _ _ _

theorem isUnsigned_unpackedScientific (m : ℕ) (e : ℤ) : IsUnsigned (UnpackedFloat.ofScientific .binary64 m e) := by
  unfold UnpackedFloat.ofScientific
  refine isUnsigned_dite (fun _ => rfl) fun _ => isUnsigned_ite rfl (isUnsigned_ite rfl (isUnsigned_ite ?_ ?_))
  · exact isUnsigned_mul (f := .finite .positive _ _ _) rfl _ _
  · exact isUnsigned_div (f := .finite .positive _ _ _) rfl _ _

-- Powers of ten are positive, and so nothing else is multiplied with or divided by.
theorem ofScientific_unsigned (m : ℕ) (negative : Bool) (e : ℕ) :
    ∃ f, IsUnsigned f ∧ Float.ofScientific m negative e = ofUnpacked f := by
  unfold Float.ofScientific
  split
  · obtain ⟨n, f, hn, hexact, -, -⟩ := isExact_powersOfTen ⟨e, by omega⟩
    have hm := isUnsigned_toFloat m.toUInt64
    cases negative with
    | true =>
      refine ⟨_, isUnsigned_div hm f hn, ?_⟩
      rw [← hexact]
      rfl
    | false =>
      refine ⟨_, isUnsigned_mul hm f hn, ?_⟩
      rw [← hexact]
      rfl
  · exact ⟨_, isUnsigned_unpackedScientific _ _, rfl⟩

end Rounding

namespace Number

open Packing

theorem nearest_unsigned (c : ℕ) (p : ℤ) : (nearest c p).isNaN = false ∧ isNegative (nearest c p) = false := by
  have hf : ∃ f, IsUnsigned f ∧ nearest c p = ofUnpacked f := by
    have hzero : (0.0 : Float) = ofUnpacked (.zero .positive) := eq_of_toNat (by decide +kernel)
    have hinf : (1.0 / 0.0 : Float) = ofUnpacked (.infinity .positive) := eq_of_toNat (by decide +kernel)
    unfold nearest
    dsimp only
    split
    · exact ⟨.zero .positive, rfl, hzero⟩
    · split
      · exact ⟨.infinity .positive, rfl, hinf⟩
      · split
        · exact ⟨.zero .positive, rfl, hzero⟩
        · exact Rounding.ofScientific_unsigned _ _ _
  obtain ⟨f, hf, heq⟩ := hf
  rw [heq]
  obtain ⟨hu, hn⟩ := isUnsigned_ofUnpacked hf
  exact ⟨isNaN_of_isUnsigned hu, hn⟩

end Number

end SolidScript
