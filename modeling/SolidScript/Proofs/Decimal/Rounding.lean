import Mathlib.Algebra.Order.Field.Basic
import Mathlib.Algebra.Order.Field.Rat
import Mathlib.Algebra.Order.Field.Power
import Mathlib.Tactic.Linarith
import Mathlib.Tactic.Ring
import Mathlib.Tactic.FieldSimp
import Mathlib.Tactic.NormNum
import SolidScript.Decimal.Shortest

namespace SolidScript

open Float.Model Float.Model.UnpackedFloat

namespace Rounding

-- The number of halves that the mantissa and the bit behind it stand for, in units of the mantissa.
def base (em : ExtendedMantissa) : ℚ := em.mantissa + if em.roundBit then 1 / 2 else 0

-- Where `t` lies between the halves.
def Locates (em : ExtendedMantissa) (t : ℚ) : Prop :=
  if em.stickyBit then base em < t ∧ t < base em + 1 / 2 else t = base em

theorem locates_shiftRightOne {em : ExtendedMantissa} {t : ℚ} (h : Locates em t) :
    Locates em.shiftRightOne (t / 2) := by
  obtain ⟨m, r, s⟩ := em
  have hm : (m : ℚ) = 2 * (m / 2 : ℕ) + (m % 2 : ℕ) := by exact_mod_cast (Nat.div_add_mod m 2).symm
  rcases Nat.mod_two_eq_zero_or_one m with h2 | h2 <;> rw [h2] at hm <;> cases r <;> cases s <;>
    simp [Locates, base, ExtendedMantissa.shiftRightOne, h2] at h ⊢ <;> first | linarith | (constructor <;> linarith)

theorem locates_shift {em : ExtendedMantissa} {t : ℚ} (h : Locates em t) (k : ℕ) : Locates (em >>> k) (t / 2 ^ k) := by
  induction k with
  | zero =>
    rw [pow_zero, div_one]
    exact h
  | succ k ih =>
    have := locates_shiftRightOne ih
    rw [div_div, ← pow_succ] at this
    exact this

theorem locates_exact (m : ℕ) : Locates (.ofMantissaAndAccuracy m .exact) m := by
  simp [Locates, base, ExtendedMantissa.ofMantissaAndAccuracy]

theorem locates_fraction (m : ℕ) {d : ℕ} (hd : 0 < d) :
    Locates (.ofMantissaAndAccuracy (m / d) (accuracyOfFraction (m % d) d)) (m / d) := by
  have hq : (m : ℚ) = d * (m / d : ℕ) + (m % d : ℕ) := by exact_mod_cast (Nat.div_add_mod m d).symm
  have hr : ((m % d : ℕ) : ℚ) < d := by exact_mod_cast Nat.mod_lt m hd
  have hd' : (0 : ℚ) < d := by exact_mod_cast hd
  have ht : (m : ℚ) / d = (m / d : ℕ) + ((m % d : ℕ) : ℚ) / d := by
    rw [hq]
    field_simp
  rw [ht]
  unfold accuracyOfFraction
  split
  · rename_i h0
    simp [h0, Locates, base, ExtendedMantissa.ofMantissaAndAccuracy]
  · rename_i h0
    have hpos : (0 : ℚ) < (m % d : ℕ) / d := div_pos (by exact_mod_cast Nat.pos_of_ne_zero h0) hd'
    have hlt : ((m % d : ℕ) : ℚ) / d < 1 := (div_lt_one hd').2 hr
    cases hc : compare (2 * (m % d)) d with
    | lt =>
      have h2 : ((m % d : ℕ) : ℚ) / d < 1 / 2 := by
        rw [div_lt_div_iff₀ hd' two_pos]
        exact_mod_cast (by have := Nat.compare_eq_lt.1 hc; omega : (m % d) * 2 < 1 * d)
      simp only [Locates, base, ExtendedMantissa.ofMantissaAndAccuracy, if_true, Bool.false_eq_true, if_false]
      constructor <;> linarith
    | eq =>
      have h2 : ((m % d : ℕ) : ℚ) / d = 1 / 2 := by
        rw [div_eq_div_iff hd'.ne' two_ne_zero]
        exact_mod_cast (by have := Nat.compare_eq_eq.1 hc; omega : (m % d) * 2 = 1 * d)
      simp only [Locates, base, ExtendedMantissa.ofMantissaAndAccuracy, if_true, Bool.false_eq_true, if_false]
      linarith
    | gt =>
      have h2 : 1 / 2 < ((m % d : ℕ) : ℚ) / d := by
        rw [div_lt_div_iff₀ two_pos hd']
        exact_mod_cast (by have := Nat.compare_eq_gt.1 hc; omega : 1 * d < (m % d) * 2)
      simp only [Locates, base, ExtendedMantissa.ofMantissaAndAccuracy, if_true]
      constructor <;> linarith

theorem locates_bounds {em : ExtendedMantissa} {t : ℚ} (h : Locates em t) : em.mantissa ≤ t ∧ t < em.mantissa + 1 := by
  obtain ⟨m, r, s⟩ := em
  cases r <;> cases s <;> simp [Locates, base] at h ⊢ <;> constructor <;> linarith

-- The multiple of a unit that `t` units are rounded to. A tie goes to the even one.
def RoundsTo (t : ℚ) (n : ℕ) : Prop :=
  if n % 2 = 0 then n - 1 / 2 ≤ t ∧ t ≤ n + 1 / 2 else n - 1 / 2 < t ∧ t < n + 1 / 2

theorem eq_of_cast_lt {m n : ℕ} (h : (m : ℚ) < n + 1) (h' : (n : ℚ) < m + 1) : m = n := by
  have hm : m < n + 1 := by exact_mod_cast h
  have hn : n < m + 1 := by exact_mod_cast h'
  omega

theorem roundedMantissa_eq {em : ExtendedMantissa} {t : ℚ} {n : ℕ} (h : Locates em t) (hn : RoundsTo t n) :
    em.roundedMantissa = n := by
  have hle : n - 1 / 2 ≤ t ∧ t ≤ n + 1 / 2 := by
    unfold RoundsTo at hn
    split at hn
    · exact hn
    · exact ⟨hn.1.le, hn.2.le⟩
  obtain ⟨m, r, s⟩ := em
  cases r <;> cases s
  · have ht : t = m := by simpa [Locates, base] using h
    show m = n
    exact eq_of_cast_lt (by linarith) (by linarith)
  · have ht : (m : ℚ) < t ∧ t < m + 1 / 2 := by simpa [Locates, base] using h
    show m = n
    exact eq_of_cast_lt (by linarith) (by linarith)
  · have ht : t = m + 1 / 2 := by simpa [Locates, base] using h
    -- halfway between two multiples, of which only one is even
    have h1 : (m : ℚ) ≤ n := by linarith
    have h2 : (n : ℚ) ≤ m + 1 := by linarith
    have h1 : m ≤ n := by exact_mod_cast h1
    have h2 : n ≤ m + 1 := by exact_mod_cast h2
    have he : n % 2 = 0 := by
      by_contra ho
      rw [RoundsTo, if_neg ho] at hn
      rcases (by omega : n = m ∨ n = m + 1) with rfl | rfl
      · linarith
      · push_cast at hn
        linarith
    show m + m % 2 = n
    omega
  · have ht : (m : ℚ) + 1 / 2 < t ∧ t < m + 1 / 2 + 1 / 2 := by simpa [Locates, base] using h
    show m + 1 = n
    exact eq_of_cast_lt (by push_cast; linarith) (by push_cast; linarith)

end Rounding

namespace Binary

-- The numbers of double precision: 53 bits, fewer only with the least exponent.
structure IsDouble (b : Binary) : Prop where
  pos : 0 < b.significand
  lt : b.significand < 2 ^ 53
  min : -1074 ≤ b.exponent
  max : b.exponent ≤ 971
  normal : 2 ^ 52 ≤ b.significand ∨ b.exponent = -1074
  closeBelow : b.closeBelow = true ↔ b.significand = 2 ^ 52 ∧ -1074 < b.exponent

-- The numbers that are rounded to `b`. The ends of the interval go to an even significand.
def Rounds (b : Binary) (v : ℚ) : Prop :=
  if b.significand % 2 = 0 then b.low * 2 ^ (b.exponent - 2) ≤ v ∧ v ≤ b.high * 2 ^ (b.exponent - 2)
  else b.low * 2 ^ (b.exponent - 2) < v ∧ v < b.high * 2 ^ (b.exponent - 2)

variable {b : Binary} {v : ℚ}

theorem two_zpow_pos (e : ℤ) : (0 : ℚ) < 2 ^ e := zpow_pos two_pos e

theorem two_zpow_sub_two (e : ℤ) : (2 : ℚ) ^ (e - 2) = 2 ^ e / 4 := by
  rw [zpow_sub₀ two_ne_zero]
  norm_num

theorem cast_low (hb : b.IsDouble) :
    (b.low : ℚ) = 4 * b.significand - if b.closeBelow then 1 else 2 := by
  have hpos := hb.pos
  unfold low
  split
  · rw [Nat.cast_sub (by omega)]
    push_cast
    rfl
  · rw [Nat.cast_sub (by omega)]
    push_cast
    rfl

theorem cast_high : (b.high : ℚ) = 4 * b.significand + 2 := by
  unfold high
  push_cast
  rfl

theorem rounds_self (hb : b.IsDouble) : b.Rounds (b.significand * 2 ^ b.exponent) := by
  have hu := two_zpow_pos b.exponent
  have hlt : (b.low : ℚ) * 2 ^ (b.exponent - 2) < b.significand * 2 ^ b.exponent := by
    rw [two_zpow_sub_two, cast_low hb]
    split <;> linarith
  have hlt' : (b.significand : ℚ) * 2 ^ b.exponent < b.high * 2 ^ (b.exponent - 2) := by
    rw [two_zpow_sub_two, cast_high]
    linarith
  unfold Rounds
  split
  · exact ⟨hlt.le, hlt'.le⟩
  · exact ⟨hlt, hlt'⟩

-- The interval in units in the last place.
theorem Rounds.units (hv : b.Rounds v) :
    if b.significand % 2 = 0 then (b.low : ℚ) / 4 ≤ v / 2 ^ b.exponent ∧ v / 2 ^ b.exponent ≤ b.high / 4
    else (b.low : ℚ) / 4 < v / 2 ^ b.exponent ∧ v / 2 ^ b.exponent < b.high / 4 := by
  have hu := two_zpow_pos b.exponent
  unfold Rounds at hv
  rw [two_zpow_sub_two] at hv
  split at hv
  · rw [if_pos ‹_›, le_div_iff₀ hu, div_le_iff₀ hu]
    constructor <;> linarith
  · rw [if_neg ‹_›, lt_div_iff₀ hu, div_lt_iff₀ hu]
    constructor <;> linarith

theorem Rounds.le (hv : b.Rounds v) :
    (b.low : ℚ) / 4 ≤ v / 2 ^ b.exponent ∧ v / 2 ^ b.exponent ≤ b.high / 4 := by
  have := hv.units
  split at this
  · exact this
  · exact ⟨this.1.le, this.2.le⟩

theorem Rounds.roundsTo (hv : b.Rounds v) (hb : b.IsDouble) :
    Rounding.RoundsTo (v / 2 ^ b.exponent) b.significand := by
  have hu := hv.units
  have hl : (b.significand : ℚ) - 1 / 2 ≤ b.low / 4 := by
    rw [cast_low hb]
    split <;> linarith
  have hh : (b.high : ℚ) / 4 = b.significand + 1 / 2 := by
    rw [cast_high]
    ring
  rw [hh] at hu
  unfold Rounding.RoundsTo
  split
  · rw [if_pos ‹_›] at hu
    exact ⟨hl.trans hu.1, hu.2⟩
  · rw [if_neg ‹_›] at hu
    exact ⟨hl.trans_lt hu.1, hu.2⟩

-- Only just below a power of two can a number with fewer bits be rounded up to it.
theorem Rounds.size (hv : b.Rounds v) (hb : b.IsDouble) (h : ¬ (b.closeBelow = true ∧ v / 2 ^ b.exponent < 2 ^ 52)) :
    (2 ^ 52 ≤ v / 2 ^ b.exponent ∨ b.exponent = -1074) ∧ v / 2 ^ b.exponent < 2 ^ 53 := by
  obtain ⟨hl, hh⟩ := hv.le
  rw [cast_high] at hh
  have hlt : (b.significand : ℚ) + 1 ≤ 2 ^ 53 := by exact_mod_cast hb.lt
  refine ⟨?_, by linarith⟩
  by_cases he : b.exponent = -1074
  · exact .inr he
  · left
    by_cases hc : b.closeBelow = true
    · exact not_lt.1 fun hlt => h ⟨hc, hlt⟩
    · have hn := hb.normal.resolve_right he
      have hne : b.significand ≠ 2 ^ 52 := fun hm => hc (hb.closeBelow.2 ⟨hm, by have := hb.min; omega⟩)
      have hge : (2 : ℚ) ^ 52 + 1 ≤ b.significand := by exact_mod_cast (by omega : 2 ^ 52 + 1 ≤ b.significand)
      rw [cast_low hb, if_neg hc] at hl
      linarith

end Binary

namespace Rounding

variable {b : Binary} {v : ℚ} {m : ℕ} {e : ℤ} {accuracy : Accuracy}

theorem targetExponent_eq (t : ℤ) : Format.targetExponent .binary64 t = max (t - 53) (-1074) := rfl

-- Shifting to an exponent that is not smaller.
theorem locates_shiftToExponent {t : ℤ} (h : Locates (.ofMantissaAndAccuracy m accuracy) (v / 2 ^ e)) (he : e ≤ t) :
    Locates (shiftToExponent m e accuracy t).1 (v / 2 ^ t) ∧ (shiftToExponent m e accuracy t).2 = t := by
  have hk : (((t - e).toNat : ℕ) : ℤ) = t - e := Int.toNat_of_nonneg (by omega)
  refine ⟨?_, by simp only [shiftToExponent]; omega⟩
  have hs := locates_shift h (t - e).toNat
  have hp : v / 2 ^ e / 2 ^ (t - e).toNat = v / 2 ^ t := by
    rw [div_div, ← zpow_natCast, hk, ← zpow_add₀ two_ne_zero]
    congr 2
    omega
  rw [hp] at hs
  exact hs

-- The exponent of the last place, from the size of the number.
theorem targetExponent_of_size {E : ℤ} (h : Locates (.ofMantissaAndAccuracy m accuracy) (v / 2 ^ e))
    (he : e ≤ Format.targetExponent .binary64 (totalExponent m e)) (hE : -1074 ≤ E)
    (hl : 2 ^ 52 ≤ v / 2 ^ E ∨ E = -1074) (hu : v / 2 ^ E < 2 ^ 53) :
    Format.targetExponent .binary64 (totalExponent m e) = E := by
  have hbase : (ExtendedMantissa.ofMantissaAndAccuracy m accuracy).mantissa = m := by
    unfold ExtendedMantissa.ofMantissaAndAccuracy
    split <;> rfl
  obtain ⟨hlow, hhigh⟩ := locates_bounds h
  rw [hbase] at hlow hhigh
  have hpe := Binary.two_zpow_pos e
  have hpE := Binary.two_zpow_pos E
  rw [le_div_iff₀ hpe] at hlow
  rw [div_lt_iff₀ hpe] at hhigh
  rw [div_lt_iff₀ hpE, ← zpow_natCast, ← zpow_add₀ two_ne_zero] at hu
  have hlt : v < 2 ^ (m.log2 + 1 + e) := by
    have hm : (m : ℚ) + 1 ≤ 2 ^ (m.log2 + 1) := by exact_mod_cast Nat.lt_log2_self
    calc v < (m + 1) * 2 ^ e := hhigh
      _ ≤ 2 ^ (m.log2 + 1) * 2 ^ e := by gcongr
      _ = 2 ^ (m.log2 + 1 + e) := by rw [← zpow_natCast, ← zpow_add₀ two_ne_zero]; push_cast; rfl
  have hle (hm : m ≠ 0) : (2 : ℚ) ^ (m.log2 + e) ≤ v := by
    have hm : (2 : ℚ) ^ m.log2 ≤ m := by exact_mod_cast Nat.log2_self_le hm
    calc (2 : ℚ) ^ (m.log2 + e) = 2 ^ m.log2 * 2 ^ e := by rw [zpow_add₀ two_ne_zero, zpow_natCast]
      _ ≤ m * 2 ^ e := by gcongr
      _ ≤ v := hlow
  rw [targetExponent_eq, totalExponent] at he ⊢
  have hmax : (m.log2 : ℤ) + 1 + e - 53 ≤ E := by
    by_cases hm : m = 0
    · simp only [hm, Nat.log2_zero, Nat.cast_zero] at he ⊢
      omega
    · have := (zpow_lt_zpow_iff_right₀ (one_lt_two (α := ℚ))).1 ((hle hm).trans_lt hu)
      push_cast at this
      omega
  rcases hl with hl | rfl
  · rw [le_div_iff₀ hpE, ← zpow_natCast, ← zpow_add₀ two_ne_zero] at hl
    have := (zpow_lt_zpow_iff_right₀ (one_lt_two (α := ℚ))).1 (hl.trans_lt hlt)
    push_cast at this
    omega
  · omega

-- A mantissa of at most 53 bits stays as it is.
theorem shiftToTargetExponent_eq {E : ℤ} (hm : m.log2 ≤ 52) (hE : -1074 ≤ E) (hn : m.log2 = 52 ∨ E = -1074) :
    shiftToTargetExponent .binary64 m E .exact = (.ofMantissaAndAccuracy m .exact, E) := by
  have ht : Format.targetExponent .binary64 (totalExponent m E) = E := by
    rw [targetExponent_eq, totalExponent]
    omega
  rw [shiftToTargetExponent, ht, shiftToExponent]
  simp only [sub_self, Int.toNat_zero]
  simp
  rfl

-- The rounded mantissa may need one bit more than there is room for. It then is a power of two, and is halved.
theorem shiftToTargetExponent_carry {E : ℤ} (hE : -1074 ≤ E) :
    shiftToTargetExponent .binary64 (2 ^ 53) E .exact = (⟨2 ^ 52, false, false⟩, E + 1) := by
  have ht : Format.targetExponent .binary64 (totalExponent (2 ^ 53) E) = E + 1 := by
    rw [targetExponent_eq, totalExponent, Nat.log2_two_pow]
    omega
  have hone : (E + 1 - E).toNat = 1 := by omega
  rw [shiftToTargetExponent, ht, shiftToExponent]
  simp only [hone]
  rfl

theorem roundWithAccuracy_of_shifts {n M : ℕ} {E E' : ℤ} (hM : 0 < M)
    (ht : Format.targetExponent .binary64 (totalExponent m e) = E)
    (hl : Locates (.ofMantissaAndAccuracy m accuracy) (v / 2 ^ e)) (he : e ≤ E) (hn : RoundsTo (v / 2 ^ E) n)
    (hs : shiftToTargetExponent .binary64 n E .exact = (⟨M, false, false⟩, E')) :
    roundWithAccuracy .binary64 .positive m e accuracy = .finite .positive M E' hM := by
  obtain ⟨hloc, hexp⟩ := locates_shiftToExponent hl he
  have hr := roundedMantissa_eq hloc hn
  have hfirst : shiftToTargetExponent .binary64 m e accuracy = shiftToExponent m e accuracy E := by
    rw [shiftToTargetExponent, ht]
  unfold roundWithAccuracy
  rw [hfirst]
  generalize shiftToExponent m e accuracy E = first at hr hexp ⊢
  obtain ⟨em, e'⟩ := first
  simp only at hr hexp
  subst hexp
  dsimp only
  rw [hr, hs]
  exact dif_neg hM.ne'

-- What lies in the interval of a number is rounded to it.
theorem roundWithAccuracy_eq (hb : b.IsDouble) (hv : b.Rounds v)
    (hl : Locates (.ofMantissaAndAccuracy m accuracy) (v / 2 ^ e))
    (he : e ≤ Format.targetExponent .binary64 (totalExponent m e)) :
    roundWithAccuracy .binary64 .positive m e accuracy = .finite .positive b.significand b.exponent hb.pos := by
  by_cases h : b.closeBelow = true ∧ v / 2 ^ b.exponent < 2 ^ 52
  · -- the number has the exponent below that of the power of two that it is rounded to
    obtain ⟨hc, hlt⟩ := h
    obtain ⟨hm, hmin⟩ := hb.closeBelow.1 hc
    have hlow := hv.le.1
    rw [Binary.cast_low hb, if_pos hc, hm] at hlow
    push_cast at hlow
    have hhalf : v / 2 ^ (b.exponent - 1) = 2 * (v / 2 ^ b.exponent) := by
      rw [zpow_sub₀ two_ne_zero, zpow_one]
      field_simp
    have ht := targetExponent_of_size (E := b.exponent - 1) hl he (by omega) (.inl (by rw [hhalf]; linarith))
      (by rw [hhalf]; linarith)
    rw [ht] at he
    have hround : RoundsTo (v / 2 ^ (b.exponent - 1)) (2 ^ 53) := by
      rw [RoundsTo, if_pos (by norm_num), hhalf]
      push_cast
      constructor <;> linarith
    have hcarry := shiftToTargetExponent_carry (E := b.exponent - 1) (by omega)
    rw [sub_add_cancel, ← hm] at hcarry
    exact roundWithAccuracy_of_shifts hb.pos ht hl he hround hcarry
  · obtain ⟨hs, hs'⟩ := hv.size hb h
    have ht := targetExponent_of_size hl he hb.min hs hs'
    rw [ht] at he
    have hlog : b.significand.log2 ≤ 52 := by
      have := (Nat.log2_lt hb.pos.ne').2 hb.lt
      omega
    have hn : b.significand.log2 = 52 ∨ b.exponent = -1074 := by
      refine hb.normal.imp_left fun hn => ?_
      have := (Nat.le_log2 hb.pos.ne').2 hn
      omega
    exact roundWithAccuracy_of_shifts hb.pos ht hl he (hv.roundsTo hb) (shiftToTargetExponent_eq hlog hb.min hn)

end Rounding

end SolidScript
