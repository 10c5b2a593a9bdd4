import SolidScript.Decimal.Layout
import SolidScript.Proofs.Decimal.Rounding

namespace SolidScript

open Float.Model Float.Model.UnpackedFloat

namespace Packing

theorem toNat_packComponents (power : BitVec 11) (field : BitVec 52) :
    (packComponents .binary64 .positive power field).toNat = power.toNat * 2 ^ 52 + field.toNat := by
  unfold packComponents Sign.toBitVec
  rw [BitVec.toNat_append, BitVec.toNat_append, ← Nat.shiftLeft_add_eq_or_of_lt field.isLt, Nat.shiftLeft_eq]
  simp

theorem toNat_unpackMantissa (bits : BitVec 64) :
    (@unpackMantissa .binary64 bits).toNat = bits.toNat % 2 ^ 52 := by
  simp [unpackMantissa]

theorem toNat_unpackExponent (bits : BitVec 64) :
    (@unpackExponent .binary64 bits).toNat = bits.toNat / 2 ^ 52 % 2 ^ 11 := by
  simp [unpackExponent, Nat.shiftRight_eq_div_pow]

theorem ofBitVec_unpackSign {bits : BitVec 64} (h : bits.toNat < 2 ^ 63) :
    Sign.ofBitVec (@unpackSign .binary64 bits) = .positive := by
  have hz : @unpackSign .binary64 bits = 0#1 := by
    apply BitVec.eq_of_toNat_eq
    change (bits.toNat >>> 63) % 2 ^ 1 = 0
    rw [Nat.shiftRight_eq_div_pow]
    omega
  rw [hz]
  rfl

-- Packs a number that is rounded already.
def ofUnpacked (f : UnpackedFloat) : Float := .ofModel (.pack f)

theorem eq_of_toNat {x y : Float} (h : x.toBits.toNat = y.toBits.toNat) : x = y := by
  obtain ⟨⟨bits, hx⟩⟩ := x
  obtain ⟨⟨bits', hy⟩⟩ := y
  obtain rfl : bits = bits' := UInt64.toNat_inj.1 h
  rfl

theorem isNegative_eq_false_iff {x : Float} : Number.isNegative x = false ↔ x.toBits.toNat < 2 ^ 63 := by
  have h : (x.toBits >>> 63 = 1) ↔ x.toBits.toNat / 2 ^ 63 = 1 := by
    rw [← UInt64.toNat_inj, UInt64.toNat_shiftRight]
    simp [Nat.shiftRight_eq_div_pow]
  have hlt := x.toBits.toNat_lt
  rw [Number.isNegative, beq_eq_false_iff_ne, ne_eq, h]
  omega

theorem finite_eq {m m' : ℕ} {e e' : ℤ} {h : 0 < m} {h' : 0 < m'} (hm : m = m') (he : e = e') :
    UnpackedFloat.finite .positive m e h = .finite .positive m' e' h' := by
  subst hm he
  rfl

theorem toNat_ofNat_of_lt {w n : ℕ} (h : n < 2 ^ w) : (BitVec.ofNat w n).toNat = n := by
  rw [BitVec.toNat_ofNat, Nat.mod_eq_of_lt h]

theorem ofNat_eq_iff {w n : ℕ} (h : n < 2 ^ w) {v : BitVec w} : BitVec.ofNat w n = v ↔ n = v.toNat := by
  rw [← BitVec.toNat_inj, toNat_ofNat_of_lt h]

-- The bits of a number without a sign.
theorem unpack_eq {x : Float} {power field : ℕ} (hp : power < 2 ^ 11) (hf : field < 2 ^ 52)
    (h : x.toBits.toNat = power * 2 ^ 52 + field) (hs : x.toBits.toNat < 2 ^ 63) :
    x.toModel.unpack =
      if power = 2047 then if field = 0 then .infinity .positive else .notANumber
      else if power = 0 then if hf : 0 < field then .finite .positive field (-1074) hf else .zero .positive
      else .finite .positive (2 ^ 52 + field) (power - 1075) (by omega) := by
  have hb : x.toModel.toBits.toBitVec.toNat = power * 2 ^ 52 + field := h
  have hm : @unpackMantissa .binary64 x.toModel.toBits.toBitVec = BitVec.ofNat 52 field := by
    apply BitVec.eq_of_toNat_eq
    rw [toNat_unpackMantissa, hb]
    change _ = field % 2 ^ 52
    omega
  have he : @unpackExponent .binary64 x.toModel.toBits.toBitVec = BitVec.ofNat 11 power := by
    apply BitVec.eq_of_toNat_eq
    rw [toNat_unpackExponent, hb]
    change _ = power % 2 ^ 11
    omega
  have hinf : @unpackExponent .binary64 x.toModel.toBits.toBitVec = -1#11 ↔ power = 2047 := by
    rw [he, ofNat_eq_iff hp]
    rfl
  have hzero : @unpackExponent .binary64 x.toModel.toBits.toBitVec = 0#11 ↔ power = 0 := by
    rw [he, ofNat_eq_iff hp]
    rfl
  have hnone : @unpackMantissa .binary64 x.toModel.toBits.toBitVec = 0#52 ↔ field = 0 := by
    rw [hm, ofNat_eq_iff hf]
    rfl
  have hfield : (BitVec.ofNat 52 field).toNat = field := toNat_ofNat_of_lt hf
  have hwhole : (1#1 ++ BitVec.ofNat 52 field).toNat = 2 ^ 52 + field := by
    rw [BitVec.toNat_append, ← Nat.shiftLeft_add_eq_or_of_lt (BitVec.isLt _), hfield, Nat.shiftLeft_eq]
    simp
  have hpower : (BitVec.ofNat 11 power).toNat = power := toNat_ofNat_of_lt hp
  have hsign := @ofBitVec_unpackSign x.toModel.toBits.toBitVec hs
  have hbias : (Format.binary64.exponentBias : ℤ) = 1023 := rfl
  unfold Float.Model.unpack UnpackedFloat.unpack
  dsimp only
  rw [hsign]
  by_cases h2047 : power = 2047
  · rw [if_pos (hinf.2 h2047), if_pos h2047]
    by_cases h0 : field = 0
    · rw [if_pos (hnone.2 h0), if_pos h0]
    · rw [if_neg (mt hnone.1 h0), if_neg h0]
  · rw [if_neg (mt hinf.1 h2047), if_neg h2047]
    by_cases hp0 : power = 0
    · rw [if_pos (hzero.2 hp0), if_pos hp0]
      by_cases h0 : field = 0
      · rw [dif_pos (hnone.2 h0), dif_neg (by omega)]
      · rw [dif_neg (mt hnone.1 h0), dif_pos (by omega)]
        exact finite_eq (by rw [hm, hfield]) (by rw [he, hpower, hp0, hbias]; rfl)
    · rw [if_neg (mt hzero.1 hp0), if_neg hp0]
      exact finite_eq (by rw [hm, hwhole]) (by rw [he, hpower, hbias]; rfl)

-- The infinite and the finite numbers without a sign.
def IsUnsigned : UnpackedFloat → Prop
  | .notANumber => False
  | .infinity sign | .zero sign | .finite sign .. => sign = .positive

theorem toNat_toBits_ofUnpacked (f : UnpackedFloat) :
    (ofUnpacked f).toBits.toNat = (UnpackedFloat.pack .binary64 f).toNat := rfl

theorem toNat_packedInfinity : (packedInfinity .binary64 .positive).toNat = 2047 * 2 ^ 52 := by decide +kernel

theorem toNat_pack_finite {m : ℕ} {e : ℤ} (hm : 0 < m) :
    (UnpackedFloat.pack .binary64 (.finite .positive m e hm)).toNat =
      if 2047 ≤ (e + 1075).toNat then 2047 * 2 ^ 52
      else if m.log2 = 52 then (e + 1075).toNat * 2 ^ 52 + m % 2 ^ 52
      else m % 2 ^ 52 := by
  have hbias : e + Format.binary64.exponentBias + Format.binary64.mantissaBitsWithoutImplicit = e + 1075 := by
    have h : (Format.binary64.exponentBias : ℤ) = 1023 := rfl
    rw [h]
    push_cast
    omega
  have hbits : Format.binary64.mantissaBits = 53 := rfl
  have hpow : 2 ^ Format.binary64.exponentBits = 2048 := rfl
  unfold UnpackedFloat.pack
  simp only [hbias, hbits, hpow, Nat.reduceLeDiff, Nat.reduceEqDiff]
  split
  · exact toNat_packedInfinity
  · split
    · rw [toNat_packComponents]
      simp
      omega
    · rw [toNat_packComponents]
      simp

-- What is packed without a sign has none.
theorem toBits_ofUnpacked {f : UnpackedFloat} (hf : IsUnsigned f) :
    ∃ power field, power < 2 ^ 11 ∧ field < 2 ^ 52 ∧ (power = 2047 → field = 0) ∧
      (ofUnpacked f).toBits.toNat = power * 2 ^ 52 + field := by
  rw [toNat_toBits_ofUnpacked]
  match f, hf with
  | .infinity .positive, _ => exact ⟨2047, 0, by norm_num, by norm_num, fun _ => rfl, toNat_packedInfinity⟩
  | .zero .positive, _ => exact ⟨0, 0, by norm_num, by norm_num, fun _ => rfl, by decide +kernel⟩
  | .finite .positive m e hm, _ =>
    rw [toNat_pack_finite]
    split
    · exact ⟨2047, 0, by norm_num, by norm_num, fun _ => rfl, rfl⟩
    · split
      · exact ⟨(e + 1075).toNat, m % 2 ^ 52, by omega, by omega, by omega, rfl⟩
      · exact ⟨0, m % 2 ^ 52, by omega, by omega, by omega, by omega⟩

theorem isUnsigned_unpack {x : Float} {power field : ℕ} (hp : power < 2 ^ 11) (hf : field < 2 ^ 52)
    (h0 : power = 2047 → field = 0) (h : x.toBits.toNat = power * 2 ^ 52 + field) (hs : x.toBits.toNat < 2 ^ 63) :
    IsUnsigned x.toModel.unpack := by
  rw [unpack_eq hp hf h hs]
  by_cases h2047 : power = 2047
  · rw [if_pos h2047, if_pos (h0 h2047)]
    rfl
  · rw [if_neg h2047]
    by_cases hp0 : power = 0
    · rw [if_pos hp0]
      by_cases hpos : 0 < field
      · rw [dif_pos hpos]
        rfl
      · rw [dif_neg hpos]
        rfl
    · rw [if_neg hp0]
      rfl

theorem isUnsigned_ofUnpacked {f : UnpackedFloat} (hf : IsUnsigned f) :
    IsUnsigned (ofUnpacked f).toModel.unpack ∧ Number.isNegative (ofUnpacked f) = false := by
  obtain ⟨power, field, hp, hfield, h0, h⟩ := toBits_ofUnpacked hf
  have hs : (ofUnpacked f).toBits.toNat < 2 ^ 63 := by omega
  exact ⟨isUnsigned_unpack hp hfield h0 h hs, isNegative_eq_false_iff.2 hs⟩

theorem isNaN_of_isUnsigned {x : Float} (h : IsUnsigned x.toModel.unpack) : x.isNaN = false := by
  show x.toModel.unpack.isNaN = false
  cases hx : x.toModel.unpack <;> rw [hx] at h <;> trivial

end Packing

namespace Binary

open Packing

-- The number that a binary number stands for.
def unpacked (b : Binary) (hb : b.IsDouble) : UnpackedFloat := .finite .positive b.significand b.exponent hb.pos

theorem ofBits_of_power_eq {bits : UInt64} (h : bits.toNat / 2 ^ 52 % 2 ^ 11 = 0) :
    ofBits bits = ⟨bits.toNat % 2 ^ 52, -1074, false⟩ := if_pos h

theorem ofBits_of_power_ne {bits : UInt64} (h : bits.toNat / 2 ^ 52 % 2 ^ 11 ≠ 0) :
    ofBits bits = ⟨2 ^ 52 + bits.toNat % 2 ^ 52, (bits.toNat / 2 ^ 52 % 2 ^ 11 : ℕ) - 1075,
      bits.toNat % 2 ^ 52 == 0 && bits.toNat / 2 ^ 52 % 2 ^ 11 != 1⟩ := if_neg h

theorem isDouble_ofBits {bits : UInt64} (hp : bits.toNat / 2 ^ 52 % 2 ^ 11 ≠ 2047) (h : (ofBits bits).significand ≠ 0) :
    (ofBits bits).IsDouble := by
  by_cases h0 : bits.toNat / 2 ^ 52 % 2 ^ 11 = 0
  · rw [ofBits_of_power_eq h0] at h ⊢
    exact ⟨Nat.pos_of_ne_zero h, by dsimp only; omega, le_refl _, by norm_num, .inr rfl, by simp⟩
  · rw [ofBits_of_power_ne h0]
    refine ⟨by dsimp only; omega, by dsimp only; omega, by dsimp only; omega, by dsimp only; omega,
      .inl (by dsimp only; omega), ?_⟩
    simp only [Bool.and_eq_true, beq_iff_eq, bne_iff_ne]
    omega

theorem log2_eq_iff {b : Binary} (hb : b.IsDouble) : b.significand.log2 = 52 ↔ 2 ^ 52 ≤ b.significand := by
  rw [← Nat.le_log2 hb.pos.ne']
  have := (Nat.log2_lt hb.pos.ne').2 hb.lt
  omega

theorem toNat_unpacked {b : Binary} (hb : b.IsDouble) :
    (ofUnpacked (b.unpacked hb)).toBits.toNat =
      if 2 ^ 52 ≤ b.significand then (b.exponent + 1075).toNat * 2 ^ 52 + (b.significand - 2 ^ 52)
      else b.significand := by
  have hlt := hb.lt
  have hmax := hb.max
  rw [toNat_toBits_ofUnpacked, unpacked, toNat_pack_finite, if_neg (by omega)]
  simp only [log2_eq_iff hb]
  split <;> omega

theorem unpack_unpacked {b : Binary} (hb : b.IsDouble) :
    (ofUnpacked (b.unpacked hb)).toModel.unpack = b.unpacked hb := by
  have hlt := hb.lt
  have hpos := hb.pos
  have hmin := hb.min
  have hmax := hb.max
  have hbits := toNat_unpacked hb
  split at hbits
  · rw [unpack_eq (by omega) (by omega) hbits (by omega), if_neg (by omega), if_neg (by omega)]
    exact finite_eq (by omega) (by omega)
  · have he := hb.normal.resolve_left ‹_›
    have hbits : (ofUnpacked (b.unpacked hb)).toBits.toNat = 0 * 2 ^ 52 + b.significand := by omega
    rw [unpack_eq (by omega) (by omega) hbits (by omega), if_neg (by omega), if_pos rfl, dif_pos hpos]
    exact finite_eq rfl he.symm

theorem ofUnpacked_ofBits {x : Float} (hs : x.toBits.toNat < 2 ^ 63) (hb : (ofBits x.toBits).IsDouble) :
    ofUnpacked ((ofBits x.toBits).unpacked hb) = x := by
  apply eq_of_toNat
  rw [toNat_unpacked]
  by_cases h0 : x.toBits.toNat / 2 ^ 52 % 2 ^ 11 = 0
  · rw [ofBits_of_power_eq h0, if_neg (by dsimp only; omega)]
    dsimp only
    omega
  · rw [ofBits_of_power_ne h0, if_pos (by dsimp only; omega)]
    dsimp only
    omega

end Binary

namespace Number

open Packing

-- A number without a sign that is neither infinite nor not-a-number.
structure IsPlain (x : Float) : Prop where
  isNaN : x.isNaN = false
  isInf : x.isInf = false
  isNegative : isNegative x = false

theorem IsPlain.isDouble {x : Float} (hx : IsPlain x) (h : (Binary.ofBits x.toBits).significand ≠ 0) :
    (Binary.ofBits x.toBits).IsDouble := by
  refine Binary.isDouble_ofBits (fun hp => ?_) h
  have hs := isNegative_eq_false_iff.1 hx.isNegative
  have hbits : x.toBits.toNat = 2047 * 2 ^ 52 + x.toBits.toNat % 2 ^ 52 := by omega
  have hu := unpack_eq (by omega) (by omega) hbits hs
  rw [if_pos rfl] at hu
  have hn : x.toModel.unpack.isNaN = false := hx.isNaN
  have hi : x.toModel.unpack.isInf = false := hx.isInf
  rw [hu] at hn hi
  split at hn
  · rw [if_pos ‹_›] at hi
    cases hi
  · cases hn

theorem IsPlain.eq_zero {x : Float} (hx : IsPlain x) (h : (Binary.ofBits x.toBits).significand = 0) : x = 0.0 := by
  have hs := isNegative_eq_false_iff.1 hx.isNegative
  apply eq_of_toNat
  have hz : (0.0 : Float).toBits.toNat = 0 := by decide +kernel
  rw [hz]
  by_cases h0 : x.toBits.toNat / 2 ^ 52 % 2 ^ 11 = 0
  · rw [Binary.ofBits_of_power_eq h0] at h
    dsimp only at h
    omega
  · rw [Binary.ofBits_of_power_ne h0] at h
    dsimp only at h
    omega

-- There is one infinite number without a sign.
theorem eq_infinity {x : Float} (hi : x.isInf = true) (hn : isNegative x = false) : x = 1.0 / 0.0 := by
  have hs := isNegative_eq_false_iff.1 hn
  have hbits : x.toBits.toNat = x.toBits.toNat / 2 ^ 52 * 2 ^ 52 + x.toBits.toNat % 2 ^ 52 := by omega
  have hu := unpack_eq (by omega) (by omega) hbits hs
  have hinf : x.toModel.unpack.isInf = true := hi
  have hone : (1.0 / 0.0 : Float).toBits.toNat = 2047 * 2 ^ 52 := by decide +kernel
  apply eq_of_toNat
  rw [hone]
  rw [hu] at hinf
  by_cases hp : x.toBits.toNat / 2 ^ 52 = 2047
  · rw [if_pos hp] at hinf
    by_cases hf : x.toBits.toNat % 2 ^ 52 = 0
    · omega
    · rw [if_neg hf] at hinf
      cases hinf
  · rw [if_neg hp] at hinf
    by_cases h0 : x.toBits.toNat / 2 ^ 52 = 0
    · rw [if_pos h0] at hinf
      by_cases hf : 0 < x.toBits.toNat % 2 ^ 52
      · rw [dif_pos hf] at hinf
        cases hinf
      · rw [dif_neg hf] at hinf
        cases hinf
    · rw [if_neg h0] at hinf
      cases hinf

end Number

end SolidScript
