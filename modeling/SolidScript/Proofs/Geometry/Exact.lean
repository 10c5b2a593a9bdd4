import Mathlib.Algebra.Order.Field.Power
import Mathlib.Algebra.Order.Field.Rat
import Mathlib.Order.WithBot
import Mathlib.Tactic.Linarith
import Mathlib.Tactic.NormNum
import Mathlib.Tactic.Positivity
import Mathlib.Tactic.Ring
import SolidScript.Proofs.Geometry.Level

namespace SolidScript

open Float.Model Float.Model.UnpackedFloat

namespace Scalar

-- The exact number of a finite float, and zero for any other.
def unpackedRational : UnpackedFloat → ℚ
  | .finite .positive mantissa exponent _ => mantissa * 2 ^ exponent
  | .finite .negative mantissa exponent _ => -(mantissa * 2 ^ exponent)
  | _ => 0

def rational (x : Float) : ℚ := unpackedRational x.toModel.unpack

-- The rational numbers with both infinite ones.
abbrev Place := WithBot (WithTop ℚ)

def unpackedPlace : UnpackedFloat → Place
  | .infinity .negative => ⊥
  | .infinity .positive => ⊤
  | f => ((unpackedRational f : WithTop ℚ) : Place)

def place (x : Float) : Place := unpackedPlace x.toModel.unpack

-- A mantissa has 53 bits and begins with a one, unless the exponent is the least one.
def IsCanonical : UnpackedFloat → Prop
  | .finite _ mantissa exponent _ => mantissa < 2 ^ 53 ∧ -1074 ≤ exponent ∧ (2 ^ 52 ≤ mantissa ∨ exponent = -1074)
  | _ => True

theorem isCanonical_unpack (x : Float) : IsCanonical x.toModel.unpack := by
  let b := x.toModel.toBits.toBitVec
  have hbias : (Format.binary64.exponentBias : ℤ) + (Format.binary64.mantissaBitsWithoutImplicit : ℕ) = 1075 := rfl
  have hm : (@unpackMantissa .binary64 b).toNat < 2 ^ 52 := BitVec.isLt _
  change IsCanonical (UnpackedFloat.unpack .binary64 b)
  unfold UnpackedFloat.unpack
  dsimp only
  rw [hbias]
  by_cases hlast : @unpackExponent .binary64 b = -1#_
  · rw [if_pos hlast]
    by_cases hfield : @unpackMantissa .binary64 b = 0#_
    · rw [if_pos hfield]
      trivial
    · rw [if_neg hfield]
      trivial
  · rw [if_neg hlast]
    by_cases hexponent : @unpackExponent .binary64 b = 0#_
    · rw [if_pos hexponent]
      by_cases hfield : @unpackMantissa .binary64 b = 0#_
      · rw [dif_pos hfield]
        trivial
      · rw [dif_neg hfield, hexponent]
        exact ⟨hm.trans (by norm_num), le_refl _, .inr rfl⟩
    · rw [if_neg hexponent]
      have hpower : (@unpackExponent .binary64 b).toNat ≠ 0 := fun h => hexponent (BitVec.eq_of_toNat_eq h)
      have hwhole : (1#1 ++ @unpackMantissa .binary64 b).toNat = 2 ^ 52 + (@unpackMantissa .binary64 b).toNat := by
        rw [BitVec.toNat_append, ← Nat.shiftLeft_add_eq_or_of_lt (BitVec.isLt _), Nat.shiftLeft_eq]
        simp
      refine ⟨?_, ?_, .inl ?_⟩ <;> omega

theorem make_lt_iff {side side' exponent exponent' mantissa mantissa' : ℤ} :
    Level.make side exponent mantissa < .make side' exponent' mantissa' ↔
      side < side' ∨ side = side' ∧ (exponent < exponent' ∨ exponent = exponent' ∧ mantissa < mantissa') := by
  simp [Level.make, Prod.Lex.toLex_lt_toLex]

-- One more in the exponent outweighs all mantissas.
theorem size_lt {m m' : ℕ} {e e' : ℤ} (hm : m < 2 ^ 53) (he : -1074 ≤ e) (hm' : 2 ^ 52 ≤ m' ∨ e' = -1074)
    (h : e < e' ∨ e = e' ∧ m < m') : (m : ℚ) * 2 ^ e < m' * 2 ^ e' := by
  rcases h with hlt | ⟨rfl, hlt⟩
  · have hlow : (m : ℚ) < 2 ^ 53 := by exact_mod_cast hm
    have hhigh : (2 ^ 52 : ℚ) ≤ m' := by exact_mod_cast hm'.resolve_right (by omega)
    calc (m : ℚ) * 2 ^ e
      _ < 2 ^ 53 * 2 ^ e := by gcongr
      _ = 2 ^ 52 * 2 ^ (e + 1) := by rw [zpow_add₀ two_ne_zero]; ring
      _ ≤ m' * 2 ^ e' := by
        gcongr
        · norm_num
        · omega
  · gcongr

theorem size_pos {m : ℕ} (hm : 0 < m) (e : ℤ) : (0 : ℚ) < m * 2 ^ e := by positivity

theorem unpackedRational_lt {f g : UnpackedFloat} {k l : Level} (hf : IsCanonical f) (hg : IsCanonical g)
    (hff : f.isFinite) (hgf : g.isFinite) (hk : unpackedLevel? f = some k) (hl : unpackedLevel? g = some l)
    (h : k < l) : unpackedRational f < unpackedRational g := by
  cases f with
  | notANumber | infinity s => cases hff
  | zero s =>
    cases hk
    cases g with
    | notANumber | infinity t => cases hgf
    | zero t =>
      cases hl
      exact absurd h (lt_irrefl _)
    | finite t m e hm =>
      cases t <;> cases hl
      · simp [make_lt_iff] at h
      · exact size_pos hm e
  | finite s m e hm =>
    cases g with
    | notANumber | infinity t => cases hgf
    | zero t =>
      cases hl
      cases s <;> cases hk
      · exact neg_neg_of_pos (size_pos hm e)
      · simp [make_lt_iff] at h
    | finite t m' e' hm' =>
      cases s <;> cases t <;> cases hk <;> cases hl <;> simp only [make_lt_iff] at h
      · exact neg_lt_neg (size_lt hg.1 hg.2.1 hf.2.2 (by omega))
      · exact (neg_neg_of_pos (size_pos hm e)).trans (size_pos hm' e')
      · omega
      · exact size_lt hf.1 hf.2.1 hg.2.2 (by omega)

theorem unpackedPlace_of_isFinite {f : UnpackedFloat} (h : f.isFinite) :
    unpackedPlace f = ((unpackedRational f : WithTop ℚ) : Place) := by
  cases f with
  | notANumber | infinity s => cases h
  | zero s | finite s m e hm => rfl

theorem unpackedPlace_lt {f g : UnpackedFloat} {k l : Level} (hf : IsCanonical f) (hg : IsCanonical g)
    (hk : unpackedLevel? f = some k) (hl : unpackedLevel? g = some l) (h : k < l) :
    unpackedPlace f < unpackedPlace g := by
  have hfinite (hff : f.isFinite) (hgf : g.isFinite) : unpackedPlace f < unpackedPlace g := by
    rw [unpackedPlace_of_isFinite hff, unpackedPlace_of_isFinite hgf]
    exact WithBot.coe_lt_coe.2 (WithTop.coe_lt_coe.2 (unpackedRational_lt hf hg hff hgf hk hl h))
  cases f with
  | notANumber => cases hk
  | infinity s =>
    cases g with
    | notANumber => cases hl
    | zero t =>
      cases s <;> cases hk <;> cases hl
      · exact WithBot.bot_lt_coe _
      · simp [make_lt_iff] at h
    | infinity t | finite t m e hm =>
      cases s <;> cases t <;> cases hk <;> cases hl <;> simp [make_lt_iff] at h <;> exact WithBot.bot_lt_coe _
  | zero s =>
    cases g with
    | notANumber => cases hl
    | zero t | finite t m e hm => exact hfinite rfl rfl
    | infinity t =>
      cases t <;> cases hk <;> cases hl
      · simp [make_lt_iff] at h
      · exact WithBot.coe_lt_coe.2 (WithTop.coe_lt_top _)
  | finite s m e hm =>
    cases g with
    | notANumber => cases hl
    | zero t | finite t m e hm => exact hfinite rfl rfl
    | infinity t =>
      cases s <;> cases t <;> cases hk <;> cases hl <;> simp [make_lt_iff] at h <;>
        exact WithBot.coe_lt_coe.2 (WithTop.coe_lt_top _)

theorem exists_level {x : Float} (h : ¬ x.isNaN) : ∃ k, level? x = some k :=
  Option.ne_none_iff_exists'.1 (mt isNaN_iff.2 h)

theorem place_lt_iff {x y : Float} (hx : ¬ x.isNaN) (hy : ¬ y.isNaN) : x < y ↔ place x < place y := by
  obtain ⟨k, hk⟩ := exists_level hx
  obtain ⟨l, hl⟩ := exists_level hy
  rw [lt_iff hk hl]
  constructor
  · exact unpackedPlace_lt (isCanonical_unpack x) (isCanonical_unpack y) hk hl
  · intro h
    by_contra hnot
    rcases (not_lt.1 hnot).lt_or_eq with hlt | heq
    · exact lt_asymm h (unpackedPlace_lt (isCanonical_unpack y) (isCanonical_unpack x) hl hk hlt)
    · have hsame : place y = place x :=
        congr_level unpackedPlace (fun _ _ => rfl) ((hl.trans (congrArg some heq)).trans hk.symm)
      exact absurd h (by rw [hsame]; exact lt_irrefl _)

theorem place_of_isFinite {x : Float} (h : x.isFinite) : place x = ((rational x : WithTop ℚ) : Place) :=
  unpackedPlace_of_isFinite h

theorem not_isNaN_of_isFinite {x : Float} (h : x.isFinite) : ¬ x.isNaN := by
  intro hn
  have hf : x.toModel.unpack.isFinite = true := h
  have hm : x.toModel.unpack.isNaN = true := hn
  cases hx : x.toModel.unpack <;> rw [hx] at hf hm <;> contradiction

theorem rational_lt_iff {x y : Float} (hx : x.isFinite) (hy : y.isFinite) : x < y ↔ rational x < rational y := by
  rw [place_lt_iff (not_isNaN_of_isFinite hx) (not_isNaN_of_isFinite hy), place_of_isFinite hx, place_of_isFinite hy,
    WithBot.coe_lt_coe, WithTop.coe_lt_coe]

-- Numbers that are compared by their places in a linear order.
structure Ranking [Scalar α] [LinearOrder β] (ordinary : α → Prop) (place : α → β) : Prop where
  less : ∀ {a b}, ordinary a → ordinary b → (less a b ↔ place a < place b)
  lessEq : ∀ {a b}, ordinary a → ordinary b → (lessEq a b ↔ place a ≤ place b)
  equal : ∀ {a b}, ordinary a → ordinary b → (equal a b ↔ place a = place b)
  precedes : ∀ {a b}, ordinary a → ordinary b → (precedes a b ↔ place a ≤ place b)
  least : ∀ {a b}, ordinary a → ordinary b → ordinary (least a b) ∧ place (least a b) = min (place a) (place b)
  greatest : ∀ {a b}, ordinary a → ordinary b → ordinary (greatest a b) ∧ place (greatest a b) = max (place a) (place b)

theorem le_iff {x y : Float} (hx : ¬ x.isNaN) (hy : ¬ y.isNaN) : x ≤ y ↔ ¬ y < x := by
  obtain ⟨k, hk⟩ := exists_level hx
  obtain ⟨l, hl⟩ := exists_level hy
  rw [lt_iff hl hk, not_lt]
  change decide (x.toModel.unpack.le y.toModel.unpack) ↔ k ≤ l
  unfold level? at hk hl
  simp [UnpackedFloat.le, compare_eq, hk, hl, Ordering.isLE_iff_ne_gt, compare_le_iff_le]

theorem beq_iff_le {x y : Float} (hx : ¬ x.isNaN) (hy : ¬ y.isNaN) : x == y ↔ x ≤ y ∧ y ≤ x := by
  obtain ⟨k, hk⟩ := exists_level hx
  obtain ⟨l, hl⟩ := exists_level hy
  rw [beq_iff, le_iff hx hy, le_iff hy hx, lt_iff hk hl, lt_iff hl hk, hk, hl, not_lt, not_lt, ← le_antisymm_iff]
  simp

theorem ranking_of_lt [LinearOrder β] {ordinary : Float → Prop} {place : Float → β}
    (hnan : ∀ {x}, ordinary x → ¬ x.isNaN)
    (hlt : ∀ {x y}, ordinary x → ordinary y → (x < y ↔ place x < place y)) : Ranking ordinary place where
  less hx hy := by
    change decide (_ < _) = true ↔ _
    rw [decide_eq_true_iff, hlt hx hy]
  lessEq hx hy := by
    change decide (_ ≤ _) = true ↔ _
    rw [decide_eq_true_iff, le_iff (hnan hx) (hnan hy), hlt hy hx, not_lt]
  equal {x y} hx hy := by
    change (x == y) = true ↔ _
    rw [beq_iff_le (hnan hx) (hnan hy), le_iff (hnan hx) (hnan hy), le_iff (hnan hy) (hnan hx), hlt hx hy, hlt hy hx,
      not_lt, not_lt, ← le_antisymm_iff]
  precedes {x y} hx hy := by
    change (x.isNaN || decide (x ≤ y)) = true ↔ _
    rw [Bool.or_eq_true, decide_eq_true_iff, or_iff_right (hnan hx), le_iff (hnan hx) (hnan hy), hlt hy hx, not_lt]
  least {x y} hx hy := by
    change ordinary (leastFloat x y) ∧ place (leastFloat x y) = _
    unfold leastFloat
    rw [if_neg (hnan hx), if_neg (hnan hy)]
    by_cases h : y < x
    · rw [if_pos h]
      exact ⟨hy, (min_eq_right ((hlt hy hx).1 h).le).symm⟩
    · rw [if_neg h]
      exact ⟨hx, (min_eq_left (not_lt.1 (mt (hlt hy hx).2 h))).symm⟩
  greatest {x y} hx hy := by
    change ordinary (greatestFloat x y) ∧ place (greatestFloat x y) = _
    unfold greatestFloat
    rw [if_neg (hnan hx), if_neg (hnan hy)]
    by_cases h : x < y
    · rw [if_pos h]
      exact ⟨hy, (max_eq_right ((hlt hx hy).1 h).le).symm⟩
    · rw [if_neg h]
      exact ⟨hx, (max_eq_left (not_lt.1 (mt (hlt hx hy).2 h))).symm⟩

theorem ranking_place : Ranking (fun x : Float => ¬ x.isNaN) place := ranking_of_lt id place_lt_iff

theorem ranking_rational : Ranking (fun x : Float => x.isFinite) rational :=
  ranking_of_lt not_isNaN_of_isFinite rational_lt_iff

end Scalar

end SolidScript
