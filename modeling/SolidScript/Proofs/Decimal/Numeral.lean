import SolidScript.Proofs.Decimal.Nearest
import SolidScript.Proofs.Decimal.Shortest
import SolidScript.Proofs.Token.Words

namespace SolidScript

namespace Number

open Token (IsFraction IsExponent)

theorem digitsValue_eq (digits : List Char) : digitsValue digits = Nat.ofDigitChars 10 digits 0 := by
  unfold digitsValue Nat.ofDigitChars
  congr 1
  funext value c
  rw [Nat.mul_comm]

theorem digitsValue_append (digits more : List Char) :
    digitsValue (digits ++ more) = digitsValue digits * 10 ^ more.length + digitsValue more := by
  rw [digitsValue_eq, digitsValue_eq, digitsValue_eq, Nat.ofDigitChars_append, Nat.ofDigitChars_eq_ofDigitChars_zero,
    Nat.mul_comm]

theorem digitsValue_zeros (count : Nat) : digitsValue (List.replicate count '0') = 0 := by
  rw [digitsValue_eq, Nat.ofDigitChars_replicate_zero, Nat.mul_zero]

theorem digitsValue_toDigits (n : Nat) : digitsValue (Nat.toDigits 10 n) = n := by
  rw [digitsValue_eq, Nat.ofDigitChars_ten_toDigits]

theorem isDigit_toDigits {n : Nat} {c : Char} (h : c ∈ Nat.toDigits 10 n) : c.isDigit :=
  Nat.isDigit_of_mem_toDigits (by decide) (by decide) h

theorem isDigit_zeros {count : Nat} {c : Char} (h : c ∈ List.replicate count '0') : c.isDigit := by
  rw [List.eq_of_mem_replicate h]
  rfl

-- A numeral of the language with the value `v`: digits, and then digits behind a point, an exponent, or both.
def Spells (text : List Char) (v : ℚ) : Prop :=
  ∃ whole point power e, text = whole ++ point ++ power ∧ whole ≠ [] ∧ (∀ c ∈ whole, c.isDigit) ∧ IsFraction point ∧
    IsExponent power ∧ (point.isEmpty && power.isEmpty) = false ∧ exponent? power = some e ∧
    v = digitsValue (whole ++ point.tail) * 10 ^ (e - point.tail.length)

section

variable {digits : List Char} (hdigits : ∀ c ∈ digits, c.isDigit)

include hdigits

-- Digits around a point.
theorem spells_point {fraction : List Char} (hne : digits ≠ []) (hf : ∀ c ∈ fraction, c.isDigit) :
    Spells (digits ++ '.' :: fraction) (digitsValue (digits ++ fraction) * 10 ^ (-fraction.length : ℤ)) := by
  refine ⟨digits, '.' :: fraction, [], 0, by simp, hne, hdigits, .inr ⟨fraction, rfl, hf⟩, .inl rfl, rfl, rfl, ?_⟩
  rw [List.tail_cons, zero_sub]

-- An integer is written with one digit behind the point.
theorem spells_integer (hne : digits ≠ []) (k : ℕ) :
    Spells (digits ++ List.replicate k '0' ++ ['.', '0']) (digitsValue digits * 10 ^ (k : ℤ)) := by
  have hvalue : digitsValue (digits ++ List.replicate k '0' ++ ['0']) = digitsValue digits * 10 ^ k * 10 := by
    have hzero : digitsValue ['0'] = 0 := rfl
    rw [digitsValue_append, digitsValue_append, digitsValue_zeros, hzero, List.length_replicate]
    rfl
  have hall (c : Char) (hc : c ∈ digits ++ List.replicate k '0') : c.isDigit :=
    (List.mem_append.1 hc).elim (hdigits c) isDigit_zeros
  have h := spells_point hall (by simp [hne]) (by simp [Char.isDigit] : ∀ c ∈ ['0'], c.isDigit)
  rw [hvalue] at h
  convert h using 1
  rw [List.length_singleton, zpow_natCast, zpow_neg]
  push_cast
  field_simp

theorem spells_fraction {k : ℤ} (hk : k < 0) (hw : (-k).toNat < digits.length) :
    Spells (digits.take (digits.length - (-k).toNat) ++ '.' :: digits.drop (digits.length - (-k).toNat))
      (digitsValue digits * 10 ^ k) := by
  have hne' : digits.take (digits.length - (-k).toNat) ≠ [] := by
    rw [← List.length_pos_iff, List.length_take]
    omega
  have hdrop (c : Char) (hc : c ∈ digits.drop (digits.length - (-k).toNat)) : c.isDigit :=
    hdigits c (List.mem_of_mem_drop hc)
  have h := spells_point (fun c hc => hdigits c (List.mem_of_mem_take hc)) hne' hdrop
  have hexp : (-(digits.drop (digits.length - (-k).toNat)).length : ℤ) = k := by
    rw [List.length_drop]
    omega
  rwa [List.take_append_drop, hexp] at h

theorem spells_small {k : ℤ} (hk : k < 0) (hw : digits.length ≤ (-k).toNat) :
    Spells (['0'] ++ '.' :: (List.replicate ((-k).toNat - digits.length) '0' ++ digits)) (digitsValue digits * 10 ^ k) := by
  have hvalue : digitsValue (['0'] ++ (List.replicate ((-k).toNat - digits.length) '0' ++ digits)) = digitsValue digits := by
    have hzero : digitsValue ['0'] = 0 := rfl
    rw [digitsValue_append, digitsValue_append, digitsValue_zeros, hzero, Nat.zero_mul, Nat.zero_mul, Nat.zero_add,
      Nat.zero_add]
  have hall (c : Char) (hc : c ∈ List.replicate ((-k).toNat - digits.length) '0' ++ digits) : c.isDigit :=
    (List.mem_append.1 hc).elim isDigit_zeros (hdigits c)
  have hexp : (-(List.replicate ((-k).toNat - digits.length) '0' ++ digits).length : ℤ) = k := by
    rw [List.length_append, List.length_replicate]
    omega
  have h := @spells_point ['0'] (by simp [Char.isDigit]) _ (by simp) hall
  rwa [hvalue, hexp] at h

end

theorem toList_digits (d : Decimal) : d.digits.toList = Nat.toDigits 10 d.coefficient := Nat.toList_repr

theorem length_digits (d : Decimal) : d.digits.length = (Nat.toDigits 10 d.coefficient).length := by
  rw [← String.length_toList, toList_digits]

theorem spells_positionalWithPoint (d : Decimal) :
    Spells d.positionalWithPoint.toList (d.coefficient * 10 ^ d.exponent) := by
  have hdigits (c : Char) (hc : c ∈ Nat.toDigits 10 d.coefficient) := isDigit_toDigits hc
  have hne : Nat.toDigits 10 d.coefficient ≠ [] := Nat.toDigits_ne_nil
  rw [← digitsValue_toDigits d.coefficient]
  unfold Decimal.positionalWithPoint Decimal.positional
  dsimp only
  split
  · rename_i hk
    have h := spells_integer hdigits hne d.exponent.toNat
    rw [Int.toNat_of_nonneg hk] at h
    simp only [String.toList_append, toList_digits, Decimal.zeros, String.toList_ofList]
    exact h
  · rename_i hk
    rw [length_digits]
    split
    · have h := spells_fraction hdigits (not_le.1 hk) ‹_›
      simp only [String.toList_append, toList_digits, String.toList_ofList, List.append_assoc]
      exact h
    · have h := spells_small hdigits (not_le.1 hk) (not_lt.1 ‹_›)
      simp only [String.toList_append, toList_digits, String.toList_ofList, Decimal.zeros, List.append_assoc]
      exact h

-- An exponent as it is written.
theorem toList_int_repr (e : ℤ) :
    ∃ sign, e.repr.toList = sign ++ Nat.toDigits 10 e.natAbs ∧ (sign = [] ∧ 0 ≤ e ∨ sign = ['-'] ∧ e < 0) := by
  rw [Int.repr_eq_if]
  split
  · refine ⟨[], ?_, .inl ⟨rfl, ‹_›⟩⟩
    rw [Nat.toList_repr, List.nil_append]
    congr 1
    omega
  · refine ⟨['-'], ?_, .inr ⟨rfl, by omega⟩⟩
    rw [String.toList_append, Nat.toList_repr]
    congr 2
    omega

theorem splitSign_of_digit {c : Char} {text : List Char} (hc : c.isDigit) : splitSign (c :: text) = (false, c :: text) := by
  unfold splitSign
  split
  · rename_i h
    cases h
    cases hc
  · rename_i h
    cases h
    cases hc
  · rfl

theorem exponent?_repr (e : ℤ) : exponent? ('e' :: e.repr.toList) = some e ∧ IsExponent ('e' :: e.repr.toList) := by
  obtain ⟨sign, hrepr, hsign⟩ := toList_int_repr e
  have hdigit (c : Char) (hc : c ∈ Nat.toDigits 10 e.natAbs) := isDigit_toDigits hc
  have hvalue := digitsValue_toDigits e.natAbs
  have hne : Nat.toDigits 10 e.natAbs ≠ [] := Nat.toDigits_ne_nil
  rw [hrepr]
  generalize Nat.toDigits 10 e.natAbs = digits at *
  refine ⟨?_, .inr ⟨sign, digits, rfl, hsign.imp And.left And.left, hne, hdigit⟩⟩
  have hall : (!digits.isEmpty && digits.all Char.isDigit) = true := by
    simpa [hne] using hdigit
  rcases hsign with ⟨rfl, he⟩ | ⟨rfl, he⟩
  · obtain ⟨c, rest, rfl⟩ := List.exists_cons_of_ne_nil hne
    simp only [exponent?, List.nil_append, splitSign_of_digit (hdigit c (by simp)), hall, hvalue, true_or, if_true]
    exact congrArg some (Int.natAbs_of_nonneg he)
  · simp only [exponent?, List.cons_append, List.nil_append, splitSign, hall, hvalue, true_or, if_true]
    exact congrArg some (by omega)

theorem spells_scientific (d : Decimal) : Spells d.scientific.toList (d.coefficient * 10 ^ d.exponent) := by
  have hvalue := digitsValue_toDigits d.coefficient
  have hdigit (c : Char) (hc : c ∈ Nat.toDigits 10 d.coefficient) := isDigit_toDigits hc
  have hlist := toList_digits d
  have hlength := length_digits d
  obtain ⟨first, fraction, hcons⟩ := List.exists_cons_of_ne_nil (Nat.toDigits_ne_nil (b := 10) (n := d.coefficient))
  rw [hcons] at hvalue hdigit hlist hlength
  obtain ⟨hpower, hexponent⟩ := exponent?_repr d.magnitude
  have hmagnitude : d.magnitude = d.exponent + fraction.length := by
    rw [Decimal.magnitude, hlength]
    simp
  refine ⟨[first], if fraction.isEmpty then [] else '.' :: fraction, 'e' :: d.magnitude.repr.toList, d.magnitude, ?_,
    by simp, by simp [hdigit first], ?_, hexponent, by simp, hpower, ?_⟩
  · unfold Decimal.scientific
    simp only [hlist, String.toList_append, String.toList_ofList]
    cases fraction <;> simp
  · split
    · exact .inl rfl
    · exact .inr ⟨fraction, rfl, fun c hc => hdigit c (by simp [hc])⟩
  · have htail : (if fraction.isEmpty then [] else '.' :: fraction).tail = fraction := by
      cases fraction <;> rfl
    rw [htail, hmagnitude, add_sub_cancel_right, List.singleton_append, hvalue]

theorem splitDigits_append {run rest : List Char} (hrun : ∀ c ∈ run, c.isDigit)
    (hrest : ∀ c ∈ rest.head?, c.isDigit = false) : splitDigits (run ++ rest) = (run, rest) := by
  unfold splitDigits
  rw [List.span_eq_takeWhile_dropWhile, List.takeWhile_append_of_pos hrun, List.dropWhile_append_of_pos hrun]
  cases rest with
  | nil => simp
  | cons c rest =>
    have hc := hrest c rfl
    simp [hc]

theorem head_power {power : List Char} (h : IsExponent power) : ∀ c ∈ power.head?, c.isDigit = false ∧ c ≠ '.' := by
  rcases h with rfl | ⟨sign, digits, rfl, -⟩
  · simp
  · simp [Char.isDigit]

theorem splitFraction_append {point power : List Char} (hpoint : IsFraction point) (hpower : IsExponent power) :
    splitFraction (point ++ power) = (point.tail, power) := by
  have hhead := head_power hpower
  rcases hpoint with rfl | ⟨digits, rfl, hdigits⟩
  · rw [List.nil_append]
    unfold splitFraction
    split
    · exact absurd rfl (hhead '.' rfl).2
    · rfl
  · exact splitDigits_append hdigits fun c hc => (hhead c hc).1

theorem toLower_of_isDigit {c : Char} (hc : c.isDigit) : c.toLower = c := by
  rw [Char.isDigit, Bool.and_eq_true, decide_eq_true_eq, decide_eq_true_eq] at hc
  unfold Char.toLower
  exact dif_neg fun h => absurd (UInt32.le_trans h.1 hc.2) (by decide)

-- No name starts with a digit.
theorem ofName?_of_digit {c : Char} {text : List Char} (hc : c.isDigit) : ofName? (c :: text) = none := by
  have hname {name : String} {d : Char} {rest : List Char} (hn : name.toList = d :: rest) (hd : d.isDigit = false) :
      String.ofList ((c :: text).map Char.toLower) ≠ name := by
    rintro rfl
    rw [String.toList_ofList, List.map_cons, toLower_of_isDigit hc] at hn
    cases hn
    rw [hc] at hd
    cases hd
  unfold ofName?
  split
  · exact absurd ‹_› (hname rfl rfl)
  · exact absurd ‹_› (hname rfl rfl)
  · exact absurd ‹_› (hname rfl rfl)
  · rfl

-- A text that starts with a digit has neither a sign nor a name.
theorem ofText?_of_digit {text : String} {c : Char} {rest : List Char} (h : text.toList = c :: rest) (hc : c.isDigit) :
    ofText? text = ofNumeral? text.toList := by
  unfold ofText?
  rw [h, splitSign_of_digit hc]
  dsimp only
  rw [ofName?_of_digit hc, Option.none_or]
  cases ofNumeral? (c :: rest) <;> rfl

theorem ofText?_of_spells {text : String} {v : ℚ} (h : Spells text.toList v) :
    ∃ c p, ofText? text = some (nearest c p) ∧ v = c * 10 ^ p := by
  obtain ⟨whole, point, power, e, htext, hne, hwhole, hpoint, hpower, -, he, hv⟩ := h
  refine ⟨_, _, ?_, hv⟩
  have hhead : ∀ c ∈ (point ++ power).head?, c.isDigit = false := hpoint.head fun c hc => (head_power hpower c hc).1
  obtain ⟨first, more, hcons⟩ := List.exists_cons_of_ne_nil hne
  rw [ofText?_of_digit (c := first) (by rw [htext, hcons]; rfl) (hwhole first (by simp [hcons])), htext]
  unfold ofNumeral?
  rw [List.append_assoc, splitDigits_append hwhole hhead]
  dsimp only
  rw [splitFraction_append hpoint hpower]
  dsimp only
  rw [he, if_neg (by simp [hne])]

-- Both written forms of a literal spell its decimal.
theorem spells_literal {x : Float} (hx : IsPlain x) :
    Spells (literal x).toList ((decimal x).coefficient * 10 ^ (decimal x).exponent) := by
  unfold literal written
  simp only [hx.isNaN, hx.isInf, hx.isNegative, Bool.false_eq_true, if_false]
  split
  · exact spells_positionalWithPoint _
  · exact spells_scientific _

theorem toList_literal {x : Float} (hx : IsPlain x) :
    ∃ c whole point power, (literal x).toList = c :: whole ++ point ++ power ∧ c.isDigit ∧ (∀ d ∈ whole, d.isDigit) ∧
      IsFraction point ∧ IsExponent power ∧ (point.isEmpty && power.isEmpty) = false := by
  obtain ⟨whole, point, power, -, htext, hne, hwhole, hpoint, hpower, hsome, -, -⟩ := spells_literal hx
  obtain ⟨first, more, rfl⟩ := List.exists_cons_of_ne_nil hne
  exact ⟨first, more, point, power, htext, hwhole first (by simp), fun d hd => hwhole d (by simp [hd]), hpoint, hpower,
    hsome⟩

theorem ofText?_literal {x : Float} (hx : IsPlain x) : ofText? (literal x) = some x := by
  obtain ⟨c, p, htext, hv⟩ := ofText?_of_spells (spells_literal hx)
  rw [htext]
  refine congrArg some ?_
  unfold decimal at hv
  by_cases h : (Binary.ofBits x.toBits).significand = 0
  · simp only [h, if_true, Nat.cast_zero, zero_mul] at hv
    have hc : c = 0 := by
      have := (mul_eq_zero.1 hv.symm).resolve_right (Binary.ten_zpow_pos p).ne'
      exact_mod_cast this
    rw [hx.eq_zero h, hc]
    rfl
  · simp only [h, if_false] at hv
    have hb := hx.isDouble h
    have hr := Binary.shortest_rounds hb
    rw [hv] at hr
    rw [nearest_eq hb hr]
    exact Binary.ofUnpacked_ofBits (Packing.isNegative_eq_false_iff.1 hx.isNegative) hb

-- The text of an infinite number is no literal, but it is read all the same.
theorem ofText?_literal_of_unsigned {x : Float} (hn : x.isNaN = false) (hs : isNegative x = false) :
    ofText? (literal x) = some x := by
  by_cases hi : x.isInf = true
  · have htext : literal x = "inf" := by
      unfold literal written
      simp only [hn, hi, hs, Bool.false_eq_true, if_false, if_true]
    have hread : ofText? "inf" = some (1.0 / 0.0) := by decide +kernel
    rw [htext, hread, eq_infinity hi hs]
  · exact ofText?_literal ⟨hn, by simpa using hi, hs⟩

-- What starts with a digit is read as a number without a sign.
theorem isNegative_of_ofText? {text : String} {x : Float} (ht : ∃ c ∈ text.toList.head?, c.isDigit)
    (h : ofText? text = some x) : x.isNaN = false ∧ isNegative x = false := by
  obtain ⟨c, hc, hd⟩ := ht
  obtain ⟨rest, htext⟩ : ∃ rest, text.toList = c :: rest := by
    cases hl : text.toList with
    | nil => simp [hl] at hc
    | cons c' rest =>
      rw [hl] at hc
      cases hc
      exact ⟨rest, rfl⟩
  rw [ofText?_of_digit htext hd] at h
  unfold ofNumeral? at h
  dsimp only at h
  split at h
  · cases h
  · split at h
    · cases h
      exact nearest_unsigned _ _
    · cases h

theorem toList_int {value : Int64} (h : 0 ≤ value.toInt) :
    ∃ c whole, (toString value.toInt).toList = c :: whole ∧ c.isDigit ∧ ∀ d ∈ whole, d.isDigit := by
  obtain ⟨sign, hrepr, ⟨rfl, -⟩ | ⟨-, hneg⟩⟩ := toList_int_repr value.toInt
  · obtain ⟨c, whole, hcons⟩ := List.exists_cons_of_ne_nil (Nat.toDigits_ne_nil (b := 10) (n := value.toInt.natAbs))
    rw [List.nil_append, hcons] at hrepr
    have hdigit (d : Char) (hd : d ∈ c :: whole) : d.isDigit := isDigit_toDigits (hcons ▸ hd)
    exact ⟨c, whole, hrepr, hdigit c (by simp), fun d hd => hdigit d (by simp [hd])⟩
  · omega

theorem integer?_int {value : Int64} (h : 0 ≤ value.toInt) : integer? (toString value.toInt) = some value := by
  have hlt := value.toInt_lt
  obtain ⟨sign, hrepr, ⟨rfl, -⟩ | ⟨-, hneg⟩⟩ := toList_int_repr value.toInt
  · have htext : (toString value.toInt).toList = Nat.toDigits 10 value.toInt.natAbs := hrepr
    have hall : (Nat.toDigits 10 value.toInt.natAbs).all Char.isDigit := by
      rw [List.all_eq_true]
      exact fun c hc => isDigit_toDigits hc
    unfold integer?
    dsimp only
    rw [htext, digitsValue_toDigits, hall, if_pos (by simp; omega)]
    congr 1
    apply Int64.toInt_inj.1
    rw [Int64.toInt_ofNat_of_lt (by omega)]
    omega
  · omega

theorem toInt_of_integer? {text : String} {value : Int64} (h : integer? text = some value) : 0 ≤ value.toInt := by
  unfold integer? at h
  dsimp only at h
  split at h
  · rename_i hc
    cases h
    simp only [Bool.and_eq_true, decide_eq_true_eq] at hc
    rw [Int64.toInt_ofNat_of_lt hc.2]
    omega
  · cases h

end Number

end SolidScript
