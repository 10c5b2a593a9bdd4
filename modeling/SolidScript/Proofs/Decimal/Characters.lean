import SolidScript.Proofs.Decimal.Numeral

namespace SolidScript

-- Digits, and what else stands in a number, an infinite number or none.
def Number.isNumeric (c : Char) : Bool := c.isDigit || "-.einfNa".toList.contains c

-- A text that is made of such characters.
def IsNumeric (text : String) : Prop := ∀ c ∈ text.toList, Number.isNumeric c

instance (text : String) : Decidable (IsNumeric text) := List.decidableBAll (fun c => Number.isNumeric c) text.toList

namespace IsNumeric

theorem append {text more : String} (h : IsNumeric text) (h' : IsNumeric more) : IsNumeric (text ++ more) := by
  intro c hc
  rw [String.toList_append, List.mem_append] at hc
  exact hc.elim (h c) (h' c)

theorem of_digits {digits : List Char} (h : ∀ c ∈ digits, c.isDigit) : IsNumeric (String.ofList digits) := by
  intro c hc
  rw [String.toList_ofList] at hc
  rw [Number.isNumeric, h c hc, Bool.true_or]

theorem isDigit_digits {d : Decimal} {c : Char} (hc : c ∈ d.digits.toList) : c.isDigit := by
  rw [Number.toList_digits] at hc
  exact Number.isDigit_toDigits hc

theorem digits (d : Decimal) : IsNumeric d.digits := by
  intro c hc
  rw [Number.isNumeric, isDigit_digits hc, Bool.true_or]

theorem zeros (count : Nat) : IsNumeric (Decimal.zeros count) := of_digits fun _ => Number.isDigit_zeros

theorem positional (d : Decimal) : IsNumeric d.positional := by
  unfold Decimal.positional
  dsimp only
  split
  · exact (digits d).append (zeros _)
  · split
    · exact ((of_digits fun c hc => isDigit_digits (List.mem_of_mem_take hc)).append (by decide)).append
        (of_digits fun c hc => isDigit_digits (List.mem_of_mem_drop hc))
    · exact (append (by decide) (zeros _)).append (digits d)

theorem power (e : Int) : IsNumeric (toString e) := by
  intro c hc
  obtain ⟨sign, hrepr, hsign⟩ := Number.toList_int_repr e
  change c ∈ e.repr.toList at hc
  rw [hrepr, List.mem_append] at hc
  rcases hc with hc | hc
  · rcases hsign with ⟨rfl, -⟩ | ⟨rfl, -⟩
    · cases hc
    · rw [List.mem_singleton.1 hc]
      decide
  · rw [Number.isNumeric, Number.isDigit_toDigits hc, Bool.true_or]

theorem scientific (d : Decimal) : IsNumeric d.scientific := by
  unfold Decimal.scientific
  refine (((of_digits fun c hc => isDigit_digits (List.mem_of_mem_take hc)).append ?_).append (by decide)).append (power _)
  split
  · decide
  · exact append (by decide) (of_digits fun c hc => isDigit_digits (List.mem_of_mem_drop hc))

theorem written {write : Decimal → String} (h : ∀ d, IsNumeric (write d)) (x : Float) :
    IsNumeric (Number.written write x) := by
  unfold Number.written
  split
  · decide
  · have hm : IsNumeric (if x.isInf then "inf" else write (Number.decimal x)) := by
      split
      · decide
      · exact h _
    dsimp only
    split
    · exact append (by decide) hm
    · exact hm

theorem shader (x : Float) : IsNumeric (Number.shader x) := by
  unfold Number.shader
  dsimp only
  split
  · exact written scientific _
  · exact written positional _

end IsNumeric

end SolidScript
