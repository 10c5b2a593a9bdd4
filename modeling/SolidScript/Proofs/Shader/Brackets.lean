import SolidScript.Shader.Render
import SolidScript.Proofs.Decimal.Characters

namespace SolidScript

namespace Shader

open Token (isWordPart)

-- The words in front of an opening bracket, where `word` was read already.
def bracketedFrom (word : List Char) : List Char → List String
  | [] => []
  | c :: rest =>
    if isWordPart c then bracketedFrom (word ++ [c]) rest
    else if c == '(' && !word.isEmpty then String.ofList word :: bracketedFrom [] rest
    else bracketedFrom [] rest

def bracketed (text : String) : List String := bracketedFrom [] text.toList

-- The word at the end of a text.
def lastWord (word : List Char) : List Char → List Char
  | [] => word
  | c :: rest => if isWordPart c then lastWord (word ++ [c]) rest else lastWord [] rest

theorem bracketedFrom_append (word text rest : List Char) :
    bracketedFrom word (text ++ rest) = bracketedFrom word text ++ bracketedFrom (lastWord word text) rest := by
  induction text generalizing word with
  | nil => rfl
  | cons c text ih =>
    simp only [List.cons_append, bracketedFrom, lastWord]
    split
    · exact ih _
    · split
      · rw [ih, List.cons_append]
      · exact ih _

theorem lastWord_append (word text rest : List Char) :
    lastWord word (text ++ rest) = lastWord (lastWord word text) rest := by
  induction text generalizing word with
  | nil => rfl
  | cons c text ih =>
    simp only [List.cons_append, lastWord]
    split
    · exact ih _
    · exact ih _

-- A text that ends outside of a word, with the words in it that are in front of a bracket.
structure Brackets (text : String) (words : List String) : Prop where
  bracketed : bracketedFrom [] text.toList = words
  ended : lastWord [] text.toList = []

-- A text without brackets.
def IsFlat (text : String) : Prop := '(' ∉ text.toList

-- What can follow a word without calling it.
def startsApart (text : String) : Bool := text.toList.head?.any fun c => !isWordPart c && c != '('

instance (text : String) : Decidable (IsFlat text) := inferInstanceAs (Decidable ('(' ∉ text.toList))

theorem bracketedFrom_of_not_mem {text : List Char} (h : '(' ∉ text) (word : List Char) : bracketedFrom word text = [] := by
  induction text generalizing word with
  | nil => rfl
  | cons c text ih =>
    rw [List.mem_cons, not_or] at h
    have hc : (c == '(') = false := by simpa using fun hc : c = '(' => h.1 hc.symm
    simp only [bracketedFrom, hc, Bool.false_and, Bool.false_eq_true, if_false, ih h.2, ite_self]

namespace Brackets

variable {text more : String} {words moreWords : List String}

theorem literal {chars : List Char} (hb : bracketedFrom [] chars = words) (he : lastWord [] chars = []) :
    Brackets (String.ofList chars) words :=
  ⟨by rw [String.toList_ofList, hb], by rw [String.toList_ofList, he]⟩

theorem append (h : Brackets text words) (h' : Brackets more moreWords) : Brackets (text ++ more) (words ++ moreWords) where
  bracketed := by
    rw [String.toList_append, bracketedFrom_append, h.bracketed, h.ended, h'.bracketed]
  ended := by
    rw [String.toList_append, lastWord_append, h.ended, h'.ended]

theorem behind (h : Brackets more words) (ht : Brackets text []) : Brackets (text ++ more) words :=
  append ht h

theorem before (h : Brackets text words) (hm : Brackets more []) : Brackets (text ++ more) words := by
  have := append h hm
  rwa [List.append_nil] at this

-- Behind a text without brackets, nothing is called before the next word.
theorem flat_append (ht : IsFlat text) (h : Brackets more words) (hc : startsApart more) :
    Brackets (text ++ more) words := by
  obtain ⟨hwords, hended⟩ := h
  unfold startsApart at hc
  cases hl : more.toList with
  | nil => simp [hl] at hc
  | cons c rest =>
    rw [hl] at hwords hended hc
    simp only [List.head?_cons, Option.any_some, Bool.and_eq_true, Bool.not_eq_true', bne_iff_ne, ne_eq] at hc
    have hb : (c == '(') = false := by simpa using hc.2
    simp only [bracketedFrom, lastWord, hc.1, hb, Bool.false_and, Bool.false_eq_true, if_false] at hwords hended
    constructor
    · rw [String.toList_append, bracketedFrom_append, bracketedFrom_of_not_mem ht, hl]
      simp only [bracketedFrom, hc.1, hb, Bool.false_and, Bool.false_eq_true, if_false, List.nil_append, hwords]
    · rw [String.toList_append, lastWord_append, hl]
      simp only [lastWord, hc.1, Bool.false_eq_true, if_false, hended]

theorem insert {flat : String} (h : Brackets text words) (hf : IsFlat flat) (hm : Brackets more moreWords)
    (hc : startsApart more) : Brackets (text ++ flat ++ more) (words ++ moreWords) := by
  rw [String.append_assoc]
  exact h.append (flat_append hf hm hc)

-- A name and the bracket behind it.
theorem word_append (hw : text.toList.all isWordPart) (hne : text ≠ "") (h : Brackets more words)
    (hc : more.toList.head? = some '(') : Brackets (text ++ more) (text :: words) := by
  have hlast (word text : List Char) (hw : text.all isWordPart) : lastWord word text = word ++ text := by
    induction text generalizing word with
    | nil => simp [lastWord]
    | cons c text ih =>
      rw [List.all_cons, Bool.and_eq_true] at hw
      rw [lastWord, if_pos hw.1, ih _ hw.2, List.append_assoc, List.singleton_append]
  have hflat : '(' ∉ text.toList := fun hm => absurd (List.all_eq_true.1 hw _ hm) (by decide)
  have hne : text.toList.isEmpty = false := by simpa using hne
  have hbracket : isWordPart '(' = false := rfl
  obtain ⟨rest, hrest⟩ := List.head?_eq_some_iff.1 hc
  obtain ⟨hwords, hended⟩ := h
  rw [hrest] at hwords hended
  simp only [bracketedFrom, lastWord, hbracket, Bool.false_eq_true, if_false, List.isEmpty_nil, Bool.not_true,
    Bool.and_false] at hwords hended
  constructor
  · rw [String.toList_append, bracketedFrom_append, bracketedFrom_of_not_mem hflat, hlast _ _ hw, hrest]
    simp only [bracketedFrom, hbracket, Bool.false_eq_true, if_false, List.nil_append, hne, beq_self_eq_true, Bool.not_false,
      Bool.and_self, if_true, hwords, String.ofList_toList]
  · rw [String.toList_append, lastWord_append, hrest]
    simp only [lastWord, hbracket, Bool.false_eq_true, if_false, hended]

theorem intercalate {β : Type} {separator : String} {print : β → String} {words : β → List String}
    (hs : Brackets separator []) (items : List β) (h : ∀ item ∈ items, Brackets (print item) (words item)) :
    Brackets (separator.intercalate (items.map print)) (items.flatMap words) := by
  induction items with
  | nil => exact .literal rfl rfl
  | cons first rest ih =>
    have hfirst := h first (by simp)
    cases rest with
    | nil => simpa using hfirst
    | cons second rest =>
      have hmore := ih fun item hm => h item (by simp [hm])
      rw [List.map_cons, List.map_cons, String.intercalate_cons_cons, ← List.map_cons, List.flatMap_cons]
      simpa using (hfirst.append hs).append hmore

end Brackets

namespace IsFlat

theorem append {text more : String} (h : IsFlat text) (h' : IsFlat more) : IsFlat (text ++ more) := by
  rw [IsFlat, String.toList_append, List.mem_append]
  exact not_or.2 ⟨h, h'⟩

theorem intercalate {separator : String} (hs : IsFlat separator) (texts : List String) (h : ∀ text ∈ texts, IsFlat text) :
    IsFlat (separator.intercalate texts) := by
  induction texts with
  | nil => simp [IsFlat]
  | cons first rest ih =>
    have hfirst := h first (by simp)
    cases rest with
    | nil => simpa using hfirst
    | cons second rest =>
      rw [String.intercalate_cons_cons]
      exact (hfirst.append hs).append (ih fun text hm => h text (by simp [hm]))

theorem shader (x : Float) : IsFlat (Number.shader x) := fun hm => absurd (IsNumeric.shader x _ hm) (by decide)

theorem numbers (values : List Float) : IsFlat (numbers values) := by
  refine intercalate (by decide) _ fun text hm => ?_
  obtain ⟨x, -, rfl⟩ := List.mem_map.1 hm
  exact shader x

theorem pair (v : Vec2 Float) : IsFlat (pair v) := ((shader v.x).append (by decide)).append (shader v.y)

theorem truth (b : Bool) : IsFlat (truth b) := by
  cases b <;> decide

theorem extent2 (e : Extent2 Float) : IsFlat (extent2 e) := by
  cases e with
  | uniform side => exact shader side
  | sides v => exact numbers _

theorem extent3 (e : Extent3 Float) : IsFlat (extent3 e) := by
  cases e with
  | uniform side => exact shader side
  | sides v => exact numbers _

end IsFlat

end Shader

end SolidScript
