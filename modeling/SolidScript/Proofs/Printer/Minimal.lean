import SolidScript.Proofs.Printer.Spelling

namespace SolidScript

open Token (Word words sign)

-- How tightly an operator holds its operands together.
def BinaryOp.level : BinaryOp → Nat
  | equal | notEqual => 1
  | lessThan | greaterThan => 2
  | add | subtract => 3
  | multiply | divide => 4

def unaryLevel : Nat := 5

-- Calls and indices, and all that has no operand outside of brackets.
def closedLevel : Nat := 6

-- Parentheses around an operand of less than the needed level.
def enclosed (level needed : Nat) (text : String) : String :=
  if level < needed then "(" ++ text ++ ")" else text

def spellEnclosed (level needed : Nat) (spelling : List Word → List Word) (rest : List Word) : List Word :=
  if level < needed then sign .lparen :: spelling (sign .rparen :: rest) else spelling rest

namespace Expr

def level : Expr → Nat
  | binary _ op _ => op.level
  | unary _ _ => unaryLevel
  | _ => closedLevel

-- Names and numbers with operators, calls and indices.
def isFormula : Expr → Bool
  | ident name => Token.isName name
  | int value => 0 ≤ value.toInt
  | unary _ _ | binary _ _ _ | call _ _ | index _ _ => true
  | _ => false

mutual

-- The text of a formula. Anything else is printed with all its parentheses.
def minimal : Expr → String
  | .unary op right => op.symbol ++ enclosed right.level unaryLevel (minimal right)
  | .binary left op right =>
    enclosed left.level op.level (minimal left) ++ " " ++ op.symbol ++ " " ++
      enclosed right.level (op.level + 1) (minimal right)
  | .call callee args =>
    enclosed callee.level closedLevel (minimal callee) ++ "(" ++ ", ".intercalate (minimalEach args) ++ ")"
  | .index left key => enclosed left.level closedLevel (minimal left) ++ "[" ++ minimal key ++ "]"
  | e => print e
termination_by structural e => e

def minimalEach : List Expr → List String
  | [] => []
  | e :: es => minimal e :: minimalEach es
termination_by structural es => es

end

mutual

-- The words of this text in front of `rest`.
def spellMinimal : Expr → List Word → List Word
  | .unary op right, rest => sign op.kind :: spellEnclosed right.level unaryLevel (spellMinimal right) rest
  | .binary left op right, rest =>
    spellEnclosed left.level op.level (spellMinimal left)
      (sign op.kind :: spellEnclosed right.level (op.level + 1) (spellMinimal right) rest)
  | .call callee args, rest =>
    spellEnclosed callee.level closedLevel (spellMinimal callee)
      (sign .lparen :: spellMinimalItems args (sign .rparen :: rest))
  | .index left key, rest =>
    spellEnclosed left.level closedLevel (spellMinimal left)
      (sign .lbracket :: spellMinimal key (sign .rbracket :: rest))
  | e, rest => spell e rest
termination_by structural e => e

def spellMinimalItems : List Expr → List Word → List Word
  | [], rest => rest
  | e :: es, rest => spellMinimal e (spellMoreMinimalItems es rest)
termination_by structural es => es

def spellMoreMinimalItems : List Expr → List Word → List Word
  | [], rest => rest
  | e :: es, rest => sign .comma :: spellMinimal e (spellMoreMinimalItems es rest)
termination_by structural es => es

end

theorem minimalEach_eq (es : List Expr) : minimalEach es = es.map minimal := by
  induction es with
  | nil => rfl
  | cons e es ih => simp [minimalEach, ih]

theorem listed_minimalItems : Token.Listed spellMinimal spellMinimalItems spellMoreMinimalItems :=
  ⟨fun _ => rfl, fun _ _ _ => rfl, fun _ => rfl, fun _ _ _ => rfl⟩

open Token (Apart SpelledAs isWordPart isWordStart)

theorem spelledAs_enclosed {text : String} {spelling : List Word → List Word} (h : SpelledAs text spelling)
    (level needed : Nat) : SpelledAs (enclosed level needed text) (spellEnclosed level needed spelling) := by
  unfold enclosed
  split
  · rename_i hlevel
    refine ⟨fun rest _ => ?_, '(', by simp, by decide⟩
    simp [spellEnclosed, hlevel, h.words, isWordPart, isWordStart]
  · rename_i hlevel
    refine ⟨fun rest hrest => ?_, h.start⟩
    rw [spellEnclosed, if_neg hlevel, h.words rest hrest]

theorem words_minimalItems {es : List Expr} (h : ∀ e ∈ es, SpelledAs e.minimal (spellMinimal e)) (rest : List Char)
    (hrest : Apart rest) :
    words ((", ".intercalate (minimalEach es)).toList ++ rest) = spellMinimalItems es (words rest) := by
  rw [minimalEach_eq]
  exact listed_minimalItems.words_all rest h hrest

theorem spelledAs_minimal (e : Expr) (h : e.everywhere isFormula) : SpelledAs e.minimal (spellMinimal e) := by
  induction e using induction_children with
  | step e ih =>
    obtain ⟨he, hc⟩ := everywhere_iff.1 h
    replace ih : ∀ c ∈ e.children, SpelledAs c.minimal (spellMinimal c) := fun c hm => ih c hm (hc c hm)
    cases e with
    | ident name => exact spelledAs_name he
    | int value => exact spelledAs_int (by simpa [isFormula] using he)
    | unary op right =>
      have hr := spelledAs_enclosed (ih right (by simp [children])) right.level unaryLevel
      refine ⟨fun rest hrest => ?_, ?_⟩
      · simp [minimal, spellMinimal, hr.words_unary op hrest]
      · cases op with
        | not => exact ⟨'!', by simp [minimal, UnaryOp.symbol], by decide⟩
        | negate => exact ⟨'-', by simp [minimal, UnaryOp.symbol], by decide⟩
    | binary left op right =>
      have hl := spelledAs_enclosed (ih left (by simp [children])) left.level op.level
      have hr := spelledAs_enclosed (ih right (by simp [children])) right.level (op.level + 1)
      refine ⟨fun rest hrest => ?_, ?_⟩
      · simp [minimal, spellMinimal, hl.words, hr.words rest hrest, Token.words_binary op, isWordPart, isWordStart]
      · obtain ⟨c, hc, hne⟩ := hl.start
        exact ⟨c, by simp [minimal, hc], hne⟩
    | call callee args =>
      have hf := spelledAs_enclosed (ih callee (by simp [children])) callee.level closedLevel
      have ha := words_minimalItems fun a (hm : a ∈ args) => ih a (by simp [children, hm])
      refine ⟨fun rest _ => ?_, ?_⟩
      · simp [minimal, spellMinimal, hf.words, ha, isWordPart, isWordStart, -String.toList_intercalate]
      · obtain ⟨c, hc, hne⟩ := hf.start
        exact ⟨c, by simp [minimal, hc], hne⟩
    | index left key =>
      have hl := spelledAs_enclosed (ih left (by simp [children])) left.level closedLevel
      have hk := ih key (by simp [children])
      refine ⟨fun rest _ => ?_, ?_⟩
      · simp [minimal, spellMinimal, hl.words, hk.words, isWordPart, isWordStart]
      · obtain ⟨c, hc, hne⟩ := hl.start
        exact ⟨c, by simp [minimal, hc], hne⟩
    | _ => simp [isFormula] at he

end Expr

end SolidScript
