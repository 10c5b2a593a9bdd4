import SolidScript.Decimal.Layout
import SolidScript.Token.Lexer
import SolidScript.Proofs.Tree.Parts

namespace SolidScript

namespace Token

-- Spelled like an identifier, which keywords are, too.
def isWord (word : String) : Bool :=
  match word.toList with
  | [] => false
  | c :: run => isWordStart c && run.all isWordPart

-- An identifier that is no keyword.
def isName (word : String) : Bool := isWord word && Kind.ofWord word == .ident

-- The name of an argument may also be the keyword of a primitive.
def isArgumentName (word : String) : Bool := isName word || (Primitive.ofKeyword? word).isSome

end Token

def Stmt.isShaped : Stmt → Bool
  | bind name _ => Token.isName name
  | ret _ | expr _ => true

namespace Expr

-- What the parser sees to in one expression, apart from its parts.
def isShaped : Expr → Bool
  | ident name => Token.isName name
  | int value => 0 ≤ value.toInt
  | float value => !value.isNaN && !Number.isNegative value
  | string text => text.toList.all (· != '"')
  | bool _ | undef | unary _ _ | array _ | hash _ => true
  | binary left _ _ => !left.hasBody
  | cond _ consequence alternative => consequence.all Stmt.isShaped && (alternative.getD []).all Stmt.isShaped
  | function params body => params.all Token.isName && body.all Stmt.isShaped
  | call callee _ => !callee.hasBody
  | index left _ => !left.hasBody
  | named name _ => Token.isArgumentName name
  | primitive kind _ body => (kind.acceptsBody || body.isNone) && (body.getD []).all Stmt.isShaped

-- There is no literal for an infinite number.
def isWritable : Expr → Bool
  | float value => !value.isInf
  | _ => true

def isNamed : Expr → Bool
  | named _ _ => true
  | _ => false

-- No named argument is an operand, the callee of a call or the left side of an index.
def keepsNamed : Expr → Bool
  | unary _ right => !right.isNamed
  | binary left _ right => !left.isNamed && !right.isNamed
  | call callee _ => !callee.isNamed
  | index left _ => !left.isNamed
  | _ => true

-- Whether the text starts with a name and an equals sign, so that it can only be read as the value of an argument.
def isOpen : Expr → Bool
  | named _ _ => true
  | call callee _ => callee.isOpen
  | _ => false

-- The operands on the right that are read as such. What is open would end at the equals sign.
def closesRight : Expr → Bool
  | unary _ right => !right.isOpen
  | binary _ _ right => !right.isOpen
  | _ => true

-- What may stand in front of an operator. The value of an argument would take the operator to itself unless it ends in
-- a block.
def endsLeft : Expr → Bool
  | named _ value => value.hasBody
  | _ => true

def closesLeft : Expr → Bool
  | binary left _ _ => left.endsLeft
  | call callee _ => callee.endsLeft
  | index left _ => left.endsLeft
  | _ => true

end Expr

namespace Program

-- Whether `p` holds of every expression of the program.
def everywhere (p : Expr → Bool) (program : Program) : Bool := program.all fun s => s.value.everywhere p

def isShaped (program : Program) : Bool := program.all Stmt.isShaped && everywhere Expr.isShaped program

def isWritable (program : Program) : Bool := everywhere Expr.isWritable program

def keepsNamed (program : Program) : Bool := everywhere Expr.keepsNamed program

-- What a program has to be like for its text to stand for it.
def isWellFormed (program : Program) : Bool := program.isShaped && program.isWritable && program.keepsNamed

-- The exact condition under which a tree that was read is read again from its own text.
def readsBack (program : Program) : Bool :=
  everywhere Expr.closesRight program && everywhere Expr.closesLeft program

end Program

namespace Expr

theorem isOpen_of_keepsNamed {e : Expr} (h : everywhere keepsNamed e) (hn : e.isNamed = false) : e.isOpen = false := by
  induction e using induction_children with
  | step e ih =>
    obtain ⟨he, hc⟩ := everywhere_iff.1 h
    cases e with
    | named name value => simp [isNamed] at hn
    | call callee args =>
      have hm : callee ∈ (call callee args).children := by simp [children]
      simp only [keepsNamed, Bool.not_eq_eq_eq_not, Bool.not_true] at he
      exact ih callee hm (hc callee hm) he
    | _ => rfl

theorem closesRight_of_keepsNamed (e : Expr) (h : everywhere keepsNamed e) : everywhere closesRight e := by
  induction e using induction_children with
  | step e ih =>
    obtain ⟨he, hc⟩ := everywhere_iff.1 h
    refine everywhere_iff.2 ⟨?_, fun c hm => ih c hm (hc c hm)⟩
    cases e with
    | unary op right =>
      have hm : right ∈ (unary op right).children := by simp [children]
      simp only [keepsNamed, Bool.not_eq_eq_eq_not, Bool.not_true] at he
      simp [closesRight, isOpen_of_keepsNamed (hc right hm) he]
    | binary left op right =>
      have hm : right ∈ (binary left op right).children := by simp [children]
      simp only [keepsNamed, Bool.and_eq_true, Bool.not_eq_eq_eq_not, Bool.not_true] at he
      simp [closesRight, isOpen_of_keepsNamed (hc right hm) he.2]
    | _ => rfl

theorem endsLeft_of_isNamed {e : Expr} (h : e.isNamed = false) : e.endsLeft := by
  cases e with
  | named name value => simp [isNamed] at h
  | _ => rfl

theorem closesLeft_of_keepsNamed {e : Expr} (h : e.keepsNamed) : e.closesLeft := by
  cases e with
  | binary left op right =>
    simp only [keepsNamed, Bool.and_eq_true, Bool.not_eq_eq_eq_not, Bool.not_true] at h
    exact endsLeft_of_isNamed h.1
  | call callee args => exact endsLeft_of_isNamed (by simpa [keepsNamed] using h)
  | index left key => exact endsLeft_of_isNamed (by simpa [keepsNamed] using h)
  | _ => rfl

end Expr

theorem Program.readsBack_of_keepsNamed {program : Program} (h : program.keepsNamed) : program.readsBack := by
  simp only [Program.keepsNamed, Program.readsBack, Program.everywhere, List.all_eq_true, Bool.and_eq_true] at h ⊢
  exact ⟨fun s hs => Expr.closesRight_of_keepsNamed _ (h s hs),
    fun s hs => Expr.everywhere_mono (fun _ => Expr.closesLeft_of_keepsNamed) _ (h s hs)⟩

end SolidScript
