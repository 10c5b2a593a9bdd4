import SolidScript.Proofs.Parser.Shaped
import SolidScript.Proofs.Printer.Spelling

namespace SolidScript

namespace Expr

-- What stands inside an expression at any depth, and the expression itself.
inductive Inside : Expr → Expr → Prop where
  | refl (e : Expr) : Inside e e
  | child {c e whole : Expr} (hc : c ∈ e.children) (he : Inside e whole) : Inside c whole

theorem everywhere_of_inside {p : Expr → Bool} {e whole : Expr} (h : Inside e whole) (hp : everywhere p whole) :
    everywhere p e := by
  induction h with
  | refl e => exact hp
  | child hc he ih => exact (everywhere_iff.1 (ih hp)).2 _ hc

-- The statements of the blocks that an expression has itself.
def blocks : Expr → List Stmt
  | cond _ consequence alternative => consequence ++ alternative.getD []
  | function _ body => body
  | primitive _ _ body => body.getD []
  | _ => []

theorem isShaped_blocks {e : Expr} (h : e.isShaped) {s : Stmt} (hs : s ∈ e.blocks) : s.isShaped := by
  cases e with
  | cond condition consequence alternative =>
    simp only [isShaped, Bool.and_eq_true, List.all_eq_true] at h
    rcases List.mem_append.1 hs with hs | hs
    · exact h.1 s hs
    · exact h.2 s hs
  | function params body =>
    simp only [isShaped, Bool.and_eq_true, List.all_eq_true] at h
    exact h.2 s hs
  | primitive kind args body =>
    simp only [isShaped, Bool.and_eq_true, List.all_eq_true] at h
    exact h.2 s hs
  | _ => cases hs

end Expr

namespace Token

-- A text that the lexer reads as one word of the given kind, and as nothing else.
def ReadsAs (kind : Kind) (text : String) : Prop := words text.toList = [(kind, text)]

theorem readsAs_of_isName {name : String} (h : isName name) : ReadsAs .ident name := by
  have hw := words_of_isName h apart_nil
  rwa [List.append_nil, words_nil] at hw

theorem readsAs_keyword (p : Primitive) : ReadsAs (.primitive p) p.keyword := by
  have hw := words_of_isWord p.keyword (isWord_keyword p) apart_nil
  rwa [List.append_nil, words_nil, ofWord_keyword] at hw

theorem readsAs_of_isArgumentName {name : String} (h : isArgumentName name) :
    ReadsAs .ident name ∨ ∃ p, ReadsAs (.primitive p) name := by
  simp only [isArgumentName, Bool.or_eq_true] at h
  rcases h with h | h
  · exact .inl (readsAs_of_isName h)
  · obtain ⟨p, hp⟩ := Option.isSome_iff_exists.1 h
    exact .inr ⟨p, Primitive.keyword_of_ofKeyword? hp ▸ readsAs_keyword p⟩

end Token

namespace Program

-- An expression somewhere in a program.
def Mentions (program : Program) (e : Expr) : Prop := ∃ s ∈ program, e.Inside s.value

-- A statement of the program, or of a block somewhere in it.
def Contains (program : Program) (s : Stmt) : Prop := s ∈ program ∨ ∃ e, program.Mentions e ∧ s ∈ e.blocks

-- The shape of a program, node by node.
structure WellShaped (program : Program) : Prop where
  ident : ∀ name, program.Mentions (.ident name) → Token.ReadsAs .ident name
  keyword : ∀ p : Primitive, ¬ program.Mentions (.ident p.keyword)
  bind : ∀ name value, program.Contains (.bind name value) → Token.ReadsAs .ident name
  param : ∀ params body, program.Mentions (.function params body) → ∀ name ∈ params, Token.ReadsAs .ident name
  named : ∀ name value, program.Mentions (.named name value) →
    Token.ReadsAs .ident name ∨ ∃ p, Token.ReadsAs (.primitive p) name
  int : ∀ value, program.Mentions (.int value) → 0 ≤ value.toInt
  float : ∀ value, program.Mentions (.float value) → value.isNaN = false ∧ Number.isNegative value = false
  string : ∀ text, program.Mentions (.string text) → '"' ∉ text.toList
  body : ∀ kind args block, program.Mentions (.primitive kind args (some block)) → kind.acceptsBody
  binary : ∀ left op right, program.Mentions (.binary left op right) → left.hasBody = false
  call : ∀ callee args, program.Mentions (.call callee args) → callee.hasBody = false
  index : ∀ left key, program.Mentions (.index left key) → left.hasBody = false

variable {program : Program}

theorem isShaped_of_mentions (h : program.isShaped) {e : Expr} (he : program.Mentions e) : e.isShaped := by
  obtain ⟨s, hs, hi⟩ := he
  simp only [isShaped, everywhere, Bool.and_eq_true, List.all_eq_true] at h
  exact (Expr.everywhere_iff.1 (Expr.everywhere_of_inside hi (h.2 s hs))).1

theorem isShaped_of_contains (h : program.isShaped) {s : Stmt} (hs : program.Contains s) : s.isShaped := by
  rcases hs with hs | ⟨e, he, hs⟩
  · simp only [isShaped, Bool.and_eq_true, List.all_eq_true] at h
    exact h.1 s hs
  · exact Expr.isShaped_blocks (isShaped_of_mentions h he) hs

-- Every program that is read, in whole or in part, is well shaped.
theorem wellShaped_parse (source : String) : WellShaped (parse source).program := by
  have h := isShaped_parse source
  have ident : ∀ name, Mentions (parse source).program (.ident name) → Token.isName name :=
    fun name => isShaped_of_mentions h
  constructor
  case ident =>
    intro name hn
    exact Token.readsAs_of_isName (ident name hn)
  case keyword =>
    intro p hp
    have hname := ident p.keyword hp
    simp [Token.isName, Token.ofWord_keyword] at hname
  case bind =>
    intro name value hb
    exact Token.readsAs_of_isName (isShaped_of_contains h hb)
  case param =>
    intro params body hf name hn
    have hs := isShaped_of_mentions h hf
    simp only [Expr.isShaped, Bool.and_eq_true, List.all_eq_true] at hs
    exact Token.readsAs_of_isName (hs.1 name hn)
  case named =>
    intro name value hn
    exact Token.readsAs_of_isArgumentName (isShaped_of_mentions h hn)
  case int =>
    intro value hv
    simpa [Expr.isShaped] using isShaped_of_mentions h hv
  case float =>
    intro value hv
    simpa [Expr.isShaped] using isShaped_of_mentions h hv
  case string =>
    intro text ht hq
    have hs := isShaped_of_mentions h ht
    simp only [Expr.isShaped, List.all_eq_true] at hs
    simpa using hs _ hq
  case body =>
    intro kind args block hp
    have hs := isShaped_of_mentions h hp
    simp only [Expr.isShaped, Bool.and_eq_true, Bool.or_eq_true] at hs
    exact hs.1.resolve_right (by simp)
  case binary =>
    intro left op right hb
    simpa [Expr.isShaped] using isShaped_of_mentions h hb
  case call =>
    intro callee args hc
    simpa [Expr.isShaped] using isShaped_of_mentions h hc
  case index =>
    intro left key hi
    simpa [Expr.isShaped] using isShaped_of_mentions h hi

end Program

end SolidScript
