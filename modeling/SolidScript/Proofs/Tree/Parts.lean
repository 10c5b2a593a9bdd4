import Mathlib.Tactic.Common
import SolidScript.Tree

namespace SolidScript

-- The one expression of a statement.
def Stmt.value : Stmt → Expr
  | bind _ value => value
  | ret value => value
  | expr value => value

namespace Expr

-- The direct parts, in the order of the text.
def children : Expr → List Expr
  | ident _ | int _ | float _ | string _ | bool _ | undef => []
  | unary _ right => [right]
  | binary left _ right => [left, right]
  | cond condition consequence alternative =>
    condition :: (consequence ++ alternative.getD []).map Stmt.value
  | function _ body => body.map Stmt.value
  | call callee args => callee :: args
  | array elements => elements
  | hash pairs => pairs.flatMap fun (key, value) => [key, value]
  | index left key => [left, key]
  | named _ value => [value]
  | primitive _ args body => args ++ (body.getD []).map Stmt.value

theorem sizeOf_value_lt (s : Stmt) : sizeOf s.value < sizeOf s := by
  cases s with
  | bind name value =>
    simp only [Stmt.value, Stmt.bind.sizeOf_spec]
    omega
  | ret value => simp [Stmt.value]
  | expr value => simp [Stmt.value]

theorem sizeOf_lt_of_mem_values {c : Expr} {block : List Stmt} (h : c ∈ block.map Stmt.value) :
    sizeOf c < sizeOf block := by
  obtain ⟨s, hs, rfl⟩ := List.mem_map.1 h
  have := sizeOf_value_lt s
  have := List.sizeOf_lt_of_mem hs
  omega

theorem sizeOf_getD_le (body : Option (List Stmt)) : sizeOf (body.getD []) ≤ sizeOf body := by
  cases body <;> simp

theorem sizeOf_lt_of_mem_children {c e : Expr} (h : c ∈ e.children) : sizeOf c < sizeOf e := by
  cases e with
  | cond condition consequence alternative =>
    have hd := sizeOf_getD_le alternative
    simp only [children, List.map_append, List.mem_cons, List.mem_append] at h
    rw [cond.sizeOf_spec]
    rcases h with rfl | h | h
    · omega
    · have := sizeOf_lt_of_mem_values h
      omega
    · have := sizeOf_lt_of_mem_values h
      omega
  | function params body =>
    have := sizeOf_lt_of_mem_values h
    rw [function.sizeOf_spec]
    omega
  | call callee args =>
    simp only [children, List.mem_cons] at h
    rw [call.sizeOf_spec]
    rcases h with rfl | h
    · omega
    · have := List.sizeOf_lt_of_mem h
      omega
  | array elements =>
    have : sizeOf c < sizeOf elements := List.sizeOf_lt_of_mem h
    rw [array.sizeOf_spec]
    omega
  | hash pairs =>
    simp only [children, List.mem_flatMap, Prod.exists, List.mem_cons, List.not_mem_nil, or_false] at h
    obtain ⟨key, value, hp, hc⟩ := h
    have hs := List.sizeOf_lt_of_mem hp
    rw [Prod.mk.sizeOf_spec] at hs
    rw [hash.sizeOf_spec]
    rcases hc with rfl | rfl <;> omega
  | primitive kind args body =>
    have hd := sizeOf_getD_le body
    simp only [children, List.mem_append] at h
    rw [primitive.sizeOf_spec]
    rcases h with h | h
    · have := List.sizeOf_lt_of_mem h
      omega
    · have := sizeOf_lt_of_mem_values h
      omega
  | unary op right =>
    rw [List.mem_singleton.1 h, unary.sizeOf_spec]
    omega
  | binary left op right =>
    simp only [children, List.mem_cons, List.not_mem_nil, or_false] at h
    rw [binary.sizeOf_spec]
    rcases h with rfl | rfl <;> omega
  | index left key =>
    simp only [children, List.mem_cons, List.not_mem_nil, or_false] at h
    rw [index.sizeOf_spec]
    rcases h with rfl | rfl <;> omega
  | named name value =>
    rw [List.mem_singleton.1 h, named.sizeOf_spec]
    omega
  | _ => simp [children] at h

-- Induction over trees: whatever holds of an expression when it holds of its direct parts.
@[elab_as_elim]
theorem induction_children {P : Expr → Prop} (step : ∀ e, (∀ c ∈ e.children, P c) → P e) (e : Expr) : P e :=
  step e fun c hc =>
    have : sizeOf c < sizeOf e := sizeOf_lt_of_mem_children hc
    induction_children step c
termination_by sizeOf e

mutual

-- Whether `p` holds of the expression and of everything inside it.
def everywhere (p : Expr → Bool) : Expr → Bool
  | .ident name => p (.ident name)
  | .int value => p (.int value)
  | .float value => p (.float value)
  | .string text => p (.string text)
  | .bool value => p (.bool value)
  | .undef => p .undef
  | .unary op right => p (.unary op right) && everywhere p right
  | .binary left op right => p (.binary left op right) && (everywhere p left && everywhere p right)
  | .cond condition consequence alternative =>
    p (.cond condition consequence alternative) &&
      (everywhere p condition && (everywhereBlock p consequence && everywhereBlock? p alternative))
  | .function params body => p (.function params body) && everywhereBlock p body
  | .call callee args => p (.call callee args) && (everywhere p callee && everywhereEach p args)
  | .array elements => p (.array elements) && everywhereEach p elements
  | .hash pairs => p (.hash pairs) && everywherePairs p pairs
  | .index left key => p (.index left key) && (everywhere p left && everywhere p key)
  | .named name value => p (.named name value) && everywhere p value
  | .primitive kind args body =>
    p (.primitive kind args body) && (everywhereEach p args && everywhereBlock? p body)
termination_by structural e => e

def everywhereEach (p : Expr → Bool) : List Expr → Bool
  | [] => true
  | e :: rest => everywhere p e && everywhereEach p rest
termination_by structural es => es

def everywherePairs (p : Expr → Bool) : List (Expr × Expr) → Bool
  | [] => true
  | (key, value) :: rest => everywhere p key && (everywhere p value && everywherePairs p rest)
termination_by structural ps => ps

def everywhereBlock? (p : Expr → Bool) : Option (List Stmt) → Bool
  | none => true
  | some block => everywhereBlock p block
termination_by structural b => b

def everywhereBlock (p : Expr → Bool) : List Stmt → Bool
  | [] => true
  | s :: rest => everywhereStmt p s && everywhereBlock p rest
termination_by structural b => b

def everywhereStmt (p : Expr → Bool) : Stmt → Bool
  | .bind _ value => everywhere p value
  | .ret value => everywhere p value
  | .expr value => everywhere p value
termination_by structural s => s

end

section

variable {p q : Expr → Bool}

theorem everywhereEach_eq (es : List Expr) : everywhereEach p es = es.all (everywhere p) := by
  induction es with
  | nil => rfl
  | cons e es ih => simp [everywhereEach, ih]

theorem everywherePairs_eq (ps : List (Expr × Expr)) :
    everywherePairs p ps = (ps.flatMap fun (key, value) => [key, value]).all (everywhere p) := by
  induction ps with
  | nil => rfl
  | cons pair ps ih => simp [everywherePairs, ih]

theorem everywhereBlock_eq (block : List Stmt) :
    everywhereBlock p block = (block.map Stmt.value).all (everywhere p) := by
  induction block with
  | nil => rfl
  | cons s block ih => cases s <;> simp_all [everywhereBlock, everywhereStmt, Stmt.value]

theorem everywhereBlock?_eq (body : Option (List Stmt)) :
    everywhereBlock? p body = ((body.getD []).map Stmt.value).all (everywhere p) := by
  cases body with
  | none => rfl
  | some block => exact everywhereBlock_eq block

theorem everywhere_eq (e : Expr) : everywhere p e = (p e && e.children.all (everywhere p)) := by
  cases e <;> simp [everywhere, children, everywhereEach_eq, everywherePairs_eq, everywhereBlock_eq, everywhereBlock?_eq]

theorem everywhere_iff {e : Expr} : everywhere p e ↔ p e ∧ ∀ c ∈ e.children, everywhere p c := by
  rw [everywhere_eq]
  simp

theorem everywhere_mono (h : ∀ e, p e → q e) (e : Expr) : everywhere p e → everywhere q e := by
  induction e using induction_children with
  | step e ih =>
    rw [everywhere_iff, everywhere_iff]
    exact fun ⟨he, hc⟩ => ⟨h e he, fun c hm => ih c hm (hc c hm)⟩

end

end Expr

end SolidScript
