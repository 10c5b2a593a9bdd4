import SolidScript.Proofs.Tree.Shape

namespace SolidScript

namespace Expr

-- The names of the arguments that the text starts with, whose values are still being read where the text ends.
def names : Expr → List String
  | named name value => if value.hasBody then [] else name :: value.names
  | call callee _ => callee.names
  | _ => []

-- A value with the names in front of it.
def close (names : List String) (value : Expr) : Expr := names.foldr named value

mutual

-- What is read behind these names.
def core : Expr → Expr
  | .ident name => .ident name
  | .int value => .int value
  | .float value => .float value
  | .string text => .string text
  | .bool value => .bool value
  | .undef => .undef
  | .unary op right => .unary op (core right)
  | .binary left op right => close left.names (.binary (core left) op (core right))
  | .cond condition consequence alternative =>
    .cond (close condition.names (core condition)) (rereadBlock consequence) (rereadBlock? alternative)
  | .function params body => .function params (rereadBlock body)
  | .call callee args => .call (core callee) (rereadEach args)
  | .array elements => .array (rereadEach elements)
  | .hash pairs => .hash (rereadPairs pairs)
  | .index left key => close left.names (.index (core left) (close key.names (core key)))
  | .named name value => if value.hasBody then .named name (core value) else core value
  | .primitive kind args body => .primitive kind (rereadEach args) (rereadBlock? body)
termination_by structural e => e

def rereadEach : List Expr → List Expr
  | [] => []
  | e :: es => close e.names (core e) :: rereadEach es
termination_by structural es => es

def rereadPairs : List (Expr × Expr) → List (Expr × Expr)
  | [] => []
  | (key, value) :: ps => (close key.names (core key), close value.names (core value)) :: rereadPairs ps
termination_by structural ps => ps

def rereadBlock? : Option (List Stmt) → Option (List Stmt)
  | none => none
  | some block => some (rereadBlock block)
termination_by structural b => b

def rereadBlock : List Stmt → List Stmt
  | [] => []
  | s :: block => rereadStmt s :: rereadBlock block
termination_by structural b => b

def rereadStmt : Stmt → Stmt
  | .bind name value => .bind name (close value.names (core value))
  | .ret value => .ret (close value.names (core value))
  | .expr value => .expr (close value.names (core value))
termination_by structural s => s

end

-- The tree that the text of a tree reads as, if it reads at all.
def reread (e : Expr) : Expr := close e.names e.core

theorem names_of_not_isOpen {e : Expr} (h : e.isOpen = false) : e.names = [] := by
  induction e using induction_children with
  | step e ih =>
    cases e with
    | named name value => simp [isOpen] at h
    | call callee args => exact ih callee (by simp [children]) h
    | _ => rfl

theorem names_of_hasBody {e : Expr} (h : e.hasBody) : e.names = [] := by
  cases e <;> first | rfl | simp [hasBody] at h

@[simp] theorem hasBody_close (names : List String) (value : Expr) :
    (close names value).hasBody = (names.isEmpty && value.hasBody) := by
  cases names <;> simp [close, hasBody]

theorem hasBody_core_of_hasBody {e : Expr} (h : e.hasBody) : e.core.hasBody := by
  match e, h with
  | primitive kind args (some block), _ => rfl

-- An operator may follow what is read in the end wherever it may follow the tree itself.
theorem hasBody_core {e : Expr} (h : e.hasBody = false) : e.core.hasBody = false := by
  induction e using induction_children with
  | step e ih =>
    cases e with
    | named name value =>
      by_cases hv : value.hasBody
      · rw [core, if_pos hv, hasBody]
        nofun
      · simpa [core, hv] using ih value (by simp [children]) (by simpa using hv)
    | binary left op right => rw [core, hasBody_close]; simp [hasBody]
    | index left key => rw [core, hasBody_close]; simp [hasBody]
    | primitive kind args body =>
      cases body with
      | none => simp [core, rereadBlock?, hasBody]
      | some block => simp [hasBody] at h
    | _ => simp [core, hasBody]

theorem endsLeft_of_names {e : Expr} (h : e.names = []) : e.endsLeft := by
  cases e with
  | named name value =>
    by_contra hv
    simp [names, endsLeft] at h hv
    simp [h] at hv
  | _ => rfl

theorem names_of_closesLeft {e : Expr} (h : everywhere closesLeft e) (he : e.endsLeft) : e.names = [] := by
  induction e using induction_children with
  | step e ih =>
    obtain ⟨hl, hc⟩ := everywhere_iff.1 h
    cases e with
    | named name value =>
      simp only [endsLeft] at he
      simp [names, he]
    | call callee args =>
      have hm : callee ∈ (call callee args).children := by simp [children]
      exact ih callee hm (hc callee hm) hl
    | _ => rfl

theorem rereadEach_eq (es : List Expr) : rereadEach es = es.map reread := by
  induction es with
  | nil => rfl
  | cons e es ih => simp [rereadEach, reread, ih]

theorem rereadPairs_eq (ps : List (Expr × Expr)) : rereadPairs ps = ps.map fun p => (p.1.reread, p.2.reread) := by
  induction ps with
  | nil => rfl
  | cons p ps ih => simp [rereadPairs, reread, ih]

theorem rereadBlock_eq (block : List Stmt) : rereadBlock block = block.map rereadStmt := by
  induction block with
  | nil => rfl
  | cons s block ih => simp [rereadBlock, ih]

theorem rereadStmt_eq_iff (s : Stmt) : rereadStmt s = s ↔ s.value.reread = s.value := by
  cases s <;> simp [rereadStmt, Stmt.value, reread]

theorem map_eq_self_iff {α : Type} {f : α → α} {as : List α} : as.map f = as ↔ ∀ a ∈ as, f a = a := by
  induction as with
  | nil => simp
  | cons a as ih => simp [ih]

theorem rereadBlock_eq_iff {block : List Stmt} : rereadBlock block = block ↔ ∀ s ∈ block, s.value.reread = s.value := by
  simp only [rereadBlock_eq, map_eq_self_iff, rereadStmt_eq_iff]

theorem rereadEach_eq_iff {es : List Expr} : rereadEach es = es ↔ ∀ e ∈ es, e.reread = e := by
  rw [rereadEach_eq, map_eq_self_iff]

theorem rereadPairs_eq_iff {ps : List (Expr × Expr)} :
    rereadPairs ps = ps ↔ ∀ p ∈ ps, p.1.reread = p.1 ∧ p.2.reread = p.2 := by
  rw [rereadPairs_eq, map_eq_self_iff]
  simp [Prod.ext_iff]

theorem rereadBlock?_eq_iff {body : Option (List Stmt)} :
    rereadBlock? body = body ↔ ∀ s ∈ body.getD [], s.value.reread = s.value := by
  cases body with
  | none => simp [rereadBlock?]
  | some block => simp [rereadBlock?, rereadBlock_eq_iff]

-- With a name in front it is another kind of tree.
theorem close_eq_iff {names : List String} {e f : Expr} (hf : f.isNamed = false) :
    close names e = f ↔ names = [] ∧ e = f := by
  cases names with
  | nil => simp [close]
  | cons name names =>
    simp only [close, List.foldr_cons, List.cons_ne_nil, false_and, iff_false]
    rintro rfl
    simp [isNamed] at hf

-- A tree in front of an operator reads as itself and leaves the operator to others.
theorem left_iff {e : Expr} (h : e.reread = e ↔ everywhere closesLeft e) :
    e.names = [] ∧ e.core = e ↔ e.endsLeft ∧ e.reread = e := by
  constructor
  · rintro ⟨hn, hc⟩
    refine ⟨endsLeft_of_names hn, ?_⟩
    rw [reread, hn]
    exact hc
  · rintro ⟨he, hr⟩
    have hn := names_of_closesLeft (h.1 hr) he
    rw [reread, hn] at hr
    exact ⟨hn, hr⟩

theorem reread_of_not_isOpen {e : Expr} (h : e.isOpen = false) : e.reread = e.core := by
  rw [reread, names_of_not_isOpen h]
  rfl

theorem reread_named (name : String) (value : Expr) : (named name value).reread = named name value.reread := by
  by_cases hb : value.hasBody
  · simp [reread, names, core, hb, names_of_hasBody hb, close]
  · simp [reread, names, core, hb, close]

-- A tree that reads at all reads as itself exactly if no value of an argument can take what follows it.
theorem reread_eq_iff {e : Expr} (h : everywhere closesRight e) : e.reread = e ↔ everywhere closesLeft e := by
  induction e using induction_children with
  | step e ih =>
    obtain ⟨hr, hc⟩ := everywhere_iff.1 h
    replace ih : ∀ c ∈ e.children, (c.reread = c ↔ everywhere closesLeft c) := fun c hm => ih c hm (hc c hm)
    have hch : (∀ c ∈ e.children, everywhere closesLeft c) ↔ ∀ c ∈ e.children, c.reread = c :=
      forall₂_congr fun c hm => (ih c hm).symm
    rw [everywhere_iff, hch]
    cases e with
    | unary op right =>
      have ho : right.isOpen = false := by simpa [closesRight] using hr
      have he : (unary op right).reread = unary op right.core := rfl
      rw [he, unary.injEq, ← reread_of_not_isOpen ho]
      simp [children, closesLeft]
    | binary left op right =>
      have ho : right.isOpen = false := by simpa [closesRight] using hr
      have hl := left_iff (ih left (by simp [children]))
      have he : (binary left op right).reread = close left.names (binary left.core op right.core) := rfl
      rw [he, close_eq_iff rfl, binary.injEq, ← and_assoc, hl, ← reread_of_not_isOpen ho]
      simp [children, closesLeft, and_assoc]
    | cond condition consequence alternative =>
      have he : (cond condition consequence alternative).reread =
        cond condition.reread (rereadBlock consequence) (rereadBlock? alternative) := rfl
      rw [he, cond.injEq, rereadBlock_eq_iff, rereadBlock?_eq_iff]
      simp [children, closesLeft, or_imp, forall_and]
    | function params body =>
      have he : (function params body).reread = function params (rereadBlock body) := rfl
      rw [he, function.injEq, rereadBlock_eq_iff]
      simp [children, closesLeft]
    | call callee args =>
      have hl := left_iff (ih callee (by simp [children]))
      have he : (call callee args).reread = close callee.names (call callee.core (rereadEach args)) := rfl
      rw [he, close_eq_iff rfl, call.injEq, ← and_assoc, hl, rereadEach_eq_iff]
      simp [children, closesLeft, and_assoc]
    | array elements =>
      have he : (array elements).reread = array (rereadEach elements) := rfl
      rw [he, array.injEq, rereadEach_eq_iff]
      simp [children, closesLeft]
    | hash pairs =>
      have he : (hash pairs).reread = hash (rereadPairs pairs) := rfl
      rw [he, hash.injEq, rereadPairs_eq_iff]
      simp only [children, closesLeft, List.mem_flatMap, true_and]
      grind
    | index left key =>
      have hl := left_iff (ih left (by simp [children]))
      have he : (index left key).reread = close left.names (index left.core key.reread) := rfl
      rw [he, close_eq_iff rfl, index.injEq, ← and_assoc, hl]
      simp [children, closesLeft, and_assoc]
    | named name value =>
      rw [reread_named, named.injEq]
      simp [children, closesLeft]
    | primitive kind args body =>
      have he : (primitive kind args body).reread = primitive kind (rereadEach args) (rereadBlock? body) := rfl
      rw [he, primitive.injEq, rereadEach_eq_iff, rereadBlock?_eq_iff]
      simp [children, closesLeft, or_imp, forall_and]
    | _ => simp [reread, names, close, core, children, closesLeft]

end Expr

end SolidScript
