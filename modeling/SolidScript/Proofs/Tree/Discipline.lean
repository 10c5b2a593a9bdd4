import SolidScript.Proofs.Tree.Parts

namespace SolidScript

namespace Expr

mutual

-- Whether a conditional reaches a return through its statements, and through the conditionals among them. Functions
-- and primitives inside of it have returns of their own.
def mayReturn : Expr → Bool
  | .cond _ consequence alternative => blockMayReturn consequence || blockMayReturn? alternative
  | _ => false
termination_by structural e => e

def blockMayReturn? : Option (List Stmt) → Bool
  | none => false
  | some block => blockMayReturn block
termination_by structural body => body

def blockMayReturn : List Stmt → Bool
  | [] => false
  | s :: rest => stmtMayReturn s || blockMayReturn rest
termination_by structural block => block

def stmtMayReturn : Stmt → Bool
  | .bind _ _ => false
  | .ret _ => true
  | .expr value => mayReturn value
termination_by structural s => s

end

theorem blockMayReturn?_eq (body : Option (List Stmt)) : blockMayReturn? body = blockMayReturn (body.getD []) := by
  cases body <;> rfl

end Expr

-- The value of a statement that uses one.
def Stmt.keepsReturns : Stmt → Bool
  | bind _ value | ret value => !value.mayReturn
  | expr _ => true

namespace Expr

-- No direct part that is used as a value reaches a return.
def keepsReturns : Expr → Bool
  | ident _ | int _ | float _ | string _ | bool _ | undef => true
  | unary _ right => !right.mayReturn
  | binary left _ right => !left.mayReturn && !right.mayReturn
  | cond condition consequence alternative =>
    !condition.mayReturn && (consequence.all Stmt.keepsReturns && (alternative.getD []).all Stmt.keepsReturns)
  | function _ body => body.all Stmt.keepsReturns
  | call callee args => !callee.mayReturn && args.all (!·.mayReturn)
  | array elements => elements.all (!·.mayReturn)
  | hash pairs => pairs.all fun (key, value) => !key.mayReturn && !value.mayReturn
  | index left key => !left.mayReturn && !key.mayReturn
  | named _ value => !value.mayReturn
  | primitive _ args body => args.all (!·.mayReturn) && (body.getD []).all Stmt.keepsReturns

def isDisciplined (e : Expr) : Bool := e.everywhere keepsReturns

end Expr

def Stmt.isDisciplined (s : Stmt) : Bool := s.keepsReturns && s.value.isDisciplined

-- Every conditional that is no statement has branches that reach no return.
def Program.isDisciplined (program : Program) : Bool := program.all Stmt.isDisciplined

namespace Expr

-- A part whose value is used.
def isOperand (e : Expr) : Bool := e.isDisciplined && !e.mayReturn

theorem isOperand_iff {e : Expr} : e.isOperand ↔ e.isDisciplined ∧ e.mayReturn = false := by simp [isOperand]

theorem isDisciplined_iff {e : Expr} : e.isDisciplined ↔ e.keepsReturns ∧ ∀ c ∈ e.children, c.isDisciplined :=
  everywhere_iff

theorem all_isOperand {es : List Expr} : (∀ e ∈ es, e.isOperand) ↔ es.all (!·.mayReturn) ∧ ∀ e ∈ es, e.isDisciplined := by
  simp only [isOperand_iff, List.all_eq_true, Bool.not_eq_eq_eq_not, Bool.not_true]
  exact ⟨fun h => ⟨fun e he => (h e he).2, fun e he => (h e he).1⟩, fun h e he => ⟨h.2 e he, h.1 e he⟩⟩

theorem all_isDisciplined {block : List Stmt} : block.all Stmt.isDisciplined ↔
    block.all Stmt.keepsReturns ∧ ∀ e ∈ block.map Stmt.value, e.isDisciplined := by
  simp only [Stmt.isDisciplined, List.all_eq_true, Bool.and_eq_true, List.forall_mem_map]
  exact ⟨fun h => ⟨fun s hs => (h s hs).1, fun s hs => (h s hs).2⟩, fun h s hs => ⟨h.1 s hs, h.2 s hs⟩⟩

section Parts

variable {condition left right key callee value : Expr} {elements args : List Expr} {block consequence : List Stmt}
variable {alternative body : Option (List Stmt)}

theorem isDisciplined_unary {op : UnaryOp} : (unary op right).isDisciplined ↔ right.isOperand := by
  simp only [isDisciplined_iff (e := unary op right), keepsReturns, children, isOperand_iff]
  simp [and_comm]

theorem isDisciplined_binary {op : BinaryOp} :
    (binary left op right).isDisciplined ↔ left.isOperand ∧ right.isOperand := by
  simp only [isDisciplined_iff (e := binary left op right), keepsReturns, children, isOperand_iff]
  simp [and_comm, and_left_comm, and_assoc]

theorem isDisciplined_cond : (cond condition consequence alternative).isDisciplined ↔
    condition.isOperand ∧ consequence.all Stmt.isDisciplined ∧ (alternative.getD []).all Stmt.isDisciplined := by
  simp only [isDisciplined_iff (e := cond condition consequence alternative), keepsReturns, children, isOperand_iff,
    all_isDisciplined, List.map_append, List.forall_mem_cons, List.forall_mem_append, Bool.and_eq_true]
  simp only [Bool.not_eq_eq_eq_not, Bool.not_true, and_comm, and_left_comm, and_assoc]

theorem isDisciplined_function {params : List String} :
    (function params block).isDisciplined ↔ block.all Stmt.isDisciplined := by
  rw [isDisciplined_iff, all_isDisciplined]
  rfl

theorem isDisciplined_call : (call callee args).isDisciplined ↔ callee.isOperand ∧ ∀ e ∈ args, e.isOperand := by
  simp only [isDisciplined_iff (e := call callee args), keepsReturns, children, isOperand_iff (e := callee),
    all_isOperand, List.forall_mem_cons, Bool.and_eq_true]
  simp only [Bool.not_eq_eq_eq_not, Bool.not_true, and_left_comm, and_assoc]

theorem isDisciplined_array : (array elements).isDisciplined ↔ ∀ e ∈ elements, e.isOperand := by
  rw [isDisciplined_iff, all_isOperand]
  rfl

theorem isDisciplined_hash {pairs : List (Expr × Expr)} :
    (hash pairs).isDisciplined ↔ ∀ pair ∈ pairs, pair.1.isOperand ∧ pair.2.isOperand := by
  simp only [isDisciplined_iff (e := hash pairs), keepsReturns, children, isOperand_iff, List.all_eq_true,
    List.forall_mem_flatMap, Bool.and_eq_true, Bool.not_eq_eq_eq_not, Bool.not_true]
  simp only [List.forall_mem_cons, List.not_mem_nil, false_imp_iff, implies_true, and_true]
  grind

theorem isDisciplined_index : (index left key).isDisciplined ↔ left.isOperand ∧ key.isOperand := by
  simp only [isDisciplined_iff (e := index left key), keepsReturns, children, isOperand_iff]
  simp [and_comm, and_left_comm, and_assoc]

theorem isDisciplined_named {name : String} : (named name value).isDisciplined ↔ value.isOperand := by
  simp only [isDisciplined_iff (e := named name value), keepsReturns, children, isOperand_iff]
  simp [and_comm]

theorem isDisciplined_primitive {kind : Primitive} : (primitive kind args body).isDisciplined ↔
    (∀ e ∈ args, e.isOperand) ∧ (body.getD []).all Stmt.isDisciplined := by
  simp only [isDisciplined_iff (e := primitive kind args body), keepsReturns, children, all_isOperand,
    all_isDisciplined, List.forall_mem_append, Bool.and_eq_true]
  simp only [and_comm, and_left_comm, and_assoc]

end Parts

end Expr

end SolidScript
