import SolidScript.Primitive

namespace SolidScript

inductive UnaryOp where
  | not
  | negate
deriving Repr, DecidableEq, Inhabited

inductive BinaryOp where
  | add
  | subtract
  | multiply
  | divide
  | lessThan
  | greaterThan
  | equal
  | notEqual
deriving Repr, DecidableEq, Inhabited

def UnaryOp.symbol : UnaryOp → String
  | not => "!"
  | negate => "-"

def BinaryOp.symbol : BinaryOp → String
  | add => "+"
  | subtract => "-"
  | multiply => "*"
  | divide => "/"
  | lessThan => "<"
  | greaterThan => ">"
  | equal => "=="
  | notEqual => "!="

mutual

inductive Expr where
  | ident (name : String)
  | int (value : Int64)
  | float (value : Float)
  | string (text : String)
  | bool (value : Bool)
  | undef
  | unary (op : UnaryOp) (right : Expr)
  | binary (left : Expr) (op : BinaryOp) (right : Expr)
  | cond (condition : Expr) (consequence : List Stmt) (alternative : Option (List Stmt))
  | function (params : List String) (body : List Stmt)
  | call (callee : Expr) (args : List Expr)
  | array (elements : List Expr)
  | hash (pairs : List (Expr × Expr))
  | index (left key : Expr)
  | named (name : String) (value : Expr)
  | primitive (kind : Primitive) (args : List Expr) (body : Option (List Stmt))

inductive Stmt where
  | bind (name : String) (value : Expr)
  | ret (value : Expr)
  | expr (value : Expr)

end

instance : Inhabited Expr := ⟨.undef⟩
instance : Inhabited Stmt := ⟨.expr .undef⟩

abbrev Block := List Stmt

abbrev Program := List Stmt

-- A primitive with a block. Such an expression ends at its closing brace.
def Expr.hasBody : Expr → Bool
  | primitive _ _ (some _) => true
  | _ => false

namespace Expr

mutual

def same : Expr → Expr → Bool
  | .ident a, .ident b => a == b
  | .int a, .int b => a == b
  | .float a, .float b => a == b
  | .string a, .string b => a == b
  | .bool a, .bool b => a == b
  | .undef, .undef => true
  | .unary op a, .unary op' b => op == op' && a.same b
  | .binary l op r, .binary l' op' r' => l.same l' && op == op' && r.same r'
  | .cond c t e, .cond c' t' e' => c.same c' && sameBlock t t' && sameBlock? e e'
  | .function ps b, .function ps' b' => ps == ps' && sameBlock b b'
  | .call f as, .call f' as' => f.same f' && sameList as as'
  | .array as, .array as' => sameList as as'
  | .hash ps, .hash ps' => samePairs ps ps'
  | .index l i, .index l' i' => l.same l' && i.same i'
  | .named n v, .named n' v' => n == n' && v.same v'
  | .primitive k as b, .primitive k' as' b' => k == k' && sameList as as' && sameBlock? b b'
  | _, _ => false
termination_by structural x _ => x

def sameList : List Expr → List Expr → Bool
  | [], [] => true
  | a :: as, b :: bs => a.same b && sameList as bs
  | _, _ => false
termination_by structural x _ => x

def samePairs : List (Expr × Expr) → List (Expr × Expr) → Bool
  | [], [] => true
  | (k, v) :: ps, (k', v') :: ps' => k.same k' && v.same v' && samePairs ps ps'
  | _, _ => false
termination_by structural x _ => x

def sameBlock? : Option (List Stmt) → Option (List Stmt) → Bool
  | none, none => true
  | some a, some b => sameBlock a b
  | _, _ => false
termination_by structural x _ => x

def sameBlock : List Stmt → List Stmt → Bool
  | [], [] => true
  | a :: as, b :: bs => sameStmt a b && sameBlock as bs
  | _, _ => false
termination_by structural x _ => x

def sameStmt : Stmt → Stmt → Bool
  | .bind n v, .bind n' v' => n == n' && v.same v'
  | .ret v, .ret v' => v.same v'
  | .expr v, .expr v' => v.same v'
  | _, _ => false
termination_by structural x _ => x

end

end Expr

instance : BEq Expr := ⟨Expr.same⟩
instance : BEq Stmt := ⟨Expr.sameStmt⟩

end SolidScript
