import SolidScript.Eval.Program

namespace SolidScript

-- The outcome of a run that ends at its first failure. The failure is a way to end and no value.
namespace Eval

inductive Outcome (α : Type) where
  | done (value : α) (machine : Machine)
  | faulted (fault : Fault) (machine : Machine)
  | exhausted

end Eval

def Eval (α : Type) : Type := Machine → Eval.Outcome α

namespace Eval

protected def pure (value : α) : Eval α := fun m => .done value m

protected def bind (x : Eval α) (f : α → Eval β) : Eval β := fun m =>
  match x m with
  | .done value m => f value m
  | .faulted fault m => .faulted fault m
  | .exhausted => .exhausted

instance : Monad Eval where
  pure := Eval.pure
  bind := Eval.bind

theorem bind_assoc (x : Eval α) (f : α → Eval β) (g : β → Eval γ) : x >>= f >>= g = x >>= fun a => f a >>= g := by
  funext m
  change Eval.bind (Eval.bind x f) g m = Eval.bind x (fun a => Eval.bind (f a) g) m
  unfold Eval.bind
  cases x m <;> rfl

def outOfSteps : Eval α := fun _ => .exhausted

def fault (fault : Fault) : Eval α := fun m => .faulted fault m

def ofExcept (x : Except Fault α) : Eval α := fun m =>
  match x with
  | .ok value => .done value m
  | .error fault => .faulted fault m

-- A failure that was stored fails again where it is met.
def raise : Value → Eval Value
  | .failure cause => fault cause
  | value => return value

def freshRef : Eval Nat := fun m => .done m.nextRef { m with nextRef := m.nextRef + 1 }

def printLine (line : String) : Eval Unit := fun m =>
  .done () { m with printed := m.printed ++ line ++ "\n" }

def bindName (scope : Nat) (name : String) (value : Value) : Eval Unit := fun m =>
  .done () { m with scopes := m.scopes.set scope name value }

def enterScope (outer : Nat) (bindings : List (String × Value)) : Eval Nat := fun m =>
  .done m.scopes.next { m with scopes := m.scopes.enclose outer bindings }

def readName (scope : Nat) (name : String) : Eval Value := fun m =>
  match m.scopes.get? scope name with
  | some value => raise value m
  | none =>
    match Builtin.ofName? name with
    | some builtin => .done (.builtin builtin) m
    | none => .faulted (.unbound name) m

def newArray (elements : List Value) : Eval Value := do
  return .array (← freshRef) elements

def printEach : List Value → Eval Unit
  | [] => return ()
  | v :: others => do
    printLine v.inspect
    printEach others

def builtin (b : Builtin) (args : List Value) : Eval Value :=
  match b with
  | .len => ofExcept (Builtin.length args)
  | .first => do raise ((← ofExcept (Builtin.first.onlyArray args)).headD .null)
  | .last => do raise ((← ofExcept (Builtin.last.onlyArray args)).getLastD .null)
  | .rest => do
    match ← ofExcept (Builtin.rest.onlyArray args) with
    | [] => return .null
    | _ :: elements => newArray elements
  | .push => do
    let (elements, value) ← ofExcept (Builtin.arrayAndValue args)
    newArray (elements ++ [value])
  | .puts => do
    printEach args
    return .null

def each (run : Expr → Eval Value) : List Expr → Eval (List Value)
  | [] => return []
  | e :: rest => do
    let value ← run e
    let values ← each run rest
    return value :: values

def entries (run : Expr → Eval Value) :
    List (Expr × Expr) → List (Key × HashPair Value) → Eval (List (Key × HashPair Value))
  | [], found => return found
  | (k, v) :: rest, found => do
    let key ← run k
    match key.key? with
    | none => fault (.unusableKey key.type)
    | some usable => do
      let value ← run v
      entries run rest (Value.insertEntry usable ⟨key, value⟩ found)

def stmt (run : Expr → Eval Value) (scope : Nat) : Stmt → Eval Value
  | .bind name value => do
    let value ← run value
    bindName scope name value
    return .null
  | .ret value => do
    let value ← run value
    return .returned value
  | .expr value => run value

def stmts (run : Expr → Eval Value) (scope : Nat) : List Stmt → Value → Eval Value
  | [], value => return value
  | s :: rest, _ => do
    let value ← stmt run scope s
    match value with
    | .returned inner => return .returned inner
    | value => stmts run scope rest value

def collect (run : Expr → Eval Value)
    (branch : Expr → Block → Option Block → Eval (List Value × Bool)) (scope : Nat) :
    List Stmt → Eval (List Value × Bool)
  | [] => return ([], false)
  | .expr (.cond condition consequence alternative) :: rest => do
    let (found, ended) ← branch condition consequence alternative
    if ended then return (found, true)
    else do
      let (more, ended) ← collect run branch scope rest
      return (found ++ more, ended)
  | s :: rest => do
    let value ← stmt run scope s
    match value with
    | .returned inner => return (inner.solids, true)
    | value => do
      let (more, ended) ← collect run branch scope rest
      return (value.solids ++ more, ended)

def call (run : Nat → Expr → Eval Value) (callee : Value) (args : List Value) : Eval Value :=
  match callee with
  | .function _ params body scope =>
    if params.length = args.length then do
      let inner ← enterScope scope (params.zip args)
      let value ← stmts (run inner) inner body .null
      raise value.unreturned
    else fault (.callArity params.length args.length)
  | .builtin b => builtin b args
  | callee => fault (.notCallable callee.type)

def node (run : Nat → Expr → Eval Value) (gather : Nat → Block → Eval (List Value × Bool)) (scope : Nat) :
    Expr → Eval Value
  | .ident name => readName scope name
  | .int value => return .int value
  | .float value => return .float value
  | .string text => return .string text
  | .bool value => return .bool value
  | .undef => return .null
  | .unary op right => do
    let right ← run scope right
    ofExcept (op.apply right)
  | .binary left op right => do
    let left ← run scope left
    let right ← run scope right
    ofExcept (op.apply left right)
  | .cond condition consequence alternative => do
    let condition ← run scope condition
    stmts (run scope) scope (if condition.isTruthy then consequence else alternative.getD []) .null
  | .function params body => do return .function (← freshRef) params body scope
  | .call callee args => do
    let callee ← run scope callee
    let args ← each (run scope) args
    call run callee args
  | .array elements => do
    let elements ← each (run scope) elements
    return .array (← freshRef) elements
  | .hash pairs => do
    let entries ← entries (run scope) pairs []
    return .hash (← freshRef) entries
  | .index left key => do
    let left ← run scope left
    let key ← run scope key
    raise (← ofExcept (left.index key))
  | .named name value => do
    let value ← run scope value
    return .named (← freshRef) name value
  | .primitive kind args body => do
    let args ← each (run scope) args
    match body with
    | none => return .primitive (← freshRef) kind args none
    | some block => do
      let (children, _) ← gather scope block
      return .primitive (← freshRef) kind args (some children)

mutual

def expr : Nat → Nat → Expr → Eval Value
  | 0, _, _ => outOfSteps
  | steps + 1, scope, e => node (expr steps) (gather steps) scope e
termination_by structural steps => steps

def gather : Nat → Nat → Block → Eval (List Value × Bool)
  | 0, scope, block => collect (fun _ => outOfSteps) (fun _ _ _ => outOfSteps) scope block
  | steps + 1, scope, block =>
    collect (node (expr steps) (gather steps) scope)
      (fun condition consequence alternative => do
        let condition ← expr steps scope condition
        gather steps scope (if condition.isTruthy then consequence else alternative.getD []))
      scope block
termination_by structural steps => steps

end

def program (steps scope : Nat) (program : Program) : Eval Value := do
  let value ← stmts (expr steps scope) scope program .null
  raise value.unreturned

def scene (steps scope : Nat) (program : Program) : Eval (List Value) := do
  let (found, _) ← gather steps scope program
  return found

-- Whether a statement is left to `branch` where primitives are collected.
def isBranch : Stmt → Bool
  | .expr (.cond ..) => true
  | _ => false

theorem eq_cond_of_isBranch {s : Stmt} (h : isBranch s) : ∃ condition consequence alternative,
    s = .expr (.cond condition consequence alternative) := by
  unfold isBranch at h
  split at h
  · exact ⟨_, _, _, rfl⟩
  · cases h

theorem collect_cons {run : Expr → Eval Value} {branch : Expr → Block → Option Block → Eval (List Value × Bool)}
    {scope : Nat} {s : Stmt} (h : isBranch s = false) (rest : Block) :
    collect run branch scope (s :: rest) = (do
      let value ← stmt run scope s
      match value with
      | .returned inner => return (inner.solids, true)
      | value => do
        let (more, ended) ← collect run branch scope rest
        return (value.solids ++ more, ended)) := by
  cases s with
  | bind name value => rfl
  | ret value => rfl
  | expr value => cases value <;> first | rfl | cases h

-- What the rest of a block adds to the primitives that are there.
def behind (found : List Value) (rest : Eval (List Value × Bool)) : Eval (List Value × Bool) := do
  let (more, ended) ← rest
  return (found ++ more, ended)

end Eval

end SolidScript
