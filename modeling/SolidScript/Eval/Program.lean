import SolidScript.Eval.Builtins
import SolidScript.Eval.Operators
import SolidScript.Tree.Parser

namespace SolidScript

namespace Value

-- Takes off one mark of a return statement.
def unreturned : Value → Value
  | returned value => value
  | value => value

mutual

-- The primitives that a value stands for in a scene: itself, or those of an array at any depth.
def solids : Value → List Value
  | .primitive ref kind args body => [.primitive ref kind args body]
  | .array _ elements => solidsEach elements
  | _ => []
termination_by structural v => v

def solidsEach : List Value → List Value
  | [] => []
  | v :: rest => solids v ++ solidsEach rest
termination_by structural vs => vs

end

end Value

namespace Run

-- Values from left to right, or the first failure among them.
@[specialize] def each (run : Expr → Run Value) : List Expr → Run (Except Value (List Value))
  | [] => return .ok []
  | e :: rest => do
    let value ← run e
    if value.isFailure then return .error value
    match ← each run rest with
    | .error failure => return .error failure
    | .ok values => return .ok (value :: values)

-- Adds the pairs of a hash to `found`. A key is checked before its value is evaluated.
@[specialize] def entries (run : Expr → Run Value) :
    List (Expr × Expr) → List (Key × HashPair Value) → Run (Except Value (List (Key × HashPair Value)))
  | [], found => return .ok found
  | (k, v) :: rest, found => do
    let key ← run k
    if key.isFailure then return .error key
    match key.key? with
    | none => return .error (.failure (.unusableKey key.type))
    | some usable => do
      let value ← run v
      if value.isFailure then return .error value
      entries run rest (Value.insertEntry usable ⟨key, value⟩ found)

@[inline] def stmt (run : Expr → Run Value) (scope : Nat) : Stmt → Run Value
  | .bind name value => do
    let value ← run value
    if value.isFailure then return value
    bindName scope name value
    return .null
  | .ret value => do
    let value ← run value
    if value.isFailure then return value
    return .returned value
  | .expr value => run value

-- Runs statements up to the first return or failure. A return keeps its mark, which ends the blocks around it, too.
-- The result is the value of the last statement that ran, and `value` if none did.
@[specialize] def stmts (run : Expr → Run Value) (scope : Nat) : List Stmt → Value → Run Value
  | [], value => return value
  | s :: rest, _ => do
    let value ← stmt run scope s
    match value with
    | .returned _ | .failure _ => return value
    | value => stmts run scope rest value

-- As `stmts`, for the statements of a program. A return ends it with the value itself.
@[specialize] def outermost (run : Expr → Run Value) (scope : Nat) : List Stmt → Value → Run Value
  | [], value => return value
  | s :: rest, _ => do
    let value ← stmt run scope s
    match value with
    | .returned inner => return inner
    | .failure _ => return value
    | value => outermost run scope rest value

-- Runs statements and collects the primitives that they stand for. A conditional that is a statement is left to
-- `branch`. The flag says whether a return has ended the run.
@[specialize] def collect (run : Expr → Run Value)
    (branch : Expr → Block → Option Block → Run (Except Fault (List Value × Bool))) (scope : Nat) :
    List Stmt → Run (Except Fault (List Value × Bool))
  | [] => return .ok ([], false)
  | .expr (.cond condition consequence alternative) :: rest => do
    match ← branch condition consequence alternative with
    | .error fault => return .error fault
    | .ok (found, true) => return .ok (found, true)
    | .ok (found, false) =>
      match ← collect run branch scope rest with
      | .error fault => return .error fault
      | .ok (more, ended) => return .ok (found ++ more, ended)
  | s :: rest => do
    let value ← stmt run scope s
    match value with
    | .failure fault => return .error fault
    | .returned inner => return .ok (inner.solids, true)
    | value =>
      match ← collect run branch scope rest with
      | .error fault => return .error fault
      | .ok (more, ended) => return .ok (value.solids ++ more, ended)

-- Calls a function with values for its parameters.
@[inline] def call (run : Nat → Expr → Run Value) (callee : Value) (args : List Value) : Run Value :=
  match callee with
  | .function _ params body scope =>
    if params.length = args.length then do
      let inner ← enterScope scope (params.zip args)
      let value ← stmts (run inner) inner body .null
      return value.unreturned
    else return .failure (.callArity params.length args.length)
  | .builtin builtin => builtin.apply args
  | callee => return .failure (.notCallable callee.type)

-- One expression, where `run` evaluates the expressions inside it and `gather` collects from the bodies of primitives.
-- Each value of an expression inside is tested before it is used.
@[inline] def node (run : Nat → Expr → Run Value) (gather : Nat → Block → Run (Except Fault (List Value × Bool)))
    (scope : Nat) : Expr → Run Value
  | .ident name => readName scope name
  | .int value => return .int value
  | .float value => return .float value
  | .string text => return .string text
  | .bool value => return .bool value
  | .undef => return .null
  | .unary op right => do
    let right ← run scope right
    if right.isFailure then return right
    return .ofExcept (op.apply right)
  | .binary left op right => do
    let left ← run scope left
    if left.isFailure then return left
    let right ← run scope right
    if right.isFailure then return right
    return .ofExcept (op.apply left right)
  | .cond condition consequence alternative => do
    let condition ← run scope condition
    if condition.isFailure then return condition
    stmts (run scope) scope (if condition.isTruthy then consequence else alternative.getD []) .null
  | .function params body => do return .function (← freshRef) params body scope
  | .call callee args => do
    let callee ← run scope callee
    if callee.isFailure then return callee
    match ← each (run scope) args with
    | .error failure => return failure
    | .ok args => call run callee args
  | .array elements => do
    match ← each (run scope) elements with
    | .error failure => return failure
    | .ok elements => return .array (← freshRef) elements
  | .hash pairs => do
    match ← entries (run scope) pairs [] with
    | .error failure => return failure
    | .ok entries => return .hash (← freshRef) entries
  | .index left key => do
    let left ← run scope left
    if left.isFailure then return left
    let key ← run scope key
    if key.isFailure then return key
    return .ofExcept (left.index key)
  | .named name value => do
    let value ← run scope value
    if value.isFailure then return value
    return .named (← freshRef) name value
  | .primitive kind args body => do
    match ← each (run scope) args with
    | .error failure => return failure
    | .ok args =>
      match body with
      | none => return .primitive (← freshRef) kind args none
      | some block =>
        match ← gather scope block with
        | .error fault => return .failure fault
        | .ok (children, _) => return .primitive (← freshRef) kind args (some children)

mutual

-- The value of an expression whose parts are nested at most `steps` deep in the run.
def expr : Nat → Nat → Expr → Run Value
  | 0, _, _ => outOfSteps
  | steps + 1, scope, e => node (expr steps) (gather steps) scope e
termination_by structural steps => steps

-- The primitives that statements stand for. A conditional that is a statement gives those of all statements of its
-- branch.
def gather : Nat → Nat → Block → Run (Except Fault (List Value × Bool))
  | 0, scope, block => collect (fun _ => outOfSteps) (fun _ _ _ => outOfSteps) scope block
  | steps + 1, scope, block =>
    collect (node (expr steps) (gather steps) scope)
      (fun condition consequence alternative => do
        let condition ← expr steps scope condition
        match condition with
        | .failure fault => return .error fault
        | condition => gather steps scope (if condition.isTruthy then consequence else alternative.getD []))
      scope block
termination_by structural steps => steps

end

-- The value of the last statement, or of the return statement or the failure that ended the program.
def program (steps scope : Nat) (program : Program) : Run Value := outermost (expr steps scope) scope program .null

-- The primitives that the statements of a program stand for.
def scene (steps scope : Nat) (program : Program) : Run (Except Fault (List Value)) := do
  match ← gather steps scope program with
  | .error fault => return .error fault
  | .ok (found, _) => return .ok found

-- Deeper than any run that fits into memory.
def stepLimit : Nat := 1000000000000

end Run

inductive EvalError where
  | parse (errors : List ParseError)
  | fault (cause : Fault)
  | exhausted

def EvalError.message : EvalError → String
  | parse errors => "parse errors:\n\t" ++ "\n\t".intercalate (errors.map ParseError.message)
  | fault cause => cause.message
  | exhausted => "evaluation is nested too deeply"

namespace Machine

-- The value of a program, which may be a failure. There is none if the run is nested too deeply.
def runProgram (m : Machine) (scope : Nat) (program : Program) : Option Value × Machine :=
  match Run.program Run.stepLimit scope program m with
  | some (value, m) => (some value, m)
  | none => (none, m)

-- The scene of a program.
def runScene (m : Machine) (scope : Nat) (program : Program) : Except EvalError (List Value) × Machine :=
  match Run.scene Run.stepLimit scope program m with
  | some (.ok values, m) => (.ok values, m)
  | some (.error fault, m) => (.error (.fault fault), m)
  | none => (.error .exhausted, m)

-- The scene of a source text. Nothing runs if the text has errors.
def evaluate (m : Machine) (scope : Nat) (source : String) : Except EvalError (List Value) × Machine :=
  let parsed := parse source
  if parsed.isOk then m.runScene scope parsed.program
  else (.error (.parse parsed.errors), m)

end Machine

end SolidScript
