import SolidScript.Decimal.Reader
import SolidScript.Text
import SolidScript.Token.Lexer
import SolidScript.Tree.Precedence
import SolidScript.Tree.Printer

namespace SolidScript

namespace ParseError

-- What can be wrong with a source text.
inductive Cause where
  | unexpectedToken (expected found : Token.Kind)
  | noExpression (found : Token.Kind)
  | invalidInteger (text : String)
  | invalidFloat (text : String)
  | unnamedArgument (found : Expr)

def Cause.message : Cause → String
  | unexpectedToken expected found =>
    "expected next token to be " ++ expected.title ++ ", got " ++ found.title ++ " instead"
  | noExpression found => "no prefix parse function for " ++ found.title ++ " found"
  | invalidInteger text => "could not parse " ++ Text.quoted text ++ " as integer"
  | invalidFloat text => "could not parse " ++ Text.quoted text ++ " as float"
  | unnamedArgument found => "expected identifier before '=', got " ++ found.print

end ParseError

structure ParseError where
  cause : ParseError.Cause
  position : Position

def ParseError.message (e : ParseError) : String := e.cause.message ++ " at " ++ e.position.shown

namespace Parser

-- `tokens` starts with the current token, and behind all of them comes `eof`. A parser looks at the current token and
-- at the one behind it, and the last token that it has read stays the current one.
structure State where
  tokens : List Token
  eof : Token
  errors : List ParseError

inductive Outcome (α : Type) where
  | done (value : α) (state : State)
  | failed (error : ParseError) (state : State)
  | exhausted

end Parser

def Parser (α : Type) : Type := Parser.State → Parser.Outcome α

namespace Parser

@[inline] def pure (value : α) : Parser α := fun s => .done value s

-- A failed parser keeps the tokens and the errors that it had reached.
@[inline] def bind (x : Parser α) (f : α → Parser β) : Parser β := fun s =>
  match x s with
  | .done value s => f value s
  | .failed error s => .failed error s
  | .exhausted => .exhausted

instance : Monad Parser where
  pure := pure
  bind := bind

namespace State

def ofTokens (tokens : List Token) : State where
  tokens := tokens.filter fun t => t.kind != .comment && t.kind != .eof
  eof := tokens.getLastD ⟨.eof, "", .start⟩
  errors := []

def current (s : State) : Token := s.tokens.headD s.eof

def following (s : State) : Token := s.tokens.tail.headD s.eof

end State

def outOfSteps : Parser α := fun _ => .exhausted

def current : Parser Token := fun s => .done s.current s

def following : Parser Token := fun s => .done s.following s

def advance : Parser Unit := fun s => .done () { s with tokens := s.tokens.tail }

def fail (cause : ParseError.Cause) (position : Position) : Parser α := fun s => .failed ⟨cause, position⟩ s

-- Moves to the following token if it has the wanted kind.
def expect (kind : Token.Kind) : Parser Unit := do
  let token ← following
  if token.kind = kind then advance
  else fail (.unexpectedToken kind token.kind) token.position

-- Turns a failure into a value.
def attempt (x : Parser α) : Parser (Except ParseError α) := fun s =>
  match x s with
  | .done value s => .done (.ok value) s
  | .failed error s => .done (.error error) s
  | .exhausted => .exhausted

def report (error : ParseError) : Parser Unit := fun s => .done () { s with errors := s.errors ++ [error] }

-- Skips to the end of a broken statement: a semicolon or a closing brace, or the token in front of a closing brace or
-- of the end.
def skipStatement : List Token → List Token
  | [] => []
  | [token] => [token]
  | token :: next :: rest =>
    if token.kind = .semicolon ∨ token.kind = .rbrace ∨ next.kind = .rbrace then token :: next :: rest
    else skipStatement (next :: rest)

def synchronize : Parser Unit := fun s => .done () { s with tokens := skipStatement s.tokens }

def intLiteral (token : Token) : Parser Expr :=
  match Number.integer? token.literal with
  | some value => return .int value
  | none => fail (.invalidInteger token.literal) token.position

def floatLiteral (token : Token) : Parser Expr :=
  match Number.ofText? token.literal with
  | some value => return .float value
  | none => fail (.invalidFloat token.literal) token.position

-- The names behind the first one, up to the closing parenthesis.
def moreParams : Nat → Parser (List String)
  | 0 => outOfSteps
  | steps + 1 => do
    if (← following).kind = .comma then
      advance
      expect .ident
      let name := (← current).literal
      return name :: (← moreParams steps)
    else
      expect .rparen
      return []

-- The names between the parentheses of a function.
def params (steps : Nat) : Parser (List String) := do
  if (← following).kind = .rparen then
    advance
    return []
  else
    expect .ident
    let name := (← current).literal
    return name :: (← moreParams steps)

mutual

-- An expression whose operators bind tighter than `limit`.
def expression : Nat → Precedence → Parser Expr
  | 0, _ => outOfSteps
  | steps + 1, limit => do
    let left ← operand steps
    operators steps limit left
termination_by structural steps => steps

-- The part of an expression in front of its first operator.
def operand : Nat → Parser Expr
  | 0 => outOfSteps
  | steps + 1 => do
    let token ← current
    match token.kind with
    | .ident => return .ident token.literal
    | .int => intLiteral token
    | .float => floatLiteral token
    | .string => return .string token.literal
    | .trueWord => return .bool true
    | .falseWord => return .bool false
    | .undefWord => return .undef
    | .bang =>
      advance
      return .unary .not (← expression steps .unary)
    | .minus =>
      advance
      return .unary .negate (← expression steps .unary)
    | .lparen =>
      advance
      let inner ← expression steps .lowest
      expect .rparen
      return inner
    | .ifWord => conditional steps
    | .functionWord =>
      expect .lparen
      let names ← params steps
      expect .lbrace
      return .function names (← block steps)
    | .lbracket => return .array (← items steps .rbracket)
    | .lbrace => return .hash (← pairs steps)
    | .primitive kind => primitive steps kind token.literal
    | kind => fail (.noExpression kind) token.position
termination_by structural steps => steps

-- Operators behind `left`, as long as they bind tighter than `limit`. A block ends the expression.
def operators : Nat → Precedence → Expr → Parser Expr
  | 0, _, _ => outOfSteps
  | steps + 1, limit, left => do
    let token ← following
    if limit.rank < (Precedence.ofKind token.kind).rank ∧ left.hasBody = false then
      advance
      let longer ← extend steps token left
      operators steps limit longer
    else return left
termination_by structural steps => steps

-- One operator behind `left`, with the operator as the current token.
def extend : Nat → Token → Expr → Parser Expr
  | 0, _, _ => outOfSteps
  | steps + 1, token, left =>
    match token.kind with
    | .lparen => return .call left (← items steps .rparen)
    | .lbracket => do
      advance
      let key ← expression steps .lowest
      expect .rbracket
      return .index left key
    | .assign =>
      match left with
      | .ident name => do
        advance
        return .named name (← expression steps .lowest)
      | left => fail (.unnamedArgument left) token.position
    | kind =>
      match BinaryOp.ofKind? kind with
      | some op => do
        advance
        return .binary left op (← expression steps (.ofKind kind))
      | none => fail (.noExpression kind) token.position
termination_by structural steps => steps

def conditional : Nat → Parser Expr
  | 0 => outOfSteps
  | steps + 1 => do
    expect .lparen
    advance
    let condition ← expression steps .lowest
    expect .rparen
    expect .lbrace
    let consequence ← block steps
    if (← following).kind = .elseWord then
      advance
      expect .lbrace
      return .cond condition consequence (some (← block steps))
    else return .cond condition consequence none
termination_by structural steps => steps

-- A primitive word in front of an equals sign names an argument. Primitives that take no block need parentheses.
def primitive : Nat → Primitive → String → Parser Expr
  | 0, _, _ => outOfSteps
  | steps + 1, kind, word => do
    if (← following).kind = .assign then return .ident word
    else if kind.acceptsBody then
      let args ← (do
        if (← following).kind = .lparen then
          advance
          items steps .rparen
        else return [])
      if (← following).kind = .lbrace then
        advance
        return .primitive kind args (some (← block steps))
      else return .primitive kind args none
    else
      expect .lparen
      return .primitive kind (← items steps .rparen) none
termination_by structural steps => steps

-- Expressions between commas, up to the closing token.
def items : Nat → Token.Kind → Parser (List Expr)
  | 0, _ => outOfSteps
  | steps + 1, close => do
    if (← following).kind = close then
      advance
      return []
    else
      advance
      let first ← expression steps .lowest
      return first :: (← moreItems steps close)
termination_by structural steps => steps

def moreItems : Nat → Token.Kind → Parser (List Expr)
  | 0, _ => outOfSteps
  | steps + 1, close => do
    if (← following).kind = .comma then
      advance
      advance
      let item ← expression steps .lowest
      return item :: (← moreItems steps close)
    else
      expect close
      return []
termination_by structural steps => steps

-- The pairs of a hash, up to the closing brace. A comma may stand behind the last pair.
def pairs : Nat → Parser (List (Expr × Expr))
  | 0 => outOfSteps
  | steps + 1 => do
    if (← following).kind = .rbrace then
      advance
      return []
    else
      advance
      let key ← expression steps .lowest
      expect .colon
      advance
      let value ← expression steps .lowest
      if (← following).kind = .rbrace then
        advance
        return [(key, value)]
      else
        expect .comma
        return (key, value) :: (← pairs steps)
termination_by structural steps => steps

-- Statements up to the closing token, which stays the current one.
def statements : Nat → Token.Kind → Parser (List Stmt)
  | 0, _ => outOfSteps
  | steps + 1, close => do
    let kind := (← current).kind
    if kind = close ∨ kind = .eof then return []
    else
      match ← attempt (statement steps) with
      | .ok first =>
        advance
        return first :: (← statements steps close)
      | .error error =>
        report error
        synchronize
        if (← current).kind = close then return []
        else
          advance
          statements steps close
termination_by structural steps => steps

def statement : Nat → Parser Stmt
  | 0 => outOfSteps
  | steps + 1 => do
    let stmt ← (do
      match (← current).kind with
      | .letWord =>
        expect .ident
        let name := (← current).literal
        expect .assign
        advance
        return Stmt.bind name (← expression steps .lowest)
      | .returnWord =>
        advance
        return Stmt.ret (← expression steps .lowest)
      | _ => return Stmt.expr (← expression steps .lowest))
    if (← following).kind = .semicolon then advance
    return stmt
termination_by structural steps => steps

-- A block, with its opening brace as the current token.
def block : Nat → Parser (List Stmt)
  | 0 => outOfSteps
  | steps + 1 => do
    advance
    let stmts ← statements steps .rbrace
    let token ← current
    if token.kind = .rbrace then return stmts
    else fail (.unexpectedToken .rbrace token.kind) token.position
termination_by structural steps => steps

end

-- Enough steps for any list of that many tokens.
def stepLimit (tokens : Nat) : Nat := 8 * (tokens + 2)

end Parser

-- What a source text means: the statements that could be read, and the errors of those that could not.
structure Parsed where
  program : Program
  errors : List ParseError

namespace Parsed

def ofTokens (tokens : List Token) : Parsed :=
  let state := Parser.State.ofTokens tokens
  match Parser.statements (Parser.stepLimit state.tokens.length) .eof state with
  | .done program state => ⟨program, state.errors⟩
  | .failed error state => ⟨[], state.errors ++ [error]⟩
  | .exhausted => ⟨[], []⟩

def isOk (p : Parsed) : Bool := p.errors.isEmpty

def messages (p : Parsed) : List String := p.errors.map ParseError.message

end Parsed

def parse (source : String) : Parsed := Parsed.ofTokens (Token.tokenize source)

end SolidScript
