import Mathlib.Tactic.Common
import SolidScript.Tree.Parser

namespace SolidScript.Parser

-- A relation between parsers that everything respects that the parser is built from. Tokens are related by `T` and
-- errors by `E`. A token is only asked for its kind and its text, and for its place if there is an error to be told.
structure Simulation (T : Token → Token → Prop) (E : ParseError → ParseError → Prop)
    (R : (α : Type) → Parser α → Parser α → Prop) : Prop where
  kind : ∀ {t u : Token}, T t u → u.kind = t.kind
  literal : ∀ {t u : Token}, T t u → u.literal = t.literal
  outOfSteps : ∀ {α : Type} (x : Parser α), R α outOfSteps x
  pure : ∀ {α : Type} (a : α), R α (Pure.pure a) (Pure.pure a)
  current : ∀ {α : Type} {f g : Token → Parser α}, (∀ t u, T t u → R α (f t) (g u)) →
    R α (current >>= f) (current >>= g)
  following : ∀ {α : Type} {f g : Token → Parser α}, (∀ t u, T t u → R α (f t) (g u)) →
    R α (following >>= f) (following >>= g)
  advance : R Unit advance advance
  fail : ∀ {α : Type} {t u : Token} (cause : ParseError.Cause), T t u →
    R α (fail cause t.position) (fail cause u.position)
  report : ∀ {d e : ParseError}, E d e → R Unit (report d) (report e)
  synchronize : R Unit synchronize synchronize
  attempt : ∀ {α β : Type} {x y : Parser α} {f g : Except ParseError α → Parser β}, R α x y →
    (∀ a, R β (f (.ok a)) (g (.ok a))) → (∀ d e, E d e → R β (f (.error d)) (g (.error e))) →
    R β (attempt x >>= f) (attempt y >>= g)
  bind : ∀ {α β : Type} {x y : Parser α} {f g : α → Parser β}, R α x y → (∀ a, R β (f a) (g a)) →
    R β (x >>= f) (y >>= g)

-- The functions with `n` steps, each related to the same one with `m` steps.
structure Simulated (T : Token → Token → Prop) (R : (α : Type) → Parser α → Parser α → Prop) (n m : Nat) : Prop where
  moreParams : R _ (moreParams n) (moreParams m)
  expression : ∀ limit, R _ (expression n limit) (expression m limit)
  operand : R _ (operand n) (operand m)
  operators : ∀ limit left, R _ (operators n limit left) (operators m limit left)
  extend : ∀ {t u : Token}, T t u → ∀ left, R _ (extend n t left) (extend m u left)
  conditional : R _ (conditional n) (conditional m)
  primitive : ∀ kind word, R _ (primitive n kind word) (primitive m kind word)
  items : ∀ close, R _ (items n close) (items m close)
  moreItems : ∀ close, R _ (moreItems n close) (moreItems m close)
  pairs : R _ (pairs n) (pairs m)
  statements : ∀ close, R _ (statements n close) (statements m close)
  statement : R _ (statement n) (statement m)
  block : R _ (block n) (block m)

namespace Simulation

variable {T : Token → Token → Prop} {E : ParseError → ParseError → Prop}
  {R : (α : Type) → Parser α → Parser α → Prop} {α : Type} {n m : Nat}

theorem ite (_ : Simulation T E R) {p : Prop} [Decidable p] {x y u v : Parser α} (hx : R α x y) (hu : R α u v) :
    R α (if p then x else u) (if p then y else v) := by
  split
  · exact hx
  · exact hu

-- A choice by the kind of the following token.
theorem ifFollowing (c : Simulation T E R) (kind : Token.Kind) {x y u v : Parser α} (hx : R α x y) (hu : R α u v) :
    R α (Parser.following >>= fun t => if t.kind = kind then x else u)
      (Parser.following >>= fun t => if t.kind = kind then y else v) := by
  apply c.following
  intro t t' ht
  rw [c.kind ht]
  exact c.ite hx hu

theorem expect (c : Simulation T E R) (kind : Token.Kind) : R _ (expect kind) (Parser.expect kind) := by
  unfold Parser.expect
  apply c.following
  intro t u h
  rw [c.kind h]
  exact c.ite c.advance (c.fail _ h)

-- Nothing is read behind.
theorem built (c : Simulation T E R) {β : Type} {x y : Parser α} (f : α → β) (h : R α x y) :
    R β (do return f (← x)) (do return f (← y)) := by
  apply c.bind h
  intro a
  exact c.pure (f a)

theorem intLiteral (c : Simulation T E R) {t u : Token} (h : T t u) : R _ (intLiteral t) (Parser.intLiteral u) := by
  unfold Parser.intLiteral
  rw [c.literal h]
  split
  · exact c.pure _
  · exact c.fail _ h

theorem floatLiteral (c : Simulation T E R) {t u : Token} (h : T t u) :
    R _ (floatLiteral t) (Parser.floatLiteral u) := by
  unfold Parser.floatLiteral
  rw [c.literal h]
  split
  · exact c.pure _
  · exact c.fail _ h

theorem moreParams (c : Simulation T E R) (h : Simulated T R n m) :
    R _ (moreParams (n + 1)) (Parser.moreParams (m + 1)) := by
  rw [Parser.moreParams, Parser.moreParams]
  apply c.ifFollowing .comma
  · apply c.bind c.advance
    intro _
    apply c.bind (c.expect .ident)
    intro _
    apply c.current
    intro t u ht
    rw [c.literal ht]
    exact c.built _ h.moreParams
  · exact c.built _ (c.expect .rparen)

theorem params (c : Simulation T E R) (h : Simulated T R n m) : R _ (params n) (Parser.params m) := by
  unfold Parser.params
  apply c.ifFollowing .rparen
  · exact c.built _ c.advance
  · apply c.bind (c.expect .ident)
    intro _
    apply c.current
    intro t u ht
    rw [c.literal ht]
    exact c.built _ h.moreParams

theorem expression (c : Simulation T E R) (h : Simulated T R n m) (limit : Precedence) :
    R _ (expression (n + 1) limit) (Parser.expression (m + 1) limit) := by
  rw [Parser.expression, Parser.expression]
  apply c.bind h.operand
  intro left
  exact h.operators limit left

theorem operand (c : Simulation T E R) (h : Simulated T R n m) : R _ (operand (n + 1)) (Parser.operand (m + 1)) := by
  rw [Parser.operand, Parser.operand]
  apply c.current
  intro t u ht
  rw [c.kind ht, c.literal ht]
  cases t.kind with
  | ident | string | trueWord | falseWord | undefWord => exact c.pure _
  | int => exact c.intLiteral ht
  | float => exact c.floatLiteral ht
  | bang =>
    apply c.bind c.advance
    intro _
    exact c.built _ (h.expression .unary)
  | minus =>
    apply c.bind c.advance
    intro _
    exact c.built _ (h.expression .unary)
  | lparen =>
    apply c.bind c.advance
    intro _
    apply c.bind (h.expression .lowest)
    intro e
    exact c.built _ (c.expect .rparen)
  | ifWord => exact h.conditional
  | functionWord =>
    apply c.bind (c.expect .lparen)
    intro _
    apply c.bind (c.params h)
    intro names
    apply c.bind (c.expect .lbrace)
    intro _
    exact c.built _ h.block
  | lbracket => exact c.built _ (h.items .rbracket)
  | lbrace => exact c.built _ h.pairs
  | primitive kind => exact h.primitive kind _
  | _ => exact c.fail _ ht

theorem operators (c : Simulation T E R) (h : Simulated T R n m) (limit : Precedence) (left : Expr) :
    R _ (operators (n + 1) limit left) (Parser.operators (m + 1) limit left) := by
  rw [Parser.operators, Parser.operators]
  apply c.following
  intro t u ht
  rw [c.kind ht]
  apply c.ite
  · apply c.bind c.advance
    intro _
    apply c.bind (h.extend ht left)
    intro longer
    exact h.operators limit longer
  · exact c.pure left

theorem extend (c : Simulation T E R) (h : Simulated T R n m) {t u : Token} (ht : T t u) (left : Expr) :
    R _ (extend (n + 1) t left) (Parser.extend (m + 1) u left) := by
  unfold Parser.extend
  rw [c.kind ht]
  split
  · -- a call
    exact c.built _ (h.items .rparen)
  · -- an index
    apply c.bind c.advance
    intro _
    apply c.bind (h.expression .lowest)
    intro key
    exact c.built _ (c.expect .rbracket)
  · -- a named argument
    split
    · apply c.bind c.advance
      intro _
      exact c.built _ (h.expression .lowest)
    · exact c.fail _ ht
  · -- a binary operator
    split
    · apply c.bind c.advance
      intro _
      exact c.built _ (h.expression _)
    · exact c.fail _ ht

theorem conditional (c : Simulation T E R) (h : Simulated T R n m) :
    R _ (conditional (n + 1)) (Parser.conditional (m + 1)) := by
  rw [Parser.conditional, Parser.conditional]
  apply c.bind (c.expect .lparen)
  intro _
  apply c.bind c.advance
  intro _
  apply c.bind (h.expression .lowest)
  intro condition
  apply c.bind (c.expect .rparen)
  intro _
  apply c.bind (c.expect .lbrace)
  intro _
  apply c.bind h.block
  intro consequence
  apply c.ifFollowing .elseWord
  · apply c.bind c.advance
    intro _
    apply c.bind (c.expect .lbrace)
    intro _
    exact c.built _ h.block
  · exact c.pure _

theorem primitive (c : Simulation T E R) (h : Simulated T R n m) (kind : Primitive) (word : String) :
    R _ (primitive (n + 1) kind word) (Parser.primitive (m + 1) kind word) := by
  rw [Parser.primitive, Parser.primitive]
  apply c.ifFollowing .assign
  · exact c.pure _
  apply c.ite
  · apply c.bind
    · apply c.ifFollowing .lparen
      · apply c.bind c.advance
        intro _
        exact h.items .rparen
      · exact c.pure []
    intro args
    apply c.ifFollowing .lbrace
    · apply c.bind c.advance
      intro _
      exact c.built _ h.block
    · exact c.pure _
  · apply c.bind (c.expect .lparen)
    intro _
    exact c.built _ (h.items .rparen)

-- An expression and the items behind it.
theorem list (c : Simulation T E R) (h : Simulated T R n m) (close : Token.Kind) :
    R _ (do return (← Parser.expression n .lowest) :: (← Parser.moreItems n close))
      (do return (← Parser.expression m .lowest) :: (← Parser.moreItems m close)) := by
  apply c.bind (h.expression .lowest)
  intro first
  exact c.built _ (h.moreItems close)

theorem items (c : Simulation T E R) (h : Simulated T R n m) (close : Token.Kind) :
    R _ (items (n + 1) close) (Parser.items (m + 1) close) := by
  rw [Parser.items, Parser.items]
  apply c.ifFollowing close
  · exact c.built _ c.advance
  · apply c.bind c.advance
    intro _
    exact c.list h close

theorem moreItems (c : Simulation T E R) (h : Simulated T R n m) (close : Token.Kind) :
    R _ (moreItems (n + 1) close) (Parser.moreItems (m + 1) close) := by
  rw [Parser.moreItems, Parser.moreItems]
  apply c.ifFollowing .comma
  · apply c.bind c.advance
    intro _
    apply c.bind c.advance
    intro _
    exact c.list h close
  · exact c.built _ (c.expect close)

theorem pairs (c : Simulation T E R) (h : Simulated T R n m) : R _ (pairs (n + 1)) (Parser.pairs (m + 1)) := by
  rw [Parser.pairs, Parser.pairs]
  apply c.ifFollowing .rbrace
  · exact c.built _ c.advance
  apply c.bind c.advance
  intro _
  apply c.bind (h.expression .lowest)
  intro key
  apply c.bind (c.expect .colon)
  intro _
  apply c.bind c.advance
  intro _
  apply c.bind (h.expression .lowest)
  intro value
  apply c.ifFollowing .rbrace
  · exact c.built _ c.advance
  · apply c.bind (c.expect .comma)
    intro _
    exact c.built _ h.pairs

theorem statements (c : Simulation T E R) (h : Simulated T R n m) (close : Token.Kind) :
    R _ (statements (n + 1) close) (Parser.statements (m + 1) close) := by
  rw [Parser.statements, Parser.statements]
  apply c.current
  intro t u ht
  rw [c.kind ht]
  apply c.ite
  · exact c.pure []
  apply c.attempt h.statement
  · intro first
    apply c.bind c.advance
    intro _
    exact c.built _ (h.statements close)
  · intro d e he
    apply c.bind (c.report he)
    intro _
    apply c.bind c.synchronize
    intro _
    apply c.current
    intro t u ht
    rw [c.kind ht]
    apply c.ite
    · exact c.pure []
    · apply c.bind c.advance
      intro _
      exact h.statements close

theorem statement (c : Simulation T E R) (h : Simulated T R n m) :
    R _ (statement (n + 1)) (Parser.statement (m + 1)) := by
  rw [Parser.statement, Parser.statement]
  apply c.bind
  · apply c.current
    intro t u ht
    rw [c.kind ht]
    cases t.kind with
    | letWord =>
      apply c.bind (c.expect .ident)
      intro _
      apply c.current
      intro t u ht
      rw [c.literal ht]
      apply c.bind (c.expect .assign)
      intro _
      apply c.bind c.advance
      intro _
      exact c.built _ (h.expression .lowest)
    | returnWord =>
      apply c.bind c.advance
      intro _
      exact c.built _ (h.expression .lowest)
    | _ => exact c.built _ (h.expression .lowest)
  intro stmt
  apply c.following
  intro t u ht
  rw [c.kind ht]
  split
  · exact c.built _ c.advance
  · exact c.pure stmt

theorem block (c : Simulation T E R) (h : Simulated T R n m) : R _ (block (n + 1)) (Parser.block (m + 1)) := by
  rw [Parser.block, Parser.block]
  apply c.bind c.advance
  intro _
  apply c.bind (h.statements .rbrace)
  intro stmts
  apply c.current
  intro t u ht
  rw [c.kind ht]
  exact c.ite (c.pure stmts) (c.fail _ ht)

theorem simulated (c : Simulation T E R) {n m : Nat} (h : n ≤ m) : Simulated T R n m := by
  induction n generalizing m with
  | zero => constructor <;> intros <;> exact c.outOfSteps _
  | succ n ih =>
    cases m with
    | zero => omega
    | succ m =>
      have hs : Simulated T R n m := ih (by omega)
      exact {
        moreParams := c.moreParams hs
        expression := c.expression hs
        operand := c.operand hs
        operators := c.operators hs
        extend := c.extend hs
        conditional := c.conditional hs
        primitive := c.primitive hs
        items := c.items hs
        moreItems := c.moreItems hs
        pairs := c.pairs hs
        statements := c.statements hs
        statement := c.statement hs
        block := c.block hs }

end Simulation

end SolidScript.Parser
