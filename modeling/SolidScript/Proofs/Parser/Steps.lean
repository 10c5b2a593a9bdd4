import SolidScript.Proofs.Parser.Traversal

namespace SolidScript.Parser

variable {α β : Type}

-- A relation between parsers that is kept by everything the parser is built from.
structure Congruence (R : (α : Type) → Parser α → Parser α → Prop) : Prop where
  outOfSteps : ∀ {α : Type} (x : Parser α), R α outOfSteps x
  pure : ∀ {α : Type} (a : α), R α (Pure.pure a) (Pure.pure a)
  current : R Token current current
  following : R Token following following
  advance : R Unit advance advance
  fail : ∀ {α : Type} (cause : ParseError.Cause) (position : Position), R α (fail cause position) (fail cause position)
  report : ∀ error, R Unit (report error) (report error)
  synchronize : R Unit synchronize synchronize
  attempt : ∀ {α : Type} {x y : Parser α}, R α x y → R (Except ParseError α) (attempt x) (attempt y)
  bind : ∀ {α β : Type} {x y : Parser α} {f g : α → Parser β}, R α x y → (∀ a, R β (f a) (g a)) →
    R β (x >>= f) (y >>= g)

-- The functions with `n` steps, each related to the same one with one step more.
structure Related (R : (α : Type) → Parser α → Parser α → Prop) (n : Nat) : Prop where
  moreParams : R _ (moreParams n) (moreParams (n + 1))
  expression : ∀ limit, R _ (expression n limit) (expression (n + 1) limit)
  operand : R _ (operand n) (operand (n + 1))
  operators : ∀ limit left, R _ (operators n limit left) (operators (n + 1) limit left)
  extend : ∀ token left, R _ (extend n token left) (extend (n + 1) token left)
  conditional : R _ (conditional n) (conditional (n + 1))
  primitive : ∀ kind word, R _ (primitive n kind word) (primitive (n + 1) kind word)
  items : ∀ close, R _ (items n close) (items (n + 1) close)
  moreItems : ∀ close, R _ (moreItems n close) (moreItems (n + 1) close)
  pairs : R _ (pairs n) (pairs (n + 1))
  statements : ∀ close, R _ (statements n close) (statements (n + 1) close)
  statement : R _ (statement n) (statement (n + 1))
  block : R _ (block n) (block (n + 1))

namespace Congruence

variable {R : (α : Type) → Parser α → Parser α → Prop}

-- Both sides look at the same tokens.
theorem simulation (c : Congruence R) : Simulation Eq Eq R where
  kind := by
    rintro t _ rfl
    rfl
  literal := by
    rintro t _ rfl
    rfl
  outOfSteps := c.outOfSteps
  pure := c.pure
  current h := c.bind c.current fun t => h t t rfl
  following h := c.bind c.following fun t => h t t rfl
  advance := c.advance
  fail := by
    rintro _ t _ cause rfl
    exact c.fail cause t.position
  report := by
    rintro error _ rfl
    exact c.report error
  synchronize := c.synchronize
  attempt hx hf hg := by
    refine c.bind (c.attempt hx) fun result => ?_
    cases result with
    | ok a => exact hf a
    | error e => exact hg e e rfl
  bind := c.bind

theorem ite (c : Congruence R) {p : Prop} [Decidable p] {x y u v : Parser α} (hx : R α x y) (hu : R α u v) :
    R α (if p then x else u) (if p then y else v) :=
  c.simulation.ite hx hu

theorem expect (c : Congruence R) (kind : Token.Kind) : R _ (expect kind) (expect kind) := c.simulation.expect kind

theorem params (c : Congruence R) (n : Nat) : R _ (params n) (params (n + 1)) :=
  c.simulation.params (c.simulation.simulated n.le_succ)

theorem related (c : Congruence R) (n : Nat) : Related R n :=
  have h := c.simulation.simulated n.le_succ
  { moreParams := h.moreParams
    expression := h.expression
    operand := h.operand
    operators := h.operators
    extend := fun _ left => h.extend rfl left
    conditional := h.conditional
    primitive := h.primitive
    items := h.items
    moreItems := h.moreItems
    pairs := h.pairs
    statements := h.statements
    statement := h.statement
    block := h.block }

end Congruence

-- With more steps a parser can only settle what was exhausted before.
def Within (α : Type) (x y : Parser α) : Prop := ∀ s, x s = .exhausted ∨ x s = y s

theorem bind_apply (x : Parser α) (f : α → Parser β) (s : State) :
    (x >>= f) s = match x s with
      | .done value s => f value s
      | .failed error s => .failed error s
      | .exhausted => .exhausted := rfl

theorem within_bind {x y : Parser α} {f g : α → Parser β} (hx : Within α x y) (hf : ∀ a, Within β (f a) (g a)) :
    Within β (x >>= f) (y >>= g) := by
  intro s
  simp only [bind_apply]
  rcases hx s with h | h
  · simp [h]
  · rw [h]
    cases y s with
    | done a s' => exact hf a s'
    | failed e s' => exact .inr rfl
    | exhausted => exact .inl rfl

theorem within_attempt {x y : Parser α} (hx : Within α x y) : Within _ (attempt x) (attempt y) := by
  intro s
  rcases hx s with h | h <;> simp [attempt, h]

theorem within_congruence : Congruence Within where
  outOfSteps _ _ := .inl rfl
  pure _ _ := .inr rfl
  current _ := .inr rfl
  following _ := .inr rfl
  advance _ := .inr rfl
  fail _ _ _ := .inr rfl
  report _ _ := .inr rfl
  synchronize _ := .inr rfl
  attempt := within_attempt
  bind := within_bind

theorem within_add {x : Nat → Parser α} (hx : ∀ n, Within α (x n) (x (n + 1))) (n k : Nat) :
    Within α (x n) (x (n + k)) := by
  induction k with
  | zero => exact fun _ => .inr rfl
  | succ k ih =>
    intro s
    rcases ih s with h | h
    · exact .inl h
    · rcases hx (n + k) s with h' | h'
      · exact .inl (h.trans h')
      · exact .inr (h.trans h')

-- From some number of steps on the outcomes are those of the limit. The number may depend on the state.
def Approaches (x : Nat → Parser α) (y : Parser α) : Prop := ∀ s, ∃ n, ∀ m, n ≤ m → x m s = y s

open Classical in
noncomputable def limit (x : Nat → Parser α) : Parser α := fun s =>
  if h : ∃ n, x n s ≠ .exhausted then x (Classical.choose h) s else .exhausted

theorem approaches_limit {x : Nat → Parser α} (hx : ∀ n, Within α (x n) (x (n + 1))) :
    Approaches x (limit x) := by
  intro s
  by_cases h : ∃ n, x n s ≠ .exhausted
  · refine ⟨Classical.choose h, fun m hm => ?_⟩
    obtain ⟨k, rfl⟩ := Nat.exists_eq_add_of_le hm
    have hs := (within_add hx (Classical.choose h) k s).resolve_left (Classical.choose_spec h)
    simp only [limit, h, dite_true]
    exact hs.symm
  · refine ⟨0, fun m _ => ?_⟩
    simp only [limit, h, dite_false]
    by_contra hm
    exact h ⟨m, hm⟩

theorem approaches_unique {x : Nat → Parser α} {y z : Parser α} (hy : Approaches x y) (hz : Approaches x z) : y = z := by
  funext s
  obtain ⟨n, hn⟩ := hy s
  obtain ⟨k, hk⟩ := hz s
  exact (hn (max n k) (by omega)).symm.trans (hk (max n k) (by omega))

theorem approaches_succ {x : Nat → Parser α} {y : Parser α} (hx : Approaches x y) :
    Approaches (fun n => x (n + 1)) y := by
  intro s
  obtain ⟨n, hn⟩ := hx s
  exact ⟨n, fun m hm => hn (m + 1) (by omega)⟩

-- One step of a function is its body, so a limit of the bodies is the limit of the function.
theorem limit_eq {x : Nat → Parser α} {y : Parser α} (hx : ∀ n, Within α (x n) (x (n + 1)))
    (hy : Approaches (fun n => x (n + 1)) y) : limit x = y :=
  approaches_unique (approaches_succ (approaches_limit hx)) hy

theorem approaches_const (x : Parser α) : Approaches (fun _ => x) x := fun _ => ⟨0, fun _ _ => rfl⟩

theorem approaches_bind {x : Nat → Parser α} {y : Parser α} {f : Nat → α → Parser β} {g : α → Parser β}
    (hx : Approaches x y) (hf : ∀ a, Approaches (fun n => f n a) (g a)) :
    Approaches (fun n => x n >>= f n) (y >>= g) := by
  intro s
  obtain ⟨n, hn⟩ := hx s
  cases hy : y s with
  | done a s' =>
    obtain ⟨k, hk⟩ := hf a s'
    refine ⟨max n k, fun m hm => ?_⟩
    simp only [bind_apply, hn m (by omega), hy]
    exact hk m (by omega)
  | failed e s' => exact ⟨n, fun m hm => by simp only [bind_apply, hn m hm, hy]⟩
  | exhausted => exact ⟨n, fun m hm => by simp only [bind_apply, hn m hm, hy]⟩

theorem approaches_attempt {x : Nat → Parser α} {y : Parser α} (hx : Approaches x y) :
    Approaches (fun n => attempt (x n)) (attempt y) := by
  intro s
  obtain ⟨n, hn⟩ := hx s
  exact ⟨n, fun m hm => by simp only [attempt, hn m hm]⟩

theorem approaches_ite {p : Prop} [Decidable p] {x u : Nat → Parser α} {y v : Parser α} (hx : Approaches x y)
    (hu : Approaches u v) : Approaches (fun n => if p then x n else u n) (if p then y else v) := by
  split
  · exact hx
  · exact hu

@[simp] theorem pure_apply (a : α) (s : State) : (Pure.pure a : Parser α) s = .done a s := rfl

@[simp] theorem fail_apply (cause : ParseError.Cause) (position : Position) (s : State) :
    (fail cause position : Parser α) s = .failed ⟨cause, position⟩ s := rfl

def State.advanced (s : State) : State := { s with tokens := s.tokens.tail }

@[simp] theorem advance_apply (s : State) : advance s = .done () s.advanced := rfl

@[simp] theorem ite_apply' {p : Prop} [Decidable p] (x y : Parser α) (s : State) :
    (if p then x else y) s = if p then x s else y s := by
  split <;> rfl

@[simp] theorem pure_bind_apply (a : α) (f : α → Parser β) (s : State) : ((Pure.pure a : Parser α) >>= f) s = f a s := rfl

@[simp] theorem current_bind (f : Token → Parser β) (s : State) : (current >>= f) s = f s.current s := rfl

@[simp] theorem following_bind (f : Token → Parser β) (s : State) : (following >>= f) s = f s.following s := rfl

@[simp] theorem advance_bind (f : Unit → Parser β) (s : State) : (advance >>= f) s = f () s.advanced := rfl

theorem expect_apply {kind : Token.Kind} {s : State} (h : s.following.kind = kind) :
    expect kind s = .done () s.advanced := by
  simp [expect, h]

theorem expect_bind {kind : Token.Kind} {s : State} (h : s.following.kind = kind) (f : Unit → Parser β) :
    (expect kind >>= f) s = f () s.advanced := by
  rw [bind_apply, expect_apply h]

namespace Unbounded

noncomputable def moreParams : Parser (List String) := limit Parser.moreParams
noncomputable def params : Parser (List String) := limit Parser.params
noncomputable def expression (bound : Precedence) : Parser Expr := limit (Parser.expression · bound)
noncomputable def operand : Parser Expr := limit Parser.operand
noncomputable def operators (bound : Precedence) (left : Expr) : Parser Expr := limit (Parser.operators · bound left)
noncomputable def extend (token : Token) (left : Expr) : Parser Expr := limit (Parser.extend · token left)
noncomputable def conditional : Parser Expr := limit Parser.conditional
noncomputable def primitive (kind : Primitive) (word : String) : Parser Expr := limit (Parser.primitive · kind word)
noncomputable def items (close : Token.Kind) : Parser (List Expr) := limit (Parser.items · close)
noncomputable def moreItems (close : Token.Kind) : Parser (List Expr) := limit (Parser.moreItems · close)
noncomputable def pairs : Parser (List (Expr × Expr)) := limit Parser.pairs
noncomputable def statements (close : Token.Kind) : Parser (List Stmt) := limit (Parser.statements · close)
noncomputable def statement : Parser Stmt := limit Parser.statement
noncomputable def block : Parser (List Stmt) := limit Parser.block

theorem related (n : Nat) : Related Within n := within_congruence.related n

theorem approaches_moreParams : Approaches Parser.moreParams moreParams :=
  approaches_limit fun n => (related n).moreParams

theorem approaches_params : Approaches Parser.params params :=
  approaches_limit fun n => within_congruence.params n

theorem approaches_expression (bound : Precedence) : Approaches (Parser.expression · bound) (expression bound) :=
  approaches_limit fun n => (related n).expression bound

theorem approaches_operand : Approaches Parser.operand operand := approaches_limit fun n => (related n).operand

theorem approaches_operators (bound : Precedence) (left : Expr) :
    Approaches (Parser.operators · bound left) (operators bound left) :=
  approaches_limit fun n => (related n).operators bound left

theorem approaches_extend (token : Token) (left : Expr) :
    Approaches (Parser.extend · token left) (extend token left) :=
  approaches_limit fun n => (related n).extend token left

theorem approaches_conditional : Approaches Parser.conditional conditional :=
  approaches_limit fun n => (related n).conditional

theorem approaches_primitive (kind : Primitive) (word : String) :
    Approaches (Parser.primitive · kind word) (primitive kind word) :=
  approaches_limit fun n => (related n).primitive kind word

theorem approaches_items (close : Token.Kind) : Approaches (Parser.items · close) (items close) :=
  approaches_limit fun n => (related n).items close

theorem approaches_moreItems (close : Token.Kind) : Approaches (Parser.moreItems · close) (moreItems close) :=
  approaches_limit fun n => (related n).moreItems close

theorem approaches_pairs : Approaches Parser.pairs pairs := approaches_limit fun n => (related n).pairs

theorem approaches_statements (close : Token.Kind) : Approaches (Parser.statements · close) (statements close) :=
  approaches_limit fun n => (related n).statements close

theorem approaches_statement : Approaches Parser.statement statement := approaches_limit fun n => (related n).statement

theorem approaches_block : Approaches Parser.block block := approaches_limit fun n => (related n).block

theorem expression_eq (bound : Precedence) :
    expression bound = (do
      let left ← operand
      operators bound left) := by
  refine limit_eq (fun n => (related n).expression bound) ?_
  exact approaches_bind approaches_operand fun left => approaches_operators bound left

theorem operators_eq (bound : Precedence) (left : Expr) :
    operators bound left = (do
      let token ← following
      if bound.rank < (Precedence.ofKind token.kind).rank ∧ left.hasBody = false then
        advance
        let longer ← extend token left
        operators bound longer
      else return left) := by
  refine limit_eq (fun n => (related n).operators bound left) ?_
  refine approaches_bind (approaches_const _) fun token => approaches_ite ?_ (approaches_const _)
  exact approaches_bind (approaches_const _) fun _ => approaches_bind (approaches_extend token left) fun longer =>
    approaches_operators bound longer

theorem operand_eq :
    operand = (do
      let token ← current
      match token.kind with
      | .ident => return .ident token.literal
      | .int => intLiteral token
      | .float => floatLiteral token
      | .string => return .string token.literal
      | .trueWord => return .bool true
      | .falseWord => return .bool false
      | .undefWord => return .undef
      | .bang =>
        advance
        return .unary .not (← expression .unary)
      | .minus =>
        advance
        return .unary .negate (← expression .unary)
      | .lparen =>
        advance
        let inner ← expression .lowest
        expect .rparen
        return inner
      | .ifWord => conditional
      | .functionWord =>
        expect .lparen
        let names ← params
        expect .lbrace
        return .function names (← block)
      | .lbracket => return .array (← items .rbracket)
      | .lbrace => return .hash (← pairs)
      | .primitive kind => primitive kind token.literal
      | kind => fail (.noExpression kind) token.position) := by
  refine limit_eq (fun n => (related n).operand) ?_
  refine approaches_bind (approaches_const _) fun token => ?_
  cases token.kind with
  | bang =>
    exact approaches_bind (approaches_const _) fun _ => approaches_bind (approaches_expression _) fun _ =>
      approaches_const _
  | minus =>
    exact approaches_bind (approaches_const _) fun _ => approaches_bind (approaches_expression _) fun _ =>
      approaches_const _
  | lparen =>
    exact approaches_bind (approaches_const _) fun _ => approaches_bind (approaches_expression _) fun _ =>
      approaches_const _
  | ifWord => exact approaches_conditional
  | functionWord =>
    exact approaches_bind (approaches_const _) fun _ => approaches_bind approaches_params fun _ =>
      approaches_bind (approaches_const _) fun _ => approaches_bind approaches_block fun _ => approaches_const _
  | lbracket => exact approaches_bind (approaches_items _) fun _ => approaches_const _
  | lbrace => exact approaches_bind approaches_pairs fun _ => approaches_const _
  | primitive kind => exact approaches_primitive kind _
  | _ => exact approaches_const _

theorem extend_call {token : Token} (h : token.kind = .lparen) (left : Expr) :
    extend token left = (do return .call left (← items .rparen)) := by
  refine limit_eq (fun n => (related n).extend token left) ?_
  simp only [Parser.extend, h]
  exact approaches_bind (approaches_items _) fun _ => approaches_const _

theorem extend_index {token : Token} (h : token.kind = .lbracket) (left : Expr) :
    extend token left = (do
      advance
      let key ← expression .lowest
      expect .rbracket
      return .index left key) := by
  refine limit_eq (fun n => (related n).extend token left) ?_
  simp only [Parser.extend, h]
  exact approaches_bind (approaches_const _) fun _ => approaches_bind (approaches_expression _) fun _ =>
    approaches_const _

theorem extend_named {token : Token} (h : token.kind = .assign) (name : String) :
    extend token (.ident name) = (do
      advance
      return .named name (← expression .lowest)) := by
  refine limit_eq (fun n => (related n).extend token _) ?_
  simp only [Parser.extend, h]
  exact approaches_bind (approaches_const _) fun _ => approaches_bind (approaches_expression _) fun _ =>
    approaches_const _

theorem extend_unnamed {token : Token} (h : token.kind = .assign) {left : Expr} (hl : ∀ name, left ≠ .ident name) :
    extend token left = fail (.unnamedArgument left) token.position := by
  refine limit_eq (fun n => (related n).extend token left) ?_
  cases left with
  | ident name => exact absurd rfl (hl name)
  | _ =>
    simp only [Parser.extend, h]
    exact approaches_const _

theorem extend_binary {token : Token} {op : BinaryOp} (h : BinaryOp.ofKind? token.kind = some op) (left : Expr) :
    extend token left = (do
      advance
      return .binary left op (← expression (.ofKind token.kind))) := by
  refine limit_eq (fun n => (related n).extend token left) ?_
  have hn (n : Nat) : Parser.extend (n + 1) token left = (do
      advance
      return .binary left op (← Parser.expression n (.ofKind token.kind))) := by
    unfold Parser.extend
    split <;> simp_all [BinaryOp.ofKind?]
  simp only [hn]
  exact approaches_bind (approaches_const _) fun _ => approaches_bind (approaches_expression _) fun _ =>
    approaches_const _

theorem conditional_eq :
    conditional = (do
      expect .lparen
      advance
      let condition ← expression .lowest
      expect .rparen
      expect .lbrace
      let consequence ← block
      if (← following).kind = .elseWord then
        advance
        expect .lbrace
        return .cond condition consequence (some (← block))
      else return .cond condition consequence none) := by
  refine limit_eq (fun n => (related n).conditional) ?_
  refine approaches_bind (approaches_const _) fun _ => approaches_bind (approaches_const _) fun _ => ?_
  refine approaches_bind (approaches_expression _) fun _ => approaches_bind (approaches_const _) fun _ => ?_
  refine approaches_bind (approaches_const _) fun _ => approaches_bind approaches_block fun _ => ?_
  refine approaches_bind (approaches_const _) fun _ => approaches_ite ?_ (approaches_const _)
  exact approaches_bind (approaches_const _) fun _ => approaches_bind (approaches_const _) fun _ =>
    approaches_bind approaches_block fun _ => approaches_const _

theorem primitive_eq (kind : Primitive) (word : String) :
    primitive kind word = (do
      if (← following).kind = .assign then return .ident word
      else if kind.acceptsBody then
        let args ← (do
          if (← following).kind = .lparen then
            advance
            items .rparen
          else return [])
        if (← following).kind = .lbrace then
          advance
          return .primitive kind args (some (← block))
        else return .primitive kind args none
      else
        expect .lparen
        return .primitive kind (← items .rparen) none) := by
  refine limit_eq (fun n => (related n).primitive kind word) ?_
  refine approaches_bind (approaches_const _) fun _ => approaches_ite (approaches_const _) (approaches_ite ?_ ?_)
  · refine approaches_bind (approaches_bind (approaches_const _) fun _ => ?_) fun _ => ?_
    · exact approaches_ite (approaches_bind (approaches_const _) fun _ => approaches_items _) (approaches_const _)
    · refine approaches_bind (approaches_const _) fun _ => approaches_ite ?_ (approaches_const _)
      exact approaches_bind (approaches_const _) fun _ => approaches_bind approaches_block fun _ => approaches_const _
  · exact approaches_bind (approaches_const _) fun _ => approaches_bind (approaches_items _) fun _ =>
      approaches_const _

theorem items_eq (close : Token.Kind) :
    items close = (do
      if (← following).kind = close then
        advance
        return []
      else
        advance
        let first ← expression .lowest
        return first :: (← moreItems close)) := by
  refine limit_eq (fun n => (related n).items close) ?_
  refine approaches_bind (approaches_const _) fun _ => approaches_ite (approaches_const _) ?_
  exact approaches_bind (approaches_const _) fun _ => approaches_bind (approaches_expression _) fun _ =>
    approaches_bind (approaches_moreItems _) fun _ => approaches_const _

theorem moreItems_eq (close : Token.Kind) :
    moreItems close = (do
      if (← following).kind = .comma then
        advance
        advance
        let item ← expression .lowest
        return item :: (← moreItems close)
      else
        expect close
        return []) := by
  refine limit_eq (fun n => (related n).moreItems close) ?_
  refine approaches_bind (approaches_const _) fun _ => approaches_ite ?_ (approaches_const _)
  exact approaches_bind (approaches_const _) fun _ => approaches_bind (approaches_const _) fun _ =>
    approaches_bind (approaches_expression _) fun _ => approaches_bind (approaches_moreItems _) fun _ =>
      approaches_const _

theorem pairs_eq :
    pairs = (do
      if (← following).kind = .rbrace then
        advance
        return []
      else
        advance
        let key ← expression .lowest
        expect .colon
        advance
        let value ← expression .lowest
        if (← following).kind = .rbrace then
          advance
          return [(key, value)]
        else
          expect .comma
          return (key, value) :: (← pairs)) := by
  refine limit_eq (fun n => (related n).pairs) ?_
  refine approaches_bind (approaches_const _) fun _ => approaches_ite (approaches_const _) ?_
  refine approaches_bind (approaches_const _) fun _ => approaches_bind (approaches_expression _) fun _ => ?_
  refine approaches_bind (approaches_const _) fun _ => approaches_bind (approaches_const _) fun _ => ?_
  refine approaches_bind (approaches_expression _) fun _ => approaches_bind (approaches_const _) fun _ => ?_
  refine approaches_ite (approaches_const _) ?_
  exact approaches_bind (approaches_const _) fun _ => approaches_bind approaches_pairs fun _ => approaches_const _

theorem statements_eq (close : Token.Kind) :
    statements close = (do
      let kind := (← current).kind
      if kind = close ∨ kind = .eof then return []
      else
        match ← attempt statement with
        | .ok first =>
          advance
          return first :: (← statements close)
        | .error error =>
          report error
          synchronize
          if (← current).kind = close then return []
          else
            advance
            statements close) := by
  refine limit_eq (fun n => (related n).statements close) ?_
  refine approaches_bind (approaches_const _) fun _ => approaches_ite (approaches_const _) ?_
  refine approaches_bind (approaches_attempt approaches_statement) fun result => ?_
  cases result with
  | ok first =>
    exact approaches_bind (approaches_const _) fun _ => approaches_bind (approaches_statements _) fun _ =>
      approaches_const _
  | error error =>
    refine approaches_bind (approaches_const _) fun _ => approaches_bind (approaches_const _) fun _ => ?_
    refine approaches_bind (approaches_const _) fun _ => approaches_ite (approaches_const _) ?_
    exact approaches_bind (approaches_const _) fun _ => approaches_statements _

theorem statement_eq :
    statement = (do
      let stmt ← (do
        match (← current).kind with
        | .letWord =>
          expect .ident
          let name := (← current).literal
          expect .assign
          advance
          return Stmt.bind name (← expression .lowest)
        | .returnWord =>
          advance
          return Stmt.ret (← expression .lowest)
        | _ => return Stmt.expr (← expression .lowest))
      if (← following).kind = .semicolon then advance
      return stmt) := by
  refine limit_eq (fun n => (related n).statement) ?_
  refine approaches_bind (approaches_bind (approaches_const _) fun token => ?_) fun _ => approaches_const _
  cases token.kind with
  | letWord =>
    refine approaches_bind (approaches_const _) fun _ => approaches_bind (approaches_const _) fun _ => ?_
    refine approaches_bind (approaches_const _) fun _ => approaches_bind (approaches_const _) fun _ => ?_
    exact approaches_bind (approaches_expression _) fun _ => approaches_const _
  | returnWord =>
    exact approaches_bind (approaches_const _) fun _ => approaches_bind (approaches_expression _) fun _ =>
      approaches_const _
  | _ => exact approaches_bind (approaches_expression _) fun _ => approaches_const _

theorem block_eq :
    block = (do
      advance
      let stmts ← statements .rbrace
      let token ← current
      if token.kind = .rbrace then return stmts
      else fail (.unexpectedToken .rbrace token.kind) token.position) := by
  refine limit_eq (fun n => (related n).block) ?_
  exact approaches_bind (approaches_const _) fun _ => approaches_bind (approaches_statements _) fun _ =>
    approaches_const _

theorem moreParams_eq :
    moreParams = (do
      if (← following).kind = .comma then
        advance
        expect .ident
        let name := (← current).literal
        return name :: (← moreParams)
      else
        expect .rparen
        return []) := by
  refine limit_eq (fun n => (related n).moreParams) ?_
  refine approaches_bind (approaches_const _) fun _ => approaches_ite ?_ (approaches_const _)
  refine approaches_bind (approaches_const _) fun _ => approaches_bind (approaches_const _) fun _ => ?_
  exact approaches_bind (approaches_const _) fun _ => approaches_bind approaches_moreParams fun _ => approaches_const _

theorem params_eq :
    params = (do
      if (← following).kind = .rparen then
        advance
        return []
      else
        expect .ident
        let name := (← current).literal
        return name :: (← moreParams)) := by
  refine approaches_unique approaches_params ?_
  refine approaches_bind (approaches_const _) fun _ => approaches_ite (approaches_const _) ?_
  refine approaches_bind (approaches_const _) fun _ => approaches_bind (approaches_const _) fun _ => ?_
  exact approaches_bind approaches_moreParams fun _ => approaches_const _

end Unbounded

end SolidScript.Parser
