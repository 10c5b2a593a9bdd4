import SolidScript.Proofs.Decimal.Numeral
import SolidScript.Proofs.Parser.Progress
import SolidScript.Proofs.Token.Sound

namespace SolidScript

namespace Parser

variable {α β : Type}

-- The tokens are those of some text.
structure Sound (s : State) : Prop where
  eof : s.eof.kind = .eof
  tokens : ∀ t ∈ s.tokens, Token.Sound t.word

theorem Sound.later {s t : State} (h : Sound s) (hl : Later s t) : Sound t :=
  ⟨hl.eof ▸ h.eof, fun token ht => h.tokens token (hl.tokens.subset ht)⟩

theorem Sound.advanced {s : State} (h : Sound s) : Sound s.advanced := h.later (.advanced s)

theorem Sound.current {s : State} (h : Sound s) : Token.Sound s.current.word := by
  cases ht : s.tokens with
  | nil => simp [State.current, ht, Token.word, Token.Sound, h.eof]
  | cons token tokens =>
    have := h.tokens token (by simp [ht])
    simpa [State.current, ht] using this

-- What holds of the value and the state if a parser succeeds.
def Ensures (x : Parser α) (s : State) (Q : α → State → Prop) : Prop := ∀ a t, x s = .done a t → Sound t ∧ Q a t

namespace Ensures

variable {x : Parser α} {f : α → Parser β} {s : State} {R : α → State → Prop} {Q : β → State → Prop}

theorem pure {a : α} {Q : α → State → Prop} (hs : Sound s) (h : Q a s) : Ensures (Pure.pure a) s Q := by
  rintro b t ⟨⟩
  exact ⟨hs, h⟩

theorem fail {cause : ParseError.Cause} {position : Position} {Q : α → State → Prop} :
    Ensures (Parser.fail cause position) s Q := by
  rintro a t ⟨⟩

theorem outOfSteps {Q : α → State → Prop} : Ensures Parser.outOfSteps s Q := by
  rintro a t ⟨⟩

theorem bind (hx : Ensures x s R) (hf : ∀ a t, Sound t → R a t → Ensures (f a) t Q) : Ensures (x >>= f) s Q := by
  intro b u hu
  rw [bind_apply] at hu
  cases hx' : x s with
  | done a t =>
    obtain ⟨ht, ha⟩ := hx a t hx'
    simp only [hx'] at hu
    exact hf a t ht ha b u hu
  | failed e t => simp [hx'] at hu
  | exhausted => simp [hx'] at hu

theorem advance {f : Unit → Parser β} (h : Ensures (f ()) s.advanced Q) : Ensures (Parser.advance >>= f) s Q := h

theorem current {f : Token → Parser β} (h : Ensures (f s.current) s Q) : Ensures (Parser.current >>= f) s Q := h

theorem following {f : Token → Parser β} (h : Ensures (f s.following) s Q) : Ensures (Parser.following >>= f) s Q := h

theorem expect {kind : Token.Kind} {f : Unit → Parser β}
    (h : s.following.kind = kind → Ensures (f ()) s.advanced Q) : Ensures (Parser.expect kind >>= f) s Q := by
  by_cases hk : s.following.kind = kind
  · intro b u hu
    rw [expect_bind hk] at hu
    exact h hk b u hu
  · intro b u hu
    simp [bind_apply, Parser.expect, Parser.following, hk] at hu

theorem ite {p : Prop} [Decidable p] {x y : Parser α} {Q : α → State → Prop} (hx : p → Ensures x s Q)
    (hy : ¬ p → Ensures y s Q) : Ensures (if p then x else y) s Q := by
  split
  · exact hx ‹_›
  · exact hy ‹_›

theorem mono {Q Q' : α → State → Prop} (h : Ensures x s Q) (hq : ∀ a t, Q a t → Q' a t) : Ensures x s Q' :=
  fun a t hx => ⟨(h a t hx).1, hq a t (h a t hx).2⟩

end Ensures

-- A tree of the right shape.
def Built (e : Expr) : Prop := e.everywhere Expr.isShaped

-- The name of an argument that still waits for its equals sign, or something that ends in one. It may be a keyword.
def Pending (e : Expr) (s : State) : Prop :=
  s.following.kind = .assign ∧ e.hasBody = false ∧ ∀ name, e = .ident name → Token.isArgumentName name

def BuiltStmt (s : Stmt) : Prop := s.isShaped ∧ Built s.value

structure Shaped (n : Nat) : Prop where
  moreParams : ∀ s, Sound s → Ensures (moreParams n) s fun names _ => ∀ name ∈ names, Token.isName name
  expression : ∀ bound s, Sound s →
    Ensures (expression n bound) s fun e t => Built e ∨ bound ≠ .lowest ∧ Pending e t
  operand : ∀ s, Sound s → Ensures (operand n) s fun e t => Built e ∨ Pending e t
  operators : ∀ bound left s, Sound s → Built left ∨ Pending left s →
    Ensures (operators n bound left) s fun e t => Built e ∨ bound ≠ .lowest ∧ Pending e t
  extend : ∀ token left s, Sound s → left.hasBody = false →
    (Built left ∨ token.kind = .assign ∧ ∀ name, left = .ident name → Token.isArgumentName name) →
    Ensures (extend n token left) s fun e t => Built e ∨ Pending e t
  conditional : ∀ s, Sound s → Ensures (conditional n) s fun e _ => Built e
  primitive : ∀ kind s, Sound s → Ensures (primitive n kind kind.keyword) s fun e t => Built e ∨ Pending e t
  items : ∀ close s, Sound s → Ensures (items n close) s fun es _ => ∀ e ∈ es, Built e
  moreItems : ∀ close s, Sound s → Ensures (moreItems n close) s fun es _ => ∀ e ∈ es, Built e
  pairs : ∀ s, Sound s → Ensures (pairs n) s fun ps _ => ∀ p ∈ ps, Built p.1 ∧ Built p.2
  statements : ∀ close s, Sound s → Ensures (statements n close) s fun block _ => ∀ s ∈ block, BuiltStmt s
  statement : ∀ s, Sound s → Ensures (statement n) s fun s _ => BuiltStmt s
  block : ∀ s, Sound s → Ensures (block n) s fun block _ => ∀ s ∈ block, BuiltStmt s

theorem built_iff {e : Expr} : Built e ↔ e.isShaped ∧ ∀ c ∈ e.children, Built c := Expr.everywhere_iff

namespace Shaped

variable {n : Nat} {s : State}

theorem isName_current (hs : Sound s) (hk : s.current.kind = .ident) : Token.isName s.current.literal := by
  have := hs.current
  simpa [Token.Sound, Token.word, hk] using this

theorem succ_moreParams (h : Shaped n) (hs : Sound s) :
    Ensures (Parser.moreParams (n + 1)) s fun names _ => ∀ name ∈ names, Token.isName name := by
  rw [Parser.moreParams]
  apply Ensures.following
  apply Ensures.ite
  · intro _
    apply Ensures.advance
    apply Ensures.expect
    intro hk
    have hn := isName_current (s := s.advanced.advanced) hs.advanced.advanced hk
    apply Ensures.current
    apply Ensures.bind (h.moreParams _ hs.advanced.advanced)
    intro names t ht hnames
    apply Ensures.pure ht
    simpa using ⟨hn, hnames⟩
  · intro _
    apply Ensures.expect
    intro _
    apply Ensures.pure hs.advanced
    simp

theorem params (h : Shaped n) (hs : Sound s) :
    Ensures (Parser.params n) s fun names _ => ∀ name ∈ names, Token.isName name := by
  unfold Parser.params
  apply Ensures.following
  apply Ensures.ite
  · intro _
    apply Ensures.advance
    apply Ensures.pure hs.advanced
    simp
  · intro _
    apply Ensures.expect
    intro hk
    have hn := isName_current (s := s.advanced) hs.advanced hk
    apply Ensures.current
    apply Ensures.bind (h.moreParams _ hs.advanced)
    intro names t ht hnames
    apply Ensures.pure ht
    simpa using ⟨hn, hnames⟩

-- At the lowest bound nothing waits for an equals sign any more.
theorem whole (h : Shaped n) (hs : Sound s) : Ensures (Parser.expression n .lowest) s fun e _ => Built e := by
  apply Ensures.mono (h.expression .lowest s hs)
  intro e t he
  exact he.resolve_right fun hp => hp.1 rfl

theorem succ_expression (h : Shaped n) (bound : Precedence) (hs : Sound s) :
    Ensures (Parser.expression (n + 1) bound) s fun e t => Built e ∨ bound ≠ .lowest ∧ Pending e t := by
  rw [Parser.expression]
  apply Ensures.bind (h.operand s hs)
  intro left t ht hl
  exact h.operators bound left t ht hl

theorem succ_operators (h : Shaped n) (bound : Precedence) (left : Expr) (hs : Sound s)
    (hl : Built left ∨ Pending left s) :
    Ensures (Parser.operators (n + 1) bound left) s fun e t => Built e ∨ bound ≠ .lowest ∧ Pending e t := by
  rw [Parser.operators]
  apply Ensures.following
  apply Ensures.ite
  · intro hc
    have hl' : Built left ∨ s.following.kind = .assign ∧ ∀ name, left = .ident name → Token.isArgumentName name :=
      hl.imp_right fun hp => ⟨hp.1, hp.2.2⟩
    apply Ensures.advance
    apply Ensures.bind (h.extend s.following left _ hs.advanced hc.2 hl')
    intro longer t ht hlonger
    exact h.operators bound longer t ht hlonger
  · intro hc
    apply Ensures.pure hs
    rcases hl with hb | hp
    · exact .inl hb
    · refine .inr ⟨?_, hp⟩
      -- an equals sign would have been taken
      rintro rfl
      exact hc ⟨by rw [hp.1]; decide, hp.2.1⟩

theorem pending_unary {op : UnaryOp} {right : Expr} {bound : Precedence} {t : State}
    (h : Built right ∨ bound ≠ .lowest ∧ Pending right t) :
    Built (.unary op right) ∨ Pending (.unary op right) t := by
  refine h.imp (fun hb => ?_) fun hp => ⟨hp.2.1, rfl, by simp⟩
  exact built_iff.2 ⟨rfl, by simpa [Expr.children] using hb⟩

theorem built_leaf {e : Expr} (h : e.isShaped) (hc : e.children = []) : Built e :=
  built_iff.2 ⟨h, by simp [hc]⟩

theorem built_block {block : List Stmt} (h : ∀ s ∈ block, BuiltStmt s) :
    block.all Stmt.isShaped ∧ ∀ c ∈ block.map Stmt.value, Built c := by
  simp only [List.all_eq_true, List.mem_map, forall_exists_index, and_imp, forall_apply_eq_imp_iff₂]
  exact ⟨fun s hs => (h s hs).1, fun s hs => (h s hs).2⟩

theorem ensures_intLiteral (hs : Sound s) (token : Token) :
    Ensures (intLiteral token) s fun e t => Built e ∨ Pending e t := by
  unfold intLiteral
  split
  · rename_i value hv
    exact .pure hs (.inl (built_leaf (by simpa [Expr.isShaped] using Number.toInt_of_integer? hv) rfl))
  · exact Ensures.fail

theorem ensures_floatLiteral (hs : Sound s) {token : Token} (ht : ∃ c ∈ token.literal.toList.head?, c.isDigit) :
    Ensures (floatLiteral token) s fun e t => Built e ∨ Pending e t := by
  unfold floatLiteral
  split
  · rename_i value hv
    have hx := Number.isNegative_of_ofText? ht hv
    exact .pure hs (.inl (built_leaf (by rw [Expr.isShaped, hx.1, hx.2]; rfl) rfl))
  · exact Ensures.fail

theorem succ_operand (h : Shaped n) (hs : Sound s) :
    Ensures (Parser.operand (n + 1)) s fun e t => Built e ∨ Pending e t := by
  have hsound := hs.current
  rw [Parser.operand]
  apply Ensures.current
  simp only [Token.Sound, Token.word] at hsound
  cases hk : s.current.kind with
  | ident =>
    rw [hk] at hsound
    exact Ensures.pure hs (.inl (built_leaf hsound rfl))
  | int => exact ensures_intLiteral hs _
  | float =>
    rw [hk] at hsound
    exact ensures_floatLiteral hs hsound
  | string =>
    rw [hk] at hsound
    exact Ensures.pure hs (.inl (built_leaf hsound rfl))
  | trueWord => exact Ensures.pure hs (.inl (built_leaf rfl rfl))
  | falseWord => exact Ensures.pure hs (.inl (built_leaf rfl rfl))
  | undefWord => exact Ensures.pure hs (.inl (built_leaf rfl rfl))
  | bang =>
    apply Ensures.advance
    apply Ensures.bind (h.expression .unary _ hs.advanced)
    intro right t ht hr
    exact Ensures.pure ht (pending_unary hr)
  | minus =>
    apply Ensures.advance
    apply Ensures.bind (h.expression .unary _ hs.advanced)
    intro right t ht hr
    exact Ensures.pure ht (pending_unary hr)
  | lparen =>
    apply Ensures.advance
    apply Ensures.bind (h.whole hs.advanced)
    intro inner t ht hi
    apply Ensures.expect
    intro _
    exact Ensures.pure ht.advanced (.inl hi)
  | ifWord =>
    apply Ensures.mono (h.conditional s hs)
    intro e t he
    exact .inl he
  | functionWord =>
    apply Ensures.expect
    intro _
    apply Ensures.bind (h.params hs.advanced)
    intro names t ht hnames
    apply Ensures.expect
    intro _
    apply Ensures.bind (h.block _ ht.advanced)
    intro body u hu hbody
    obtain ⟨hb, hv⟩ := built_block hbody
    apply Ensures.pure hu
    exact .inl (built_iff.2 ⟨Bool.and_eq_true_iff.2 ⟨List.all_eq_true.2 hnames, hb⟩, hv⟩)
  | lbracket =>
    apply Ensures.bind (h.items .rbracket s hs)
    intro es t ht hes
    exact Ensures.pure ht (.inl (built_iff.2 ⟨rfl, hes⟩))
  | lbrace =>
    apply Ensures.bind (h.pairs s hs)
    intro ps t ht hps
    apply Ensures.pure ht
    refine .inl (built_iff.2 ⟨rfl, ?_⟩)
    simp only [Expr.children, List.mem_flatMap]
    grind
  | primitive kind =>
    rw [hk] at hsound
    rw [show s.current.literal = kind.keyword from hsound]
    exact h.primitive kind s hs
  | _ => exact Ensures.fail

theorem succ_extend (h : Shaped n) (token : Token) (left : Expr) (hs : Sound s) (hb : left.hasBody = false)
    (hl : Built left ∨ token.kind = .assign ∧ ∀ name, left = .ident name → Token.isArgumentName name) :
    Ensures (Parser.extend (n + 1) token left) s fun e t => Built e ∨ Pending e t := by
  have built (hk : token.kind ≠ .assign) : Built left := hl.resolve_right fun hp => hk hp.1
  unfold Parser.extend
  split
  · -- a call
    rename_i hk
    apply Ensures.bind (h.items .rparen s hs)
    intro args t ht ha
    apply Ensures.pure ht
    refine .inl (built_iff.2 ⟨by simpa [Expr.isShaped] using hb, ?_⟩)
    simpa [Expr.children] using ⟨built (by simp [hk]), ha⟩
  · -- an index
    rename_i hk
    apply Ensures.advance
    apply Ensures.bind (h.whole hs.advanced)
    intro key t ht hkey
    apply Ensures.expect
    intro _
    apply Ensures.pure ht.advanced
    refine .inl (built_iff.2 ⟨by simpa [Expr.isShaped] using hb, ?_⟩)
    simpa [Expr.children] using ⟨built (by simp [hk]), hkey⟩
  · -- a named argument
    rename_i hk
    split
    · rename_i name
      have hn : Token.isArgumentName name := by
        rcases hl with hl | hl
        · simp [Token.isArgumentName, show Token.isName name from (built_iff.1 hl).1]
        · exact hl.2 name rfl
      apply Ensures.advance
      apply Ensures.bind (h.whole hs.advanced)
      intro value t ht hv
      apply Ensures.pure ht
      exact .inl (built_iff.2 ⟨hn, by simpa [Expr.children] using hv⟩)
    · exact Ensures.fail
  · -- a binary operator
    rename_i hk _ _
    split
    · apply Ensures.advance
      apply Ensures.bind (h.expression _ _ hs.advanced)
      intro right t ht hr
      apply Ensures.pure ht
      rcases hr with hr | hp
      · refine .inl (built_iff.2 ⟨by simpa [Expr.isShaped] using hb, ?_⟩)
        simpa [Expr.children] using ⟨built ‹_›, hr⟩
      · exact .inr ⟨hp.2.1, rfl, by simp⟩
    · exact Ensures.fail

theorem succ_conditional (h : Shaped n) (hs : Sound s) :
    Ensures (Parser.conditional (n + 1)) s fun e _ => Built e := by
  rw [Parser.conditional]
  apply Ensures.expect
  intro _
  apply Ensures.advance
  apply Ensures.bind (h.whole hs.advanced.advanced)
  intro condition t ht hc
  apply Ensures.expect
  intro _
  apply Ensures.expect
  intro _
  apply Ensures.bind (h.block _ ht.advanced.advanced)
  intro consequence u hu hb
  obtain ⟨hb, hv⟩ := built_block hb
  apply Ensures.following
  apply Ensures.ite
  · intro _
    apply Ensures.advance
    apply Ensures.expect
    intro _
    apply Ensures.bind (h.block _ hu.advanced.advanced)
    intro alternative w hw hb'
    obtain ⟨hb', hv'⟩ := built_block hb'
    apply Ensures.pure hw
    refine built_iff.2 ⟨by simp [Expr.isShaped, hb, hb'], ?_⟩
    simp only [Expr.children, List.map_append, List.mem_cons, List.mem_append, Option.getD_some]
    grind
  · intro _
    apply Ensures.pure hu
    refine built_iff.2 ⟨by simp [Expr.isShaped, hb], ?_⟩
    simp only [Expr.children, List.map_append, List.mem_cons, List.mem_append, Option.getD_none, List.map_nil]
    grind

theorem succ_primitive (h : Shaped n) (kind : Primitive) (hs : Sound s) :
    Ensures (Parser.primitive (n + 1) kind kind.keyword) s fun e t => Built e ∨ Pending e t := by
  rw [Parser.primitive]
  apply Ensures.following
  apply Ensures.ite
  · intro hk
    apply Ensures.pure hs
    refine .inr ⟨hk, rfl, ?_⟩
    rintro name ⟨⟩
    simp [Token.isArgumentName, Primitive.ofKeyword?_keyword]
  intro _
  apply Ensures.ite
  · intro htakes
    apply Ensures.bind (R := fun args _ => ∀ e ∈ args, Built e)
    · apply Ensures.following
      apply Ensures.ite
      · intro _
        apply Ensures.advance
        exact h.items .rparen _ hs.advanced
      · intro _
        apply Ensures.pure hs
        simp
    intro args t ht hargs
    apply Ensures.following
    apply Ensures.ite
    · intro _
      apply Ensures.advance
      apply Ensures.bind (h.block _ ht.advanced)
      intro body u hu hb
      obtain ⟨hb, hv⟩ := built_block hb
      apply Ensures.pure hu
      refine .inl (built_iff.2 ⟨by simp [Expr.isShaped, htakes, hb], ?_⟩)
      simp only [Expr.children, List.mem_append, Option.getD_some]
      grind
    · intro _
      apply Ensures.pure ht
      exact .inl (built_iff.2 ⟨by simp [Expr.isShaped], by simpa [Expr.children] using hargs⟩)
  · intro _
    apply Ensures.expect
    intro _
    apply Ensures.bind (h.items .rparen _ hs.advanced)
    intro args t ht hargs
    apply Ensures.pure ht
    exact .inl (built_iff.2 ⟨by simp [Expr.isShaped], by simpa [Expr.children] using hargs⟩)

-- An expression and the items behind it.
theorem list (h : Shaped n) (close : Token.Kind) (hs : Sound s) :
    Ensures (do return (← Parser.expression n .lowest) :: (← Parser.moreItems n close)) s
      fun es _ => ∀ e ∈ es, Built e := by
  apply Ensures.bind (h.whole hs)
  intro first t ht hf
  apply Ensures.bind (h.moreItems close t ht)
  intro others u hu ho
  apply Ensures.pure hu
  simpa using ⟨hf, ho⟩

theorem succ_items (h : Shaped n) (close : Token.Kind) (hs : Sound s) :
    Ensures (Parser.items (n + 1) close) s fun es _ => ∀ e ∈ es, Built e := by
  rw [Parser.items]
  apply Ensures.following
  apply Ensures.ite
  · intro _
    apply Ensures.advance
    apply Ensures.pure hs.advanced
    simp
  · intro _
    apply Ensures.advance
    exact h.list close hs.advanced

theorem succ_moreItems (h : Shaped n) (close : Token.Kind) (hs : Sound s) :
    Ensures (Parser.moreItems (n + 1) close) s fun es _ => ∀ e ∈ es, Built e := by
  rw [Parser.moreItems]
  apply Ensures.following
  apply Ensures.ite
  · intro _
    apply Ensures.advance
    apply Ensures.advance
    exact h.list close hs.advanced.advanced
  · intro _
    apply Ensures.expect
    intro _
    apply Ensures.pure hs.advanced
    simp

theorem succ_pairs (h : Shaped n) (hs : Sound s) :
    Ensures (Parser.pairs (n + 1)) s fun ps _ => ∀ p ∈ ps, Built p.1 ∧ Built p.2 := by
  rw [Parser.pairs]
  apply Ensures.following
  apply Ensures.ite
  · intro _
    apply Ensures.advance
    apply Ensures.pure hs.advanced
    simp
  intro _
  apply Ensures.advance
  apply Ensures.bind (h.whole hs.advanced)
  intro key t ht hkey
  apply Ensures.expect
  intro _
  apply Ensures.advance
  apply Ensures.bind (h.whole ht.advanced.advanced)
  intro value u hu hvalue
  apply Ensures.following
  apply Ensures.ite
  · intro _
    apply Ensures.advance
    apply Ensures.pure hu.advanced
    simpa using ⟨hkey, hvalue⟩
  · intro _
    apply Ensures.expect
    intro _
    apply Ensures.bind (h.pairs _ hu.advanced)
    intro others w hw ho
    apply Ensures.pure hw
    intro p hp
    rcases List.mem_cons.1 hp with rfl | hp
    · exact ⟨hkey, hvalue⟩
    · exact ho p hp

theorem succ_statement (h : Shaped n) (hs : Sound s) :
    Ensures (Parser.statement (n + 1)) s fun s _ => BuiltStmt s := by
  rw [Parser.statement]
  apply Ensures.bind (R := fun s _ => BuiltStmt s)
  · apply Ensures.current
    cases s.current.kind with
    | letWord =>
      apply Ensures.expect
      intro hk
      have hn := isName_current (s := s.advanced) hs.advanced hk
      apply Ensures.current
      apply Ensures.expect
      intro _
      apply Ensures.advance
      apply Ensures.bind (h.whole hs.advanced.advanced.advanced)
      intro value t ht hv
      exact Ensures.pure ht ⟨hn, hv⟩
    | returnWord =>
      apply Ensures.advance
      apply Ensures.bind (h.whole hs.advanced)
      intro value t ht hv
      exact Ensures.pure ht ⟨rfl, hv⟩
    | _ =>
      apply Ensures.bind (h.whole hs)
      intro value t ht hv
      exact Ensures.pure ht ⟨rfl, hv⟩
  intro stmt t ht hstmt
  apply Ensures.following
  split
  · apply Ensures.advance
    exact Ensures.pure ht.advanced hstmt
  · exact Ensures.pure ht hstmt

-- A failed statement leaves the tokens of the same text.
theorem ensures_attempt (h : Shaped n) (hs : Sound s) :
    Ensures (attempt (Parser.statement n)) s fun result _ => ∀ stmt, result = .ok stmt → BuiltStmt stmt := by
  intro result t hr
  have hl := (later n).statement s
  unfold attempt at hr
  cases hx : Parser.statement n s with
  | done stmt u =>
    simp only [hx, Outcome.done.injEq] at hr
    obtain ⟨rfl, rfl⟩ := hr
    obtain ⟨hu, hb⟩ := h.statement s hs stmt u hx
    refine ⟨hu, ?_⟩
    rintro _ ⟨⟩
    exact hb
  | failed error u =>
    simp only [hx, Outcome.done.injEq] at hr
    obtain ⟨rfl, rfl⟩ := hr
    rw [hx] at hl
    exact ⟨hs.later hl, by simp⟩
  | exhausted => simp [hx] at hr

theorem succ_statements (h : Shaped n) (close : Token.Kind) (hs : Sound s) :
    Ensures (Parser.statements (n + 1) close) s fun block _ => ∀ s ∈ block, BuiltStmt s := by
  rw [Parser.statements]
  apply Ensures.current
  apply Ensures.ite
  · intro _
    apply Ensures.pure hs
    simp
  intro _
  apply Ensures.bind (h.ensures_attempt hs)
  intro result t ht hr
  cases result with
  | ok first =>
    apply Ensures.advance
    apply Ensures.bind (h.statements close _ ht.advanced)
    intro others u hu ho
    apply Ensures.pure hu
    simpa using ⟨hr first rfl, ho⟩
  | error error =>
    have hu : Sound { t with tokens := skipStatement t.tokens, errors := t.errors ++ [error] } :=
      ht.later ⟨rfl, skipStatement_suffix _, List.prefix_append _ _⟩
    apply Ensures.current (f := fun token => _)
    apply Ensures.ite
    · intro _
      apply Ensures.pure hu
      simp
    · intro _
      apply Ensures.advance
      exact h.statements close _ hu.advanced

theorem succ_block (h : Shaped n) (hs : Sound s) :
    Ensures (Parser.block (n + 1)) s fun block _ => ∀ s ∈ block, BuiltStmt s := by
  rw [Parser.block]
  apply Ensures.advance
  apply Ensures.bind (h.statements .rbrace _ hs.advanced)
  intro stmts t ht hb
  apply Ensures.current
  apply Ensures.ite
  · intro _
    exact Ensures.pure ht hb
  · intro _
    exact Ensures.fail

theorem zero : Shaped 0 := by
  constructor <;> intros <;> exact .outOfSteps

theorem all (n : Nat) : Shaped n := by
  induction n with
  | zero => exact zero
  | succ n h =>
    exact {
      moreParams := fun _ => h.succ_moreParams
      expression := fun bound _ => h.succ_expression bound
      operand := fun _ => h.succ_operand
      operators := fun bound left _ => h.succ_operators bound left
      extend := fun token left _ => h.succ_extend token left
      conditional := fun _ => h.succ_conditional
      primitive := fun kind _ => h.succ_primitive kind
      items := fun close _ => h.succ_items close
      moreItems := fun close _ => h.succ_moreItems close
      pairs := fun _ => h.succ_pairs
      statements := fun close _ => h.succ_statements close
      statement := fun _ => h.succ_statement
      block := fun _ => h.succ_block }

end Shaped

theorem sound_ofTokens (source : String) : Sound (State.ofTokens (Token.tokenize source)) where
  eof := (at_ofTokens source).eof
  tokens := fun t ht => Token.sound_allFrom _ t (List.mem_filter.1 ht).1

end Parser

-- Every program that is read has the shape of one that can be written.
theorem Program.isShaped_parse (source : String) : Program.isShaped (parse source).program := by
  have h (block : List Stmt) (hb : ∀ s ∈ block, Parser.BuiltStmt s) : Program.isShaped block := by
    simp only [Program.isShaped, Program.everywhere, Bool.and_eq_true, List.all_eq_true]
    exact ⟨fun s hs => (hb s hs).1, fun s hs => (hb s hs).2⟩
  unfold parse Parsed.ofTokens
  dsimp only
  split
  · rename_i program state hp
    exact h program ((Parser.Shaped.all _).statements _ _ (Parser.sound_ofTokens source) _ _ hp).2
  · exact h [] (by simp)
  · exact h [] (by simp)

end SolidScript
