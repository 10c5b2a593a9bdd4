import SolidScript.Proofs.Parser.Composition
import SolidScript.Proofs.Token.Tiling

namespace SolidScript

namespace Token

theorem Tiles.le_byte {before text : List Char} {ts : List Token} (h : Tiles before text ts) {t : Token} (ht : t ∈ ts) :
    (String.ofList before).utf8ByteSize ≤ t.position.byte := by
  induction h with
  | last hgap hk hl hp =>
    obtain rfl := List.mem_singleton.1 ht
    rw [hp.byte, String.ofList_append, String.utf8ByteSize_append]
    omega
  | token hgap hk hw hp htiles ih =>
    rcases List.mem_cons.1 ht with rfl | ht
    · rw [hp.byte, String.ofList_append, String.utf8ByteSize_append]
      omega
    · have hle := ih ht
      simp only [String.ofList_append, String.utf8ByteSize_append] at hle
      omega

-- The tokens of a text stand in its order.
theorem Tiles.pairwise {before text : List Char} {ts : List Token} (h : Tiles before text ts) :
    ts.Pairwise fun t u => t.position.byte ≤ u.position.byte := by
  induction h with
  | last hgap hk hl hp => exact List.pairwise_singleton _ _
  | token hgap hk hw hp htiles ih =>
    refine List.pairwise_cons.2 ⟨fun u hu => ?_, ih⟩
    have hle := htiles.le_byte hu
    rw [String.ofList_append, String.utf8ByteSize_append, ← hp.byte] at hle
    omega

end Token

namespace Parser

variable {α β : Type}

-- The tokens that are still ahead, with the end of the text as the last one.
def State.ahead (s : State) : List Token := s.tokens ++ [s.eof]

def State.reported (s : State) (e : ParseError) : State := { s with errors := s.errors ++ [e] }

-- The errors point at tokens of the text, in order, and none of them behind the current token.
structure Clear (text : List Token) (s : State) : Prop where
  inner : ∀ t ∈ s.tokens, t.kind ≠ .eof
  ahead : ∀ t ∈ s.ahead, t ∈ text
  ordered : s.ahead.Pairwise fun t u => t.position.byte ≤ u.position.byte
  known : ∀ e ∈ s.errors, ∃ t ∈ text, e.position = t.position
  sorted : s.errors.Pairwise fun d e => d.position.byte ≤ e.position.byte
  passed : ∀ e ∈ s.errors, e.position.byte ≤ s.current.position.byte

theorem State.exists_ahead (s : State) : ∃ rest, s.ahead = s.current :: rest := by
  unfold ahead current
  cases s.tokens with
  | nil => exact ⟨[], rfl⟩
  | cons token tokens => exact ⟨tokens ++ [s.eof], rfl⟩

theorem State.current_mem (s : State) : s.current ∈ s.ahead := by
  obtain ⟨rest, hs⟩ := s.exists_ahead
  simp [hs]

namespace Clear

variable {text : List Token} {s : State}

theorem current_le (h : Clear text s) {t : Token} (ht : t ∈ s.ahead) :
    s.current.position.byte ≤ t.position.byte := by
  have ho := h.ordered
  obtain ⟨rest, hs⟩ := s.exists_ahead
  rw [hs] at ho ht
  rcases List.mem_cons.1 ht with rfl | ht
  · exact le_rfl
  · exact (List.pairwise_cons.1 ho).1 t ht

-- Further on in the text nothing changes but the current token.
theorem of_suffix (h : Clear text s) {tokens : List Token} (hs : tokens <:+ s.tokens) :
    Clear text { s with tokens := tokens } := by
  have hahead : (State.ahead { s with tokens := tokens }).Sublist s.ahead := hs.sublist.append_right _
  exact {
    inner := fun t ht => h.inner t (hs.subset ht)
    ahead := fun t ht => h.ahead t (hahead.subset ht)
    ordered := h.ordered.sublist hahead
    known := h.known
    sorted := h.sorted
    passed := fun e he => (h.passed e he).trans (h.current_le (hahead.subset (State.current_mem _))) }

theorem advanced (h : Clear text s) : Clear text s.advanced := h.of_suffix (List.tail_suffix _)

-- An error at the current token.
theorem reported (h : Clear text s) (cause : ParseError.Cause) : Clear text (s.reported ⟨cause, s.current.position⟩) where
  inner := h.inner
  ahead := h.ahead
  ordered := h.ordered
  known e he := by
    rcases List.mem_append.1 he with he | he
    · exact h.known e he
    · obtain rfl := List.mem_singleton.1 he
      exact ⟨s.current, h.ahead _ s.current_mem, rfl⟩
  sorted := by
    refine List.pairwise_append.2 ⟨h.sorted, List.pairwise_singleton _ _, fun d hd e he => ?_⟩
    obtain rfl := List.mem_singleton.1 he
    exact h.passed d hd
  passed e he := by
    rcases List.mem_append.1 he with he | he
    · exact h.passed e he
    · obtain rfl := List.mem_singleton.1 he
      exact le_rfl

end Clear

-- What is read ends with the current token, so the next error is not in front of the one behind it.
def Outcome.Orderly (text : List Token) : Outcome α → Prop
  | done _ t => Clear text t.advanced
  | failed e t => Clear text (t.reported e).advanced
  | exhausted => True

def InOrder (text : List Token) (x : Parser α) (s : State) : Prop := (x s).Orderly text

namespace InOrder

variable {text : List Token} {x : Parser α} {f : α → Parser β} {s : State}

theorem outOfSteps : InOrder text (outOfSteps : Parser α) s := trivial

theorem pure {a : α} (h : Clear text s.advanced) : InOrder text (Pure.pure a) s := h

theorem failCurrent {cause : ParseError.Cause} (h : Clear text s) :
    InOrder text (fail cause s.current.position : Parser α) s :=
  (h.reported cause).advanced

theorem failFollowing {cause : ParseError.Cause} (h : Clear text s.advanced) :
    InOrder text (fail cause s.following.position : Parser α) s :=
  h.reported cause

theorem bind (hx : InOrder text x s)
    (hf : ∀ a t, x s = .done a t → Clear text t.advanced → InOrder text (f a) t) : InOrder text (x >>= f) s := by
  unfold InOrder at hx ⊢
  rw [bind_apply]
  cases hs : x s with
  | done a t =>
    rw [hs] at hx
    exact hf a t hs hx
  | failed e t =>
    rw [hs] at hx
    exact hx
  | exhausted => trivial

theorem advance {f : Unit → Parser β} (h : InOrder text (f ()) s.advanced) : InOrder text (Parser.advance >>= f) s := h

theorem current {f : Token → Parser β} (h : InOrder text (f s.current) s) : InOrder text (Parser.current >>= f) s := h

theorem following {f : Token → Parser β} (h : InOrder text (f s.following) s) :
    InOrder text (Parser.following >>= f) s := h

theorem ite {p : Prop} [Decidable p] {x y : Parser α} (hx : p → InOrder text x s) (hy : ¬ p → InOrder text y s) :
    InOrder text (if p then x else y) s := by
  split
  · exact hx ‹_›
  · exact hy ‹_›

theorem expect {kind : Token.Kind} {f : Unit → Parser β} (h : Clear text s.advanced)
    (hf : InOrder text (f ()) s.advanced) : InOrder text (Parser.expect kind >>= f) s := by
  unfold Parser.expect
  rw [bind_assoc]
  refine .following ?_
  split
  · exact hf
  · exact failFollowing h

end InOrder

-- A parser that looks at the current token first needs it to be clear, and any other one only what is behind it.
structure Points (text : List Token) (n : Nat) : Prop where
  moreParams : ∀ s, Clear text s.advanced → InOrder text (moreParams n) s
  expression : ∀ limit s, Clear text s → InOrder text (expression n limit) s
  operand : ∀ s, Clear text s → InOrder text (operand n) s
  operators : ∀ limit left s, Clear text s.advanced → InOrder text (operators n limit left) s
  extend : ∀ left s, Clear text s → InOrder text (extend n s.current left) s
  conditional : ∀ s, Clear text s.advanced → InOrder text (conditional n) s
  primitive : ∀ kind word s, Clear text s.advanced → InOrder text (primitive n kind word) s
  items : ∀ close s, Clear text s.advanced → InOrder text (items n close) s
  moreItems : ∀ close s, Clear text s.advanced → InOrder text (moreItems n close) s
  pairs : ∀ s, Clear text s.advanced → InOrder text (pairs n) s
  statements : ∀ close s, Clear text s → InOrder text (statements n close) s
  statement : ∀ s, Clear text s → InOrder text (statement n) s
  block : ∀ s, Clear text s.advanced → InOrder text (block n) s

namespace Points

variable {text : List Token} {n : Nat} {s : State}

theorem succ_moreParams (h : Points text n) (hs : Clear text s.advanced) :
    InOrder text (Parser.moreParams (n + 1)) s := by
  rw [Parser.moreParams]
  apply InOrder.following
  apply InOrder.ite
  · intro _
    apply InOrder.advance
    apply InOrder.expect hs.advanced
    apply InOrder.current
    apply InOrder.bind (h.moreParams _ hs.advanced.advanced)
    intro names t _ ht
    exact InOrder.pure ht
  · intro _
    apply InOrder.expect hs
    exact InOrder.pure hs.advanced

theorem params (h : Points text n) (hs : Clear text s.advanced) : InOrder text (Parser.params n) s := by
  unfold Parser.params
  apply InOrder.following
  apply InOrder.ite
  · intro _
    apply InOrder.advance
    exact InOrder.pure hs.advanced
  · intro _
    apply InOrder.expect hs
    apply InOrder.current
    apply InOrder.bind (h.moreParams _ hs.advanced)
    intro names t _ ht
    exact InOrder.pure ht

theorem succ_expression (h : Points text n) (limit : Precedence) (hs : Clear text s) :
    InOrder text (Parser.expression (n + 1) limit) s := by
  rw [Parser.expression]
  apply InOrder.bind (h.operand s hs)
  intro left t _ ht
  exact h.operators limit left t ht

theorem succ_operators (h : Points text n) (limit : Precedence) (left : Expr) (hs : Clear text s.advanced) :
    InOrder text (Parser.operators (n + 1) limit left) s := by
  rw [Parser.operators]
  apply InOrder.following
  apply InOrder.ite
  · intro _
    apply InOrder.advance
    apply InOrder.bind (h.extend left s.advanced hs)
    intro longer t _ ht
    exact h.operators limit longer t ht
  · intro _
    exact InOrder.pure hs

theorem intLiteral (hs : Clear text s) : InOrder text (intLiteral s.current) s := by
  unfold Parser.intLiteral
  split
  · exact InOrder.pure hs.advanced
  · exact InOrder.failCurrent hs

theorem floatLiteral (hs : Clear text s) : InOrder text (floatLiteral s.current) s := by
  unfold Parser.floatLiteral
  split
  · exact InOrder.pure hs.advanced
  · exact InOrder.failCurrent hs

-- One expression read and then built into a longer one.
theorem built (h : Points text n) (limit : Precedence) (f : Expr → α) (hs : Clear text s) :
    InOrder text (do return f (← Parser.expression n limit)) s := by
  apply InOrder.bind (h.expression limit s hs)
  intro e t _ ht
  exact InOrder.pure ht

theorem succ_operand (h : Points text n) (hs : Clear text s) : InOrder text (Parser.operand (n + 1)) s := by
  rw [Parser.operand]
  apply InOrder.current
  cases s.current.kind with
  | ident | string | trueWord | falseWord | undefWord => exact InOrder.pure hs.advanced
  | int => exact intLiteral hs
  | float => exact floatLiteral hs
  | bang =>
    apply InOrder.advance
    exact h.built .unary (Expr.unary .not) hs.advanced
  | minus =>
    apply InOrder.advance
    exact h.built .unary (Expr.unary .negate) hs.advanced
  | lparen =>
    apply InOrder.advance
    apply InOrder.bind (h.expression .lowest _ hs.advanced)
    intro e t _ ht
    apply InOrder.expect ht
    exact InOrder.pure ht.advanced
  | ifWord => exact h.conditional s hs.advanced
  | functionWord =>
    apply InOrder.expect hs.advanced
    apply InOrder.bind (h.params hs.advanced.advanced)
    intro names t _ ht
    apply InOrder.expect ht
    apply InOrder.bind (h.block _ ht.advanced)
    intro body u _ hu
    exact InOrder.pure hu
  | lbracket =>
    apply InOrder.bind (h.items .rbracket s hs.advanced)
    intro es t _ ht
    exact InOrder.pure ht
  | lbrace =>
    apply InOrder.bind (h.pairs s hs.advanced)
    intro ps t _ ht
    exact InOrder.pure ht
  | primitive kind => exact h.primitive kind _ s hs.advanced
  | _ => exact InOrder.failCurrent hs

theorem succ_extend (h : Points text n) (left : Expr) (hs : Clear text s) :
    InOrder text (Parser.extend (n + 1) s.current left) s := by
  unfold Parser.extend
  split
  · -- a call
    apply InOrder.bind (h.items .rparen s hs.advanced)
    intro args t _ ht
    exact InOrder.pure ht
  · -- an index
    apply InOrder.advance
    apply InOrder.bind (h.expression .lowest _ hs.advanced)
    intro key t _ ht
    apply InOrder.expect ht
    exact InOrder.pure ht.advanced
  · -- a named argument
    split
    · rename_i name
      apply InOrder.advance
      exact h.built .lowest (Expr.named name) hs.advanced
    · exact InOrder.failCurrent hs
  · -- a binary operator
    split
    · rename_i op _
      apply InOrder.advance
      exact h.built (.ofKind s.current.kind) (Expr.binary left op) hs.advanced
    · exact InOrder.failCurrent hs

theorem succ_conditional (h : Points text n) (hs : Clear text s.advanced) :
    InOrder text (Parser.conditional (n + 1)) s := by
  rw [Parser.conditional]
  apply InOrder.expect hs
  apply InOrder.advance
  apply InOrder.bind (h.expression .lowest _ hs.advanced)
  intro condition t _ ht
  apply InOrder.expect ht
  apply InOrder.expect ht.advanced
  apply InOrder.bind (h.block _ ht.advanced.advanced)
  intro consequence u _ hu
  apply InOrder.following
  apply InOrder.ite
  · intro _
    apply InOrder.advance
    apply InOrder.expect hu.advanced
    apply InOrder.bind (h.block _ hu.advanced.advanced)
    intro alternative w _ hw
    exact InOrder.pure hw
  · intro _
    exact InOrder.pure hu

theorem succ_primitive (h : Points text n) (kind : Primitive) (word : String) (hs : Clear text s.advanced) :
    InOrder text (Parser.primitive (n + 1) kind word) s := by
  rw [Parser.primitive]
  apply InOrder.following
  apply InOrder.ite
  · intro _
    exact InOrder.pure hs
  intro _
  apply InOrder.ite
  · intro _
    apply InOrder.bind
    · apply InOrder.following
      apply InOrder.ite
      · intro _
        apply InOrder.advance
        exact h.items .rparen _ hs.advanced
      · intro _
        exact InOrder.pure hs
    intro args t _ ht
    apply InOrder.following
    apply InOrder.ite
    · intro _
      apply InOrder.advance
      apply InOrder.bind (h.block _ ht.advanced)
      intro body u _ hu
      exact InOrder.pure hu
    · intro _
      exact InOrder.pure ht
  · intro _
    apply InOrder.expect hs
    apply InOrder.bind (h.items .rparen _ hs.advanced)
    intro args t _ ht
    exact InOrder.pure ht

-- An expression and the items behind it.
theorem list (h : Points text n) (close : Token.Kind) (hs : Clear text s) :
    InOrder text (do return (← Parser.expression n .lowest) :: (← Parser.moreItems n close)) s := by
  apply InOrder.bind (h.expression .lowest s hs)
  intro first t _ ht
  apply InOrder.bind (h.moreItems close t ht)
  intro es u _ hu
  exact InOrder.pure hu

theorem succ_items (h : Points text n) (close : Token.Kind) (hs : Clear text s.advanced) :
    InOrder text (Parser.items (n + 1) close) s := by
  rw [Parser.items]
  apply InOrder.following
  apply InOrder.ite
  · intro _
    apply InOrder.advance
    exact InOrder.pure hs.advanced
  · intro _
    apply InOrder.advance
    exact h.list close hs

theorem succ_moreItems (h : Points text n) (close : Token.Kind) (hs : Clear text s.advanced) :
    InOrder text (Parser.moreItems (n + 1) close) s := by
  rw [Parser.moreItems]
  apply InOrder.following
  apply InOrder.ite
  · intro _
    apply InOrder.advance
    apply InOrder.advance
    exact h.list close hs.advanced
  · intro _
    apply InOrder.expect hs
    exact InOrder.pure hs.advanced

theorem succ_pairs (h : Points text n) (hs : Clear text s.advanced) : InOrder text (Parser.pairs (n + 1)) s := by
  rw [Parser.pairs]
  apply InOrder.following
  apply InOrder.ite
  · intro _
    apply InOrder.advance
    exact InOrder.pure hs.advanced
  intro _
  apply InOrder.advance
  apply InOrder.bind (h.expression .lowest _ hs)
  intro key t _ ht
  apply InOrder.expect ht
  apply InOrder.advance
  apply InOrder.bind (h.expression .lowest _ ht.advanced)
  intro value u _ hu
  apply InOrder.following
  apply InOrder.ite
  · intro _
    apply InOrder.advance
    exact InOrder.pure hu.advanced
  · intro _
    apply InOrder.expect hu
    apply InOrder.bind (h.pairs _ hu.advanced)
    intro others w _ hw
    exact InOrder.pure hw

theorem succ_statement (h : Points text n) (hs : Clear text s) : InOrder text (Parser.statement (n + 1)) s := by
  rw [Parser.statement]
  apply InOrder.bind
  · apply InOrder.current
    cases s.current.kind with
    | letWord =>
      apply InOrder.expect hs.advanced
      apply InOrder.current
      apply InOrder.expect hs.advanced.advanced
      apply InOrder.advance
      exact h.built .lowest (Stmt.bind _) hs.advanced.advanced.advanced
    | returnWord =>
      apply InOrder.advance
      exact h.built .lowest Stmt.ret hs.advanced
    | _ => exact h.built .lowest Stmt.expr hs
  intro stmt t _ ht
  apply InOrder.following
  split
  · apply InOrder.advance
    exact InOrder.pure ht.advanced
  · exact InOrder.pure ht

theorem tail_skipStatement_suffix (tokens : List Token) : (skipStatement tokens).tail <:+ tokens.tail := by
  fun_induction skipStatement tokens with
  | case4 token next rest _ ih => exact ih.trans (List.tail_suffix _)
  | _ => exact List.suffix_refl _

-- The error of a failed statement is reported where reading goes on, or at the closing token that recovery found.
theorem succ_statements (h : Points text n) (close : Token.Kind) (hs : Clear text s) :
    InOrder text (Parser.statements (n + 1) close) s := by
  rw [Parser.statements]
  apply InOrder.current
  apply InOrder.ite
  · intro _
    exact InOrder.pure hs.advanced
  intro _
  have hstmt := h.statement s hs
  unfold InOrder at hstmt ⊢
  rw [bind_apply, attempt]
  cases hx : Parser.statement n s with
  | done first t =>
    rw [hx] at hstmt
    apply InOrder.advance
    apply InOrder.bind (h.statements close _ hstmt)
    intro others u _ hu
    exact InOrder.pure hu
  | failed error t =>
    rw [hx] at hstmt
    have hskip : Clear text ({ t.reported error with tokens := skipStatement t.tokens } : State).advanced :=
      hstmt.of_suffix (tail_skipStatement_suffix t.tokens)
    apply InOrder.current (f := fun token => _)
    apply InOrder.ite
    · intro _
      exact InOrder.pure hskip
    · intro _
      apply InOrder.advance
      exact h.statements close _ hskip
  | exhausted => trivial

-- A block that is not closed ends with the text, where nothing moves any more.
theorem succ_block (h : Points text n) (hs : Clear text s.advanced) : InOrder text (Parser.block (n + 1)) s := by
  rw [Parser.block]
  apply InOrder.advance
  apply InOrder.bind (h.statements .rbrace _ hs)
  intro stmts t hdone ht
  apply InOrder.current
  apply InOrder.ite
  · intro _
    exact InOrder.pure ht
  intro hopen
  have hend : t.tokens = [] := by
    have hlater := (later n).statements .rbrace s.advanced
    rw [hdone] at hlater
    have hinner : ∀ token ∈ t.tokens, token.kind ≠ .eof := by
      intro token hm
      exact hs.inner token (Later.tokens hlater |>.subset hm)
    exact tokens_of_current_eof hinner ((kind_of_statements hdone).resolve_left hopen)
  have hstay : t.advanced = t := by
    cases t
    cases hend
    rfl
  exact InOrder.failCurrent (hstay ▸ ht)

theorem zero : Points text 0 := by
  constructor <;> intros <;> exact .outOfSteps

theorem all (n : Nat) : Points text n := by
  induction n with
  | zero => exact zero
  | succ n h =>
    exact {
      moreParams := fun _ => h.succ_moreParams
      expression := fun limit _ => h.succ_expression limit
      operand := fun _ => h.succ_operand
      operators := fun limit left _ => h.succ_operators limit left
      extend := fun left _ => h.succ_extend left
      conditional := fun _ => h.succ_conditional
      primitive := fun kind word _ => h.succ_primitive kind word
      items := fun close _ => h.succ_items close
      moreItems := fun close _ => h.succ_moreItems close
      pairs := fun _ => h.succ_pairs
      statements := fun close _ => h.succ_statements close
      statement := fun _ => h.succ_statement
      block := fun _ => h.succ_block }

end Points

-- Comments are left out, and the end of the text stands behind all other tokens.
theorem ahead_ofTokens (source : String) :
    (State.ofTokens (Token.tokenize source)).ahead.Sublist
      ((Token.tokenize source).filter fun t => t.kind != .comment) := by
  obtain ⟨tokens, eof, hsplit⟩ := (List.eq_nil_or_concat _).resolve_left (Token.allFrom_ne_nil (.ofString source))
  have hk : eof.kind = .eof := by
    have := kind_getLastD_allFrom (.ofString source) eof
    rwa [hsplit, List.concat_eq_append, List.getLastD_concat] at this
  have hread : (tokens.filter fun t => t.kind != .comment && t.kind != .eof).Sublist
      (tokens.filter fun t => t.kind != .comment) := by
    rw [← List.filter_filter]
    exact List.filter_sublist.filter _
  change Token.tokenize source = _ at hsplit
  simpa [State.ahead, State.ofTokens, hsplit, hk] using hread

theorem clear_ofTokens (source : String) :
    Clear ((Token.tokenize source).filter fun t => t.kind != .comment) (State.ofTokens (Token.tokenize source)) where
  inner := kind_ne_eof_ofTokens _
  ahead := fun _ ht => (ahead_ofTokens source).subset ht
  ordered :=
    (Token.tiles_allFrom _ (Cursor.placed_ofString source)).pairwise.sublist
      ((ahead_ofTokens source).trans List.filter_sublist)
  known := fun _ he => absurd he List.not_mem_nil
  sorted := .nil
  passed := fun _ he => absurd he List.not_mem_nil

end Parser

-- Errors come in the order of the text, however deep the statements lie that could not be read.
theorem parse_errors_ordered (source : String) :
    (∀ e ∈ (parse source).errors, ∃ t ∈ Token.tokenize source, t.kind ≠ .comment ∧ e.position = t.position) ∧
      (parse source).errors.Pairwise fun d e => d.position.byte ≤ e.position.byte := by
  obtain ⟨n, program, t, hdone, hparse⟩ := Parser.exists_parse source
  have hordered := (Parser.Points.all n).statements .eof _ (Parser.clear_ofTokens source)
  rw [Parser.InOrder, hdone] at hordered
  have hclear : Parser.Clear _ t.advanced := hordered
  rw [hparse]
  refine ⟨fun e he => ?_, hclear.sorted⟩
  obtain ⟨token, ht, hp⟩ := hclear.known e he
  obtain ⟨ht, hk⟩ := List.mem_filter.1 ht
  exact ⟨token, ht, bne_iff_ne.1 hk, hp⟩

-- Two errors inside of the inner block, one behind a comment in the outer block, and one behind both blocks.
example : (parse "if (a) \x7b union() \x7b let = 1; f(1 2; \x7d // )\n g( \x7d ) + ").errors.map (·.position.byte) =
    [23, 32, 46, 48] := by
  decide +kernel

end SolidScript
