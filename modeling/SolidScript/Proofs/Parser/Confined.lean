import SolidScript.Proofs.Parser.View

namespace SolidScript.Parser

variable {α β : Type}

-- What neither ends a statement nor the text.
def inner (kind : Token.Kind) : Bool := kind != .semicolon && kind != .eof

def Inner (s : State) : Prop := inner s.current.kind

-- The tokens end in a semicolon.
structure Terminated (s : State) : Prop where
  eof : s.eof.kind = .eof
  last : ∃ token ∈ s.tokens.getLast?, token.kind = .semicolon

def isBrace (token : Token) : Bool := token.kind == .lbrace || token.kind == .rbrace

-- The tokens end in a semicolon, and blocks and hashes do not occur.
structure Brief (s : State) : Prop extends Terminated s where
  plain : ∀ token ∈ s.tokens, isBrace token = false

section states

variable {s t : State}

theorem Terminated.ne_nil (h : Terminated s) : s.tokens ≠ [] := by
  intro hs
  obtain ⟨token, ht, -⟩ := h.last
  simp [hs] at ht

theorem Terminated.of_later (h : Terminated s) (hl : Later s t) (ht : t.tokens ≠ []) : Terminated t where
  eof := hl.eof ▸ h.eof
  last := by
    obtain ⟨passed, hp⟩ := hl.tokens
    have hs := h.last
    rwa [← hp, List.getLast?_append, Option.or_of_isSome (by simpa using ht)] at hs

theorem Brief.of_later (h : Brief s) (hl : Later s t) (ht : t.tokens ≠ []) : Brief t where
  toTerminated := h.toTerminated.of_later hl ht
  plain token hm := h.plain token (hl.tokens.subset hm)

theorem Inner.ne_nil (h : Inner s) (he : s.eof.kind = .eof) : s.tokens ≠ [] := by
  intro hs
  simp [Inner, State.current, hs, he, inner] at h

-- The semicolon is still ahead.
theorem Inner.two_le (h : Inner s) (hs : Terminated s) : 2 ≤ s.tokens.length := by
  obtain ⟨token, ht, hk⟩ := hs.last
  match hl : s.tokens with
  | [] => simp [hl] at ht
  | [only] =>
    simp only [hl, List.getLast?_singleton, Option.mem_some] at ht
    simp [Inner, State.current, hl, ht, hk, inner] at h
  | _ :: _ :: _ => simp

theorem Inner.advanced_ne_nil (h : Inner s) (hs : Terminated s) : s.advanced.tokens ≠ [] := by
  have hl := h.two_le hs
  exact List.ne_nil_of_length_pos (by simp only [length_advanced]; omega)

theorem inner_current {kind : Token.Kind} (h : s.current.kind = kind) (hk : inner kind) : Inner s := by rwa [Inner, h]

-- The token behind the current one is the next to be current.
theorem inner_advanced {kind : Token.Kind} (h : s.following.kind = kind) (hk : inner kind) : Inner s.advanced :=
  inner_current (s := s.advanced) h hk

theorem inner_of_rank {limit : Precedence} {kind : Token.Kind} (h : limit.rank < (Precedence.ofKind kind).rank) :
    inner kind := by
  cases kind <;> simp_all [Precedence.ofKind, Precedence.rank, inner]

theorem not_brief_of_lbrace (hs : s.current.kind = .lbrace) : ¬ Brief s := by
  intro h
  obtain ⟨token, rest, ht⟩ := List.exists_cons_of_ne_nil h.ne_nil
  have hp := h.plain token (by simp [ht])
  simp_all [State.current, isBrace]

end states

-- From `s` the left parser succeeds in front of the semicolon or fails not behind it, and the right one does the same
-- in the view.
structure Confines (v : View) (x y : Parser α) (s : State) : Prop where
  later : (x s).LaterThan s
  inner : ∀ a t, x s = .done a t → Inner t
  done : ∀ a t, x s = .done a t → Terminated s → y (v.state s) = .done a (v.state t)
  failed : ∀ e t, x s = .failed e t → Brief s → t.tokens ≠ [] ∧ y (v.state s) = .failed (v.error e) (v.state t)

namespace Confines

variable {v : View} {s : State}

theorem outOfSteps {y : Parser α} : Confines v outOfSteps y s := by
  constructor <;> simp [Parser.outOfSteps, Outcome.LaterThan]

theorem pure {a : α} (hs : Inner s) : Confines v (Pure.pure a) (Pure.pure a) s where
  later := Later.refl s
  inner := by
    rintro _ _ ⟨⟩
    exact hs
  done := by
    rintro _ _ ⟨⟩ -
    rfl
  failed := by simp

theorem fail {cause : ParseError.Cause} {position : Position} :
    Confines v (fail cause position : Parser α) (Parser.fail cause (v.move position)) s where
  later := Later.refl s
  inner := nofun
  done := nofun
  failed := by
    rintro _ _ ⟨⟩ hb
    exact ⟨hb.ne_nil, rfl⟩

-- A step from a state to a later one, which the right side makes too while the semicolon is still ahead.
theorem step {x y x' y' : Parser α} {s' : State} (h : Confines v x' y' s') (hl : Later s s') (hx : x s = x' s')
    (hn : Terminated s → s'.tokens ≠ []) (hy : Terminated s → y (v.state s) = y' (v.state s')) :
    Confines v x y s where
  later := hx ▸ .of_later hl h.later
  inner a t ha := h.inner a t (hx ▸ ha)
  done a t ha hs := hy hs ▸ h.done a t (hx ▸ ha) (hs.of_later hl (hn hs))
  failed e t he hb := hy hb.toTerminated ▸ h.failed e t (hx ▸ he) (hb.of_later hl (hn hb.toTerminated))

theorem current {f g : Token → Parser α} (h : Confines v (f s.current) (g (v.token s.current)) s) :
    Confines v (current >>= f) (Parser.current >>= g) s := by
  refine h.step (.refl s) rfl (·.ne_nil) fun hs => ?_
  rw [current_bind, View.current_state hs.ne_nil]

theorem following {f g : Token → Parser α} (hs : Inner s)
    (h : Confines v (f s.following) (g (v.token s.following)) s) :
    Confines v (following >>= f) (Parser.following >>= g) s := by
  refine h.step (.refl s) rfl (·.ne_nil) fun ht => ?_
  rw [following_bind, View.InSight.following (.inr (hs.two_le ht))]

theorem advance {f g : Unit → Parser α} (hs : Inner s) (h : Confines v (f ()) (g ()) s.advanced) :
    Confines v (advance >>= f) (Parser.advance >>= g) s := by
  refine h.step (.advanced s) rfl hs.advanced_ne_nil fun ht => ?_
  rw [advance_bind, View.advanced_state ht.ne_nil]

theorem ite {p : Prop} [Decidable p] {x y x' y' : Parser α} (hx : p → Confines v x y s)
    (hx' : ¬ p → Confines v x' y' s) : Confines v (if p then x else x') (if p then y else y') s := by
  split
  · exact hx ‹_›
  · exact hx' ‹_›

-- A choice by the kind of the following token.
theorem ifFollowing {kind : Token.Kind} {x y x' y' : Parser α} (hs : Inner s)
    (hx : s.following.kind = kind → Confines v x y s) (hx' : Confines v x' y' s) :
    Confines v (Parser.following >>= fun t => if t.kind = kind then x else x')
      (Parser.following >>= fun t => if t.kind = kind then y else y') s :=
  following hs (ite hx fun _ => hx')

theorem bind {x y : Parser α} {f g : α → Parser β} (hx : Confines v x y s)
    (hf : ∀ a t, Inner t → Confines v (f a) (g a) t) : Confines v (x >>= f) (y >>= g) s := by
  cases hs : x s with
  | done a t =>
    have hi := hx.inner a t hs
    have hl : Later s t := by
      have hl := hx.later
      rwa [hs] at hl
    refine (hf a t hi).step hl ?_ (fun ht => hi.ne_nil (hl.eof ▸ ht.eof)) fun ht => ?_
    · rw [bind_apply, hs]
    · rw [bind_apply, hx.done a t hs ht]
  | failed e t =>
    have hl := hx.later
    rw [hs] at hl
    refine ⟨by rwa [bind_apply, hs], by simp [bind_apply, hs], by simp [bind_apply, hs], ?_⟩
    intro e' t' he hb
    rw [bind_apply, hs] at he
    cases he
    obtain ⟨hn, hy⟩ := hx.failed e t hs hb
    exact ⟨hn, by rw [bind_apply, hy]⟩
  | exhausted => constructor <;> simp [bind_apply, hs, Outcome.LaterThan]

theorem expect {kind : Token.Kind} {f g : Unit → Parser α} (hk : Parser.inner kind) (hs : Inner s)
    (h : Inner s.advanced → s.following.kind = kind → Confines v (f ()) (g ()) s.advanced) :
    Confines v (expect kind >>= f) (Parser.expect kind >>= g) s := by
  unfold Parser.expect
  simp only [bind_assoc]
  refine following hs ?_
  rw [View.kind_token]
  split
  · rename_i hf
    exact advance hs (h (inner_advanced hf hk) hf)
  · exact fail

-- What starts with a brace is read up to the other brace. Nothing is said of failures there.
theorem braces {x y : Parser α} (hm : Mirrors v α x y) (hs : s.current.kind = .lbrace)
    (hx : ∀ a t, x s = .done a t → t.current.kind = .rbrace) : Confines v x y s where
  later := hm.later s
  inner a t ha := inner_current (hx a t ha) rfl
  done a t ha ht := by
    have hi : Inner t := inner_current (hx a t ha) rfl
    have hl := hm.later s
    rw [ha] at hl
    exact hm.done ha (.inr (hi.two_le (ht.of_later hl (hi.ne_nil (hl.eof ▸ ht.eof)))))
  failed _ _ _ hb := absurd hb (not_brief_of_lbrace hs)

end Confines

theorem bind_eq_done {x : Parser α} {f : α → Parser β} {s u : State} {b : β} (h : (x >>= f) s = .done b u) :
    ∃ a t, x s = .done a t ∧ f a t = .done b u := by
  rw [bind_apply] at h
  cases hx : x s with
  | done a t => exact ⟨a, t, rfl, by simpa only [hx] using h⟩
  | failed e t => simp [hx] at h
  | exhausted => simp [hx] at h

theorem rbrace_of_block {n : Nat} {s t : State} {stmts : List Stmt} (h : block n s = .done stmts t) :
    t.current.kind = .rbrace := by
  cases n with
  | zero => cases h
  | succ n =>
    rw [block, advance_bind] at h
    obtain ⟨found, u, -, h⟩ := bind_eq_done h
    rw [current_bind] at h
    split at h
    · cases h
      assumption
    · cases h

theorem rbrace_of_pairs {n : Nat} {s t : State} {ps : List (Expr × Expr)} (h : pairs n s = .done ps t) :
    t.current.kind = .rbrace := by
  induction n generalizing s ps with
  | zero => cases h
  | succ n ih =>
    rw [pairs, following_bind] at h
    split at h
    · cases h
      assumption
    · rw [advance_bind] at h
      obtain ⟨key, t₁, -, h⟩ := bind_eq_done h
      obtain ⟨-, t₂, -, h⟩ := bind_eq_done h
      rw [advance_bind] at h
      obtain ⟨value, t₃, -, h⟩ := bind_eq_done h
      rw [following_bind] at h
      split at h
      · cases h
        assumption
      · obtain ⟨-, t₄, -, h⟩ := bind_eq_done h
        obtain ⟨more, t₅, hm, h⟩ := bind_eq_done h
        cases h
        exact ih hm

-- The functions with `n` steps, those apart that stand at a brace.
structure Confined (v : View) (n : Nat) : Prop where
  moreParams : ∀ s, Inner s → Confines v (moreParams n) (moreParams n) s
  expression : ∀ limit s, Confines v (expression n limit) (expression n limit) s
  operand : ∀ s, Confines v (operand n) (operand n) s
  operators : ∀ limit left s, Inner s → Confines v (operators n limit left) (operators n limit left) s
  extend : ∀ token left s, Inner s → Confines v (extend n token left) (extend n (v.token token) left) s
  conditional : ∀ s, Inner s → Confines v (conditional n) (conditional n) s
  primitive : ∀ kind word s, Inner s → Confines v (primitive n kind word) (primitive n kind word) s
  items : ∀ close s, inner close → Inner s → Confines v (items n close) (items n close) s
  moreItems : ∀ close s, inner close → Inner s → Confines v (moreItems n close) (moreItems n close) s

namespace Confined

open Confines (braces)
variable {v : View} {n : Nat} {s : State}

theorem block (v : View) (n : Nat) (s : State) (hs : s.current.kind = .lbrace) :
    Confines v (block n) (Parser.block n) s :=
  braces (v.simulation.simulated n.le_refl).block hs fun _ _ => rbrace_of_block

theorem pairs (v : View) (n : Nat) (s : State) (hs : s.current.kind = .lbrace) :
    Confines v (pairs n) (Parser.pairs n) s :=
  braces (v.simulation.simulated n.le_refl).pairs hs fun _ _ => rbrace_of_pairs

theorem succ_moreParams (c : Confined v n) (hs : Inner s) :
    Confines v (Parser.moreParams (n + 1)) (Parser.moreParams (n + 1)) s := by
  rw [Parser.moreParams]
  apply Confines.ifFollowing hs
  · intro hcomma
    have hnext := inner_advanced hcomma rfl
    apply Confines.advance hs
    apply Confines.expect rfl hnext
    intro hname _
    apply Confines.current
    apply Confines.bind (c.moreParams _ hname)
    intro names t ht
    exact Confines.pure ht
  · apply Confines.expect rfl hs
    intro hclose _
    exact Confines.pure hclose

theorem params (c : Confined v n) (hs : Inner s) : Confines v (params n) (Parser.params n) s := by
  unfold Parser.params
  apply Confines.ifFollowing hs
  · intro hclose
    apply Confines.advance hs
    exact Confines.pure (inner_advanced hclose rfl)
  · apply Confines.expect rfl hs
    intro hname _
    apply Confines.current
    apply Confines.bind (c.moreParams _ hname)
    intro names t ht
    exact Confines.pure ht

theorem succ_expression (c : Confined v n) (limit : Precedence) (s : State) :
    Confines v (Parser.expression (n + 1) limit) (Parser.expression (n + 1) limit) s := by
  rw [Parser.expression]
  apply Confines.bind (c.operand s)
  intro left t ht
  exact c.operators limit left t ht

theorem intLiteral {token : Token} (hs : Inner s) :
    Confines v (intLiteral token) (Parser.intLiteral (v.token token)) s := by
  unfold Parser.intLiteral
  rw [View.literal_token]
  split
  · exact Confines.pure hs
  · exact Confines.fail

theorem floatLiteral {token : Token} (hs : Inner s) :
    Confines v (floatLiteral token) (Parser.floatLiteral (v.token token)) s := by
  unfold Parser.floatLiteral
  rw [View.literal_token]
  split
  · exact Confines.pure hs
  · exact Confines.fail

-- One expression read and then built into a longer one.
theorem built (c : Confined v n) (limit : Precedence) (f : Expr → α) :
    Confines v (do return f (← Parser.expression n limit)) (do return f (← Parser.expression n limit)) s := by
  apply Confines.bind (c.expression limit s)
  intro e t ht
  exact Confines.pure ht

-- Only here the current token may be the semicolon, and then nothing is read.
theorem succ_operand (c : Confined v n) (s : State) :
    Confines v (Parser.operand (n + 1)) (Parser.operand (n + 1)) s := by
  rw [Parser.operand]
  apply Confines.current
  simp only [View.kind_token, View.literal_token]
  cases hk : s.current.kind with
  | ident | string | trueWord | falseWord | undefWord => exact Confines.pure (inner_current hk rfl)
  | int => exact intLiteral (inner_current hk rfl)
  | float => exact floatLiteral (inner_current hk rfl)
  | bang =>
    apply Confines.advance (inner_current hk rfl)
    exact c.built .unary (Expr.unary .not)
  | minus =>
    apply Confines.advance (inner_current hk rfl)
    exact c.built .unary (Expr.unary .negate)
  | lparen =>
    apply Confines.advance (inner_current hk rfl)
    apply Confines.bind (c.expression .lowest _)
    intro e t ht
    apply Confines.expect rfl ht
    intro hclose _
    exact Confines.pure hclose
  | ifWord => exact c.conditional s (inner_current hk rfl)
  | functionWord =>
    apply Confines.expect rfl (inner_current hk rfl)
    intro hopen _
    apply Confines.bind (c.params hopen)
    intro names t ht
    apply Confines.expect rfl ht
    intro _ hbrace
    apply Confines.bind (block v n t.advanced hbrace)
    intro body u hu
    exact Confines.pure hu
  | lbracket =>
    apply Confines.bind (c.items .rbracket s rfl (inner_current hk rfl))
    intro es t ht
    exact Confines.pure ht
  | lbrace =>
    apply Confines.bind (pairs v n s hk)
    intro ps t ht
    exact Confines.pure ht
  | primitive kind => exact c.primitive kind _ s (inner_current hk rfl)
  | _ => exact Confines.fail

theorem succ_operators (c : Confined v n) (limit : Precedence) (left : Expr) (hs : Inner s) :
    Confines v (Parser.operators (n + 1) limit left) (Parser.operators (n + 1) limit left) s := by
  rw [Parser.operators]
  apply Confines.following hs
  apply Confines.ite
  · intro htight
    have hnext : Inner s.advanced := inner_advanced rfl (inner_of_rank htight.1)
    apply Confines.advance hs
    apply Confines.bind (c.extend _ left _ hnext)
    intro longer t ht
    exact c.operators limit longer t ht
  · intro _
    exact Confines.pure hs

theorem succ_extend (c : Confined v n) (token : Token) (left : Expr) (hs : Inner s) :
    Confines v (Parser.extend (n + 1) token left) (Parser.extend (n + 1) (v.token token) left) s := by
  unfold Parser.extend
  rw [View.kind_token]
  split
  · -- a call
    apply Confines.bind (c.items .rparen s rfl hs)
    intro args t ht
    exact Confines.pure ht
  · -- an index
    apply Confines.advance hs
    apply Confines.bind (c.expression .lowest _)
    intro key t ht
    apply Confines.expect rfl ht
    intro hclose _
    exact Confines.pure hclose
  · -- a named argument
    split
    · rename_i name
      apply Confines.advance hs
      exact c.built .lowest (Expr.named name)
    · exact Confines.fail
  · -- a binary operator
    split
    · rename_i op _
      apply Confines.advance hs
      exact c.built (.ofKind token.kind) (Expr.binary left op)
    · exact Confines.fail

theorem succ_conditional (c : Confined v n) (hs : Inner s) :
    Confines v (Parser.conditional (n + 1)) (Parser.conditional (n + 1)) s := by
  rw [Parser.conditional]
  apply Confines.expect rfl hs
  intro hopen _
  apply Confines.advance hopen
  apply Confines.bind (c.expression .lowest _)
  intro condition t ht
  apply Confines.expect rfl ht
  intro hclose _
  apply Confines.expect rfl hclose
  intro _ hbrace
  apply Confines.bind (block v n t.advanced.advanced hbrace)
  intro consequence u hu
  apply Confines.ifFollowing hu
  · intro helse
    have hnext := inner_advanced helse rfl
    apply Confines.advance hu
    apply Confines.expect rfl hnext
    intro _ hbrace
    apply Confines.bind (block v n u.advanced.advanced hbrace)
    intro alternative w hw
    exact Confines.pure hw
  · exact Confines.pure hu

theorem succ_primitive (c : Confined v n) (kind : Primitive) (word : String) (hs : Inner s) :
    Confines v (Parser.primitive (n + 1) kind word) (Parser.primitive (n + 1) kind word) s := by
  rw [Parser.primitive]
  apply Confines.ifFollowing hs
  · intro _
    exact Confines.pure hs
  apply Confines.ite
  · intro _
    apply Confines.bind
    · apply Confines.ifFollowing hs
      · intro hopen
        apply Confines.advance hs
        exact c.items .rparen _ rfl (inner_advanced hopen rfl)
      · exact Confines.pure hs
    intro args t ht
    apply Confines.ifFollowing ht
    · intro hbrace
      apply Confines.advance ht
      apply Confines.bind (block v n t.advanced hbrace)
      intro body u hu
      exact Confines.pure hu
    · exact Confines.pure ht
  · intro _
    apply Confines.expect rfl hs
    intro hopen _
    apply Confines.bind (c.items .rparen _ rfl hopen)
    intro args t ht
    exact Confines.pure ht

-- An expression and the items behind it.
theorem list (c : Confined v n) (close : Token.Kind) (hc : inner close) :
    Confines v (do return (← Parser.expression n .lowest) :: (← Parser.moreItems n close))
      (do return (← Parser.expression n .lowest) :: (← Parser.moreItems n close)) s := by
  apply Confines.bind (c.expression .lowest s)
  intro first t ht
  apply Confines.bind (c.moreItems close t hc ht)
  intro es u hu
  exact Confines.pure hu

theorem succ_items (c : Confined v n) (close : Token.Kind) (hc : inner close) (hs : Inner s) :
    Confines v (Parser.items (n + 1) close) (Parser.items (n + 1) close) s := by
  rw [Parser.items]
  apply Confines.ifFollowing hs
  · intro hclose
    apply Confines.advance hs
    exact Confines.pure (inner_advanced hclose hc)
  · apply Confines.advance hs
    exact c.list close hc

theorem succ_moreItems (c : Confined v n) (close : Token.Kind) (hc : inner close) (hs : Inner s) :
    Confines v (Parser.moreItems (n + 1) close) (Parser.moreItems (n + 1) close) s := by
  rw [Parser.moreItems]
  apply Confines.ifFollowing hs
  · intro hcomma
    apply Confines.advance hs
    apply Confines.advance (inner_advanced hcomma rfl)
    exact c.list close hc
  · apply Confines.expect hc hs
    intro hclose _
    exact Confines.pure hclose

theorem all (v : View) (n : Nat) : Confined v n := by
  induction n with
  | zero => constructor <;> intros <;> exact .outOfSteps
  | succ n c =>
    exact {
      moreParams := fun _ => c.succ_moreParams
      expression := c.succ_expression
      operand := c.succ_operand
      operators := fun limit left _ => c.succ_operators limit left
      extend := fun token left _ => c.succ_extend token left
      conditional := fun _ => c.succ_conditional
      primitive := fun kind word _ => c.succ_primitive kind word
      items := fun close _ => c.succ_items close
      moreItems := fun close _ => c.succ_moreItems close }

end Confined

-- A statement is what its expression needs and the semicolon behind it, if there is one.
theorem statement_body (v : View) (n : Nat) :
    ∃ body : Parser Stmt, (∀ s, Confines v body body s) ∧
      statement (n + 1) = (do
        let stmt ← body
        if (← following).kind = .semicolon then advance
        return stmt) := by
  have c := Confined.all v n
  refine ⟨_, fun s => ?_, Parser.statement.eq_2 n⟩
  apply Confines.current
  rw [View.kind_token]
  cases hk : s.current.kind with
  | letWord =>
    apply Confines.expect rfl (inner_current hk rfl)
    intro hname _
    apply Confines.current
    apply Confines.expect rfl hname
    intro hassign _
    apply Confines.advance hassign
    exact c.built .lowest (Stmt.bind _)
  | returnWord =>
    apply Confines.advance (inner_current hk rfl)
    exact c.built .lowest Stmt.ret
  | _ => exact c.built .lowest Stmt.expr

theorem statement_done {v : View} {n : Nat} {s t : State} {stmt : Stmt} (h : statement n s = .done stmt t)
    (hs : Terminated s) : t.tokens ≠ [] ∧ statement n (v.state s) = .done stmt (v.state t) := by
  cases n with
  | zero => cases h
  | succ n =>
    obtain ⟨body, hbody, hstmt⟩ := statement_body v n
    rw [hstmt] at h ⊢
    obtain ⟨found, u, hu, h⟩ := bind_eq_done h
    have hi := (hbody s).inner found u hu
    have hl := (hbody s).later
    rw [hu] at hl
    have hn : u.tokens ≠ [] := hi.ne_nil (hl.eof ▸ hs.eof)
    have ht := hs.of_later hl hn
    rw [bind_apply, (hbody s).done found u hu hs]
    -- the semicolon is in sight
    simp only [following_bind, View.InSight.following (.inr (hi.two_le ht)), View.kind_token] at h ⊢
    split at h
    · rename_i hk
      rw [if_pos hk]
      cases h
      exact ⟨hi.advanced_ne_nil ht, congrArg _ (View.advanced_state hn)⟩
    · rename_i hk
      rw [if_neg hk]
      cases h
      exact ⟨hn, rfl⟩

theorem statement_failed {v : View} {n : Nat} {s t : State} {e : ParseError} (h : statement n s = .failed e t)
    (hs : Brief s) : t.tokens ≠ [] ∧ statement n (v.state s) = .failed (v.error e) (v.state t) := by
  cases n with
  | zero => cases h
  | succ n =>
    obtain ⟨body, hbody, hstmt⟩ := statement_body v n
    rw [hstmt] at h ⊢
    rw [bind_apply] at h
    cases hx : body s with
    | done found u =>
      simp only [hx, following_bind] at h
      split at h <;> cases h
    | failed e' u =>
      simp only [hx] at h
      cases h
      obtain ⟨hn, hy⟩ := (hbody s).failed e t hx hs
      exact ⟨hn, by rw [bind_apply, hy]⟩
    | exhausted => simp [hx] at h

end SolidScript.Parser
