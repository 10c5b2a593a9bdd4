import SolidScript.Proofs.Parser.Composition
import SolidScript.Proofs.Parser.Shaped
import SolidScript.Proofs.Printer.Gist

namespace SolidScript

open Token (Kind Content sign sense senses)

namespace Parser

variable {α β : Type}

-- What is still to be read, from the current token on.
def State.left (s : State) : List (Kind × Content) := senses (s.tokens.map Token.word)

section states

variable {s : State}

-- The end says nothing, so this holds there too.
theorem left_eq (hs : Sound s) : s.left = sense s.current.word ++ s.advanced.left := by
  cases ht : s.tokens with
  | nil =>
    have hsense : sense s.eof.word = [] := by simp [sense, Token.word, hs.eof, Kind.isLayout]
    simp [State.left, State.advanced, State.current, ht, hsense]
  | cons token rest => simp [State.left, State.advanced, State.current, ht]

theorem left_word (hs : Sound s) {kind : Kind} (h : s.current.kind = kind) :
    s.left = sense (kind, s.current.literal) ++ s.advanced.left := by
  rw [left_eq hs, ← h]
  rfl

theorem left_of_kind (hs : Sound s) {kind : Kind} (h : s.current.kind = kind) (hk : kind.spelling?.isSome) :
    s.left = sense (sign kind) ++ s.advanced.left := by
  rw [left_eq hs, Token.sense_eq h hk]

theorem left_advanced (hs : Sound s) {kind : Kind} (h : s.following.kind = kind) (hk : kind.spelling?.isSome) :
    s.advanced.left = sense (sign kind) ++ s.advanced.advanced.left :=
  left_of_kind hs.advanced h hk

end states

section keeps

variable (n : Nat)

instance (f : Unit → Parser β) [hf : Keeps (f ())] : Keeps (advance >>= f) :=
  ⟨fun s => .of_later (.advanced s) (hf.later s.advanced)⟩
instance (kind : Kind) (f : Unit → Parser β) [hf : Keeps (f ())] : Keeps (expect kind >>= f) :=
  ⟨laterThan_bind (later_congruence.expect kind) fun _ => hf.later⟩
instance (limit : Precedence) : Keeps (expression n limit) := ⟨(later n).expression limit⟩
instance (limit : Precedence) (left : Expr) : Keeps (operators n limit left) := ⟨(later n).operators limit left⟩
instance (close : Token.Kind) : Keeps (moreItems n close) := ⟨(later n).moreItems close⟩
instance : Keeps (pairs n) := ⟨(later n).pairs⟩
instance (close : Token.Kind) : Keeps (statements n close) := ⟨(later n).statements close⟩
instance : Keeps (statement n) := ⟨(later n).statement⟩
instance : Keeps (block n) := ⟨(later n).block⟩

end keeps

-- What holds of the value and the state if a parser succeeds and no error is left.
abbrev Accounts (x : Parser α) (s : State) (Q : α → State → Prop) : Prop :=
  Ensures x s fun a t => t.errors = [] → Q a t

namespace Accounts

variable {x : Parser α} {f : α → Parser β} {s : State} {R : α → State → Prop} {Q : β → State → Prop}

theorem pure {a : α} {Q : α → State → Prop} (hs : Sound s) (h : Q a s) : Accounts (Pure.pure a) s Q :=
  Ensures.pure hs fun _ => h

-- An error that is there at first is there in the end.
theorem clean {Q : α → State → Prop} [Keeps x] (hs : Sound s) (h : s.errors = [] → Accounts x s Q) :
    Accounts x s Q := by
  intro a t ht
  have hl := later_of_done ht
  by_cases he : t.errors = []
  · exact h (hl.errors_eq_nil he) a t ht
  · exact ⟨hs.later hl, fun h => absurd h he⟩

theorem bind [∀ a, Keeps (f a)] (hx : Accounts x s R) (hf : ∀ a t, Sound t → R a t → Accounts (f a) t Q) :
    Accounts (x >>= f) s Q :=
  Ensures.bind hx fun a t ht ha => clean ht fun he => hf a t ht (ha he)

theorem attempt {R : α → State → Prop} [hl : Keeps x] (hs : Sound s) (hx : Accounts x s R) :
    Accounts (attempt x) s fun result t => ∀ a, result = .ok a → R a t := by
  intro result t h
  unfold Parser.attempt at h
  cases hx' : x s with
  | done a u =>
    simp only [hx', Outcome.done.injEq] at h
    obtain ⟨rfl, rfl⟩ := h
    obtain ⟨hu, ha⟩ := hx a u hx'
    refine ⟨hu, fun he b hb => ?_⟩
    cases hb
    exact ha he
  | failed e u =>
    have hlater := hl.later s
    rw [hx'] at hlater
    simp only [hx', Outcome.done.injEq] at h
    obtain ⟨rfl, rfl⟩ := h
    exact ⟨hs.later hlater, fun _ _ => nofun⟩
  | exhausted => simp [hx'] at h

-- What follows an error does not count.
theorem report {f : Unit → Parser β} [hf : Keeps (f ())] (hs : Sound s) (e : ParseError) :
    Accounts (report e >>= f) s Q := by
  intro b t h
  have hl := hf.later { s with errors := s.errors ++ [e] }
  change f () { s with errors := s.errors ++ [e] } = .done b t at h
  rw [h] at hl
  refine ⟨⟨hl.eof ▸ hs.eof, fun token ht => hs.tokens token (hl.tokens.subset ht)⟩, fun he => ?_⟩
  simpa using Later.errors_eq_nil hl he

end Accounts

-- The functions with `n` steps. What lies between the state before and the state after is what was read.
structure Accounted (n : Nat) : Prop where
  moreParams : ∀ s, Sound s → Accounts (moreParams n) s fun names t =>
    s.advanced.left = names.flatMap (fun name => sense (.ident, name)) ++ t.advanced.left
  expression : ∀ limit s, Sound s → Accounts (expression n limit) s fun e t => s.left = e.gist ++ t.advanced.left
  operand : ∀ s, Sound s → Accounts (operand n) s fun e t => s.left = e.gist ++ t.advanced.left
  operators : ∀ limit left s, Sound s → Accounts (operators n limit left) s fun e t =>
    left.gist ++ s.advanced.left = e.gist ++ t.advanced.left
  extend : ∀ left s, Sound s → Accounts (extend n s.current left) s fun e t =>
    left.gist ++ s.left = e.gist ++ t.advanced.left
  conditional : ∀ s, Sound s → s.current.kind = .ifWord → Accounts (conditional n) s fun e t =>
    s.left = e.gist ++ t.advanced.left
  primitive : ∀ kind s, Sound s → s.current.kind = .primitive kind →
    Accounts (primitive n kind kind.keyword) s fun e t => s.left = e.gist ++ t.advanced.left
  items : ∀ close s, Sound s → close.spelling?.isSome → Accounts (items n close) s fun es t =>
    s.advanced.left = es.flatMap Expr.gist ++ sense (sign close) ++ t.advanced.left
  moreItems : ∀ close s, Sound s → close.spelling?.isSome → Accounts (moreItems n close) s fun es t =>
    s.advanced.left = es.flatMap Expr.gist ++ sense (sign close) ++ t.advanced.left
  pairs : ∀ s, Sound s → Accounts (pairs n) s fun ps t =>
    s.advanced.left = ps.flatMap Expr.pairGist ++ sense (sign .rbrace) ++ t.advanced.left
  statements : ∀ close s, Sound s → Accounts (statements n close) s fun stmts t =>
    s.left = stmts.flatMap Stmt.gist ++ t.left
  statement : ∀ s, Sound s → Accounts (statement n) s fun stmt t => s.left = stmt.gist ++ t.advanced.left
  block : ∀ s, Sound s → Accounts (block n) s fun stmts t =>
    s.advanced.left = stmts.flatMap Stmt.gist ++ sense (sign .rbrace) ++ t.advanced.left

namespace Accounted

variable {n : Nat} {s : State}

theorem succ_moreParams (h : Accounted n) (hs : Sound s) :
    Accounts (Parser.moreParams (n + 1)) s fun names t =>
      s.advanced.left = names.flatMap (fun name => sense (.ident, name)) ++ t.advanced.left := by
  rw [Parser.moreParams]
  apply Ensures.following
  apply Ensures.ite
  · intro hk
    have hcomma := left_advanced hs hk rfl
    apply Ensures.advance
    apply Ensures.expect
    intro hi
    have hname := left_word hs.advanced.advanced hi
    apply Ensures.current
    apply Accounts.bind (h.moreParams _ hs.advanced.advanced)
    intro names t ht hm
    apply Accounts.pure ht
    simp [hcomma, hname, hm]
  · intro _
    apply Ensures.expect
    intro hk
    have hclose := left_advanced hs hk rfl
    apply Accounts.pure hs.advanced
    simp [hclose]

theorem params (h : Accounted n) (hs : Sound s) :
    Accounts (params n) s fun names t =>
      s.advanced.left = names.flatMap (fun name => sense (.ident, name)) ++ t.advanced.left := by
  unfold Parser.params
  apply Ensures.following
  apply Ensures.ite
  · intro hk
    have hclose := left_advanced hs hk rfl
    apply Ensures.advance
    apply Accounts.pure hs.advanced
    simp [hclose]
  · intro _
    apply Ensures.expect
    intro hi
    have hname := left_word hs.advanced hi
    apply Ensures.current
    apply Accounts.bind (h.moreParams _ hs.advanced)
    intro names t ht hm
    apply Accounts.pure ht
    simp [hname, hm]

theorem succ_expression (h : Accounted n) (limit : Precedence) (hs : Sound s) :
    Accounts (Parser.expression (n + 1) limit) s fun e t => s.left = e.gist ++ t.advanced.left := by
  rw [Parser.expression]
  apply Accounts.bind (h.operand s hs)
  intro left t ht hl
  rw [hl]
  exact h.operators limit left t ht

theorem succ_operators (h : Accounted n) (limit : Precedence) (left : Expr) (hs : Sound s) :
    Accounts (Parser.operators (n + 1) limit left) s fun e t =>
      left.gist ++ s.advanced.left = e.gist ++ t.advanced.left := by
  rw [Parser.operators]
  apply Ensures.following
  apply Ensures.ite
  · intro _
    apply Ensures.advance
    apply Accounts.bind (h.extend left _ hs.advanced)
    intro longer t ht hl
    rw [hl]
    exact h.operators limit longer t ht
  · intro _
    exact Accounts.pure hs rfl

theorem intLiteral (hs : Sound s) (hk : s.current.kind = .int) :
    Accounts (intLiteral s.current) s fun e t => s.left = e.gist ++ t.advanced.left := by
  unfold Parser.intLiteral
  split
  · rename_i value hv
    have hleft := left_word hs hk
    have hgist := Expr.gist_int (Number.toInt_of_integer? hv)
    have hsense : sense (.int, s.current.literal) = [(.int, .int value)] := by
      change [(Kind.int, Token.content (.int, s.current.literal))] = _
      rw [Token.content, hv]
      rfl
    exact Accounts.pure hs (by rw [hleft, hgist, hsense])
  · exact Ensures.fail

theorem floatLiteral (hs : Sound s) (hk : s.current.kind = .float) :
    Accounts (floatLiteral s.current) s fun e t => s.left = e.gist ++ t.advanced.left := by
  unfold Parser.floatLiteral
  split
  · rename_i value hv
    have hleft := left_word hs hk
    have hdigit : ∃ c ∈ s.current.literal.toList.head?, c.isDigit := by
      have hsound := hs.current
      simp only [Token.Sound, Token.word, hk] at hsound
      exact hsound
    obtain ⟨hn, hnegative⟩ := Number.isNegative_of_ofText? hdigit hv
    have hgist := Expr.gist_float hn hnegative
    have hsense : sense (.float, s.current.literal) = [(.float, .float value)] := by
      change [(Kind.float, Token.content (.float, s.current.literal))] = _
      rw [Token.content, hv]
      rfl
    exact Accounts.pure hs (by rw [hleft, hgist, hsense])
  · exact Ensures.fail

theorem succ_operand (h : Accounted n) (hs : Sound s) :
    Accounts (Parser.operand (n + 1)) s fun e t => s.left = e.gist ++ t.advanced.left := by
  rw [Parser.operand]
  apply Ensures.current
  cases hk : s.current.kind with
  | ident => exact Accounts.pure hs (left_word hs hk)
  | int => exact intLiteral hs hk
  | float => exact floatLiteral hs hk
  | string => exact Accounts.pure hs (left_word hs hk)
  | trueWord => exact Accounts.pure hs (left_of_kind hs hk rfl)
  | falseWord => exact Accounts.pure hs (left_of_kind hs hk rfl)
  | undefWord => exact Accounts.pure hs (left_of_kind hs hk rfl)
  | bang =>
    have hop := left_of_kind hs hk rfl
    apply Ensures.advance
    apply Accounts.bind (h.expression .unary _ hs.advanced)
    intro right t ht hr
    apply Accounts.pure ht
    simp [hop, hr, UnaryOp.kind]
  | minus =>
    have hop := left_of_kind hs hk rfl
    apply Ensures.advance
    apply Accounts.bind (h.expression .unary _ hs.advanced)
    intro right t ht hr
    apply Accounts.pure ht
    simp [hop, hr, UnaryOp.kind]
  | lparen =>
    have hopen := left_of_kind hs hk rfl
    apply Ensures.advance
    apply Accounts.bind (h.expression .lowest _ hs.advanced)
    intro inner t ht hi
    apply Ensures.expect
    intro hc
    have hclose := left_advanced ht hc rfl
    apply Accounts.pure ht.advanced
    simp [hopen, hi, hclose]
  | ifWord => exact h.conditional s hs hk
  | functionWord =>
    have hword := left_of_kind hs hk rfl
    apply Ensures.expect
    intro ho
    have hopen := left_advanced hs ho rfl
    apply Accounts.bind (h.params hs.advanced)
    intro names t ht hn
    apply Ensures.expect
    intro hb
    have hbrace := left_advanced ht hb rfl
    apply Accounts.bind (h.block _ ht.advanced)
    intro body u hu hbody
    apply Accounts.pure hu
    simp [hword, hopen, hn, hbrace, hbody]
  | lbracket =>
    have hopen := left_of_kind hs hk rfl
    apply Accounts.bind (h.items .rbracket s hs rfl)
    intro es t ht he
    apply Accounts.pure ht
    simp [hopen, he]
  | lbrace =>
    have hopen := left_of_kind hs hk rfl
    apply Accounts.bind (h.pairs s hs)
    intro ps t ht hp
    apply Accounts.pure ht
    simp [hopen, hp]
  | primitive kind =>
    have hword : s.current.literal = kind.keyword := by
      have hsound := hs.current
      simp only [Token.Sound, Token.word, hk] at hsound
      exact hsound
    simp only [hword]
    exact h.primitive kind s hs hk
  | _ => exact Ensures.fail

theorem kind_of_ofKind? {kind : Kind} {op : BinaryOp} (h : BinaryOp.ofKind? kind = some op) : kind = op.kind := by
  unfold BinaryOp.ofKind? at h
  split at h <;> cases h <;> rfl

-- The current token is the operator.
theorem succ_extend (h : Accounted n) (left : Expr) (hs : Sound s) :
    Accounts (Parser.extend (n + 1) s.current left) s fun e t => left.gist ++ s.left = e.gist ++ t.advanced.left := by
  unfold Parser.extend
  split
  · -- a call
    rename_i hk
    have hopen := left_of_kind hs hk rfl
    apply Accounts.bind (h.items .rparen s hs rfl)
    intro args t ht ha
    apply Accounts.pure ht
    simp [hopen, ha]
  · -- an index
    rename_i hk
    have hopen := left_of_kind hs hk rfl
    apply Ensures.advance
    apply Accounts.bind (h.expression .lowest _ hs.advanced)
    intro key t ht hkey
    apply Ensures.expect
    intro hc
    have hclose := left_advanced ht hc rfl
    apply Accounts.pure ht.advanced
    simp [hopen, hkey, hclose]
  · -- a named argument
    rename_i hk
    split
    · have hassign := left_of_kind hs hk rfl
      apply Ensures.advance
      apply Accounts.bind (h.expression .lowest _ hs.advanced)
      intro value t ht hv
      apply Accounts.pure ht
      simp [hassign, hv]
    · exact Ensures.fail
  · -- a binary operator
    split
    · rename_i op hop
      have hk : s.current.kind = op.kind := kind_of_ofKind? hop
      have hsign := left_of_kind hs hk (by cases op <;> rfl)
      apply Ensures.advance
      apply Accounts.bind (h.expression _ _ hs.advanced)
      intro right t ht hr
      apply Accounts.pure ht
      simp [hsign, hr]
    · exact Ensures.fail

theorem succ_conditional (h : Accounted n) (hs : Sound s) (hk : s.current.kind = .ifWord) :
    Accounts (Parser.conditional (n + 1)) s fun e t => s.left = e.gist ++ t.advanced.left := by
  rw [Parser.conditional]
  have hword := left_of_kind hs hk rfl
  apply Ensures.expect
  intro ho
  have hopen := left_advanced hs ho rfl
  apply Ensures.advance
  apply Accounts.bind (h.expression .lowest _ hs.advanced.advanced)
  intro condition t ht hcond
  apply Ensures.expect
  intro hc
  have hclose := left_advanced ht hc rfl
  apply Ensures.expect
  intro hb
  have hbrace := left_advanced ht.advanced hb rfl
  apply Accounts.bind (h.block _ ht.advanced.advanced)
  intro consequence u hu hcons
  apply Ensures.following
  apply Ensures.ite
  · intro he
    have helse := left_advanced hu he rfl
    apply Ensures.advance
    apply Ensures.expect
    intro hb'
    have hbrace' := left_advanced hu.advanced hb' rfl
    apply Accounts.bind (h.block _ hu.advanced.advanced)
    intro alternative w hw halt
    apply Accounts.pure hw
    simp [hword, hopen, hcond, hclose, hbrace, hcons, helse, hbrace', halt, Expr.blockGist]
  · intro _
    apply Accounts.pure hu
    simp [hword, hopen, hcond, hclose, hbrace, hcons, Expr.blockGist]

theorem succ_primitive (h : Accounted n) (kind : Primitive) (hs : Sound s) (hk : s.current.kind = .primitive kind) :
    Accounts (Parser.primitive (n + 1) kind kind.keyword) s fun e t => s.left = e.gist ++ t.advanced.left := by
  rw [Parser.primitive]
  have hword := left_of_kind hs hk rfl
  apply Ensures.following
  apply Ensures.ite
  · -- an equals sign follows, and the word is a name
    intro _
    have hname : sense (sign (.primitive kind)) = sense (.ident, kind.keyword) := by
      rw [← Token.sense_ofWord, Token.ofWord_keyword]
      rfl
    apply Accounts.pure hs
    rw [hword, hname, Expr.gist_ident]
  intro _
  apply Ensures.ite
  · intro _
    have hargs : Accounts (do
        if (← Parser.following).kind = .lparen then
          Parser.advance
          Parser.items n .rparen
        else return []) s fun args t => s.advanced.left = args.flatMap Expr.gist ++ t.advanced.left := by
      apply Ensures.following
      apply Ensures.ite
      · intro ho
        have hopen := left_advanced hs ho rfl
        apply Ensures.advance
        apply Ensures.mono (h.items .rparen _ hs.advanced rfl)
        intro args t ha he
        simp [hopen, ha he]
      · intro _
        apply Accounts.pure hs
        simp
    apply Accounts.bind hargs
    intro args t ht ha
    apply Ensures.following
    apply Ensures.ite
    · intro hb
      have hbrace := left_advanced ht hb rfl
      apply Ensures.advance
      apply Accounts.bind (h.block _ ht.advanced)
      intro body u hu hbody
      apply Accounts.pure hu
      simp [hword, ha, hbrace, hbody, Expr.blockGist]
    · intro _
      apply Accounts.pure ht
      simp [hword, ha, Expr.blockGist]
  · intro _
    apply Ensures.expect
    intro ho
    have hopen := left_advanced hs ho rfl
    apply Accounts.bind (h.items .rparen _ hs.advanced rfl)
    intro args t ht ha
    apply Accounts.pure ht
    simp [hword, hopen, ha, Expr.blockGist]

theorem succ_items (h : Accounted n) (close : Kind) (hs : Sound s) (hc : close.spelling?.isSome) :
    Accounts (Parser.items (n + 1) close) s fun es t =>
      s.advanced.left = es.flatMap Expr.gist ++ sense (sign close) ++ t.advanced.left := by
  rw [Parser.items]
  apply Ensures.following
  apply Ensures.ite
  · intro hk
    have hclose := left_advanced hs hk hc
    apply Ensures.advance
    apply Accounts.pure hs.advanced
    simp [hclose]
  · intro _
    apply Ensures.advance
    apply Accounts.bind (h.expression .lowest _ hs.advanced)
    intro first t ht hf
    apply Accounts.bind (h.moreItems close t ht hc)
    intro more u hu hm
    apply Accounts.pure hu
    simp [hf, hm]

theorem succ_moreItems (h : Accounted n) (close : Kind) (hs : Sound s) (hc : close.spelling?.isSome) :
    Accounts (Parser.moreItems (n + 1) close) s fun es t =>
      s.advanced.left = es.flatMap Expr.gist ++ sense (sign close) ++ t.advanced.left := by
  rw [Parser.moreItems]
  apply Ensures.following
  apply Ensures.ite
  · intro hk
    have hcomma := left_advanced hs hk rfl
    apply Ensures.advance
    apply Ensures.advance
    apply Accounts.bind (h.expression .lowest _ hs.advanced.advanced)
    intro item t ht hi
    apply Accounts.bind (h.moreItems close t ht hc)
    intro more u hu hm
    apply Accounts.pure hu
    simp [hcomma, hi, hm]
  · intro _
    apply Ensures.expect
    intro hk
    have hclose := left_advanced hs hk hc
    apply Accounts.pure hs.advanced
    simp [hclose]

theorem succ_pairs (h : Accounted n) (hs : Sound s) :
    Accounts (Parser.pairs (n + 1)) s fun ps t =>
      s.advanced.left = ps.flatMap Expr.pairGist ++ sense (sign .rbrace) ++ t.advanced.left := by
  rw [Parser.pairs]
  apply Ensures.following
  apply Ensures.ite
  · intro hk
    have hclose := left_advanced hs hk rfl
    apply Ensures.advance
    apply Accounts.pure hs.advanced
    simp [hclose]
  intro _
  apply Ensures.advance
  apply Accounts.bind (h.expression .lowest _ hs.advanced)
  intro key t ht hkey
  apply Ensures.expect
  intro hk
  have hcolon := left_advanced ht hk rfl
  apply Ensures.advance
  apply Accounts.bind (h.expression .lowest _ ht.advanced.advanced)
  intro value u hu hvalue
  apply Ensures.following
  apply Ensures.ite
  · intro hk
    have hclose := left_advanced hu hk rfl
    apply Ensures.advance
    apply Accounts.pure hu.advanced
    simp [hkey, hcolon, hvalue, hclose, Expr.pairGist]
  · intro _
    apply Ensures.expect
    intro hk
    have hcomma := left_advanced hu hk rfl
    apply Accounts.bind (h.pairs _ hu.advanced)
    intro more w hw hm
    apply Accounts.pure hw
    simp [hkey, hcolon, hvalue, hcomma, hm, Expr.pairGist]

theorem succ_block (h : Accounted n) (hs : Sound s) :
    Accounts (Parser.block (n + 1)) s fun stmts t =>
      s.advanced.left = stmts.flatMap Stmt.gist ++ sense (sign .rbrace) ++ t.advanced.left := by
  rw [Parser.block]
  apply Ensures.advance
  apply Accounts.bind (h.statements .rbrace _ hs.advanced)
  intro stmts t ht hstmts
  apply Ensures.current
  apply Ensures.ite
  · intro hk
    have hclose := left_of_kind ht hk rfl
    apply Accounts.pure ht
    simp [hstmts, hclose]
  · intro _
    exact Ensures.fail

theorem succ_statement (h : Accounted n) (hs : Sound s) :
    Accounts (Parser.statement (n + 1)) s fun stmt t => s.left = stmt.gist ++ t.advanced.left := by
  rw [Parser.statement]
  apply Accounts.bind (R := fun stmt t => s.left = stmt.gist ++ t.advanced.left)
  · apply Ensures.current
    cases hk : s.current.kind with
    | letWord =>
      have hlet := left_of_kind hs hk rfl
      apply Ensures.expect
      intro hi
      have hname := left_word hs.advanced hi
      apply Ensures.current
      apply Ensures.expect
      intro ha
      have hassign := left_advanced hs.advanced ha rfl
      apply Ensures.advance
      apply Accounts.bind (h.expression .lowest _ hs.advanced.advanced.advanced)
      intro value t ht hv
      apply Accounts.pure ht
      simp [hlet, hname, hassign, hv]
    | returnWord =>
      have hreturn := left_of_kind hs hk rfl
      apply Ensures.advance
      apply Accounts.bind (h.expression .lowest _ hs.advanced)
      intro value t ht hv
      apply Accounts.pure ht
      simp [hreturn, hv]
    | _ =>
      apply Accounts.bind (h.expression .lowest _ hs)
      intro value t ht hv
      exact Accounts.pure ht hv
  intro stmt t ht hb
  -- the semicolon behind a statement says nothing
  apply Ensures.following
  split
  · rename_i hk
    have hsemicolon := left_advanced ht hk rfl
    apply Ensures.advance
    apply Accounts.pure ht.advanced
    simp [hb, hsemicolon]
  · exact Accounts.pure ht hb

theorem succ_statements (h : Accounted n) (close : Kind) (hs : Sound s) :
    Accounts (Parser.statements (n + 1) close) s fun stmts t => s.left = stmts.flatMap Stmt.gist ++ t.left := by
  rw [Parser.statements]
  apply Ensures.current
  apply Ensures.ite
  · intro _
    exact Accounts.pure hs rfl
  intro _
  apply Ensures.bind (Accounts.attempt hs (h.statement s hs))
  intro result t ht hresult
  cases result with
  | error e => exact Accounts.report ht e
  | ok first =>
    apply Accounts.clean ht
    intro he
    have hfirst := hresult he first rfl
    apply Ensures.advance
    apply Accounts.bind (h.statements close _ ht.advanced)
    intro rest u hu hrest
    apply Accounts.pure hu
    simp [hfirst, hrest]

theorem zero : Accounted 0 := by
  constructor <;> intros <;> exact .outOfSteps

theorem all (n : Nat) : Accounted n := by
  induction n with
  | zero => exact zero
  | succ n h =>
    exact {
      moreParams := fun _ => h.succ_moreParams
      expression := fun limit _ => h.succ_expression limit
      operand := fun _ => h.succ_operand
      operators := fun limit left _ => h.succ_operators limit left
      extend := fun left _ => h.succ_extend left
      conditional := fun _ => h.succ_conditional
      primitive := fun kind _ => h.succ_primitive kind
      items := fun close _ => h.succ_items close
      moreItems := fun close _ => h.succ_moreItems close
      pairs := fun _ => h.succ_pairs
      statements := fun close _ => h.succ_statements close
      statement := fun _ => h.succ_statement
      block := fun _ => h.succ_block }

end Accounted

-- A program is read to its end, so nothing is left behind its statements.
theorem left_of_statements {n : Nat} {s t : State} {stmts : List Stmt} (hs : Sound s)
    (hk : ∀ token ∈ s.tokens, token.kind ≠ .eof) (h : statements n .eof s = .done stmts t) (he : t.errors = []) :
    s.left = stmts.flatMap Stmt.gist := by
  have hleft : s.left = stmts.flatMap Stmt.gist ++ t.left := ((Accounted.all n).statements .eof s hs stmts t h).2 he
  have hend : t.tokens = [] :=
    tokens_of_current_eof (fun token ht => hk token ((later_of_done h).tokens.subset ht))
      ((or_self _).mp (kind_of_statements h))
  rw [hleft, State.left, hend]
  simp

-- The words of a source text say what its statements say.
theorem senses_of_parse {source : String} (h : (parse source).errors = []) :
    senses (Token.words source.toList) = (parse source).program.flatMap Stmt.gist := by
  obtain ⟨n, program, t, hdone, hparse⟩ := exists_parse source
  rw [hparse] at h
  rw [← (at_ofTokens source).words, hparse]
  exact left_of_statements (sound_ofTokens source) (kind_ne_eof_ofTokens _) hdone h

end Parser

-- Printing what was read without errors gives back every word of the source but layout, in the same order, with the
-- same text, and numbers with the same value.
theorem gist_print_parse (source : String) (h : (parse source).isOk) (hw : (parse source).program.isWritable) :
    Token.gist (Token.tokenize (parse source).program.print) = Token.gist (Token.tokenize source) := by
  rw [Token.gist_tokenize, Token.gist_tokenize, Parser.senses_of_parse (List.isEmpty_iff.1 h),
    Program.words_print (Program.isShaped_parse source) hw, Expr.senses_spellStmts, Token.senses_nil, List.append_nil]

-- A keyword names an argument, a block keyword stands alone, and a comma ends a hash.
theorem gist_print_parse_terse :
    let source := "let f = function(a, b) \x7b return -a[007] * 1e3 \x7d // two\n" ++
      "if (f(color = \x7b\"k\": 2.50,\x7d)) \x7b union \x7d else \x7b\x7d"
    ((parse source).isOk ∧ (parse source).program.isWritable) ∧
      Token.gist (Token.tokenize (parse source).program.print) = Token.gist (Token.tokenize source) := by
  intro source
  have h : (parse source).isOk ∧ (parse source).program.isWritable := by decide +kernel
  exact ⟨h, gist_print_parse source h.1 h.2⟩

end SolidScript
