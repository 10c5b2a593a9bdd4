import SolidScript.Proofs.Parser.Operators
import SolidScript.Proofs.Parser.Shaped

namespace SolidScript

namespace Parser

open Token (Word Listed sign)

namespace Unbounded

-- What reading the words of `e` comes to, for every bound that the parser sets.
def Reads (e : Expr) : Prop :=
  ∀ (bound : Precedence) (s : State) (rest : List Word), bound.rank ≤ Precedence.unary.rank →
    (e.isOpen → bound = .lowest) → At (e.spell rest) s → Ends rest →
    Goes (e.everywhere Expr.closesRight) (Behind rest) (resume e.names bound e.core) (expression bound s)

-- An expression that is followed by no operator, with what it is read as.
def ReadsWhole (good : Prop) (spelling : List Word → List Word) (v : Expr) : Prop :=
  ∀ ⦃s : State⦄ (rest : List Word), Stops rest → At (spelling rest) s →
    Goes good (Behind rest) (Pure.pure v) (expression .lowest s)

theorem Reads.whole {e : Expr} (h : Reads e) : ReadsWhole (e.everywhere Expr.closesRight) e.spell e.reread := by
  intro s rest hs ha
  refine Goes.onward (h _ s rest (by decide) (fun _ => rfl) ha hs.2) fun t ht => ?_
  rw [resume_stop ht hs]
  exact .of_eq ht rfl

-- An operand that is one word.
theorem reads_word {e : Expr} {w : Word} (hn : e.names = []) (hc : e.core = e) (hr : e.everywhere Expr.closesRight)
    (hw : ∀ rest, e.spell rest = w :: rest) (ho : ∀ rest s, At (w :: rest) s → operand s = .done e s) : Reads e := by
  intro bound s rest _ _ ha _
  rw [hw] at ha
  rw [expression_eq, hn, hc, resume]
  refine Goes.congr (.of_eq ha.behind ?_) (iff_true_intro hr)
  rw [bind_apply, ho rest s ha]

theorem operand_ident {name : String} {s : State} {ws : List Word} (ha : At ((.ident, name) :: ws) s) :
    operand s = .done (.ident name) s := by
  rw [operand_eq, current_bind, ha.kind, ha.literal]
  rfl

theorem operand_int {value : Int64} (h : 0 ≤ value.toInt) {s : State} {ws : List Word}
    (ha : At ((.int, toString value.toInt) :: ws) s) : operand s = .done (.int value) s := by
  rw [operand_eq, current_bind, ha.kind]
  simp only [firstKind_cons, intLiteral, ha.literal, Number.integer?_int h]
  rfl

-- An expression in parentheses, with what is read between them.
theorem expression_paren {good : Prop} {v : Expr} {bound : Precedence} {s : State} {ws rest : List Word}
    (ha : At (sign .lparen :: ws) s)
    (h : Goes good (Behind (sign .rparen :: rest)) (Pure.pure v) (expression .lowest s.advanced)) :
    Goes good (Behind rest) (operators bound v) (expression bound s) := by
  have ho : operand s = (do
      let inner ← expression .lowest
      expect .rparen
      return inner) s.advanced := by
    rw [operand_eq, current_bind, ha.kind]
    rfl
  rw [expression_eq, bind_apply, ho, ← bind_apply, bind_assoc]
  refine h.read fun t ht => ?_
  rw [bind_assoc, expect_sign ht]
  exact .of_eq ht.behind rfl

-- The words that an expression can start with.
def leads : Token.Kind → Bool
  | .ident | .int | .float | .string | .trueWord | .falseWord | .undefWord | .lparen | .ifWord | .functionWord
  | .lbracket | .lbrace | .bang | .minus | .primitive _ => true
  | _ => false

theorem leads_ofWord {name : String} (h : Token.isArgumentName name) : leads (.ofWord name) := by
  simp only [Token.isArgumentName, Token.isName, Bool.or_eq_true, Bool.and_eq_true, beq_iff_eq] at h
  rcases h with h | h
  · simp [h.2, leads]
  · obtain ⟨p, hp⟩ := Option.isSome_iff_exists.1 h
    rw [← Primitive.keyword_of_ofKeyword? hp, Token.ofWord_keyword]
    rfl

theorem leads_spell {e : Expr} (h : e.everywhere Expr.isShaped) (rest : List Word) :
    leads (firstKind (e.spell rest)) := by
  induction e using Expr.induction_children generalizing rest with
  | step e ih =>
    obtain ⟨he, hc⟩ := Expr.everywhere_iff.1 h
    cases e with
    | call callee args =>
      have hm : callee ∈ (Expr.call callee args).children := by simp [Expr.children]
      exact ih callee hm (hc callee hm) _
    | named name value => exact leads_ofWord he
    | bool value => cases value <;> rfl
    | _ => rfl

theorem leads_following {e : Expr} (h : e.everywhere Expr.isShaped) {s : State} {rest : List Word}
    (hb : Behind (e.spell rest) s) : leads s.following.kind := by
  rw [hb.kind]
  exact leads_spell h rest

section lists

variable {close : Token.Kind} {s : State} {rest : List Word}

theorem stops_more {α : Type} {spell : α → List Word → List Word} {all more : List α → List Word → List Word}
    (l : Listed spell all more) (as : List α) (close : Token.Kind) (hc : Stops [sign close]) :
    Stops (more as (sign close :: rest)) := by
  cases as with
  | nil => rw [l.more_nil]; exact hc
  | cons a as => rw [l.more_cons]; exact ⟨rfl, rfl⟩

section items

variable {α : Type} {spell : α → List Word → List Word} {all more : List α → List Word → List Word}
  (l : Listed spell all more) {good : α → Prop} {value : α → Expr} {as : List α}
include l

theorem reads_moreItems (hc : Stops [sign close]) (hn : close ≠ .comma)
    (h : ∀ a ∈ as, ReadsWhole (good a) (spell a) (value a)) (hb : Behind (more as (sign close :: rest)) s) :
    Goes (∀ a ∈ as, good a) (Behind rest) (Pure.pure (as.map value)) (moreItems close s) := by
  induction as generalizing s with
  | nil =>
    rw [l.more_nil] at hb
    have hk : s.following.kind = close := hb.kind
    rw [moreItems_eq, following_bind, hk, if_neg hn, expect_sign hb]
    exact (Goes.of_eq hb.behind rfl).congr (by simp)
  | cons a as ih =>
    rw [l.more_cons] at hb
    have hk : s.following.kind = .comma := hb.kind
    rw [moreItems_eq, following_bind, hk, if_pos rfl, advance_bind, advance_bind]
    have ha := h a (by simp) _ (stops_more l as close hc) hb.behind
    have hmore (t : State) (ht : Behind (more as (sign close :: rest)) t) := ih (fun b hb => h b (by simp [hb])) ht
    refine Goes.congr (ha.seq fun t ht => (hmore t ht).built (value a :: ·)) ?_
    simp

-- Expressions with commas between them, none of which starts like the sign behind them.
theorem reads_items (close : Token.Kind) (hc : Stops [sign close]) (hn : close ≠ .comma) (hl : leads close = false)
    (hs : ∀ a ∈ as, ∀ rest, leads (firstKind (spell a rest))) (h : ∀ a ∈ as, ReadsWhole (good a) (spell a) (value a))
    (hb : Behind (all as (sign close :: rest)) s) :
    Goes (∀ a ∈ as, good a) (Behind rest) (Pure.pure (as.map value)) (items close s) := by
  cases as with
  | nil =>
    rw [l.all_nil] at hb
    have hk : s.following.kind = close := hb.kind
    rw [items_eq, following_bind, hk, if_pos rfl]
    exact (Goes.of_eq hb.behind rfl).congr (by simp)
  | cons a as =>
    rw [l.all_cons] at hb
    have hk : s.following.kind ≠ close := by
      intro hk
      have := hs a (by simp) (more as (sign close :: rest))
      rw [← hb.kind, hk, hl] at this
      cases this
    rw [items_eq, following_bind, if_neg hk, advance_bind]
    have ha := h a (by simp) _ (stops_more l as close hc) hb
    have hmore (t : State) (ht : Behind (more as (sign close :: rest)) t) :=
      reads_moreItems l hc hn (fun b hb => h b (by simp [hb])) ht
    refine Goes.congr (ha.seq fun t ht => (hmore t ht).built (value a :: ·)) ?_
    simp

end items

theorem reads_each (close : Token.Kind) (hc : Stops [sign close]) (hn : close ≠ .comma) (hl : leads close = false)
    {es : List Expr} (hs : ∀ e ∈ es, e.everywhere Expr.isShaped) (h : ∀ e ∈ es, Reads e)
    (hb : Behind (Expr.spellItems es (sign close :: rest)) s) :
    Goes (∀ e ∈ es, e.everywhere Expr.closesRight) (Behind rest) (Pure.pure (Expr.rereadEach es)) (items close s) := by
  rw [Expr.rereadEach_eq]
  exact reads_items Expr.listed_items close hc hn hl (fun e hm => leads_spell (hs e hm)) (fun e hm => (h e hm).whole) hb

-- The last step of a pair has many branches, all of which lose no error.
set_option synthInstance.maxSize 1000 in
theorem reads_pairs {ps : List (Expr × Expr)}
    (hs : ∀ p ∈ ps, p.1.everywhere Expr.isShaped) (h : ∀ p ∈ ps, Reads p.1 ∧ Reads p.2)
    (hb : Behind (Expr.spellPairs ps (sign .rbrace :: rest)) s) :
    Goes (∀ p ∈ ps, p.1.everywhere Expr.closesRight ∧ p.2.everywhere Expr.closesRight) (Behind rest)
      (Pure.pure (Expr.rereadPairs ps)) (pairs s) := by
  induction ps generalizing s with
  | nil =>
    have hk : s.following.kind = .rbrace := hb.kind
    rw [pairs_eq, following_bind, hk, if_pos rfl]
    exact (Goes.of_eq hb.behind rfl).congr (by simp)
  | cons p ps ih =>
    have hk : s.following.kind ≠ .rbrace := by
      intro hk
      have := leads_following (hs p (by simp)) hb
      simp [hk, leads] at this
    obtain ⟨hkey, hvalue⟩ := h p (by simp)
    rw [pairs_eq, following_bind, if_neg hk, advance_bind]
    have hkey := hkey.whole (sign .colon :: p.2.spell (Expr.spellMorePairs ps (sign .rbrace :: rest))) ⟨rfl, rfl⟩ hb
    refine Goes.congr (hkey.seq (q := p.2.everywhere Expr.closesRight ∧
      ∀ q ∈ ps, q.1.everywhere Expr.closesRight ∧ q.2.everywhere Expr.closesRight) fun t ht => ?_) (by simp [and_assoc])
    rw [expect_sign ht, advance_bind]
    have hvalue := hvalue.whole _ (stops_more Expr.listed_pairs ps .rbrace ⟨rfl, rfl⟩) ht.behind
    refine hvalue.seq fun u hu => ?_
    cases ps with
    | nil =>
      have hk : u.following.kind = .rbrace := hu.kind
      rw [following_bind, hk, if_pos rfl]
      exact (Goes.of_eq hu.behind rfl).congr (by simp)
    | cons q ps =>
      have hk : u.following.kind = .comma := hu.kind
      have hu : Behind (sign .comma :: Expr.spellPairs (q :: ps) (sign .rbrace :: rest)) u := hu
      rw [following_bind, hk, if_neg (by decide), expect_sign hu]
      have hq := ih (fun r hr => hs r (by simp [hr])) (fun r hr => h r (by simp [hr])) hu.behind
      exact (hq.built _).congr (by simp)

theorem reads_moreNames {names : List String} (hb : Behind (Expr.spellMoreNames names (sign .rparen :: rest)) s) :
    ∃ t, Behind rest t ∧ moreParams s = .done names t := by
  induction names generalizing s with
  | nil =>
    have hk : s.following.kind = .rparen := hb.kind
    rw [moreParams_eq, following_bind, hk, if_neg (by decide), expect_sign hb]
    exact ⟨_, hb.behind, rfl⟩
  | cons name names ih =>
    have hk : s.following.kind = .comma := hb.kind
    have hn := hb.behind
    have hi : s.advanced.following.kind = .ident := hn.kind
    obtain ⟨t, ht, hm⟩ := ih hn.behind
    refine ⟨t, ht, ?_⟩
    rw [moreParams_eq, following_bind, hk, if_pos rfl, advance_bind, expect_bind hi, current_bind, bind_apply, hm,
      hn.literal]
    rfl

theorem reads_names {names : List String} (hb : Behind (Expr.spellNames names (sign .rparen :: rest)) s) :
    ∃ t, Behind rest t ∧ params s = .done names t := by
  cases names with
  | nil =>
    have hk : s.following.kind = .rparen := hb.kind
    rw [params_eq, following_bind, hk, if_pos rfl]
    exact ⟨_, hb.behind, rfl⟩
  | cons name names =>
    have hk : s.following.kind = .ident := hb.kind
    obtain ⟨t, ht, hm⟩ := reads_moreNames hb.behind
    refine ⟨t, ht, ?_⟩
    rw [params_eq, following_bind, hk, if_neg (by decide), expect_bind hk, current_bind, bind_apply, hm, hb.literal]
    rfl

end lists

section blocks

variable {s : State} {rest : List Word} {stmt : Stmt}

-- A statement takes the semicolon behind it, if there is one.
def finish (stmt : Stmt) : Parser Stmt := do
  if (← following).kind = .semicolon then advance
  return stmt

instance : Keeps (finish stmt) := by
  unfold finish
  infer_instance

theorem finish_semicolon (hb : Behind (sign .semicolon :: rest) s) : finish stmt s = .done stmt s.advanced := by
  have hk : s.following.kind = .semicolon := hb.kind
  rw [finish, following_bind, hk]
  rfl

theorem finish_other (hb : Behind rest s) (hr : firstKind rest ≠ .semicolon) : finish stmt s = .done stmt s := by
  rw [finish, following_bind, hb.kind]
  simp [hr]

-- What the parser reads first in a statement.
theorem statement_bind {name : String} {ws : List Word}
    (ha : At ((.letWord, "let") :: (.ident, name) :: sign .assign :: ws) s) :
    statement s = (expression .lowest >>= fun value => finish (.bind name value)) s.advanced.advanced.advanced := by
  have hk : s.current.kind = .letWord := ha.kind
  have hi : s.following.kind = .ident := ha.behind.kind
  have he : s.advanced.following.kind = .assign := ha.behind.behind.kind
  rw [statement_eq, bind_assoc, current_bind, hk]
  simp only [bind_assoc]
  rw [expect_bind hi, current_bind, expect_bind he, advance_bind, ha.behind.literal]
  rfl

theorem statement_ret {ws : List Word} (ha : At ((.returnWord, "return") :: ws) s) :
    statement s = (expression .lowest >>= fun value => finish (.ret value)) s.advanced := by
  have hk : s.current.kind = .returnWord := ha.kind
  rw [statement_eq, bind_assoc, current_bind, hk]
  simp only [bind_assoc]
  rw [advance_bind]
  rfl

theorem statement_expr (hk : leads s.current.kind) :
    statement s = (expression .lowest >>= fun value => finish (.expr value)) s := by
  rw [statement_eq, bind_assoc, current_bind]
  cases hc : s.current.kind <;> simp [hc, leads] at hk <;> (simp only [bind_assoc]; rfl)

theorem leads_current {e : Expr} (h : e.everywhere Expr.isShaped) (ha : At (e.spell rest) s) : leads s.current.kind := by
  rw [ha.kind]
  exact leads_spell h rest

-- A statement that another one follows.
theorem reads_stmt (hs : stmt.value.everywhere Expr.isShaped) (h : Reads stmt.value)
    (ha : At (Expr.spellStmt stmt (stmt.spellTerminator rest)) s) :
    Goes (stmt.value.everywhere Expr.closesRight) (Behind rest) (Pure.pure (Expr.rereadStmt stmt)) (statement s) := by
  cases stmt with
  | bind name value =>
    have hv := h.whole (sign .semicolon :: rest) ⟨rfl, rfl⟩ ha.behind.behind.behind
    rw [statement_bind ha]
    refine hv.read fun t ht => ?_
    rw [finish_semicolon ht]
    exact .of_eq ht.behind rfl
  | ret value =>
    have hv := h.whole (sign .semicolon :: rest) ⟨rfl, rfl⟩ ha.behind
    rw [statement_ret ha]
    refine hv.read fun t ht => ?_
    rw [finish_semicolon ht]
    exact .of_eq ht.behind rfl
  | expr value =>
    have hv := h.whole (sign .semicolon :: rest) ⟨rfl, rfl⟩ ha
    rw [statement_expr (leads_current hs ha)]
    refine hv.read fun t ht => ?_
    rw [finish_semicolon ht]
    exact .of_eq ht.behind rfl

theorem reads_lastStmt (hs : stmt.value.everywhere Expr.isShaped) (h : Reads stmt.value) (hr : Stops rest)
    (hr' : firstKind rest ≠ .semicolon) (ha : At (Expr.spellStmt stmt rest) s) :
    Goes (stmt.value.everywhere Expr.closesRight) (Behind rest) (Pure.pure (Expr.rereadStmt stmt)) (statement s) := by
  cases stmt with
  | bind name value => exact reads_stmt hs h ha
  | ret value => exact reads_stmt hs h ha
  | expr value =>
    have hv := h.whole _ hr ha
    rw [statement_expr (leads_current hs ha)]
    refine hv.read fun t ht => ?_
    rw [finish_other ht hr']
    exact .of_eq ht rfl

-- A statement does not start with what ends a block.
theorem spellStmt_ne (hs : stmt.value.everywhere Expr.isShaped) {kind : Token.Kind} (hk : leads kind = false)
    (hl : kind ≠ .letWord) (hr : kind ≠ .returnWord) : firstKind (Expr.spellStmt stmt rest) ≠ kind := by
  cases stmt with
  | bind name value => exact hl.symm
  | ret value => exact hr.symm
  | expr value =>
    rintro rfl
    have := leads_spell hs rest
    simp_all [Expr.spellStmt, Stmt.value]

theorem spoiled_statements {close : Token.Kind} (hk : ¬ (s.current.kind = close ∨ s.current.kind = .eof))
    (h : Spoiled (statement s)) : Spoiled (statements close s) := by
  rw [statements_eq, current_bind, if_neg hk, bind_apply, attempt]
  cases hs : statement s with
  | done stmt t =>
    exact spoiled_of_later (h stmt t hs) (Keeps.later (x := advance >>= fun _ => statements close >>= fun _ => _) t)
  | failed error t =>
    have hn : ({ t with errors := t.errors ++ [error] } : State).errors ≠ [] := by simp
    -- the error is reported, and what comes behind keeps it
    exact spoiled_of_later hn (Keeps.later (x := synchronize >>= fun _ => current >>= fun token =>
      if token.kind = close then Pure.pure [] else advance >>= fun _ => statements close) _)
  | exhausted =>
    intro program t ht
    cases ht

-- One statement, and then the others from where it ends.
theorem reads_consStmt {others : List Stmt} {close : Token.Kind} {ws : List Word} {good : Prop}
    (hk : ¬ (s.current.kind = close ∨ s.current.kind = .eof))
    (hf : Goes (stmt.value.everywhere Expr.closesRight) (Behind ws) (Pure.pure (Expr.rereadStmt stmt)) (statement s))
    (ho : ∀ t, At ws t → Goes good (At rest) (Pure.pure (Expr.rereadBlock others)) (statements close t)) :
    Goes (stmt.value.everywhere Expr.closesRight ∧ good) (At rest) (Pure.pure (Expr.rereadBlock (stmt :: others)))
      (statements close s) := by
  by_cases hg : stmt.value.everywhere Expr.closesRight
  · obtain ⟨t, ht, hd⟩ := hf.1 hg
    rw [statements_eq, current_bind, if_neg hk, bind_apply, attempt, hd]
    exact ((ho t.advanced ht).built _).congr (by simp [hg])
  · exact ⟨fun h => absurd h.1 hg, fun _ => spoiled_statements hk (hf.2 hg)⟩

theorem reads_statements {block : List Stmt} {close : Token.Kind} (hs : ∀ s ∈ block, s.value.everywhere Expr.isShaped)
    (h : ∀ s ∈ block, Reads s.value) (hc : firstKind rest = close) (hclose : close = .rbrace ∨ close = .eof)
    (ha : At (Expr.spellStmts block rest) s) :
    Goes (∀ s ∈ block, s.value.everywhere Expr.closesRight) (At rest) (Pure.pure (Expr.rereadBlock block))
      (statements close s) := by
  have hr : Stops rest := by
    rw [Stops, Ends, hc]
    rcases hclose with rfl | rfl <;> exact ⟨rfl, rfl⟩
  have hr' : firstKind rest ≠ .semicolon := by
    rw [hc]
    rcases hclose with rfl | rfl <;> nofun
  induction block generalizing s with
  | nil =>
    have hk : s.current.kind = close := ha.kind.trans hc
    rw [statements_eq, current_bind, if_pos (.inl hk)]
    exact (Goes.of_eq ha rfl).congr (by simp)
  | cons stmt block ih =>
    have hk (ws : List Word) (ha : At (Expr.spellStmt stmt ws) s) :
        ¬ (s.current.kind = close ∨ s.current.kind = .eof) := by
      have hstart {kind : Token.Kind} (hkind : kind = .rbrace ∨ kind = .eof) : s.current.kind ≠ kind := by
        rw [ha.kind]
        rcases hkind with rfl | rfl <;> exact spellStmt_ne (hs stmt (by simp)) rfl nofun nofun
      exact fun hc => hc.elim (hstart hclose) (hstart (.inr rfl))
    have others (t : State) := ih (s := t) (fun s hm => hs s (by simp [hm])) (fun s hm => h s (by simp [hm]))
    cases block with
    | nil =>
      have hf := reads_lastStmt (hs stmt (by simp)) (h stmt (by simp)) hr hr' ha
      exact Goes.congr (reads_consStmt (hk _ ha) hf others) (by simp)
    | cons next block =>
      have hf := reads_stmt (hs stmt (by simp)) (h stmt (by simp)) ha
      exact Goes.congr (reads_consStmt (hk _ ha) hf others) (by simp)

theorem reads_block {block : List Stmt} (hs : ∀ s ∈ block, s.value.everywhere Expr.isShaped)
    (h : ∀ s ∈ block, Reads s.value) (ha : At (sign .lbrace :: Expr.spellStmts block (sign .rbrace :: rest)) s) :
    Goes (∀ s ∈ block, s.value.everywhere Expr.closesRight) (Behind rest) (Pure.pure (Expr.rereadBlock block))
      (Unbounded.block s) := by
  have ha : At (Expr.spellStmts block (sign .rbrace :: rest)) s.advanced := ha.behind
  have hb := reads_statements hs h rfl (.inl rfl) ha
  rw [block_eq, advance_bind]
  refine hb.read fun t ht => ?_
  have hk : t.current.kind = .rbrace := ht.kind
  rw [current_bind, hk, if_pos rfl]
  exact .of_eq ht.behind rfl

end blocks

section operands

variable {left right : Expr}

theorem closesRight_unary {op : UnaryOp} :
    (Expr.unary op right).everywhere Expr.closesRight ↔ right.isOpen = false ∧ right.everywhere Expr.closesRight := by
  simp [Expr.everywhere_iff (e := .unary op right), Expr.closesRight, Expr.children]

theorem closesRight_binary {op : BinaryOp} :
    (Expr.binary left op right).everywhere Expr.closesRight ↔
      left.everywhere Expr.closesRight ∧ right.isOpen = false ∧ right.everywhere Expr.closesRight := by
  simp only [Expr.everywhere_iff (e := .binary left op right), Expr.closesRight, Expr.children, List.mem_cons,
    List.not_mem_nil, or_false, forall_eq_or_imp, forall_eq, Bool.not_eq_eq_eq_not, Bool.not_true]
  tauto

-- A name in front of an equals sign, which may be a keyword.
theorem operand_name {name : String} (hn : Token.isArgumentName name) {s : State} {ws : List Word}
    (ha : At ((.ofWord name, name) :: sign .assign :: ws) s) : operand s = .done (.ident name) s := by
  have hk : s.current.kind = .ofWord name := ha.kind
  have hl : s.current.literal = name := ha.literal
  simp only [Token.isArgumentName, Token.isName, Bool.or_eq_true, Bool.and_eq_true, beq_iff_eq] at hn
  rcases hn with hn | hn
  · rw [operand_eq, current_bind, hk, hn.2]
    simp [hl]
  · obtain ⟨p, hp⟩ := Option.isSome_iff_exists.1 hn
    have he : s.following.kind = .assign := ha.behind.kind
    have ho : Token.Kind.ofWord name = .primitive p := by
      rw [← Primitive.keyword_of_ofKeyword? hp, Token.ofWord_keyword]
    rw [operand_eq, current_bind, hk, ho]
    simp only [primitive_eq]
    rw [following_bind, he, if_pos rfl, hl]
    rfl

-- Read as an operand, an open expression ends in front of its first equals sign.
theorem expression_open {e : Expr} (hs : e.everywhere Expr.isShaped) (ho : e.isOpen) {bound : Precedence}
    (hb : Precedence.equals.rank ≤ bound.rank) {s : State} {rest : List Word} (ha : At (e.spell rest) s) :
    ∃ name ws, Behind (sign .assign :: ws) s ∧ expression bound s = .done (.ident name) s := by
  induction e using Expr.induction_children generalizing rest with
  | step e ih =>
    obtain ⟨he, hc⟩ := Expr.everywhere_iff.1 hs
    cases e with
    | named name value =>
      have hk : s.following.kind = .assign := ha.behind.kind
      refine ⟨name, _, ha.behind, ?_⟩
      rw [expression_eq, bind_apply, operand_name he ha]
      simp only
      rw [operators_eq, following_bind, hk, if_neg]
      · rfl
      · simp only [Precedence.ofKind]
        omega
    | call callee args =>
      have hm : callee ∈ (Expr.call callee args).children := by simp [Expr.children]
      exact ih callee hm (hc callee hm) ho ha
    | _ => simp [Expr.isOpen] at ho

-- An operand on the right and what comes behind it, which must not be an equals sign.
theorem reads_right {bound : Precedence} {s : State} (rest : List Word) {f : Expr → Parser Expr} [∀ e, Keeps (f e)]
    {P : State → Prop} {y : Parser Expr} (hs : right.everywhere Expr.isShaped) (h : Reads right)
    (hb : Precedence.equals.rank ≤ bound.rank) (hb' : bound.rank ≤ Precedence.unary.rank) (hr : Stops rest)
    (ha : At (right.spell rest) s)
    (hn : ∀ name t ws, Behind (sign .assign :: ws) t → Spoiled (f (.ident name) t))
    (hf : ∀ t, Behind rest t → Goes True P y (f right.core t)) :
    Goes (right.isOpen = false ∧ right.everywhere Expr.closesRight) P y ((expression bound >>= f) s) := by
  by_cases ho : right.isOpen
  · obtain ⟨name, ws, hbehind, he⟩ := expression_open hs ho hb ha
    refine ⟨fun hg => ?_, fun _ => ?_⟩
    · simp [ho] at hg
    · rw [bind_apply, he]
      exact hn name s ws hbehind
  · have hnames := Expr.names_of_not_isOpen (by simpa using ho)
    have hg := h bound s rest hb' (fun ho' => absurd ho' ho) ha hr.2
    rw [hnames] at hg
    refine Goes.congr ((hg.bind f).trans (q := True) fun t ht => ?_) (by simp [ho])
    rw [bind_apply, resume, operators_stop ht hr]
    exact hf t ht

theorem operand_unary {op : UnaryOp} {s : State} {ws : List Word} (ha : At (sign op.kind :: ws) s) :
    operand s = (expression .unary >>= fun right => Pure.pure (.unary op right)) s.advanced := by
  have hk : s.current.kind = op.kind := ha.kind
  rw [operand_eq, current_bind, hk]
  cases op <;> rfl

theorem reads_unary {op : UnaryOp} (hs : right.everywhere Expr.isShaped) (h : Reads right) :
    Reads (.unary op right) := by
  intro bound s rest _ _ ha _
  refine expression_paren ha ?_
  have ha : At (sign op.kind :: right.spell (sign .rparen :: rest)) s.advanced := ha.behind
  generalize s.advanced = s at ha
  rw [expression_eq, bind_apply, operand_unary ha, ← bind_apply, bind_assoc]
  refine Goes.congr (reads_right (sign .rparen :: rest) hs h (by decide) (by decide) ⟨rfl, rfl⟩ ha.behind ?_ ?_)
    closesRight_unary
  · exact fun name t ws ht => operators_unnamed rfl nofun ht
  · intro t ht
    rw [pure_bind_apply, operators_stop ht ⟨rfl, rfl⟩]
    exact .of_eq ht rfl

theorem reads_binary {op : BinaryOp} (hl : left.hasBody = false) (hs : right.everywhere Expr.isShaped)
    (h : Reads left) (h' : Reads right) : Reads (.binary left op right) := by
  intro bound s rest _ _ ha _
  refine expression_paren ha ?_
  have hleft := h .lowest _ _ (by decide) (fun _ => rfl) ha.behind (by cases op <;> rfl)
  refine Goes.congr (hleft.trans fun t ht => ?_) closesRight_binary
  have hc : left.core.hasBody = false := Expr.hasBody_core hl
  have hmin : Precedence.equals.rank ≤ (Precedence.ofKind op.kind).rank := by cases op <;> decide
  have hmax : (Precedence.ofKind op.kind).rank ≤ Precedence.unary.rank := by cases op <;> decide
  rw [resume_step (x := expression (.ofKind op.kind)) (f := fun right => .binary left.core op right) fun b hb => ?_]
  · refine reads_right (sign .rparen :: rest) hs h' hmin hmax ⟨rfl, rfl⟩ ht.behind ?_ ?_
    · intro name u ws hu
      refine resume_spoiled fun b hb => ?_
      obtain rfl : b = .lowest := hb.elim id id
      exact operators_unnamed rfl nofun hu
    · intro u hu
      rw [resume_stop hu ⟨rfl, rfl⟩]
      exact .of_eq hu rfl
  · obtain rfl : b = .lowest := hb.elim id id
    exact operators_binary hc (by cases op <;> decide) ht

theorem reads_index {key : Expr} (hl : left.hasBody = false) (h : Reads left) (h' : Reads key) :
    Reads (.index left key) := by
  intro bound s rest _ _ ha _
  refine expression_paren ha ?_
  have hleft := h .lowest _ _ (by decide) (fun _ => rfl) ha.behind rfl
  refine Goes.congr (hleft.trans (q := key.everywhere Expr.closesRight) fun t ht => ?_) ?_
  · have hc : left.core.hasBody = false := Expr.hasBody_core hl
    rw [resume_step (x := expression .lowest >>= fun key => expect .rbracket >>= fun _ => Pure.pure key)
      (f := fun key => .index left.core key) fun b hb => ?_]
    · rw [bind_assoc]
      have hkey := h'.whole (sign .rbracket :: sign .rparen :: rest) ⟨rfl, rfl⟩ ht.behind
      refine hkey.read fun u hu => ?_
      rw [bind_assoc, expect_sign hu, pure_bind_apply, resume_stop hu.behind ⟨rfl, rfl⟩]
      exact .of_eq hu.behind rfl
    · obtain rfl : b = .lowest := hb.elim id id
      rw [operators_index hc (by decide) ht]
      simp only [bind_assoc, pure_bind]
  · simp [Expr.everywhere_iff (e := .index left key), Expr.closesRight, Expr.children]

theorem reads_call {args : List Expr} (hl : left.hasBody = false) (hs : ∀ e ∈ args, e.everywhere Expr.isShaped)
    (h : Reads left) (h' : ∀ e ∈ args, Reads e) : Reads (.call left args) := by
  intro bound s rest hb ho ha he
  refine Goes.congr ((h bound _ _ hb ho ha rfl).trans (q := ∀ e ∈ args, e.everywhere Expr.closesRight)
    fun t ht => ?_) ?_
  · have hc : left.core.hasBody = false := Expr.hasBody_core hl
    rw [resume_step (f := fun args => .call left.core args) fun b hb' => ?_]
    · have hi := reads_each .rparen ⟨rfl, rfl⟩ nofun rfl hs h' ht.behind
      refine hi.read fun u hu => ?_
      exact .of_eq hu rfl
    · refine operators_call hc ?_ ht
      rcases hb' with rfl | rfl
      · exact hb
      · decide
  · simp [Expr.everywhere_iff (e := .call left args), Expr.closesRight, Expr.children]

theorem reads_named {name : String} {value : Expr} (hn : Token.isArgumentName name) (h : Reads value) :
    Reads (.named name value) := by
  intro bound s rest hb ho ha he
  obtain rfl := ho rfl
  rw [expression_eq, bind_apply, operand_name hn ha]
  simp only
  rw [operators_named ha.behind]
  have hv := h .lowest _ _ (by decide) (fun _ => rfl) ha.behind.behind he
  have hg : (Expr.named name value).everywhere Expr.closesRight ↔ value.everywhere Expr.closesRight := by
    simp [Expr.everywhere_iff (e := .named name value), Expr.closesRight, Expr.children]
  refine Goes.congr ((hv.bind _).onward fun t ht => ?_) hg
  refine .of_eq ht ?_
  by_cases hbody : value.hasBody
  · have hv : resume value.names .lowest value.core t = .done value.core t := by
      rw [Expr.names_of_hasBody hbody]
      exact operators_body (Expr.hasBody_core_of_hasBody hbody)
    rw [bind_apply, hv]
    simp [Expr.names, Expr.core, hbody, resume]
  · simp [Expr.names, Expr.core, hbody, resume]

-- An operand that no operator belongs to, with what is read.
theorem reads_operand {e : Expr} (hn : e.names = [])
    (h : ∀ s rest, Ends rest → At (e.spell rest) s →
      Goes (e.everywhere Expr.closesRight) (Behind rest) (Pure.pure e.core) (operand s)) : Reads e := by
  intro bound s rest _ _ ha he
  rw [expression_eq, hn]
  refine (h s rest he ha).read fun t ht => ?_
  exact .of_eq ht rfl

theorem reads_array {elements : List Expr} (hs : ∀ e ∈ elements, e.everywhere Expr.isShaped)
    (h : ∀ e ∈ elements, Reads e) : Reads (.array elements) := by
  refine reads_operand rfl fun s rest _ ha => ?_
  have hk : s.current.kind = .lbracket := ha.kind
  have hi := reads_each .rbracket ⟨rfl, rfl⟩ nofun rfl hs h ha.behind
  rw [operand_eq, current_bind, hk]
  refine (hi.built Expr.array).congr ?_
  simp [Expr.everywhere_iff (e := .array elements), Expr.closesRight, Expr.children]

theorem reads_hash {ps : List (Expr × Expr)} (hs : ∀ p ∈ ps, p.1.everywhere Expr.isShaped)
    (h : ∀ p ∈ ps, Reads p.1 ∧ Reads p.2) : Reads (.hash ps) := by
  refine reads_operand rfl fun s rest _ ha => ?_
  have hk : s.current.kind = .lbrace := ha.kind
  have hi := reads_pairs hs h ha.behind
  rw [operand_eq, current_bind, hk]
  refine (hi.built Expr.hash).congr ?_
  simp only [Expr.everywhere_iff (e := .hash ps), Expr.closesRight, Expr.children, List.mem_flatMap]
  grind

theorem reads_function {params : List String} {body : List Stmt}
    (hs : ∀ s ∈ body, s.value.everywhere Expr.isShaped) (h : ∀ s ∈ body, Reads s.value) :
    Reads (.function params body) := by
  refine reads_operand rfl fun s rest _ ha => ?_
  have hk : s.current.kind = .functionWord := ha.kind
  have hp : Behind (sign .lparen :: _) s := ha.behind
  obtain ⟨t, ht, hparams⟩ := reads_names hp.behind
  have hb := reads_block hs h ht
  rw [operand_eq, current_bind, hk]
  simp only
  rw [expect_sign hp, bind_apply, hparams]
  simp only
  rw [expect_sign ht]
  refine (hb.built (Expr.function params)).congr ?_
  simp [Expr.everywhere_iff (e := .function params body), Expr.closesRight, Expr.children]

set_option synthInstance.maxSize 1000 in
theorem reads_cond {condition : Expr} {consequence : List Stmt} {alternative : Option (List Stmt)}
    (hs : ∀ s ∈ consequence ++ alternative.getD [], s.value.everywhere Expr.isShaped)
    (hc : Reads condition) (h : ∀ s ∈ consequence ++ alternative.getD [], Reads s.value) :
    Reads (.cond condition consequence alternative) := by
  refine reads_operand rfl fun s rest he ha => ?_
  have hk : s.current.kind = .ifWord := ha.kind
  have hp : Behind (sign .lparen :: _) s := ha.behind
  have hcond := hc.whole (sign .rparen :: _) ⟨rfl, rfl⟩ hp.behind
  rw [operand_eq, current_bind, hk]
  simp only [conditional_eq]
  rw [expect_sign hp, advance_bind]
  refine Goes.congr (hcond.seq (q := (∀ s ∈ consequence, s.value.everywhere Expr.closesRight) ∧
    ∀ s ∈ alternative.getD [], s.value.everywhere Expr.closesRight) fun t ht => ?_) ?_
  · rw [expect_sign ht, expect_sign ht.behind]
    have hb := reads_block (fun s hm => hs s (by simp [hm])) (fun s hm => h s (by simp [hm])) ht.behind
    refine hb.seq fun u hu => ?_
    cases alternative with
    | none =>
      have hne : u.following.kind ≠ .elseWord := by
        rw [hu.kind]
        simpa [Expr.spellElse] using (Bool.and_eq_true_iff.1 he).1
      rw [following_bind, if_neg hne]
      exact (Goes.of_eq hu rfl).congr (by simp)
    | some block =>
      have hu : Behind ((.elseWord, "else") :: _) u := hu
      have hku : u.following.kind = .elseWord := hu.kind
      have hb' := reads_block (fun s hm => hs s (by simp [hm])) (fun s hm => h s (by simp [hm])) hu.behind
      rw [following_bind, hku, if_pos rfl, advance_bind, expect_sign hu.behind]
      exact (hb'.built _).congr (by simp)
  · simp [Expr.everywhere_iff (e := .cond condition consequence alternative), Expr.closesRight, Expr.children, or_imp,
      forall_and]

theorem reads_primitive {kind : Primitive} {args : List Expr} {body : Option (List Stmt)}
    (hk : kind.acceptsBody || body.isNone) (hs : ∀ e ∈ args, e.everywhere Expr.isShaped)
    (hs' : ∀ s ∈ body.getD [], s.value.everywhere Expr.isShaped) (h : ∀ e ∈ args, Reads e)
    (h' : ∀ s ∈ body.getD [], Reads s.value) : Reads (.primitive kind args body) := by
  refine reads_operand rfl fun s rest he ha => ?_
  have hks : s.current.kind = .primitive kind := ha.kind
  have hp : Behind (sign .lparen :: _) s := ha.behind
  have hkp : s.following.kind = .lparen := hp.kind
  have hi := reads_each .rparen ⟨rfl, rfl⟩ nofun rfl hs h hp.behind
  have hgood : (Expr.primitive kind args body).everywhere Expr.closesRight ↔
      (∀ e ∈ args, e.everywhere Expr.closesRight) ∧ ∀ s ∈ body.getD [], s.value.everywhere Expr.closesRight := by
    simp [Expr.everywhere_iff (e := .primitive kind args body), Expr.closesRight, Expr.children, or_imp, forall_and]
  rw [operand_eq, current_bind, hks]
  simp only [primitive_eq]
  rw [following_bind, hkp, if_neg (by decide)]
  refine Goes.congr ?_ hgood
  by_cases hacc : kind.acceptsBody
  · rw [if_pos hacc, bind_assoc, following_bind, hkp, if_pos rfl]
    simp only [bind_assoc]
    rw [advance_bind]
    refine hi.seq fun t ht => ?_
    cases body with
    | none =>
      have hne : t.following.kind ≠ .lbrace := by
        rw [ht.kind]
        simpa [Expr.spellBody] using (Bool.and_eq_true_iff.1 he).2
      rw [following_bind, if_neg hne]
      exact (Goes.of_eq ht rfl).congr (by simp)
    | some block =>
      have hkt : t.following.kind = .lbrace := ht.kind
      have hb := reads_block hs' h' ht
      rw [following_bind, hkt, if_pos rfl, advance_bind]
      exact hb.built _
  · have hbody : body = none := by simpa [hacc] using hk
    subst hbody
    rw [if_neg hacc, expect_sign hp]
    exact (hi.built _).congr (by simp)

end operands

-- Reading the words of a tree that the parser could have built.
theorem reads (e : Expr) (hs : e.everywhere Expr.isShaped) (hw : e.everywhere Expr.isWritable) : Reads e := by
  induction e using Expr.induction_children with
  | step e ih =>
    obtain ⟨hes, hcs⟩ := Expr.everywhere_iff.1 hs
    obtain ⟨hew, hcw⟩ := Expr.everywhere_iff.1 hw
    replace ih : ∀ c ∈ e.children, Reads c := fun c hc => ih c hc (hcs c hc) (hcw c hc)
    have part {c : Expr} (hc : c ∈ e.children) : c.everywhere Expr.isShaped ∧ Reads c := ⟨hcs c hc, ih c hc⟩
    clear hcw hs hw hcs ih
    cases e with
    | ident name => exact reads_word rfl rfl rfl (fun _ => rfl) fun _ _ => operand_ident
    | int value =>
      exact reads_word rfl rfl rfl (fun _ => rfl) fun _ _ => operand_int (by simpa [Expr.isShaped] using hes)
    | float value =>
      simp only [Expr.isShaped, Expr.isWritable, Bool.and_eq_true, Bool.not_eq_eq_eq_not, Bool.not_true] at hes hew
      refine reads_word rfl rfl rfl (fun _ => rfl) fun rest s ha => ?_
      have hf := Number.ofText?_literal ⟨hes.1, hew, hes.2⟩
      rw [operand_eq, current_bind, ha.kind]
      simp only [firstKind_cons, floatLiteral, ha.literal, hf]
      rfl
    | string text =>
      refine reads_word rfl rfl rfl (fun _ => rfl) fun rest s ha => ?_
      rw [operand_eq, current_bind, ha.kind, ha.literal]
      rfl
    | bool value =>
      refine reads_word rfl rfl rfl (fun _ => rfl) fun rest s ha => ?_
      rw [operand_eq, current_bind, ha.kind]
      cases value <;> rfl
    | undef =>
      refine reads_word rfl rfl rfl (fun _ => rfl) fun rest s ha => ?_
      rw [operand_eq, current_bind, ha.kind]
      rfl
    | unary op right =>
      obtain ⟨hr, ir⟩ := part (c := right) (by simp [Expr.children])
      exact reads_unary hr ir
    | binary left op right =>
      obtain ⟨-, il⟩ := part (c := left) (by simp [Expr.children])
      obtain ⟨hr, ir⟩ := part (c := right) (by simp [Expr.children])
      exact reads_binary (by simpa [Expr.isShaped] using hes) hr il ir
    | cond condition consequence alternative =>
      have hb (s : Stmt) (hm : s ∈ consequence ++ alternative.getD []) :=
        part (c := s.value) (by simp only [Expr.children, List.mem_cons]; exact .inr (List.mem_map_of_mem hm))
      exact reads_cond (fun s hm => (hb s hm).1) (part (by simp [Expr.children])).2 fun s hm => (hb s hm).2
    | function params body =>
      have hb (s : Stmt) (hm : s ∈ body) := part (c := s.value) (List.mem_map_of_mem hm)
      exact reads_function (fun s hm => (hb s hm).1) fun s hm => (hb s hm).2
    | call callee args =>
      obtain ⟨-, il⟩ := part (c := callee) (by simp [Expr.children])
      have ha (a : Expr) (hm : a ∈ args) := part (c := a) (by simp [Expr.children, hm])
      exact reads_call (by simpa [Expr.isShaped] using hes) (fun a hm => (ha a hm).1) il fun a hm => (ha a hm).2
    | array elements => exact reads_array (fun e hm => (part hm).1) fun e hm => (part hm).2
    | hash pairs =>
      have hp (p : Expr × Expr) (hm : p ∈ pairs) := part (c := p.1) (List.mem_flatMap.2 ⟨p, hm, by simp⟩)
      have hp' (p : Expr × Expr) (hm : p ∈ pairs) := part (c := p.2) (List.mem_flatMap.2 ⟨p, hm, by simp⟩)
      exact reads_hash (fun p hm => (hp p hm).1) fun p hm => ⟨(hp p hm).2, (hp' p hm).2⟩
    | index left key =>
      obtain ⟨-, il⟩ := part (c := left) (by simp [Expr.children])
      obtain ⟨-, ik⟩ := part (c := key) (by simp [Expr.children])
      exact reads_index (by simpa [Expr.isShaped] using hes) il ik
    | named name value => exact reads_named hes (part (by simp [Expr.children])).2
    | primitive kind args body =>
      simp only [Expr.isShaped, Bool.and_eq_true] at hes
      have ha (a : Expr) (hm : a ∈ args) := part (c := a) (by simp [Expr.children, hm])
      have hb (s : Stmt) (hm : s ∈ body.getD []) :=
        part (c := s.value) (by simp only [Expr.children, List.mem_append]; exact .inr (List.mem_map_of_mem hm))
      exact reads_primitive hes.1 (fun a hm => (ha a hm).1) (fun s hm => (hb s hm).1) (fun a hm => (ha a hm).2)
        fun s hm => (hb s hm).2

end Unbounded

end Parser

namespace Program

variable {program : Program}

theorem goes_statements (hs : program.isShaped) (hw : program.isWritable) :
    Parser.Goes (∀ s ∈ program, s.value.everywhere Expr.closesRight) (Parser.At [])
      (Pure.pure (Expr.rereadBlock program))
      (Parser.Unbounded.statements .eof (Parser.State.ofTokens (Token.tokenize program.print))) := by
  have ha := Parser.at_ofTokens program.print
  rw [words_print hs hw] at ha
  simp only [isShaped, isWritable, everywhere, Bool.and_eq_true, List.all_eq_true] at hs hw
  exact Parser.Unbounded.reads_statements hs.2 (fun s hm => Parser.Unbounded.reads _ (hs.2 s hm) (hw s hm)) rfl
    (.inr rfl) ha

-- A tree with an open operand on the right is not read.
theorem parse_print_of_not_closesRight (hs : program.isShaped) (hw : program.isWritable)
    (h : ¬ program.everywhere Expr.closesRight) : (parse program.print).errors ≠ [] := by
  have hg := (goes_statements hs hw).2 (by simpa [everywhere] using h)
  have hne := Parser.statements_ne_exhausted (Parser.at_ofTokens program.print).eof .eof
  rw [Parser.parse_eq]
  cases ho : Parser.Unbounded.statements .eof (Parser.State.ofTokens (Token.tokenize program.print)) with
  | done result state => exact hg result state ho
  | failed error state => simp
  | exhausted => exact absurd ho hne

-- What the others read as.
theorem parse_print_of_closesRight (hs : program.isShaped) (hw : program.isWritable)
    (h : program.everywhere Expr.closesRight) : parse program.print = ⟨Expr.rereadBlock program, []⟩ := by
  obtain ⟨t, ht, ho⟩ := (goes_statements hs hw).1 (by simpa [everywhere] using h)
  rw [Parser.parse_eq, ho]
  simp [ht.errors]

theorem rereadBlock_eq_self_iff (h : program.everywhere Expr.closesRight) :
    Expr.rereadBlock program = program ↔ program.everywhere Expr.closesLeft := by
  simp only [everywhere, List.all_eq_true] at h ⊢
  rw [Expr.rereadBlock_eq_iff]
  exact forall₂_congr fun s hm => Expr.reread_eq_iff (h s hm)

-- The printer and the parser agree on a tree exactly if its operands end where the printer ends them.
theorem parse_print_iff (hs : program.isShaped) (hw : program.isWritable) :
    parse program.print = ⟨program, []⟩ ↔ program.readsBack := by
  rw [readsBack, Bool.and_eq_true]
  by_cases hr : program.everywhere Expr.closesRight
  · rw [parse_print_of_closesRight hs hw hr, ← rereadBlock_eq_self_iff hr]
    simp [hr]
  · constructor
    · intro h
      exact absurd (congrArg Parsed.errors h) (parse_print_of_not_closesRight hs hw hr)
    · exact fun h => absurd h.1 hr

end Program

namespace Program

theorem parse_print_of_isWellFormed (program : Program) (h : program.isWellFormed) :
    parse program.print = ⟨program, []⟩ := by
  simp only [isWellFormed, Bool.and_eq_true] at h
  obtain ⟨⟨hs, hw⟩, hk⟩ := h
  exact (parse_print_iff hs hw).2 (readsBack_of_keepsNamed hk)

theorem parse_print_nested :
    let program : Program :=
      [.bind "f" (.function ["x", "y"]
          [.ret (.binary (.ident "x") .subtract (.unary .negate (.binary (.ident "y") .add (.float 2.5))))]),
        .expr (.cond (.binary (.int 1) .lessThan (.index (.array [.int 1, .undef]) (.int 0)))
          [.expr (.call (.ident "f") [.named "color" (.hash [(.string "a", .bool true)])])] (some [])),
        .expr (.primitive .difference [.named "center" (.bool false)]
          (some [.expr (.primitive .cube [.float 1e-7] none), .expr (.primitive .union [] (some []))]))]
    program.isWellFormed ∧ parse program.print = ⟨program, []⟩ :=
  ⟨by decide +kernel, parse_print_of_isWellFormed _ (by decide +kernel)⟩

-- What the parser builds can be read back if and only if no named argument stands where its value would be read on, or
-- behind an operator.
theorem parse_print_parse_iff (source : String) (h : (parse source).program.isWritable) :
    parse (parse source).program.print = ⟨(parse source).program, []⟩ ↔ (parse source).program.readsBack :=
  parse_print_iff (isShaped_parse source) h

theorem parse_print_parse_grouped :
    parse (parse "(1 + 2) * f(a = 3);").program.print = ⟨(parse "(1 + 2) * f(a = 3);").program, []⟩ ∧
      parse (parse "(a = 1) + 2").program.print ≠ ⟨(parse "(a = 1) + 2").program, []⟩ :=
  ⟨(parse_print_parse_iff _ (by decide +kernel)).2 (by decide +kernel),
    mt (parse_print_parse_iff _ (by decide +kernel)).1 (by decide +kernel)⟩

end Program

end SolidScript
